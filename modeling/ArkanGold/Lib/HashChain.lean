import Mathlib

/-!
# Hash chains

Records that name the hash of the record before them. `Linked g l h`: the records `l`
lead from the hash `g` to the hash `h`.

A chain is fixed by its last hash, as long as no two records in question share a hash
(`Linked.unique`), and no two of its records name the same predecessor
(`Linked.nodup_prev`).
-/

namespace ArkanGold

namespace HashChain

variable {ρ η : Type} (prev hash : ρ → η)

/-- The records lead from `g` to `h`. -/
def Linked : η → List ρ → η → Prop
  | g, [], h => g = h
  | g, r :: rs, h => prev r = g ∧ Linked (hash r) rs h

variable {prev hash} {g h : η} {l l' : List ρ} {r : ρ}

theorem linked_append : Linked prev hash g (l ++ l') h ↔
    ∃ m, Linked prev hash g l m ∧ Linked prev hash m l' h := by
  induction l generalizing g with
  | nil => simp [Linked]
  | cons r rs ih => simp [Linked, ih, and_assoc]

theorem linked_snoc : Linked prev hash g (l ++ [r]) h ↔
    Linked prev hash g l (prev r) ∧ hash r = h := by
  rw [linked_append]
  constructor
  · rintro ⟨m, hl, rfl, hh⟩
    exact ⟨hl, hh⟩
  · rintro ⟨hl, hh⟩
    exact ⟨prev r, hl, rfl, hh⟩

/-- What holds of the beginning and of every hash holds of every hash that is named. -/
theorem Linked.forall_prev {p : η → Prop} (hl : Linked prev hash g l h) (hg : p g)
    (hh : ∀ r ∈ l, p (hash r)) : ∀ r ∈ l, p (prev r) := by
  induction l generalizing g with
  | nil => simp
  | cons r rs ih =>
    intro r' hr'
    rcases List.mem_cons.mp hr' with rfl | hr'
    · exact hl.1 ▸ hg
    · exact ih hl.2 (hh r (List.mem_cons_self ..)) (fun x hx => hh x (List.mem_cons_of_mem _ hx))
        r' hr'

/-- The last hash is that of the last record. -/
theorem Linked.last_mem (hl : Linked prev hash g l h) (hne : l ≠ []) : ∃ r ∈ l, hash r = h := by
  induction l using List.reverseRecOn with
  | nil => exact absurd rfl hne
  | append_singleton l r =>
    exact ⟨r, List.mem_append_right _ (List.mem_singleton_self _), (linked_snoc.mp hl).2⟩

/-- A record names the beginning of the chain or one of the records before the last. -/
theorem Linked.pred (hl : Linked prev hash g (l ++ [r]) h) {r' : ρ} (hr' : r' ∈ l ++ [r]) :
    prev r' = g ∨ ∃ q ∈ l, prev r' = hash q := by
  induction l generalizing g with
  | nil =>
    rw [List.nil_append, List.mem_singleton] at hr'
    subst hr'
    exact .inl hl.1
  | cons q rs ih =>
    rcases List.mem_cons.mp hr' with rfl | hr'
    · exact .inl hl.1
    · rcases ih hl.2 hr' with heq | ⟨q', hq', heq⟩
      · exact .inr ⟨q, List.mem_cons_self .., heq⟩
      · exact .inr ⟨q', List.mem_cons_of_mem _ hq', heq⟩

/-- No record names the last one. -/
theorem Linked.prev_ne (hl : Linked prev hash g l h) (hne : l ≠ [])
    (hfresh : ∀ r ∈ l, hash r ≠ g)
    (hinj : ∀ r ∈ l, ∀ r' ∈ l, hash r = hash r' → prev r = prev r') :
    ∀ r ∈ l, prev r ≠ h := by
  induction l using List.reverseRecOn generalizing h with
  | nil => exact absurd rfl hne
  | append_singleton l r ih =>
    have hmem : r ∈ l ++ [r] := List.mem_append_right _ (List.mem_singleton_self _)
    obtain ⟨hinit, hh⟩ := linked_snoc.mp hl
    intro r' hr' hprev
    rcases hl.pred hr' with hg | ⟨q, hq, heq⟩
    · exact hfresh r hmem (by rw [hh, ← hprev, hg])
    · -- the predecessor of `r'` has the hash of `r`, so both name the same record
      have hq' : q ∈ l ++ [r] := List.mem_append_left _ hq
      have hsame : prev r = prev q := hinj r hmem q hq' (by rw [hh, ← hprev, heq])
      exact ih hinit (List.ne_nil_of_mem hq)
        (fun x hx => hfresh x (List.mem_append_left _ hx))
        (fun x hx y hy => hinj x (List.mem_append_left _ hx) y (List.mem_append_left _ hy))
        q hq hsame.symm

theorem Linked.nodup_prev (hl : Linked prev hash g l h) (hfresh : ∀ r ∈ l, hash r ≠ g)
    (hinj : ∀ r ∈ l, ∀ r' ∈ l, hash r = hash r' → prev r = prev r') :
    (l.map prev).Nodup := by
  induction l using List.reverseRecOn generalizing h with
  | nil => exact List.nodup_nil
  | append_singleton l r ih =>
    obtain ⟨hinit, -⟩ := linked_snoc.mp hl
    have hfresh' : ∀ x ∈ l, hash x ≠ g := fun x hx => hfresh x (List.mem_append_left _ hx)
    have hinj' : ∀ x ∈ l, ∀ y ∈ l, hash x = hash y → prev x = prev y := fun x hx y hy =>
      hinj x (List.mem_append_left _ hx) y (List.mem_append_left _ hy)
    rw [List.map_append, List.map_singleton, List.nodup_append]
    refine ⟨ih hinit hfresh' hinj', List.nodup_singleton _, ?_⟩
    rintro p hp q hq rfl
    rw [List.mem_singleton] at hq
    obtain ⟨x, hx, rfl⟩ := List.mem_map.mp hp
    exact hinit.prev_ne (List.ne_nil_of_mem hx) hfresh' hinj' x hx hq

/-- Two chains with the same ends agree record by record, if records with one hash do. -/
theorem Linked.unique {same : ρ → ρ → Prop} (hl : Linked prev hash g l h)
    (hl' : Linked prev hash g l' h) (hfresh : ∀ r ∈ l, hash r ≠ g)
    (hfresh' : ∀ r ∈ l', hash r ≠ g)
    (hinj : ∀ r ∈ l, ∀ r' ∈ l', hash r = hash r' → same r r' ∧ prev r = prev r') :
    List.Forall₂ same l l' := by
  induction l using List.reverseRecOn generalizing l' h with
  | nil =>
    cases hl
    induction l' using List.reverseRecOn with
    | nil => exact .nil
    | append_singleton l' r' =>
      exact absurd (linked_snoc.mp hl').2
        (hfresh' r' (List.mem_append_right _ (List.mem_singleton_self _)))
  | append_singleton l r ih =>
    have hmem : r ∈ l ++ [r] := List.mem_append_right _ (List.mem_singleton_self _)
    obtain ⟨hinit, hh⟩ := linked_snoc.mp hl
    induction l' using List.reverseRecOn with
    | nil =>
      cases hl'
      exact absurd hh (hfresh r hmem)
    | append_singleton l' r' =>
      have hmem' : r' ∈ l' ++ [r'] := List.mem_append_right _ (List.mem_singleton_self _)
      obtain ⟨hinit', hh'⟩ := linked_snoc.mp hl'
      obtain ⟨hsame, hprev⟩ := hinj r hmem r' hmem' (by rw [hh, hh'])
      refine List.rel_append (ih hinit (hprev ▸ hinit') ?_ ?_ ?_) (.cons hsame .nil)
      · exact fun x hx => hfresh x (List.mem_append_left _ hx)
      · exact fun x hx => hfresh' x (List.mem_append_left _ hx)
      · exact fun x hx y hy => hinj x (List.mem_append_left _ hx) y (List.mem_append_left _ hy)

end HashChain

end ArkanGold
