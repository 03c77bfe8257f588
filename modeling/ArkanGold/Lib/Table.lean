import Mathlib

/-!
# Keyed tables

A table of a database as a list of rows in order of insertion. The structure
carries the primary key constraint and the key sequence, so a table with two
rows of one key cannot be built, and every operation proves that it keeps them.

- `find?`, `update`, `updateWhere`, `deleteWhere`, `create`: the statements a
  client library issues (`findUnique`, `update`, `updateMany`, `deleteMany`,
  `create`), with one lemma per statement about what a later lookup sees; `insert`
  is `create` under a key that was drawn elsewhere.
- `sum`: totals over a column, with the effect of each statement on them. These
  are the lemmas that conservation arguments use.
-/

namespace ArkanGold

/-- A table with primary key `key`; `next` is the next value of its sequence. -/
structure Table (ρ : Type) (key : ρ → ℕ) where
  rows : List ρ
  next : ℕ
  nodup : (rows.map key).Nodup
  lt_next : ∀ r ∈ rows, key r < next

namespace Table

variable {ρ : Type} {key : ρ → ℕ} {M : Type} [AddCommGroup M]

/-- The table without rows. -/
def empty : Table ρ key := ⟨[], 0, List.nodup_nil, by simp⟩

/-- The row with the key `k`. -/
def find? (t : Table ρ key) (k : ℕ) : Option ρ := t.rows.find? fun r => key r == k

/-- Rewrite every row that satisfies `p`; the key may not change. -/
def updateWhere (t : Table ρ key) (p : ρ → Bool) (f : ρ → ρ)
    (hf : ∀ r, key (f r) = key r := by intro _; rfl) : Table ρ key where
  rows := t.rows.map fun r => if p r then f r else r
  next := t.next
  nodup := by
    have : (t.rows.map fun r => if p r then f r else r).map key = t.rows.map key := by
      rw [List.map_map]
      refine List.map_congr_left fun r _ => ?_
      simp only [Function.comp_apply]
      split <;> simp [hf]
    rw [this]
    exact t.nodup
  lt_next := by
    intro r hr
    obtain ⟨r₀, hr₀, rfl⟩ := List.mem_map.mp hr
    have := t.lt_next r₀ hr₀
    split <;> simpa [hf] using this

/-- Rewrite the row with the key `k`. -/
def update (t : Table ρ key) (k : ℕ) (f : ρ → ρ)
    (hf : ∀ r, key (f r) = key r := by intro _; rfl) : Table ρ key :=
  t.updateWhere (fun r => key r == k) f hf

/-- Drop the rows that satisfy `p`. -/
def deleteWhere (t : Table ρ key) (p : ρ → Bool) : Table ρ key where
  rows := t.rows.filter fun r => !p r
  next := t.next
  nodup := t.nodup.sublist (List.filter_sublist.map key)
  lt_next r hr := t.lt_next r (List.mem_of_mem_filter hr)

/-- Append a row under the next key. -/
def create (t : Table ρ key) (mk : ℕ → ρ)
    (hmk : ∀ n, key (mk n) = n := by intro _; rfl) : Table ρ key where
  rows := t.rows ++ [mk t.next]
  next := t.next + 1
  nodup := by
    rw [List.map_append, List.map_singleton, hmk]
    refine List.nodup_append.mpr ⟨t.nodup, List.nodup_singleton _, ?_⟩
    intro a ha b hb
    obtain ⟨r, hr, rfl⟩ := List.mem_map.mp ha
    rw [List.mem_singleton] at hb
    subst hb
    exact (t.lt_next r hr).ne
  lt_next := by
    intro r hr
    rcases List.mem_append.mp hr with h | h
    · exact (t.lt_next r h).trans (Nat.lt_succ_self _)
    · rw [List.mem_singleton] at h
      rw [h, hmk]
      exact Nat.lt_succ_self _

/-- Append a row under its own key, which has to be new. -/
def insert (t : Table ρ key) (r : ρ) : Table ρ key :=
  if h : t.find? (key r) = none then
    { rows := t.rows ++ [r]
      next := max t.next (key r + 1)
      nodup := by
        rw [List.map_append, List.map_singleton]
        refine List.nodup_append.mpr ⟨t.nodup, List.nodup_singleton _, ?_⟩
        intro a ha b hb
        obtain ⟨r', hr', rfl⟩ := List.mem_map.mp ha
        rw [List.mem_singleton] at hb
        subst hb
        have hnone := List.find?_eq_none.mp h r' hr'
        simpa using hnone
      lt_next := by
        intro r' hr'
        rcases List.mem_append.mp hr' with hr' | hr'
        · exact lt_of_lt_of_le (t.lt_next r' hr') (le_max_left _ _)
        · rw [List.mem_singleton] at hr'
          subst hr'
          exact lt_of_lt_of_le (Nat.lt_succ_self _) (le_max_right _ _) }
  else t

/-- The total of a column. -/
def sum (t : Table ρ key) (g : ρ → M) : M := (t.rows.map g).sum

/-! ## Lookups -/

theorem find?_eq_some {t : Table ρ key} {k : ℕ} {r : ρ} :
    t.find? k = some r ↔ r ∈ t.rows ∧ key r = k := by
  constructor
  · intro h
    exact ⟨List.mem_of_find?_eq_some h, by simpa using List.find?_some h⟩
  · rintro ⟨hmem, rfl⟩
    obtain ⟨r', hr'⟩ : ∃ r', t.find? (key r) = some r' := by
      rw [← Option.isSome_iff_exists, find?, List.find?_isSome]
      exact ⟨r, hmem, by simp⟩
    have hm' : r' ∈ t.rows := List.mem_of_find?_eq_some hr'
    have hk' : key r' = key r := by simpa using List.find?_some hr'
    rw [hr', List.inj_on_of_nodup_map t.nodup hm' hmem hk']

theorem mem_of_find? {t : Table ρ key} {k : ℕ} {r : ρ} (h : t.find? k = some r) :
    r ∈ t.rows := (find?_eq_some.mp h).1

theorem key_of_find? {t : Table ρ key} {k : ℕ} {r : ρ} (h : t.find? k = some r) :
    key r = k := (find?_eq_some.mp h).2

theorem find?_of_mem {t : Table ρ key} {r : ρ} (h : r ∈ t.rows) :
    t.find? (key r) = some r := find?_eq_some.mpr ⟨h, rfl⟩

theorem find?_eq_none {t : Table ρ key} {k : ℕ} :
    t.find? k = none ↔ ∀ r ∈ t.rows, key r ≠ k := by
  simp [find?]

theorem find?_ge_next {t : Table ρ key} {k : ℕ} (h : t.next ≤ k) : t.find? k = none :=
  find?_eq_none.mpr fun r hr => ((t.lt_next r hr).trans_le h).ne

theorem find?_updateWhere (t : Table ρ key) (p : ρ → Bool) (f : ρ → ρ)
    (hf : ∀ r, key (f r) = key r) (k : ℕ) :
    (t.updateWhere p f hf).find? k = (t.find? k).map fun r => if p r then f r else r := by
  have hkey : ((fun r => key r == k) ∘ fun r => if p r then f r else r)
      = fun r => key r == k := by
    funext r
    simp only [Function.comp_apply]
    split <;> simp [hf]
  simp only [find?, updateWhere, List.find?_map, hkey]

@[simp] theorem find?_update_self (t : Table ρ key) (k : ℕ) (f : ρ → ρ)
    (hf : ∀ r, key (f r) = key r) : (t.update k f hf).find? k = (t.find? k).map f := by
  rw [update, find?_updateWhere]
  cases h : t.find? k with
  | none => rfl
  | some r => simp [key_of_find? h]

theorem find?_update_of_ne (t : Table ρ key) {k k' : ℕ} (hk : k' ≠ k) (f : ρ → ρ)
    (hf : ∀ r, key (f r) = key r) : (t.update k f hf).find? k' = t.find? k' := by
  rw [update, find?_updateWhere]
  cases h : t.find? k' with
  | none => rfl
  | some r => simp [key_of_find? h, hk]

theorem find?_create_self (t : Table ρ key) (mk : ℕ → ρ) (hmk : ∀ n, key (mk n) = n) :
    (t.create mk hmk).find? t.next = some (mk t.next) :=
  find?_eq_some.mpr ⟨List.mem_append_right _ (List.mem_singleton_self _), hmk _⟩

theorem find?_create_of_ne (t : Table ρ key) (mk : ℕ → ρ) (hmk : ∀ n, key (mk n) = n)
    {k : ℕ} (hk : k ≠ t.next) : (t.create mk hmk).find? k = t.find? k := by
  have hlast : (key (mk t.next) == k) = false := by
    rw [hmk, beq_eq_false_iff_ne]
    exact hk.symm
  simp only [find?, create, List.find?_append, List.find?_singleton, hlast]
  cases t.rows.find? _ <;> rfl

theorem find?_deleteWhere (t : Table ρ key) (p : ρ → Bool) (k : ℕ) :
    (t.deleteWhere p).find? k = (t.find? k).filter fun r => !p r := by
  cases h : t.find? k with
  | none =>
    refine find?_eq_none.mpr fun r hr => ?_
    exact find?_eq_none.mp h r (List.mem_of_mem_filter hr)
  | some r =>
    obtain ⟨hr, rfl⟩ := find?_eq_some.mp h
    by_cases hp : p r
    · rw [Option.filter_some, if_neg (by simp [hp])]
      refine find?_eq_none.mpr fun r' hr' hkey => ?_
      obtain ⟨hmem, hp'⟩ := List.mem_filter.mp hr'
      rw [List.inj_on_of_nodup_map t.nodup hmem hr hkey] at hp'
      simp [hp] at hp'
    · rw [Option.filter_some, if_pos (by simp [hp])]
      exact find?_eq_some.mpr ⟨List.mem_filter.mpr ⟨hr, by simp [hp]⟩, rfl⟩

@[ext] theorem ext {t t' : Table ρ key} (hrows : t.rows = t'.rows) (hnext : t.next = t'.next) :
    t = t' := by
  cases t
  cases t'
  cases hrows
  cases hnext
  rfl

theorem rows_insert {t : Table ρ key} {r : ρ} (h : t.find? (key r) = none) :
    (t.insert r).rows = t.rows ++ [r] := by
  rw [insert, dif_pos h]

theorem find?_insert_self {t : Table ρ key} {r : ρ} (h : t.find? (key r) = none) :
    (t.insert r).find? (key r) = some r := by
  refine find?_eq_some.mpr ⟨?_, rfl⟩
  rw [rows_insert h]
  exact List.mem_append_right _ (List.mem_singleton_self _)

theorem find?_insert_of_ne (t : Table ρ key) {r : ρ} {k : ℕ} (hk : k ≠ key r) :
    (t.insert r).find? k = t.find? k := by
  unfold insert
  split
  · have hlast : (key r == k) = false := by
      rw [beq_eq_false_iff_ne]
      exact hk.symm
    simp only [find?, List.find?_append, List.find?_singleton, hlast]
    cases t.rows.find? _ <;> rfl
  · rfl

theorem filter_insert {t : Table ρ key} {r : ρ} (h : t.find? (key r) = none) (p : ρ → Bool) :
    (t.insert r).rows.filter p = t.rows.filter p ++ if p r = true then [r] else [] := by
  rw [rows_insert h, List.filter_append]
  congr 1
  split
  · rename_i hp
    simp [hp]
  · rename_i hp
    simp [hp]

theorem mem_insert {t : Table ρ key} {r r' : ρ} (h : r' ∈ (t.insert r).rows) :
    r' ∈ t.rows ∨ r' = r := by
  unfold insert at h
  split at h
  · simpa using h
  · exact .inl h

theorem mem_insert_of_mem {t : Table ρ key} {r r' : ρ} (h : r' ∈ t.rows) :
    r' ∈ (t.insert r).rows := by
  unfold insert
  split
  · exact List.mem_append_left _ h
  · exact h

/-- Rows chosen by their keys are the rows chosen by the condition itself. -/
theorem keys_contains_iff {t : Table ρ key} {p : ρ → Bool} {r : ρ} (hr : r ∈ t.rows) :
    ((t.rows.filter p).map key).contains (key r) = p r := by
  rw [Bool.eq_iff_iff, List.contains_iff_mem, List.mem_map]
  constructor
  · rintro ⟨r', hr', hkey⟩
    obtain ⟨hmem, hp⟩ := List.mem_filter.mp hr'
    rwa [← List.inj_on_of_nodup_map t.nodup hmem hr hkey]
  · exact fun hp => ⟨r, List.mem_filter.mpr ⟨hr, hp⟩, rfl⟩

theorem deleteWhere_congr {t : Table ρ key} {p q : ρ → Bool} (h : ∀ r ∈ t.rows, p r = q r) :
    t.deleteWhere p = t.deleteWhere q := by
  refine Table.ext ?_ rfl
  exact List.filter_congr fun r hr => by rw [h r hr]

theorem updateWhere_congr {t : Table ρ key} {p q : ρ → Bool} {f : ρ → ρ}
    (hf : ∀ r, key (f r) = key r) (h : ∀ r ∈ t.rows, p r = q r) :
    t.updateWhere p f hf = t.updateWhere q f hf := by
  refine Table.ext ?_ rfl
  exact List.map_congr_left fun r hr => by rw [h r hr]

theorem mem_create {t : Table ρ key} {mk : ℕ → ρ} {hmk : ∀ n, key (mk n) = n} {r : ρ} :
    r ∈ (t.create mk hmk).rows ↔ r ∈ t.rows ∨ r = mk t.next := by
  simp [create]

theorem mem_updateWhere {t : Table ρ key} {p : ρ → Bool} {f : ρ → ρ}
    {hf : ∀ r, key (f r) = key r} {r : ρ} :
    r ∈ (t.updateWhere p f hf).rows ↔ ∃ r₀ ∈ t.rows, (if p r₀ then f r₀ else r₀) = r :=
  List.mem_map

theorem mem_update {t : Table ρ key} {k : ℕ} {f : ρ → ρ} {hf : ∀ r, key (f r) = key r}
    {r : ρ} : r ∈ (t.update k f hf).rows ↔
      ∃ r₀ ∈ t.rows, (if key r₀ = k then f r₀ else r₀) = r := by
  simp only [update, mem_updateWhere, beq_iff_eq]

/-- The rows that satisfy `q` when the rows updated do not. -/
theorem filter_updateWhere (t : Table ρ key) {p q : ρ → Bool} {f : ρ → ρ}
    {hf : ∀ r, key (f r) = key r} (hq : ∀ r ∈ t.rows, p r = true → q (f r) = false) :
    (t.updateWhere p f hf).rows.filter q = t.rows.filter fun r => q r && !p r := by
  show (t.rows.map fun r => if p r then f r else r).filter q = _
  generalize t.rows = l at hq ⊢
  induction l with
  | nil => rfl
  | cons r l ih =>
    have ih := ih fun r hr => hq r (List.mem_cons_of_mem _ hr)
    rw [List.map_cons]
    cases hp : p r with
    | false => simp only [hp, Bool.false_eq_true, if_false, List.filter_cons, ih, Bool.not_false,
        Bool.and_true]
    | true => simp only [hp, if_true, List.filter_cons, hq r (List.mem_cons_self ..) hp,
        Bool.false_eq_true, if_false, ih, Bool.not_true, Bool.and_false]

theorem mem_deleteWhere {t : Table ρ key} {p : ρ → Bool} {r : ρ} :
    r ∈ (t.deleteWhere p).rows ↔ r ∈ t.rows ∧ p r = false := by
  simp [deleteWhere]

/-! ## Totals -/

/-- A total over the rows that satisfy `p`. -/
theorem sum_map_filter {α N : Type} [AddCommMonoid N] (p : α → Bool) (g : α → N) (l : List α) :
    ((l.filter p).map g).sum = (l.map fun a => if p a then g a else 0).sum := by
  induction l with
  | nil => rfl
  | cons a l ih =>
    rw [List.filter_cons, List.map_cons, List.sum_cons, ← ih]
    split <;> simp

/-- Among rows with distinct keys, a total restricted to one key is one row's. -/
theorem sum_map_ite_key {α κ : Type} [DecidableEq κ] (f : α → κ) (g : α → M) {l : List α}
    (hnodup : (l.map f).Nodup) {a : α} (ha : a ∈ l) :
    (l.map fun b => if f b = f a then g b else 0).sum = g a := by
  induction l with
  | nil => cases ha
  | cons b l ih =>
    rw [List.map_cons, List.nodup_cons] at hnodup
    rw [List.map_cons, List.sum_cons]
    rcases List.mem_cons.mp ha with rfl | hmem
    · have hrest : (l.map fun b => if f b = f a then g b else 0) = l.map fun _ => 0 := by
        refine List.map_congr_left fun b hb => if_neg fun heq => ?_
        exact hnodup.1 (heq ▸ List.mem_map_of_mem hb)
      rw [if_pos rfl, hrest, List.map_const', List.sum_replicate, smul_zero, add_zero]
    · have hne : f b ≠ f a := fun heq => hnodup.1 (heq ▸ List.mem_map_of_mem hmem)
      rw [if_neg hne, zero_add, ih hnodup.2 hmem]

@[simp] theorem sum_empty (g : ρ → M) : (empty : Table ρ key).sum g = 0 := rfl

@[simp] theorem sum_create (t : Table ρ key) (mk : ℕ → ρ) (hmk : ∀ n, key (mk n) = n)
    (g : ρ → M) : (t.create mk hmk).sum g = t.sum g + g (mk t.next) := by
  simp [sum, create]

theorem sum_insert {t : Table ρ key} {r : ρ} (h : t.find? (key r) = none) (g : ρ → M) :
    (t.insert r).sum g = t.sum g + g r := by
  simp [sum, rows_insert h]

/-- A statement that keeps the column keeps its total. -/
theorem sum_updateWhere_of_eq (t : Table ρ key) (p : ρ → Bool) (f : ρ → ρ)
    (hf : ∀ r, key (f r) = key r) (g : ρ → M)
    (hg : ∀ r ∈ t.rows, p r = true → g (f r) = g r) :
    (t.updateWhere p f hf).sum g = t.sum g := by
  simp only [sum, updateWhere, List.map_map]
  congr 1
  refine List.map_congr_left fun r hr => ?_
  simp only [Function.comp_apply]
  split
  · rename_i hp
    exact hg r hr hp
  · rfl

/-- Updating one row moves the total by what that row moves. -/
theorem sum_update (t : Table ρ key) {k : ℕ} {r : ρ} (h : t.find? k = some r) (f : ρ → ρ)
    (hf : ∀ r, key (f r) = key r) (g : ρ → M) :
    (t.update k f hf).sum g = t.sum g - g r + g (f r) := by
  obtain ⟨hmem, rfl⟩ := find?_eq_some.mp h
  have hnd := t.nodup
  simp only [sum, update, updateWhere, List.map_map]
  obtain ⟨l₁, l₂, hl⟩ := List.append_of_mem hmem
  rw [hl, List.map_append, List.map_cons, List.nodup_append] at hnd
  have hrest : ∀ l : List ρ, (∀ r' ∈ l, key r' ≠ key r) →
      l.map (g ∘ fun r' => if key r' == key r then f r' else r') = l.map g := by
    intro l hl'
    refine List.map_congr_left fun r' hr' => ?_
    simp [hl' r' hr']
  have h₁ : ∀ r' ∈ l₁, key r' ≠ key r := fun r' hr' =>
    hnd.2.2 _ (List.mem_map_of_mem hr') _ List.mem_cons_self
  have h₂ : ∀ r' ∈ l₂, key r' ≠ key r := fun r' hr' heq =>
    (List.nodup_cons.mp hnd.2.1).1 (heq ▸ List.mem_map_of_mem hr')
  rw [hl]
  simp only [List.map_append, List.map_cons, hrest l₁ h₁, hrest l₂ h₂, List.sum_append,
    List.sum_cons, Function.comp_apply, beq_self_eq_true, if_true]
  abel

/-- Updating a row that does not exist changes nothing. -/
theorem update_rows_of_none (t : Table ρ key) {k : ℕ} (h : t.find? k = none) (f : ρ → ρ)
    (hf : ∀ r, key (f r) = key r) : (t.update k f hf).rows = t.rows := by
  have hne := find?_eq_none.mp h
  simp only [update, updateWhere]
  conv_rhs => rw [← List.map_id t.rows]
  refine List.map_congr_left fun r hr => ?_
  simp [hne r hr]

/-- Deleting rows lowers the total by what they held. -/
theorem sum_deleteWhere (t : Table ρ key) (p : ρ → Bool) (g : ρ → M) :
    (t.deleteWhere p).sum g = t.sum g - t.sum fun r => if p r then g r else 0 := by
  simp only [sum, deleteWhere]
  induction t.rows with
  | nil => simp
  | cons r l ih =>
    cases hp : p r with
    | false =>
      simp only [List.filter_cons, hp, Bool.not_false, if_true, List.map_cons,
        List.sum_cons, ih, Bool.false_eq_true, if_false]
      abel
    | true =>
      simp only [List.filter_cons, hp, Bool.not_true, Bool.false_eq_true, if_false,
        List.map_cons, List.sum_cons, ih, if_true]
      abel

end Table

end ArkanGold
