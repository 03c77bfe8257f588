import Mathlib

/-!
# Row numbers

`ROW_NUMBER() OVER (ORDER BY key)` as the number of rows up to a row. Over a list of
rows with distinct keys the row numbers are `1, …, n` in some order (`perm_rank`), and
they follow the keys (`rank_lt_rank`).
-/

namespace ArkanGold

namespace Rank

variable {ρ κ : Type} [LinearOrder κ] (key : ρ → κ)

/-- The row number of `r` in `rows`, ordered by `key`. -/
def rank (rows : List ρ) (r : ρ) : ℕ := rows.countP fun x => key x ≤ key r

theorem rank_pos {rows : List ρ} {r : ρ} (h : r ∈ rows) : 1 ≤ rank key rows r :=
  List.countP_pos_iff.mpr ⟨r, h, by simp⟩

theorem rank_le_length (rows : List ρ) (r : ρ) : rank key rows r ≤ rows.length :=
  List.countP_le_length

/-- Row numbers follow the keys. -/
theorem rank_lt_rank {rows : List ρ} {r r' : ρ} (h' : r' ∈ rows) (hlt : key r < key r') :
    rank key rows r < rank key rows r' := by
  unfold rank
  obtain ⟨l₁, l₂, rfl⟩ := List.append_of_mem h'
  have hmono : ∀ l : List ρ, l.countP (fun x => decide (key x ≤ key r)) ≤
      l.countP (fun x => decide (key x ≤ key r')) := fun l =>
    List.countP_mono_left fun x _ hx => by
      simp only [decide_eq_true_eq] at *
      exact hx.trans hlt.le
  have h₁ := hmono l₁
  have h₂ := hmono l₂
  rw [List.countP_append, List.countP_append, List.countP_cons, List.countP_cons,
    if_neg (by simpa using hlt), if_pos (by simp)]
  omega

theorem rank_injOn {rows : List ρ} (hnodup : (rows.map key).Nodup) {r r' : ρ} (h : r ∈ rows)
    (h' : r' ∈ rows) (heq : rank key rows r = rank key rows r') : r = r' := by
  rcases lt_trichotomy (key r) (key r') with hlt | hkey | hgt
  · exact absurd heq (rank_lt_rank key h' hlt).ne
  · exact List.inj_on_of_nodup_map hnodup h h' hkey
  · exact absurd heq (rank_lt_rank key h hgt).ne'

/-- The row numbers are `1, …, n`. -/
theorem perm_rank {rows : List ρ} (hnodup : (rows.map key).Nodup) :
    (rows.map (rank key rows)).Perm (List.range' 1 rows.length) := by
  have hnd : (rows.map (rank key rows)).Nodup := by
    refine List.Nodup.map_on (fun r hr r' hr' h => ?_) (List.Nodup.of_map key hnodup)
    exact rank_injOn key hnodup hr hr' h
  have hsub : (rows.map (rank key rows)) ⊆ List.range' 1 rows.length := by
    intro n hn
    obtain ⟨r, hr, rfl⟩ := List.mem_map.mp hn
    have h₁ := rank_pos key hr
    have h₂ := rank_le_length key rows r
    rw [List.mem_range'_1]
    omega
  refine List.Subperm.perm_of_length_le (List.subperm_of_subset hnd hsub) ?_
  rw [List.length_range', List.length_map]

/-- Numbering on from `n` continues `1, …, n`. -/
theorem perm_append_rank {rows : List ρ} (hnodup : (rows.map key).Nodup) {old : List ℕ} {n : ℕ}
    (hold : old.Perm (List.range' 1 n)) :
    (old ++ rows.map fun r => n + rank key rows r).Perm
      (List.range' 1 (n + rows.length)) := by
  have hnew : (rows.map fun r => n + rank key rows r).Perm
      (List.range' (1 + n) rows.length) := by
    have h := (perm_rank key hnodup).map (n + ·)
    rw [List.map_map] at h
    refine h.trans (List.Perm.of_eq ?_)
    rw [List.range'_eq_map_range, List.range'_eq_map_range, List.map_map]
    refine List.map_congr_left fun i _ => ?_
    simp only [Function.comp_apply]
    omega
  have happ : List.range' 1 (n + rows.length) =
      List.range' 1 n ++ List.range' (1 + n) rows.length := by
    rw [← List.range'_append_1]
  rw [happ]
  exact hold.append hnew

theorem foldl_max_le {n : ℕ} (l : List ℕ) (b : ℕ) (hl : ∀ x ∈ l, x ≤ n) (hb : b ≤ n) :
    l.foldl max b ≤ n := by
  induction l generalizing b with
  | nil => exact hb
  | cons x l ih =>
    exact ih _ (fun y hy => hl y (List.mem_cons_of_mem x hy))
      (max_le hb (hl x List.mem_cons_self))

theorem le_foldl_max (l : List ℕ) (b x : ℕ) (h : x ∈ l ∨ x ≤ b) : x ≤ l.foldl max b := by
  induction l generalizing b with
  | nil => simpa using h
  | cons y l ih =>
    refine ih _ ?_
    rcases h with hx | hx
    · rcases List.mem_cons.mp hx with rfl | hx
      · exact .inr (le_max_right _ _)
      · exact .inl hx
    · exact .inr (hx.trans (le_max_left _ _))

/-- The greatest of `1, …, n` is `n`. -/
theorem foldl_max_of_perm {l : List ℕ} {n : ℕ} (h : l.Perm (List.range' 1 n)) :
    l.foldl max 0 = n := by
  refine le_antisymm (foldl_max_le l 0 (fun x hx => ?_) (Nat.zero_le n)) ?_
  · have := h.subset hx
    rw [List.mem_range'_1] at this
    omega
  · rcases Nat.eq_zero_or_pos n with rfl | hn
    · exact Nat.zero_le _
    · refine le_foldl_max l 0 n (.inl (h.symm.subset ?_))
      rw [List.mem_range'_1]
      omega

/-- Giving rows a value they did not have adds just these values. -/
theorem perm_filterMap_map {α β : Type} (p : α → Bool) (f : α → α) (g : α → Option β) (h : α → β)
    (l : List α) (hold : ∀ r ∈ l, p r = true → g r = none)
    (hnew : ∀ r ∈ l, p r = true → g (f r) = some (h r)) :
    ((l.map fun r => if p r then f r else r).filterMap g).Perm
      (l.filterMap g ++ (l.filter p).map h) := by
  induction l with
  | nil => exact List.Perm.refl _
  | cons r l ih =>
    have ih' := ih (fun x hx => hold x (List.mem_cons_of_mem r hx))
      fun x hx => hnew x (List.mem_cons_of_mem r hx)
    by_cases hp : p r
    · rw [List.map_cons, if_pos hp, List.filterMap_cons_some (hnew r List.mem_cons_self hp),
        List.filterMap_cons_none (hold r List.mem_cons_self hp), List.filter_cons_of_pos hp,
        List.map_cons]
      exact (ih'.cons _).trans List.perm_middle.symm
    · rw [List.map_cons, if_neg hp, List.filter_cons_of_neg hp]
      cases hg : g r with
      | none =>
        rw [List.filterMap_cons_none hg, List.filterMap_cons_none hg]
        exact ih'
      | some b =>
        rw [List.filterMap_cons_some hg, List.filterMap_cons_some hg]
        exact ih'.cons b

end Rank

end ArkanGold
