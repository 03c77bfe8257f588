import Mathlib

/-!
# Demands by kind

A demand is a list of lines. Each line asks for a number of things of a kind, at a price of its
own; several lines may ask for the same kind.

- `kinds_of_counts`: a stock that has as many things of the kind of every line as the lines ask for,
  and no more things in all, has nothing else.
- `charged_iff`: where every thing is charged the price of the first line of its kind, each line is
  charged for its own things exactly when the lines of one kind have one price.
-/

namespace ArkanGold

namespace Demand

variable {κ π α : Type}

/-- A line of a demand. -/
structure Line (κ π : Type) where
  kind : κ
  quantity : ℕ
  price : π

/-- The number of things that the lines ask for. -/
def total (lines : List (Line κ π)) : ℕ := (lines.map (·.quantity)).sum

section Kinds

variable [DecidableEq κ]

/-- The number of things of a kind that the lines ask for. -/
def asked (lines : List (Line κ π)) (k : κ) : ℕ :=
  ((lines.filter fun l => l.kind = k).map (·.quantity)).sum

/-- The kinds of the things that the lines ask for. -/
def kinds (lines : List (Line κ π)) : List κ :=
  lines.flatMap fun l => List.replicate l.quantity l.kind

omit [DecidableEq κ] in
theorem length_kinds (lines : List (Line κ π)) : (kinds lines).length = total lines := by
  simp [kinds, total, List.length_flatMap]

theorem count_kinds (lines : List (Line κ π)) (k : κ) : (kinds lines).count k = asked lines k := by
  induction lines with
  | nil => rfl
  | cons l lines ih =>
    have hcons : (kinds (l :: lines)).count k =
        (List.replicate l.quantity l.kind).count k + (kinds lines).count k := by
      rw [kinds, List.flatMap_cons, List.count_append, ← kinds]
    rw [hcons, ih, List.count_replicate, asked, asked, List.filter_cons]
    by_cases hk : l.kind = k
    · simp [hk]
    · simp [hk]

theorem count_map_kind (stock : List α) (kindOf : α → κ) (k : κ) :
    (stock.map kindOf).count k = (stock.filter fun a => kindOf a = k).length := by
  rw [List.count, List.countP_map, List.countP_eq_length_filter]
  rfl

/-- Counts that agree on the kinds of all lines agree on all kinds, unless there is more than what
the lines ask for. -/
theorem kinds_of_counts {lines : List (Line κ π)} {stock : List α} {kindOf : α → κ}
    (hcount : ∀ l ∈ lines, (stock.filter fun a => kindOf a = l.kind).length = asked lines l.kind)
    (hlength : stock.length ≤ total lines) :
    (stock.map kindOf).Perm (kinds lines) := by
  have hle : (kinds lines : Multiset κ) ≤ (stock.map kindOf : Multiset κ) := by
    rw [Multiset.le_iff_count]
    intro k
    rw [Multiset.coe_count, Multiset.coe_count]
    by_cases hk : ∃ l ∈ lines, l.kind = k
    · obtain ⟨l, hl, rfl⟩ := hk
      rw [count_map_kind, hcount l hl, count_kinds]
    · have hnone : lines.filter (fun l => l.kind = k) = [] := by
        rw [List.filter_eq_nil_iff]
        intro l hl
        simpa using fun h => hk ⟨l, hl, h⟩
      rw [count_kinds, asked, hnone]
      exact Nat.zero_le _
  have hcard : Multiset.card (stock.map kindOf : Multiset κ) ≤
      Multiset.card (kinds lines : Multiset κ) := by
    rw [Multiset.coe_card, Multiset.coe_card, List.length_map, length_kinds]
    exact hlength
  exact (Multiset.coe_eq_coe.mp (Multiset.eq_of_le_of_card_le hle hcard)).symm

omit [DecidableEq κ] in
theorem length_of_perm {lines : List (Line κ π)} {stock : List α} {kindOf : α → κ}
    (h : (stock.map kindOf).Perm (kinds lines)) : stock.length = total lines := by
  rw [← length_kinds, ← h.length_eq, List.length_map]

theorem filter_of_perm {lines : List (Line κ π)} {stock : List α} {kindOf : α → κ}
    (h : (stock.map kindOf).Perm (kinds lines)) (k : κ) :
    (stock.filter fun a => kindOf a = k).length = asked lines k := by
  rw [← count_map_kind, h.count_eq, count_kinds]

omit [DecidableEq κ] in
/-- The things are of kinds that are asked for. -/
theorem line_of_perm {lines : List (Line κ π)} {stock : List α} {kindOf : α → κ}
    (h : (stock.map kindOf).Perm (kinds lines)) {a : α} (ha : a ∈ stock) :
    ∃ l ∈ lines, l.kind = kindOf a := by
  have hmem : kindOf a ∈ kinds lines := h.subset (List.mem_map_of_mem ha)
  obtain ⟨l, hl, hrep⟩ := List.mem_flatMap.mp hmem
  exact ⟨l, hl, (List.eq_of_mem_replicate hrep).symm⟩

end Kinds

/-! ## Prices -/

section Prices

variable [DecidableEq κ] [DecidableEq π]

/-- The number of things of a kind that the lines ask for at a price. -/
def askedAt (lines : List (Line κ π)) (k : κ) (p : π) : ℕ :=
  ((lines.filter fun l => l.kind = k ∧ l.price = p).map (·.quantity)).sum

/-- The price of the first line of a kind. -/
def firstPrice (lines : List (Line κ π)) (k : κ) : Option π :=
  (lines.find? fun l => l.kind = k).map (·.price)

/-- Every line that asks for something has the price of the first line of its kind. -/
def OnePrice (lines : List (Line κ π)) : Prop :=
  ∀ l ∈ lines, 0 < l.quantity → firstPrice lines l.kind = some l.price

instance (lines : List (Line κ π)) : Decidable (OnePrice lines) :=
  inferInstanceAs (Decidable (∀ l ∈ lines, 0 < l.quantity → firstPrice lines l.kind = some l.price))

/-- Lines of other prices ask for nothing. -/
theorem askedAt_first {lines : List (Line κ π)} (h : OnePrice lines) {k : κ} {p : π}
    (hp : firstPrice lines k = some p) : askedAt lines k p = asked lines k := by
  have hzero : ∀ l ∈ lines, l.kind = k → l.price ≠ p → l.quantity = 0 := by
    intro l hl hk hne
    by_contra hq
    have hfirst := h l hl (Nat.pos_of_ne_zero hq)
    rw [hk, hp] at hfirst
    exact hne (Option.some.inj hfirst).symm
  clear h hp
  unfold askedAt asked
  induction lines with
  | nil => rfl
  | cons l lines ih =>
    have hrest := ih fun l' hl' => hzero l' (List.mem_cons_of_mem _ hl')
    have hl := hzero l List.mem_cons_self
    by_cases hk : l.kind = k
    · by_cases hprice : l.price = p
      · simpa [hk, hprice] using hrest
      · simpa [hk, hprice, hl hk hprice] using hrest
    · simpa [hk] using hrest

theorem askedAt_other {lines : List (Line κ π)} (h : OnePrice lines) {k : κ} {p : π}
    (hp : firstPrice lines k ≠ some p) : askedAt lines k p = 0 := by
  refine List.sum_eq_zero fun q hq => ?_
  obtain ⟨l, hl, rfl⟩ := List.mem_map.mp hq
  obtain ⟨hmem, hcond⟩ := List.mem_filter.mp hl
  obtain ⟨rfl, rfl⟩ := of_decide_eq_true hcond
  by_contra hpos
  exact hp (h l hmem (Nat.pos_of_ne_zero hpos))

theorem quantity_le_askedAt {lines : List (Line κ π)} {l : Line κ π} (hl : l ∈ lines) :
    l.quantity ≤ askedAt lines l.kind l.price := by
  refine List.single_le_sum (fun _ _ => Nat.zero_le _) _ (List.mem_map.mpr ⟨l, ?_, rfl⟩)
  exact List.mem_filter.mpr ⟨hl, by simp⟩

/-- Things at the price of the first line of their kind: each line is charged for as many things as
it asks for exactly when no later line has a price of its own. -/
theorem charged_iff {lines : List (Line κ π)} {stock : List α} {kindOf : α → κ}
    {priceOf : α → Option π} (hkinds : (stock.map kindOf).Perm (kinds lines))
    (hprice : ∀ a ∈ stock, priceOf a = firstPrice lines (kindOf a)) :
    (∀ k p, (stock.filter fun a => kindOf a = k ∧ priceOf a = some p).length = askedAt lines k p) ↔
      OnePrice lines := by
  constructor
  · intro h l hl hq
    have hpos := hq.trans_le (quantity_le_askedAt hl)
    rw [← h] at hpos
    obtain ⟨a, ha⟩ := List.exists_mem_of_length_pos hpos
    obtain ⟨ha, hcond⟩ := List.mem_filter.mp ha
    obtain ⟨hk, hp⟩ := of_decide_eq_true hcond
    rw [← hk, ← hprice a ha, hp]
  · intro h k p
    by_cases hp : firstPrice lines k = some p
    · rw [askedAt_first h hp, ← filter_of_perm hkinds k]
      congr 1
      refine List.filter_congr fun a ha => ?_
      refine decide_eq_decide.mpr ⟨And.left, fun hk => ⟨hk, ?_⟩⟩
      rw [hprice a ha, hk, hp]
    · rw [askedAt_other h hp, List.length_eq_zero_iff, List.filter_eq_nil_iff]
      intro a ha hcond
      obtain ⟨hk, hpa⟩ := of_decide_eq_true hcond
      rw [hprice a ha, hk] at hpa
      exact hp hpa

end Prices

end Demand

end ArkanGold
