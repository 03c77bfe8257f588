import Mathlib

/-!
# Texts cut into pieces

`List.splitOn` cuts at every occurrence of one character; `before` and `after` cut at the first
occurrence of a separator of any length.

- `splitOn_append`: cutting a text with more text behind it.
- `before_append`, `after_append`: text behind that does not begin inside a separator.
- `take_eq_shift_iff`: a row and the same row moved by a padding agree only where they are padding.
-/

namespace ArkanGold

namespace Pieces

variable {α : Type} [DecidableEq α] {a : α} {sep u v w : List α}

/-! ## Single characters -/

/-- The last piece of the first text and the first piece of the second are one. -/
theorem splitOn_append (u v : List α) :
    (u ++ v).splitOn a =
      (u.splitOn a).dropLast ++
        (v.splitOn a).modifyHead ((u.splitOn a).getLast (List.splitOn_ne_nil a u) ++ ·) := by
  induction u with
  | nil =>
    obtain ⟨q, qs, hqs⟩ := List.exists_cons_of_ne_nil (List.splitOn_ne_nil a v)
    simp [hqs]
  | cons c u ih =>
    have hne := List.splitOn_ne_nil a u
    rw [List.cons_append, List.splitOn_cons_eq_if_modifyHead, ih]
    simp only [List.splitOn_cons_eq_if_modifyHead c u]
    obtain ⟨p, ps, hps⟩ := List.exists_cons_of_ne_nil hne
    obtain ⟨q, qs, hqs⟩ := List.exists_cons_of_ne_nil (List.splitOn_ne_nil a v)
    simp only [hps, hqs]
    by_cases hc : (c == a) = true
    · simp [hc]
    · cases ps <;> simp [hc]

theorem not_mem_of_mem_splitOn (h : w ∈ u.splitOn a) : a ∉ w := by
  induction u generalizing w with
  | nil =>
    rw [List.splitOn_nil, List.mem_singleton] at h
    exact h ▸ List.not_mem_nil
  | cons c u ih =>
    rw [List.splitOn_cons_eq_if_modifyHead] at h
    obtain ⟨p, ps, hps⟩ := List.exists_cons_of_ne_nil (List.splitOn_ne_nil a u)
    rw [hps] at ih h
    split at h
    case isTrue =>
      obtain rfl | hw := List.mem_cons.mp h
      · exact List.not_mem_nil
      · exact ih hw
    case isFalse hc =>
      obtain rfl | hw := List.mem_cons.mp h
      · intro hmem
        obtain rfl | hp := List.mem_cons.mp hmem
        · exact hc (beq_self_eq_true _)
        · exact ih List.mem_cons_self hp
      · exact ih (List.mem_cons_of_mem _ hw)

/-- A character of a text is the separator or in one of the pieces. -/
theorem mem_splitOn {c : α} (h : c ∈ u) : c = a ∨ ∃ p ∈ u.splitOn a, c ∈ p := by
  induction u with
  | nil => exact absurd h List.not_mem_nil
  | cons d u ih =>
    rw [List.splitOn_cons_eq_if_modifyHead]
    obtain ⟨p, ps, hps⟩ := List.exists_cons_of_ne_nil (List.splitOn_ne_nil a u)
    rw [hps] at ih ⊢
    by_cases hd : (d == a) = true
    · rw [if_pos hd]
      obtain rfl | hc := List.mem_cons.mp h
      · exact Or.inl (eq_of_beq hd)
      · refine (ih hc).imp_right ?_
        rintro ⟨q, hq, hcq⟩
        exact ⟨q, List.mem_cons_of_mem _ hq, hcq⟩
    · rw [if_neg hd, List.modifyHead_cons]
      obtain rfl | hc := List.mem_cons.mp h
      · exact Or.inr ⟨c :: p, List.mem_cons_self, List.mem_cons_self⟩
      · refine (ih hc).imp_right ?_
        rintro ⟨q, hq, hcq⟩
        obtain rfl | hq := List.mem_cons.mp hq
        · exact ⟨d :: q, List.mem_cons_self, List.mem_cons_of_mem _ hcq⟩
        · exact ⟨q, List.mem_cons_of_mem _ hq, hcq⟩

/-- Pieces without the separator are found again in their join. -/
theorem intercalate_inj {us vs : List (List α)} (hus : ∀ u ∈ us, a ∉ u) (hvs : ∀ v ∈ vs, a ∉ v)
    (hune : us ≠ []) (hvne : vs ≠ []) (h : List.intercalate [a] us = List.intercalate [a] vs) :
    us = vs := by
  rw [← List.splitOn_intercalate a hus hune, h, List.splitOn_intercalate a hvs hvne]

/-! ## Longer separators -/

/-- What stands before the first `sep`; all of a text without one. -/
def before (sep : List α) : List α → List α
  | [] => []
  | c :: cs => if sep <+: c :: cs then [] else c :: before sep cs

/-- What stands after the first `sep`, if there is one. -/
def after (sep : List α) : List α → Option (List α)
  | [] => none
  | c :: cs => if sep <+: c :: cs then some ((c :: cs).drop sep.length) else after sep cs

theorem before_of_after_eq_none (h : after sep u = none) : before sep u = u := by
  induction u with
  | nil => rfl
  | cons c u ih =>
    rw [after] at h
    rw [before]
    split at h
    case isTrue => cases h
    case isFalse hc => rw [if_neg hc, ih h]

theorem eq_of_after_eq_some (h : after sep u = some w) : u = before sep u ++ sep ++ w := by
  induction u with
  | nil => cases h
  | cons c u ih =>
    rw [after] at h
    rw [before]
    split at h
    case isTrue hc =>
      rw [if_pos hc, List.nil_append, ← Option.some.inj h]
      exact (List.prefix_append_drop hc)
    case isFalse hc =>
      rw [if_neg hc, List.cons_append, List.cons_append, ← ih h]

theorem mem_head?_of_before {c : α} (h : c ∈ (before sep u).head?) : c ∈ u.head? := by
  cases u with
  | nil => exact h
  | cons d u =>
    rw [before] at h
    split at h
    case isTrue => cases h
    case isFalse => exact h

omit [DecidableEq α] in
/-- Text behind that begins with no character of the separator. -/
theorem prefix_append_iff (hv : ∀ c ∈ v.head?, c ∉ sep) : sep <+: u ++ v ↔ sep <+: u := by
  constructor
  · intro h
    obtain hu | hu := List.prefix_or_prefix_of_prefix h (List.prefix_append u v)
    · exact hu
    · obtain ⟨r, rfl⟩ := hu
      have hr : r <+: v := (List.prefix_append_right_inj u).mp h
      cases r with
      | nil => rw [List.append_nil]
      | cons c r =>
        obtain ⟨s, rfl⟩ := hr
        exact absurd (List.mem_append_right u List.mem_cons_self) (hv c rfl)
  · exact fun h => h.trans (List.prefix_append u v)

theorem before_append (hv : ∀ c ∈ v.head?, c ∉ sep) (u : List α) :
    before sep (u ++ v) = if (after sep u).isSome then before sep u else u ++ before sep v := by
  induction u with
  | nil => rfl
  | cons c u ih =>
    rw [List.cons_append, before, ← List.cons_append, before, after]
    by_cases hc : sep <+: c :: u
    · rw [if_pos ((prefix_append_iff hv).mpr hc), if_pos hc, if_pos hc]
      rfl
    · rw [if_neg (fun h => hc ((prefix_append_iff hv).mp h)), if_neg hc, if_neg hc, ih]
      split <;> rfl

theorem after_append (hv : ∀ c ∈ v.head?, c ∉ sep) (u : List α) :
    after sep (u ++ v) = ((after sep u).map (· ++ v)).or (after sep v) := by
  induction u with
  | nil => rfl
  | cons c u ih =>
    rw [List.cons_append, after, ← List.cons_append, after]
    by_cases hc : sep <+: c :: u
    · rw [if_pos ((prefix_append_iff hv).mpr hc), if_pos hc,
        List.drop_append_of_le_length hc.length_le]
      rfl
    · rw [if_neg (fun h => hc ((prefix_append_iff hv).mp h)), if_neg hc, ih]

/-- A doubled separator leaves an empty piece. -/
theorem after_pair_eq_none (h : [] ∉ u.splitOn a) : after [a, a] u = none := by
  rw [Option.eq_none_iff_forall_ne_some]
  intro w hw
  apply h
  rw [eq_of_after_eq_some hw, List.append_assoc, List.cons_append, List.splitOn_append_cons_self,
    List.cons_append, List.splitOn_cons_eq_if_modifyHead, if_pos (beq_self_eq_true a)]
  exact List.mem_append_right _ List.mem_cons_self

/-! ## Reading piece by piece -/

omit [DecidableEq α] in
theorem mapM_eq_some {β : Type} {f : α → Option β} {l : List α} {bs : List β} :
    l.mapM f = some bs ↔ List.Forall₂ (fun a b => f a = some b) l bs := by
  induction l generalizing bs with
  | nil =>
    rw [List.mapM_nil, List.forall₂_nil_left_iff]
    exact ⟨fun h => (Option.some.inj h).symm, fun h => h ▸ rfl⟩
  | cons a l ih =>
    rw [List.mapM_cons, List.forall₂_cons_left_iff]
    constructor
    · intro h
      obtain ⟨b, hb, h⟩ := Option.bind_eq_some_iff.mp h
      obtain ⟨rest, hrest, h⟩ := Option.bind_eq_some_iff.mp h
      exact ⟨b, rest, hb, ih.mp hrest, (Option.some.inj h).symm⟩
    · rintro ⟨b, rest, hb, hrest, rfl⟩
      rw [hb, ih.mpr hrest]
      rfl

omit [DecidableEq α] in
/-- What a reader of single pieces makes of a piece of a row. -/
theorem exists_of_forall₂ {β : Type} {r : α → β → Prop} {l : List α} {bs : List β}
    (h : List.Forall₂ r l bs) {x : α} (hx : x ∈ l) : ∃ b ∈ bs, r x b := by
  induction h with
  | nil => exact absurd hx List.not_mem_nil
  | cons hab _ ih =>
    obtain rfl | hx := List.mem_cons.mp hx
    · exact ⟨_, List.mem_cons_self, hab⟩
    · obtain ⟨b, hb, hab⟩ := ih hx
      exact ⟨b, List.mem_cons_of_mem _ hb, hab⟩

/-! ## Moved rows -/

omit [DecidableEq α] in
/-- A row that agrees with itself moved by a padding is the padding. -/
theorem take_eq_shift_iff {z : α} {d n : ℕ} {l : List α} (hd : 0 < d) (hn : n ≤ l.length) :
    l.take n = (List.replicate d z ++ l).take n ↔ ∀ x ∈ l.take n, x = z := by
  have hshift (i : ℕ) (hi : i < n) :
      (List.replicate d z ++ l)[i]? = if i < d then some z else l[i - d]? := by
    rw [List.getElem?_append, List.length_replicate]
    split
    case isTrue hid => rw [List.getElem?_replicate, if_pos hid]
    case isFalse => rfl
  constructor
  · intro h
    have hz (i : ℕ) : i < n → l[i]? = some z := by
      induction i using Nat.strong_induction_on with
      | _ i ih =>
        intro hi
        have hrow := congrArg (·[i]?) h
        simp only [List.getElem?_take, if_pos hi, hshift i hi] at hrow
        rw [hrow]
        split
        case isTrue => rfl
        case isFalse hid => exact ih (i - d) (by omega) (by omega)
    intro x hx
    obtain ⟨i, hi, rfl⟩ := List.mem_take_iff_getElem.mp hx
    have hiz := hz i (by omega)
    rw [List.getElem?_eq_getElem (by omega)] at hiz
    exact Option.some.inj hiz
  · intro h
    have hz (i : ℕ) (hi : i < n) : l[i]? = some z := by
      rw [List.getElem?_eq_getElem (by omega)]
      exact congrArg some (h _ (List.mem_take_iff_getElem.mpr ⟨i, by omega, rfl⟩))
    apply List.ext_getElem?
    intro i
    simp only [List.getElem?_take]
    split
    case isTrue hi =>
      rw [hshift i hi, hz i hi]
      split
      case isTrue => rfl
      case isFalse hid => rw [hz (i - d) (by omega)]
    case isFalse => rfl

end Pieces

end ArkanGold
