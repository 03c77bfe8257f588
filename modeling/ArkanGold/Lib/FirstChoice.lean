import Mathlib

/-!
# The first choice

Candidates are tried in the order of a preference, and the first that has an answer decides.

- `firstChoice_spec`: the candidate that decides is preferred to every other that has an answer.
- `firstChoice_of_preferred` and `firstChoice_perm`: where no two candidates with an answer are
  preferred to each other, the decision does not depend on the order in which they are listed.
-/

namespace ArkanGold

namespace FirstChoice

variable {α β : Type} (le : α → α → Prop) [DecidableRel le] [Std.Total le] [IsTrans α le]
  {f g : α → Option β} {l l' : List α} {b : β}

/-- The answer of the first candidate that has one. -/
def firstChoice (f : α → Option β) (l : List α) : Option β :=
  (l.insertionSort le).findSome? f

omit [Std.Total le] [IsTrans α le] in
theorem firstChoice_eq_none : firstChoice le f l = none ↔ ∀ a ∈ l, f a = none := by
  simp only [firstChoice, List.findSome?_eq_none_iff, List.mem_insertionSort]

theorem firstChoice_spec (h : firstChoice le f l = some b) :
    ∃ a ∈ l, f a = some b ∧ ∀ a' ∈ l, f a' ≠ none → le a a' := by
  obtain ⟨before, a, after, hsplit, hfa, hbefore⟩ := List.findSome?_eq_some_iff.mp h
  have hmem : ∀ x, x ∈ l ↔ x ∈ before ++ a :: after := fun x => by
    rw [← hsplit, List.mem_insertionSort]
  refine ⟨a, (hmem a).mpr (by simp), hfa, fun a' ha' hanswer => ?_⟩
  have hsorted : (before ++ a :: after).Pairwise le :=
    hsplit ▸ List.pairwise_insertionSort le l
  rcases List.mem_append.mp ((hmem a').mp ha') with hin | hin
  · exact absurd (hbefore a' hin) hanswer
  · rcases List.mem_cons.mp hin with rfl | hin
    · exact Std.Refl.refl a'
    · exact (List.pairwise_cons.mp (List.pairwise_append.mp hsorted).2.1).1 a' hin

/-- A candidate that is preferred to the others, and none of them to it, decides. -/
theorem firstChoice_of_preferred {a : α} (ha : a ∈ l) (hfa : f a = some b)
    (h : ∀ a' ∈ l, f a' ≠ none → le a' a → a' = a) : firstChoice le f l = some b := by
  cases hchoice : firstChoice le f l with
  | none =>
    have hnone := (firstChoice_eq_none le).mp hchoice a ha
    rw [hfa] at hnone
    cases hnone
  | some b' =>
    obtain ⟨a', ha', hfa', hle⟩ := firstChoice_spec le hchoice
    obtain rfl := h a' ha' (by rw [hfa']; exact Option.some_ne_none b')
      (hle a ha (by rw [hfa]; exact Option.some_ne_none b))
    exact hfa'.symm.trans hfa

/-- The order of the list does not matter where there are no ties. -/
theorem firstChoice_perm (hperm : l.Perm l') (hfg : ∀ a ∈ l, f a = g a)
    (h : ∀ a ∈ l, ∀ a' ∈ l, f a ≠ none → f a' ≠ none → le a a' → le a' a → a = a') :
    firstChoice le f l = firstChoice le g l' := by
  cases hchoice : firstChoice le f l with
  | none =>
    refine ((firstChoice_eq_none le).mpr fun a ha => ?_).symm
    have hmem := hperm.mem_iff.mpr ha
    rw [← hfg a hmem]
    exact (firstChoice_eq_none le).mp hchoice a hmem
  | some b =>
    obtain ⟨a, ha, hfa, hle⟩ := firstChoice_spec le hchoice
    have hanswer : f a ≠ none := by
      rw [hfa]
      exact Option.some_ne_none b
    refine (firstChoice_of_preferred le (hperm.mem_iff.mp ha) (hfg a ha ▸ hfa) ?_).symm
    intro a' ha' hanswer' hle'
    have hmem := hperm.mem_iff.mpr ha'
    rw [← hfg a' hmem] at hanswer'
    exact h a' hmem a ha hanswer' hanswer hle' (hle a' hmem hanswer')

end FirstChoice

end ArkanGold
