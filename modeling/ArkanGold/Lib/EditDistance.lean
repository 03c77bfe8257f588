import Mathlib

/-!
# Edit distance

`levenshtein a b` is the Levenshtein distance of two lists: the fewest insertions, deletions and
replacements of one element that turn `a` into `b`, by the recursion over their heads.

- `levenshtein_cons_cons_self`: equal heads cost nothing.
- `levenshtein_le_one_of_ne`: with different heads and one edit, the edit is at the heads and the
  rest is equal.
-/

namespace ArkanGold

namespace EditDistance

variable {α : Type} [DecidableEq α] {a b : List α} {x y : α}

/-- The Levenshtein distance. -/
def levenshtein : List α → List α → ℕ
  | [], b => b.length
  | x :: a, [] => (x :: a).length
  | x :: a, y :: b =>
    min (min (levenshtein a (y :: b) + 1) (levenshtein (x :: a) b + 1))
      (levenshtein a b + if x = y then 0 else 1)
termination_by a b => a.length + b.length

@[simp] theorem levenshtein_nil_left (b : List α) : levenshtein [] b = b.length := by
  rw [levenshtein]

@[simp] theorem levenshtein_nil_right (a : List α) : levenshtein a [] = a.length := by
  cases a with
  | nil => rw [levenshtein_nil_left]
  | cons x a => rw [levenshtein]

theorem levenshtein_cons_cons (x y : α) (a b : List α) :
    levenshtein (x :: a) (y :: b) =
      min (min (levenshtein a (y :: b) + 1) (levenshtein (x :: a) b + 1))
        (levenshtein a b + if x = y then 0 else 1) := by
  rw [levenshtein]

theorem levenshtein_comm (a b : List α) : levenshtein a b = levenshtein b a := by
  induction a generalizing b with
  | nil => rw [levenshtein_nil_left, levenshtein_nil_right]
  | cons x a ih =>
    induction b with
    | nil => rw [levenshtein_nil_left, levenshtein_nil_right]
    | cons y b ihb =>
      rw [levenshtein_cons_cons, levenshtein_cons_cons, ih (y :: b), ihb, ih b,
        min_comm (levenshtein (y :: b) a + 1)]
      simp only [eq_comm]

/-- An insertion. -/
theorem levenshtein_cons_right_le (a b : List α) (y : α) :
    levenshtein a (y :: b) ≤ levenshtein a b + 1 := by
  cases a with
  | nil => rw [levenshtein_nil_left, levenshtein_nil_left, List.length_cons]
  | cons x a =>
    rw [levenshtein_cons_cons]
    exact min_le_of_left_le (min_le_right _ _)

/-- A deletion. -/
theorem levenshtein_cons_left_le (a b : List α) (x : α) :
    levenshtein (x :: a) b ≤ levenshtein a b + 1 := by
  cases b with
  | nil => rw [levenshtein_nil_right, levenshtein_nil_right, List.length_cons]
  | cons y b =>
    rw [levenshtein_cons_cons]
    exact min_le_of_left_le (min_le_left _ _)

theorem levenshtein_le_cons_left (a b : List α) (x : α) :
    levenshtein a b ≤ levenshtein (x :: a) b + 1 := by
  induction b with
  | nil =>
    rw [levenshtein_nil_right, levenshtein_nil_right, List.length_cons]
    omega
  | cons y b ih =>
    have hinsert := levenshtein_cons_right_le a b y
    rw [levenshtein_cons_cons]
    omega

theorem levenshtein_le_cons_right (a b : List α) (y : α) :
    levenshtein a b ≤ levenshtein a (y :: b) + 1 := by
  induction a with
  | nil =>
    rw [levenshtein_nil_left, levenshtein_nil_left, List.length_cons]
    omega
  | cons x a ih =>
    have hdelete := levenshtein_cons_left_le a b x
    rw [levenshtein_cons_cons]
    omega

/-- Equal heads cost nothing. -/
@[simp] theorem levenshtein_cons_cons_self (x : α) (a b : List α) :
    levenshtein (x :: a) (x :: b) = levenshtein a b := by
  have hleft := levenshtein_le_cons_right a b x
  have hright := levenshtein_le_cons_left a b x
  rw [levenshtein_cons_cons, if_pos rfl]
  omega

theorem levenshtein_eq_zero : levenshtein a b = 0 ↔ a = b := by
  induction a generalizing b with
  | nil =>
    rw [levenshtein_nil_left, List.length_eq_zero_iff]
    exact eq_comm
  | cons x a ih =>
    cases b with
    | nil => simp
    | cons y b =>
      by_cases hxy : x = y
      · rw [hxy, levenshtein_cons_cons_self, ih, List.cons.injEq, and_iff_right rfl]
      · rw [levenshtein_cons_cons, if_neg hxy, List.cons.injEq]
        constructor
        · omega
        · exact fun h => absurd h.1 hxy

/-- With different heads, the one edit is at the heads. -/
theorem levenshtein_le_one_of_ne (h : x ≠ y) :
    levenshtein (x :: a) (y :: b) ≤ 1 ↔ a = y :: b ∨ x :: a = b ∨ a = b := by
  have hone : ∀ n : ℕ, n + 1 ≤ 1 ↔ n = 0 := fun n => by omega
  rw [levenshtein_cons_cons, if_neg h, min_le_iff, min_le_iff, hone, hone, hone,
    levenshtein_eq_zero, levenshtein_eq_zero, levenshtein_eq_zero, or_assoc]

/-- One edit changes the length by one at the most. -/
theorem length_le_levenshtein (a b : List α) :
    a.length ≤ b.length + levenshtein a b ∧ b.length ≤ a.length + levenshtein a b := by
  induction a generalizing b with
  | nil => simp
  | cons x a ih =>
    induction b with
    | nil => simp
    | cons y b ihb =>
      have hdelete := ih (y :: b)
      have hreplace := ih b
      rw [List.length_cons] at ihb hdelete
      rw [levenshtein_cons_cons, List.length_cons, List.length_cons]
      omega

end EditDistance

end ArkanGold
