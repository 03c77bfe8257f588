import Mathlib

/-!
# Fixed-scale numeric columns

A `numeric(p, s)` column stores multiples of `10^-s`. It is represented by the
integer number of those units; a decimal written to it is rounded to the nearest
unit, ties away from zero, and an increment is computed exactly and rounded on
the way in.

- `roundHalfAway`: the rounding rule, with its behaviour on integers, under sums
  with integers on one side of zero, and its monotonicity.
- `toScale s q` / `ofScale s n`: a decimal as the column stores it, and back.
- `Fits s q`: the column can hold `q` as it is; then nothing is rounded.
-/

namespace ArkanGold

namespace Numeric

/-- Round to the nearest integer, ties away from zero. -/
def roundHalfAway (q : ℚ) : ℤ := if 0 ≤ q then round q else -round (-q)

@[simp] theorem roundHalfAway_intCast (n : ℤ) : roundHalfAway (n : ℚ) = n := by
  unfold roundHalfAway
  split
  · exact round_intCast n
  · rw [← Int.cast_neg, round_intCast, neg_neg]

theorem roundHalfAway_of_nonneg {q : ℚ} (h : 0 ≤ q) : roundHalfAway q = round q := if_pos h

theorem roundHalfAway_of_neg {q : ℚ} (h : q < 0) : roundHalfAway q = -round (-q) :=
  if_neg (not_le.mpr h)

theorem round_mono {p q : ℚ} (h : p ≤ q) : round p ≤ round q := by
  rw [round_eq, round_eq]
  exact Int.floor_le_floor (by linarith)

theorem roundHalfAway_nonneg {q : ℚ} (h : 0 ≤ q) : 0 ≤ roundHalfAway q := by
  rw [roundHalfAway_of_nonneg h]
  simpa using round_mono h

theorem roundHalfAway_mono {p q : ℚ} (h : p ≤ q) : roundHalfAway p ≤ roundHalfAway q := by
  rcases le_or_gt 0 p with hp | hp
  · rw [roundHalfAway_of_nonneg hp, roundHalfAway_of_nonneg (hp.trans h)]
    exact round_mono h
  · rcases le_or_gt 0 q with hq | hq
    · have h1 : 0 ≤ round (-p) := by simpa using round_mono (p := 0) (by linarith : 0 ≤ -p)
      have h2 := roundHalfAway_nonneg hq
      rw [roundHalfAway_of_neg hp]
      omega
    · rw [roundHalfAway_of_neg hp, roundHalfAway_of_neg hq]
      exact neg_le_neg (round_mono (by linarith))

/-- An integer can be pulled out of the rounding as long as the sum does not turn
negative. -/
theorem roundHalfAway_int_add {n : ℤ} {q : ℚ} (h : 0 ≤ (n : ℚ) + q) :
    roundHalfAway (n + q) = n + round q := by
  rw [roundHalfAway_of_nonneg h, round_intCast_add]

/-- Below zero the ties go the other way. -/
theorem roundHalfAway_int_add_of_neg {n : ℤ} {q : ℚ} (h : (n : ℚ) + q < 0) :
    roundHalfAway (n + q) = n - round (-q) := by
  rw [roundHalfAway_of_neg h, neg_add, ← Int.cast_neg, round_intCast_add]
  omega

/-- `q` lies halfway between two integers. -/
def IsTie (q : ℚ) : Prop := Int.fract q = 1 / 2

instance (q : ℚ) : Decidable (IsTie q) := inferInstanceAs (Decidable (_ = _))

/-- Rounding a decimal and rounding its opposite cancel, except at a tie, where
both move up. -/
theorem round_add_round_neg (q : ℚ) :
    round q + round (-q) = if IsTie q then 1 else 0 := by
  have hq := Int.floor_add_fract q
  have h0 := Int.fract_nonneg q
  have h1 := Int.fract_lt_one q
  rw [round_eq, round_eq]
  split
  · rename_i htie
    rw [IsTie] at htie
    have e1 : ⌊q + 1 / 2⌋ = ⌊q⌋ + 1 := by
      rw [Int.floor_eq_iff]; push_cast; constructor <;> linarith
    have e2 : ⌊-q + 1 / 2⌋ = -⌊q⌋ := by
      rw [Int.floor_eq_iff]; push_cast; constructor <;> linarith
    omega
  · rename_i htie
    rcases lt_or_gt_of_ne htie with hlt | hgt
    · have e1 : ⌊q + 1 / 2⌋ = ⌊q⌋ := by
        rw [Int.floor_eq_iff]; constructor <;> linarith
      have e2 : ⌊-q + 1 / 2⌋ = -⌊q⌋ := by
        rw [Int.floor_eq_iff]; push_cast; constructor <;> linarith
      omega
    · have e1 : ⌊q + 1 / 2⌋ = ⌊q⌋ + 1 := by
        rw [Int.floor_eq_iff]; push_cast; constructor <;> linarith
      have e2 : ⌊-q + 1 / 2⌋ = -⌊q⌋ - 1 := by
        rw [Int.floor_eq_iff]; push_cast; constructor <;> linarith
      omega

/-! ## Columns of scale `s` -/

/-- The units of a column of scale `s` that store the decimal `q`. -/
def toScale (s : ℕ) (q : ℚ) : ℤ := roundHalfAway (q * 10 ^ s)

/-- The decimal that `n` units of a column of scale `s` stand for. -/
def ofScale (s : ℕ) (n : ℤ) : ℚ := n / 10 ^ s

/-- `column = column + d`. -/
def increment (s : ℕ) (n : ℤ) (d : ℚ) : ℤ := toScale s (ofScale s n + d)

/-- The column can hold `q` without rounding. -/
def Fits (s : ℕ) (q : ℚ) : Prop := ofScale s (toScale s q) = q

instance (s : ℕ) (q : ℚ) : Decidable (Fits s q) := inferInstanceAs (Decidable (_ = _))

theorem ofScale_mul_pow (s : ℕ) (n : ℤ) : ofScale s n * 10 ^ s = n := by
  unfold ofScale
  exact div_mul_cancel₀ _ (by positivity)

@[simp] theorem toScale_ofScale (s : ℕ) (n : ℤ) : toScale s (ofScale s n) = n := by
  rw [toScale, ofScale_mul_pow, roundHalfAway_intCast]

@[simp] theorem fits_ofScale (s : ℕ) (n : ℤ) : Fits s (ofScale s n) := by
  rw [Fits, toScale_ofScale]

@[simp] theorem ofScale_zero (s : ℕ) : ofScale s 0 = 0 := by
  simp [ofScale]

theorem ofScale_add (s : ℕ) (m n : ℤ) : ofScale s (m + n) = ofScale s m + ofScale s n := by
  simp only [ofScale, Int.cast_add, add_div]

/-- Reading a column is additive. -/
def ofScaleHom (s : ℕ) : ℤ →+ ℚ := AddMonoidHom.mk' (ofScale s) (ofScale_add s)

@[simp] theorem ofScaleHom_apply (s : ℕ) (n : ℤ) : ofScaleHom s n = ofScale s n := rfl

theorem ofScale_neg (s : ℕ) (n : ℤ) : ofScale s (-n) = -ofScale s n := by
  simp only [ofScale, Int.cast_neg, neg_div]

theorem ofScale_sub (s : ℕ) (m n : ℤ) : ofScale s (m - n) = ofScale s m - ofScale s n := by
  simp only [ofScale, Int.cast_sub, sub_div]

theorem ofScale_injective (s : ℕ) : Function.Injective (ofScale s) := by
  intro m n h
  rw [← toScale_ofScale s m, h, toScale_ofScale]

theorem ofScale_le {s : ℕ} {m n : ℤ} : ofScale s m ≤ ofScale s n ↔ m ≤ n := by
  unfold ofScale
  rw [div_le_div_iff_of_pos_right (by positivity), Int.cast_le]

theorem toScale_mono (s : ℕ) {p q : ℚ} (h : p ≤ q) : toScale s p ≤ toScale s q :=
  roundHalfAway_mono (mul_le_mul_of_nonneg_right h (by positivity))

/-- Incrementing by an amount the column can hold is exact. -/
@[simp] theorem increment_ofScale (s : ℕ) (n d : ℤ) : increment s n (ofScale s d) = n + d := by
  rw [increment, ← ofScale_add, toScale_ofScale]

theorem increment_of_fits {s : ℕ} {d : ℚ} (n : ℤ) (h : Fits s d) :
    increment s n d = n + toScale s d := by
  conv_lhs => rw [← h]
  exact increment_ofScale s n _

@[simp] theorem increment_zero (s : ℕ) (n : ℤ) : increment s n 0 = n := by
  have h := increment_ofScale s n 0
  rwa [ofScale_zero, add_zero] at h

theorem fits_neg {s : ℕ} {q : ℚ} (h : Fits s q) : Fits s (-q) := by
  rw [← h, ← ofScale_neg]
  exact fits_ofScale s _

theorem toScale_neg_of_fits {s : ℕ} {q : ℚ} (h : Fits s q) :
    toScale s (-q) = -toScale s q := by
  conv_lhs => rw [← h, ← ofScale_neg]
  exact toScale_ofScale s _

/-- `increment` in units: the amount in units is added and the sum rounded. -/
theorem increment_eq (s : ℕ) (n : ℤ) (d : ℚ) :
    increment s n d = roundHalfAway (n + d * 10 ^ s) := by
  rw [increment, toScale, add_mul, ofScale_mul_pow]

end Numeric

end ArkanGold
