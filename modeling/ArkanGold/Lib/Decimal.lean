import ArkanGold.Lib.Numeric

/-!
# Decimals of a fixed precision

The results of the four operations are rounded to `p` significant digits, ties away from
zero; comparisons, `min` and `max` are exact, and a decimal can be brought to a number of
places.

- `sig p q`: `q` with `p` significant digits; `ulp p q` is the value of the last of them.
- `sig_of_units`: a decimal of few enough digits stays as it is.
- `two_abs_sig_sub_le` and `sig_near`: how far the rounding is off.
- `toDecimalPlaces`: bringing to places, by one of three rounding modes.
-/

namespace ArkanGold

namespace Decimal

open Numeric

variable {p s : ℕ} {q a b : ℚ}

/-! ## Significant digits -/

/-- The value of the last of `p` significant digits. -/
def ulp (p : ℕ) (q : ℚ) : ℚ := 10 ^ (Int.log 10 |q| + 1 - (p : ℤ))

/-- Round to `p` significant digits, ties away from zero. -/
def sig (p : ℕ) (q : ℚ) : ℚ := roundHalfAway (q / ulp p q) * ulp p q

theorem ulp_pos (p : ℕ) (q : ℚ) : 0 < ulp p q := zpow_pos (by norm_num) _

/-- The last digit of a number is small against it. -/
theorem ulp_mul_le (p : ℕ) (hq : q ≠ 0) : ulp p q * 10 ^ p ≤ 10 * |q| := by
  have hlog : ((10 : ℕ) : ℚ) ^ Int.log 10 |q| ≤ |q| :=
    Int.zpow_log_le_self (by norm_num) (abs_pos.mpr hq)
  have heq : ulp p q * 10 ^ p = 10 * 10 ^ Int.log 10 |q| := by
    rw [ulp, ← zpow_natCast (10 : ℚ) p, ← zpow_add₀ (by norm_num), ← zpow_one_add₀ (by norm_num)]
    congr 1
    ring
  rw [heq]
  push_cast at hlog
  linarith

theorem sig_of_multiple {m : ℤ} (h : q = m * ulp p q) : sig p q = q := by
  have hdiv : q / ulp p q = m := (div_eq_iff (ulp_pos p q).ne').mpr h
  rw [sig, hdiv, roundHalfAway_intCast, ← h]

@[simp] theorem sig_zero (p : ℕ) : sig p 0 = 0 :=
  sig_of_multiple (m := 0) (by simp)

/-- A decimal of `s` places with fewer than `p` digits is not rounded. -/
theorem sig_of_units {n : ℤ} (h : |n| < 10 ^ p) : sig p (n / 10 ^ s) = n / 10 ^ s := by
  by_cases hn : n = 0
  · simp [hn]
  have hpos : (0 : ℚ) < |(n : ℚ) / 10 ^ s| := by
    rw [abs_pos]
    exact div_ne_zero (Int.cast_ne_zero.mpr hn) (by positivity)
  have hlt : |(n : ℚ) / 10 ^ s| < ((10 : ℕ) : ℚ) ^ ((p : ℤ) - s) := by
    have hcast : |(n : ℚ)| < 10 ^ p := by exact_mod_cast h
    rw [abs_div, abs_of_pos (by positivity : (0 : ℚ) < 10 ^ s), div_lt_iff₀ (by positivity)]
    push_cast
    rw [← zpow_natCast (10 : ℚ) s, ← zpow_add₀ (by norm_num), sub_add_cancel, zpow_natCast]
    exact hcast
  have hlog : Int.log 10 |(n : ℚ) / 10 ^ s| < (p : ℤ) - s :=
    (Int.lt_zpow_iff_log_lt (by norm_num) hpos).mp hlt
  obtain ⟨k, hk⟩ : ∃ k : ℕ, (k : ℤ) = -(s : ℤ) - (Int.log 10 |(n : ℚ) / 10 ^ s| + 1 - p) :=
    ⟨_, Int.toNat_of_nonneg (by omega)⟩
  refine sig_of_multiple (m := n * 10 ^ k) ?_
  push_cast
  rw [ulp, mul_assoc, ← zpow_natCast (10 : ℚ) k, ← zpow_add₀ (by norm_num), hk, sub_add_cancel,
    zpow_neg, zpow_natCast, div_eq_mul_inv]

/-- A whole number with fewer than `p` digits is not rounded. -/
theorem sig_intCast {n : ℤ} (h : |n| < 10 ^ p) : sig p n = n := by
  simpa using sig_of_units (s := 0) h

/-- Of a whole number remains a whole number. -/
theorem sig_int (p : ℕ) (n : ℤ) : ∃ m : ℤ, sig p n = m := by
  by_cases hlt : |n| < 10 ^ p
  · exact ⟨n, sig_intCast hlt⟩
  · have hle : ((10 : ℕ) : ℚ) ^ (p : ℤ) ≤ |(n : ℚ)| := by
      rw [zpow_natCast]
      exact_mod_cast not_lt.mp hlt
    have hpos : (0 : ℚ) < |(n : ℚ)| := lt_of_lt_of_le (zpow_pos (by norm_num) _) hle
    have hlog : (p : ℤ) ≤ Int.log 10 |(n : ℚ)| :=
      (Int.zpow_le_iff_le_log (by norm_num) hpos).mp hle
    obtain ⟨k, hk⟩ : ∃ k : ℕ, (k : ℤ) = Int.log 10 |(n : ℚ)| + 1 - p :=
      ⟨_, Int.toNat_of_nonneg (by omega)⟩
    refine ⟨roundHalfAway ((n : ℚ) / ulp p n) * 10 ^ k, ?_⟩
    push_cast
    rw [sig]
    congr 1
    rw [ulp, ← hk, zpow_natCast]

theorem abs_roundHalfAway_sub_le (q : ℚ) : |roundHalfAway q - q| ≤ 1 / 2 := by
  rcases le_or_gt 0 q with hq | hq
  · rw [roundHalfAway_of_nonneg hq, abs_sub_comm]
    exact abs_sub_round q
  · have hround := abs_sub_round (-q)
    rw [roundHalfAway_of_neg hq]
    push_cast
    rwa [show -(round (-q) : ℚ) - q = -q - round (-q) by ring]

/-- The integer that is less than a half away. -/
theorem roundHalfAway_eq {n : ℤ} (h : |q - n| < 1 / 2) : roundHalfAway q = n := by
  have hround := abs_roundHalfAway_sub_le q
  have htriangle := abs_sub_le (roundHalfAway q : ℚ) q n
  have hlt : |((roundHalfAway q - n : ℤ) : ℚ)| < 1 := by
    push_cast
    linarith
  have hzero : roundHalfAway q - n = 0 := Int.abs_lt_one_iff.mp (by exact_mod_cast hlt)
  omega

/-- The rounding is off by at most half of the last digit. -/
theorem two_abs_sig_sub_le (p : ℕ) (q : ℚ) : 2 * |sig p q - q| ≤ ulp p q := by
  have hulp := ulp_pos p q
  have hround := abs_roundHalfAway_sub_le (q / ulp p q)
  have heq : sig p q - q = (roundHalfAway (q / ulp p q) - q / ulp p q) * ulp p q := by
    rw [sig, sub_mul, div_mul_cancel₀ _ hulp.ne']
  rw [heq, abs_mul, abs_of_pos hulp]
  nlinarith

/-- The same, against the number itself. -/
theorem sig_near (p : ℕ) (q : ℚ) : |sig p q - q| * 10 ^ p ≤ 5 * |q| := by
  by_cases hq : q = 0
  · simp [hq]
  have hulp := ulp_mul_le p hq
  have hsig := two_abs_sig_sub_le p q
  have hpow : (0 : ℚ) < 10 ^ p := by positivity
  nlinarith

theorem sig_nonneg (p : ℕ) (hq : 0 ≤ q) : 0 ≤ sig p q := by
  have hround := roundHalfAway_nonneg (div_nonneg hq (ulp_pos p q).le)
  exact mul_nonneg (by exact_mod_cast hround) (ulp_pos p q).le

theorem sig_nonpos (p : ℕ) (hq : q ≤ 0) : sig p q ≤ 0 := by
  have hzero : roundHalfAway 0 = 0 := by simpa using roundHalfAway_intCast 0
  have hround : roundHalfAway (q / ulp p q) ≤ 0 :=
    (roundHalfAway_mono (div_nonpos_of_nonpos_of_nonneg hq (ulp_pos p q).le)).trans hzero.le
  exact mul_nonpos_of_nonpos_of_nonneg (by exact_mod_cast hround) (ulp_pos p q).le

/-! ## Operations -/

/-- `plus` -/
def plus (p : ℕ) (a b : ℚ) : ℚ := sig p (a + b)

/-- `minus` -/
def minus (p : ℕ) (a b : ℚ) : ℚ := sig p (a - b)

/-- `times` -/
def times (p : ℕ) (a b : ℚ) : ℚ := sig p (a * b)

/-- `dividedBy` -/
def dividedBy (p : ℕ) (a b : ℚ) : ℚ := sig p (a / b)

/-- Whole numbers are added exactly as long as the digits suffice. -/
theorem foldl_plus {α : Type} {p : ℕ} {B : ℤ} (f : α → ℤ) (l : List α) (acc : ℤ)
    (hf : ∀ x ∈ l, |f x| ≤ B) (hB : |acc| + l.length * B < 10 ^ p) :
    l.foldl (fun t x => plus p t (f x)) (acc : ℚ) = ((acc + (l.map f).sum : ℤ) : ℚ) := by
  induction l generalizing acc with
  | nil => simp
  | cons x l ih =>
    have hx := hf x List.mem_cons_self
    have hB0 : 0 ≤ B := (abs_nonneg _).trans hx
    have hsum := abs_add_le acc (f x)
    have hrest : 0 ≤ (l.length : ℤ) * B := mul_nonneg (by positivity) hB0
    push_cast [List.length_cons, add_mul] at hB
    have hexact : plus p acc (f x) = ((acc + f x : ℤ) : ℚ) := by
      rw [plus, ← Int.cast_add]
      exact sig_intCast (by linarith)
    rw [List.foldl_cons, hexact, ih (acc + f x) (fun y hy => hf y (List.mem_cons_of_mem x hy))
      (by linarith), List.map_cons, List.sum_cons, add_assoc]

/-! ## Places -/

/-- The rounding modes. -/
inductive Rounding where
  /-- away from zero -/
  | up
  /-- towards zero -/
  | down
  /-- to the nearest, ties away from zero -/
  | halfUp

/-- The integer that a mode chooses. -/
def Rounding.toInt : Rounding → ℚ → ℤ
  | up, q => if 0 ≤ q then ⌈q⌉ else ⌊q⌋
  | down, q => if 0 ≤ q then ⌊q⌋ else ⌈q⌉
  | halfUp, q => roundHalfAway q

/-- `toDecimalPlaces` -/
def toDecimalPlaces (s : ℕ) (mode : Rounding) (q : ℚ) : ℚ := ofScale s (mode.toInt (q * 10 ^ s))

theorem toDecimalPlaces_zero_halfUp (q : ℚ) : toDecimalPlaces 0 .halfUp q = roundHalfAway q := by
  simp [toDecimalPlaces, Rounding.toInt, ofScale]

end Decimal

end ArkanGold
