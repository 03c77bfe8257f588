import Mathlib

/-!
# Binary numbers of a fixed precision

`sig p q` is `q ≥ 0` rounded to `p` binary digits, ties to the even one.

- `sig_natCast`: a whole number of at most `p` digits stays as it is.
- `sig_mono`: rounding keeps the order.
-/

namespace ArkanGold

namespace Binary

variable {p : ℕ} {a b q : ℚ}

/-! ## Whole numbers -/

/-- The nearest integer, ties to the even one. -/
def roundEven (q : ℚ) : ℤ :=
  if Int.fract q < 1 / 2 then ⌊q⌋
  else if 1 / 2 < Int.fract q then ⌊q⌋ + 1
  else if 2 ∣ ⌊q⌋ then ⌊q⌋ else ⌊q⌋ + 1

@[simp] theorem roundEven_intCast (n : ℤ) : roundEven n = n := by
  simp [roundEven]

theorem floor_le_roundEven (q : ℚ) : ⌊q⌋ ≤ roundEven q := by
  rw [roundEven]
  split_ifs <;> omega

theorem roundEven_le (q : ℚ) : roundEven q ≤ ⌊q⌋ + 1 := by
  rw [roundEven]
  split_ifs <;> omega

theorem roundEven_mono (h : a ≤ b) : roundEven a ≤ roundEven b := by
  rcases (Int.floor_le_floor h).lt_or_eq with hfloor | hfloor
  · calc roundEven a ≤ ⌊a⌋ + 1 := roundEven_le a
      _ ≤ ⌊b⌋ := hfloor
      _ ≤ roundEven b := floor_le_roundEven b
  · have hfract : Int.fract a ≤ Int.fract b := by
      rw [Int.fract, Int.fract, hfloor]
      linarith
    rw [roundEven, roundEven, hfloor]
    split_ifs <;> first | omega | linarith

/-! ## Digits -/

/-- The value of the last of `p` binary digits. -/
def ulp (p : ℕ) (q : ℚ) : ℚ := 2 ^ (Int.log 2 q + 1 - (p : ℤ))

/-- Round to `p` binary digits, ties to the even one. -/
def sig (p : ℕ) (q : ℚ) : ℚ := roundEven (q / ulp p q) * ulp p q

theorem ulp_pos (p : ℕ) (q : ℚ) : 0 < ulp p q := zpow_pos (by norm_num) _

theorem sig_of_multiple {m : ℤ} (h : q = m * ulp p q) : sig p q = q := by
  have hdiv : q / ulp p q = m := (div_eq_iff (ulp_pos p q).ne').mpr h
  rw [sig, hdiv, roundEven_intCast, ← h]

@[simp] theorem sig_zero (p : ℕ) : sig p 0 = 0 :=
  sig_of_multiple (m := 0) (by simp)

/-- A whole number of at most `p` digits is not rounded. -/
theorem sig_natCast {n : ℕ} (h : n < 2 ^ p) : sig p n = n := by
  rcases Nat.eq_zero_or_pos n with rfl | hpos
  · simp
  have hlog : Int.log 2 (n : ℚ) < p := by
    refine (Int.lt_zpow_iff_log_lt (by norm_num) (by exact_mod_cast hpos)).mp ?_
    rw [zpow_natCast]
    exact_mod_cast h
  obtain ⟨k, hk⟩ : ∃ k : ℕ, (k : ℤ) = -(Int.log 2 (n : ℚ) + 1 - p) :=
    ⟨_, Int.toNat_of_nonneg (by omega)⟩
  refine sig_of_multiple (m := n * 2 ^ k) ?_
  push_cast
  rw [ulp, mul_assoc, ← zpow_natCast (2 : ℚ) k, ← zpow_add₀ (by norm_num), hk, neg_add_cancel,
    zpow_zero, mul_one]

/-- Rounding does not leave the binade upwards. -/
theorem sig_le (p : ℕ) (q : ℚ) : sig p q ≤ 2 ^ (Int.log 2 q + 1) := by
  have hlt : q < 2 ^ (Int.log 2 q + 1) := by
    exact_mod_cast Int.lt_zpow_succ_log_self (by norm_num : 1 < 2) q
  have hmul : (2 : ℚ) ^ p * ulp p q = 2 ^ (Int.log 2 q + 1) := by
    rw [ulp, ← zpow_natCast (2 : ℚ) p, ← zpow_add₀ (by norm_num), add_sub_cancel]
  have hround : roundEven (q / ulp p q) ≤ 2 ^ p := by
    have hle : q / ulp p q ≤ ((2 ^ p : ℤ) : ℚ) := by
      rw [div_le_iff₀ (ulp_pos p q)]
      push_cast
      exact hmul ▸ hlt.le
    exact (roundEven_mono hle).trans_eq (roundEven_intCast _)
  rw [sig, ← hmul]
  exact mul_le_mul_of_nonneg_right (by exact_mod_cast hround) (ulp_pos p q).le

/-- Nor downwards. -/
theorem le_sig (hp : 0 < p) (hq : 0 < q) : 2 ^ Int.log 2 q ≤ sig p q := by
  obtain ⟨k, rfl⟩ : ∃ k, p = k + 1 := ⟨p - 1, by omega⟩
  have hle : 2 ^ Int.log 2 q ≤ q := by
    exact_mod_cast Int.zpow_log_le_self (by norm_num : 1 < 2) hq
  have hmul : (2 : ℚ) ^ k * ulp (k + 1) q = 2 ^ Int.log 2 q := by
    rw [ulp, ← zpow_natCast (2 : ℚ) k, ← zpow_add₀ (by norm_num)]
    congr 1
    push_cast
    ring
  have hround : 2 ^ k ≤ roundEven (q / ulp (k + 1) q) := by
    have hge : ((2 ^ k : ℤ) : ℚ) ≤ q / ulp (k + 1) q := by
      rw [le_div_iff₀ (ulp_pos _ q)]
      push_cast
      exact hmul ▸ hle
    exact (roundEven_intCast _).symm.trans_le (roundEven_mono hge)
  rw [sig, ← hmul]
  exact mul_le_mul_of_nonneg_right (by exact_mod_cast hround) (ulp_pos _ q).le

theorem sig_nonneg (p : ℕ) (hq : 0 ≤ q) : 0 ≤ sig p q := by
  have hround : 0 ≤ roundEven (q / ulp p q) :=
    (Int.floor_nonneg.mpr (div_nonneg hq (ulp_pos p q).le)).trans (floor_le_roundEven _)
  exact mul_nonneg (by exact_mod_cast hround) (ulp_pos p q).le

/-- Rounding keeps the order. -/
theorem sig_mono (hp : 0 < p) (ha : 0 ≤ a) (h : a ≤ b) : sig p a ≤ sig p b := by
  rcases ha.eq_or_lt with rfl | ha
  · rw [sig_zero]
    exact sig_nonneg p h
  rcases (Int.log_mono_right (b := 2) ha h).lt_or_eq with hlog | hlog
  · calc sig p a ≤ 2 ^ (Int.log 2 a + 1) := sig_le p a
      _ ≤ 2 ^ Int.log 2 b := zpow_le_zpow_right₀ (by norm_num) hlog
      _ ≤ sig p b := le_sig hp (ha.trans_le h)
  · have hulp : ulp p a = ulp p b := by rw [ulp, ulp, hlog]
    have hround := roundEven_mono (div_le_div_of_nonneg_right h (ulp_pos p b).le)
    rw [sig, sig, hulp]
    exact mul_le_mul_of_nonneg_right (by exact_mod_cast hround) (ulp_pos p b).le

end Binary

end ArkanGold
