import ArkanGold.Lib.Decimal

/-!
# Multiples of a lot

An amount is rounded up to a multiple of a lot by dividing, taking the ceiling and multiplying.
With `p` significant digits the quotient and the product may both be off.

- `sig_of_fits`: a number of few places that is not too large keeps all of its digits.
- `ceil_sig`: the ceiling of a fraction is not changed by the rounding of the fraction, as long as
  the numerator has few enough digits.
- `times_ceil_dividedBy`: then the multiple is the exact one, which is the least that covers the
  amount (`le_ceil_div_mul`, `ceil_div_mul_le`).
-/

namespace ArkanGold

namespace Decimal

open Numeric

variable {p s : ℕ} {q a b : ℚ}

/-! ## Numbers of few digits -/

/-- A decimal with fewer than `p` significant digits. -/
def HasDigits (p : ℕ) (q : ℚ) : Prop := ∃ n : ℤ, ∃ s : ℕ, |n| < 10 ^ p ∧ q = n / 10 ^ s

theorem HasDigits.sig (h : HasDigits p q) : sig p q = q := by
  obtain ⟨n, s, hn, rfl⟩ := h
  exact sig_of_units hn

/-- Moving the point keeps the digits. -/
theorem HasDigits.shift (h : HasDigits p q) (k : ℕ) : HasDigits p (q / 10 ^ k) := by
  obtain ⟨n, s, hn, rfl⟩ := h
  exact ⟨n, s + k, hn, by rw [pow_add, div_div]⟩

theorem fits_iff : Fits s q ↔ ∃ n : ℤ, q = ofScale s n :=
  ⟨fun h => ⟨_, h.symm⟩, fun ⟨n, h⟩ => h ▸ fits_ofScale s n⟩

theorem fits_add (ha : Fits s a) (hb : Fits s b) : Fits s (a + b) := by
  rw [← ha, ← hb, ← ofScale_add]
  exact fits_ofScale s _

theorem fits_sub (ha : Fits s a) (hb : Fits s b) : Fits s (a - b) := by
  rw [← ha, ← hb, ← ofScale_sub]
  exact fits_ofScale s _

theorem fits_zero (s : ℕ) : Fits s 0 := fits_iff.mpr ⟨0, (ofScale_zero s).symm⟩

theorem hasDigits_of_fits (h : Fits s q) (hlt : |q| * 10 ^ s < 10 ^ p) : HasDigits p q := by
  refine ⟨toScale s q, s, ?_, h.symm⟩
  have heq : (toScale s q : ℚ) = q * 10 ^ s := by rw [← ofScale_mul_pow s, h]
  have hcast : |(toScale s q : ℚ)| < 10 ^ p := by
    rwa [heq, abs_mul, abs_of_pos (by positivity : (0 : ℚ) < 10 ^ s)]
  exact_mod_cast hcast

theorem sig_of_fits (h : Fits s q) (hlt : |q| * 10 ^ s < 10 ^ p) : sig p q = q :=
  (hasDigits_of_fits h hlt).sig

theorem sig_pos (hp : 0 < p) (hq : 0 < q) : 0 < sig p q := by
  have hnear := sig_near p q
  have hpow : (10 : ℚ) ≤ 10 ^ p := by
    simpa using pow_le_pow_right₀ (by norm_num : (1 : ℚ) ≤ 10) hp
  rw [abs_of_pos hq] at hnear
  by_contra hle
  have habs : q ≤ |sig p q - q| := by
    rw [abs_sub_comm]
    linarith only [le_abs_self (q - sig p q), hle]
  nlinarith only [habs, hnear, hpow, hq]

/-! ## The ceiling of a quotient -/

/-- A fraction that is no integer is at least `1 / D` away from every integer. -/
theorem inv_le_abs_sub {N D m : ℤ} (hD : 0 < D) (hne : (N / D : ℚ) ≠ m) :
    1 / (D : ℚ) ≤ |(N / D : ℚ) - m| := by
  have hD' : (0 : ℚ) < D := by exact_mod_cast hD
  have hnum : N - m * D ≠ 0 := by
    intro h
    apply hne
    rw [div_eq_iff hD'.ne']
    exact_mod_cast sub_eq_zero.mp h
  have hone : (1 : ℚ) ≤ |((N - m * D : ℤ) : ℚ)| := by exact_mod_cast Int.one_le_abs hnum
  have heq : (N / D : ℚ) - m = ((N - m * D : ℤ) : ℚ) / D := by
    push_cast
    rw [sub_div, mul_div_cancel_right₀ _ hD'.ne']
  rw [heq, abs_div, abs_of_pos hD']
  exact div_le_div_of_nonneg_right hone hD'.le

/-- The rounding of a fraction to `p` digits does not reach the next integer. -/
theorem ceil_sig {N D : ℤ} (hN : 0 < N) (hD : 0 < D) (hdigits : 5 * N < 10 ^ p) :
    ⌈sig p (N / D : ℚ)⌉ = ⌈(N / D : ℚ)⌉ := by
  have hD' : (0 : ℚ) < D := by exact_mod_cast hD
  have hN' : (0 : ℚ) < N := by exact_mod_cast hN
  have hp : (0 : ℚ) < 10 ^ p := by positivity
  have hdigits' : 5 * (N : ℚ) < 10 ^ p := by exact_mod_cast hdigits
  have hle := Int.le_ceil (N / D : ℚ)
  have hlt := Int.ceil_lt_add_one (N / D : ℚ)
  set m := ⌈(N / D : ℚ)⌉ with hm
  by_cases hint : (N / D : ℚ) = m
  · have hm0 : 0 < m := by
      have : (0 : ℚ) < m := hint ▸ div_pos hN' hD'
      exact_mod_cast this
    have hmN : m ≤ N := by
      have hmul : (N : ℚ) = m * D := (div_eq_iff hD'.ne').mp hint
      have hmul' : N = m * D := by exact_mod_cast hmul
      nlinarith
    rw [hint, sig_intCast (by rw [abs_of_pos hm0]; omega), Int.ceil_intCast]
  · -- the error is below `1 / D`, which the fraction keeps from both neighbours
    have herr : |sig p (N / D : ℚ) - N / D| < 1 / D := by
      have hnear := sig_near p (N / D : ℚ)
      rw [abs_of_pos (div_pos hN' hD')] at hnear
      have hbound : 5 * (N / D : ℚ) < 1 / D * 10 ^ p := by
        rw [mul_div_assoc', div_mul_eq_mul_div, one_mul]
        exact div_lt_div_of_pos_right hdigits' hD'
      exact lt_of_mul_lt_mul_right (hnear.trans_lt hbound) hp.le
    have hbelow := inv_le_abs_sub (m := m - 1) hD (by
      intro h
      rw [h] at hlt
      simp at hlt)
    have habove := inv_le_abs_sub hD hint
    generalize (N / D : ℚ) = x at *
    push_cast at hbelow
    rw [abs_of_pos (by linarith only [hlt])] at hbelow
    rw [abs_of_neg (by linarith only [lt_of_le_of_ne hle hint])] at habove
    obtain ⟨hlo, hhi⟩ := abs_lt.mp herr
    rw [Int.ceil_eq_iff]
    constructor
    · linarith only [hlo, hbelow]
    · linarith only [hhi, habove]

/-! ## Multiples -/

/-- The multiple covers the amount. -/
theorem le_ceil_div_mul (hb : 0 < b) : a ≤ ⌈a / b⌉ * b :=
  (div_le_iff₀ hb).mp (Int.le_ceil _)

/-- Every multiple that covers the amount is at least as large. -/
theorem ceil_div_mul_le {k : ℤ} (hb : 0 < b) (h : a ≤ k * b) : (⌈a / b⌉ : ℚ) * b ≤ k * b := by
  have hle : ⌈a / b⌉ ≤ k := Int.ceil_le.mpr ((div_le_iff₀ hb).mpr h)
  exact mul_le_mul_of_nonneg_right (by exact_mod_cast hle) hb.le

theorem ceil_div_mul_lt (hb : 0 < b) : (⌈a / b⌉ : ℚ) * b < a + b := by
  have hlt := mul_lt_mul_of_pos_right (Int.ceil_lt_add_one (a / b)) hb
  rwa [add_mul, div_mul_cancel₀ _ hb.ne', one_mul] at hlt

/-- With enough digits the computed multiple is the exact one. -/
theorem times_ceil_dividedBy {t : ℕ} (ha : 0 < a) (hb : 0 < b) (hfa : Fits s a) (hfb : Fits t b)
    (hdigits : 5 * (a + b) * 10 ^ (s + t) < 10 ^ p) :
    times p ⌈dividedBy p a b⌉ b = ⌈a / b⌉ * b := by
  obtain ⟨m, rfl⟩ := fits_iff.mp hfa
  obtain ⟨n, rfl⟩ := fits_iff.mp hfb
  have hs : (0 : ℚ) < 10 ^ s := by positivity
  have ht : (0 : ℚ) < 10 ^ t := by positivity
  have hm : 0 < m := by
    have : (0 : ℚ) < m := by rw [← ofScale_mul_pow s m]; exact mul_pos ha hs
    exact_mod_cast this
  have hn : 0 < n := by
    have : (0 : ℚ) < n := by rw [← ofScale_mul_pow t n]; exact mul_pos hb ht
    exact_mod_cast this
  have hquot : ofScale s m / ofScale t n = ((m * 10 ^ t : ℤ) : ℚ) / ((n * 10 ^ s : ℤ) : ℚ) := by
    unfold ofScale
    push_cast
    rw [div_div_div_eq, mul_comm (10 ^ s : ℚ)]
  have hdigits' : 5 * (m * 10 ^ t + n * 10 ^ s) < (10 ^ p : ℤ) := by
    have heq : 5 * (ofScale s m + ofScale t n) * 10 ^ (s + t) =
        ((5 * (m * 10 ^ t + n * 10 ^ s) : ℤ) : ℚ) := by
      unfold ofScale
      push_cast
      rw [pow_add]
      field_simp
    rw [heq] at hdigits
    exact_mod_cast hdigits
  have hn0 : 0 < n * 10 ^ s := by positivity
  have hm0 : 0 < m * 10 ^ t := by positivity
  have hceil : ⌈dividedBy p (ofScale s m) (ofScale t n)⌉ = ⌈ofScale s m / ofScale t n⌉ := by
    rw [dividedBy, hquot]
    exact ceil_sig hm0 hn0 (by omega)
  rw [times, hceil]
  have hupper := ceil_div_mul_lt (a := ofScale s m) hb
  have hlower := le_ceil_div_mul (a := ofScale s m) hb
  have hfits : Fits t (⌈ofScale s m / ofScale t n⌉ * ofScale t n) :=
    fits_iff.mpr ⟨⌈ofScale s m / ofScale t n⌉ * n, by unfold ofScale; push_cast; ring⟩
  refine sig_of_fits hfits ?_
  rw [abs_of_nonneg (ha.le.trans hlower)]
  have hs1 : (1 : ℚ) ≤ 10 ^ s := one_le_pow₀ (by norm_num)
  calc (⌈ofScale s m / ofScale t n⌉ : ℚ) * ofScale t n * 10 ^ t
      ≤ (ofScale s m + ofScale t n) * 10 ^ t := mul_le_mul_of_nonneg_right hupper.le ht.le
    _ ≤ (ofScale s m + ofScale t n) * 10 ^ t * 10 ^ s :=
      le_mul_of_one_le_right (mul_pos (add_pos ha hb) ht).le hs1
    _ ≤ 5 * (ofScale s m + ofScale t n) * 10 ^ (s + t) := by
      rw [mul_assoc, ← pow_add, add_comm t s]
      have hpos : 0 ≤ (ofScale s m + ofScale t n) * 10 ^ (s + t) := by positivity
      linarith only [hpos]
    _ < 10 ^ p := hdigits

end Decimal

end ArkanGold
