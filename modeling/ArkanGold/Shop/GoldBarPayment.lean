import ArkanGold.Lib.Decimal

/-!
# How a gold bar is paid

`planGoldBarPayment`: gold of the customer stands for the weight of the bar, and what is left of
the bill is paid with more gold, from the rial wallet and at the gateway, in this order.

- Every operation is that of `Decimal` with twenty digits. For bills below `2 * 10 ^ 15` rials none
  of them rounds what the plan is made of, except the quotient that says how much gold is needed;
  `needed_spec` shows that rounding it up still suffices. Beyond that bound it need not
  (`unrated_and_oversized`).
- `InUnits`: the plan in whole rials and in units of the last place of the gold.
- `bill_split_exactly`: no source gives more than it has, the parts add up to the bill, and the
  gateway is asked for no more when there is more gold or more money.
-/

namespace ArkanGold

namespace GoldBarDeliveryService

open Decimal (Rounding toDecimalPlaces sig)

/-- The digits of a `Decimal`. -/
def precision : ℕ := 20

/-- `GOLD_DP` -/
def GOLD_DP : ℕ := 4

/-- `GoldBarPlanInput` -/
structure GoldBarPlanInput where
  priceRial : ℚ
  weightGrams : ℚ
  goldRateRial : ℚ
  goldAvailableGrams : ℚ
  rialAvailable : ℚ
  useExtraGold : Bool
  useRialWallet : Bool
  shippingRial : Option ℚ := none

/-- `GoldBarPlan` -/
structure GoldBarPlan where
  goldForBarGrams : ℚ
  goldForBarRial : ℚ
  differenceRial : ℚ
  shippingRial : ℚ
  shortfallGrams : ℚ
  extraGoldGrams : ℚ
  extraGoldRial : ℚ
  rialWalletRial : ℚ
  gatewayRial : ℚ
  goldAppliedGrams : ℚ
  goldAppliedRial : ℚ

/-- `floorG` -/
def floorG (v : ℚ) : ℚ := toDecimalPlaces GOLD_DP .down v

/-- `floorR` -/
def floorR (v : ℚ) : ℚ := toDecimalPlaces 0 .down v

/-- The extra gold for what remains to be paid, in grams and in rials. -/
def extraGold (goldRateRial extraAvailable remaining : ℚ) : ℚ × ℚ :=
  let needed := toDecimalPlaces GOLD_DP .up (Decimal.dividedBy precision remaining goldRateRial)
  if needed ≤ extraAvailable then (needed, remaining)
  else if 0 < extraAvailable then
    (extraAvailable, min (floorR (Decimal.times precision extraAvailable goldRateRial)) remaining)
  else (0, 0)

/-- More gold for the remainder, where it is wanted: what it is, and what then remains. -/
def payWithGold (i : GoldBarPlanInput) (extraAvailable remaining : ℚ) : (ℚ × ℚ) × ℚ :=
  if i.useExtraGold = true ∧ 0 < remaining ∧ 0 < i.goldRateRial then
    let extra := extraGold i.goldRateRial extraAvailable remaining
    (extra, Decimal.minus precision remaining extra.2)
  else ((0, 0), remaining)

/-- The wallet for the remainder, where it is wanted: what it pays, and what then remains. -/
def payFromWallet (i : GoldBarPlanInput) (remaining : ℚ) : ℚ × ℚ :=
  if i.useRialWallet = true ∧ 0 < remaining then
    let rialWalletRial := min (max 0 (floorR i.rialAvailable)) remaining
    (rialWalletRial, Decimal.minus precision remaining rialWalletRial)
  else (0, remaining)

/-- `planGoldBarPayment` -/
def planGoldBarPayment (i : GoldBarPlanInput) : GoldBarPlan :=
  let available := max 0 (floorG i.goldAvailableGrams)
  let goldForBarGrams := min available i.weightGrams
  let goldForBarRial :=
    min (floorR (Decimal.times precision goldForBarGrams i.goldRateRial)) i.priceRial
  let shippingRial := max 0 (i.shippingRial.getD 0)
  let differenceRial := Decimal.plus precision
    (Decimal.minus precision i.priceRial goldForBarRial) shippingRial
  let shortfallGrams := max 0 (Decimal.minus precision i.weightGrams goldForBarGrams)
  let gold := payWithGold i (Decimal.minus precision available goldForBarGrams) differenceRial
  let wallet := payFromWallet i gold.2
  { goldForBarGrams, goldForBarRial, differenceRial, shippingRial, shortfallGrams
    extraGoldGrams := gold.1.1
    extraGoldRial := gold.1.2
    rialWalletRial := wallet.1
    gatewayRial := wallet.2
    goldAppliedGrams := Decimal.plus precision goldForBarGrams gold.1.1
    goldAppliedRial := Decimal.plus precision goldForBarRial gold.1.2 }

example : (planGoldBarPayment ⟨1000, 2, 300, 3, 250, true, true, some 50⟩).gatewayRial = 0 := by
  decide +kernel

/-! ## Inputs -/

/-- Prices, rates and the shipping are whole rials and a weight has at most four places; nothing
is negative. -/
structure WellFormed (i : GoldBarPlanInput) : Prop where
  price : ∃ n : ℤ, 0 ≤ n ∧ i.priceRial = n
  weight : ∃ n : ℤ, 0 ≤ n ∧ i.weightGrams = n / 10 ^ 4
  rate : ∃ n : ℤ, 0 ≤ n ∧ i.goldRateRial = n
  gold : 0 ≤ i.goldAvailableGrams
  rial : 0 ≤ i.rialAvailable
  shipping : ∃ n : ℤ, 0 ≤ n ∧ i.shippingRial.getD 0 = n

/-- The bill and the bar are small enough for twenty digits. -/
def InDigits (i : GoldBarPlanInput) : Prop :=
  i.priceRial + i.shippingRial.getD 0 < 2 * 10 ^ 15 ∧ i.weightGrams < 8 * 10 ^ 15

/-! ## Roundings that do not round -/

variable {p : ℕ} {n m : ℤ} {q : ℚ}

theorem floorR_of_nonneg (hq : 0 ≤ q) : floorR q = ⌊q⌋ := by
  simp [floorR, toDecimalPlaces, Rounding.toInt, Numeric.ofScale, hq]

theorem floorG_of_nonneg (hq : 0 ≤ q) : floorG q = ⌊q * 10 ^ 4⌋ / 10 ^ 4 := by
  have hscaled : 0 ≤ q * 10 ^ GOLD_DP := by positivity
  simp only [floorG, toDecimalPlaces, Rounding.toInt, Numeric.ofScale, if_pos hscaled]
  rfl

theorem le_floorR (hq : 0 ≤ q) (h : (n : ℚ) ≤ q) : (n : ℚ) ≤ floorR q := by
  rw [floorR_of_nonneg hq]
  exact Int.cast_le.mpr (Int.le_floor.mpr h)

theorem floorR_le (hq : 0 ≤ q) : floorR q ≤ q := by
  rw [floorR_of_nonneg hq]
  exact Int.floor_le q

theorem floorR_mono {q' : ℚ} (hq : 0 ≤ q) (h : q ≤ q') : floorR q ≤ floorR q' := by
  rw [floorR_of_nonneg hq, floorR_of_nonneg (hq.trans h)]
  exact Int.cast_le.mpr (Int.floor_le_floor h)

/-- Fewer than twenty digits. -/
theorem sig_units (h0 : 0 ≤ n) (h : (n : ℚ) / 10 ^ 4 < 10 ^ 16) :
    sig precision ((n : ℚ) / 10 ^ 4) = n / 10 ^ 4 := by
  refine Decimal.sig_of_units ?_
  rw [div_lt_iff₀ (by positivity)] at h
  rw [abs_of_nonneg h0]
  exact_mod_cast h

/-- More than that. -/
theorem le_sig (h : 10 ^ 16 ≤ q) : 2 * 10 ^ 15 ≤ sig precision q := by
  have hpos : 0 ≤ q := le_trans (by norm_num) h
  have hnear := Decimal.sig_near precision q
  have hlow := neg_abs_le (sig precision q - q)
  rw [abs_of_nonneg hpos] at hnear
  simp only [precision] at hnear hlow ⊢
  linarith

/-- The value of gold, as far as a bill goes: beyond twenty digits it is more than the bill. -/
theorem min_floorR_sig (h0 : 0 ≤ n) (hm : (m : ℚ) < 2 * 10 ^ 15) :
    min (floorR (sig precision ((n : ℚ) / 10 ^ 4))) m = min (floorR ((n : ℚ) / 10 ^ 4)) m := by
  have hnonneg : (0 : ℚ) ≤ n / 10 ^ 4 := div_nonneg (by exact_mod_cast h0) (by positivity)
  rcases lt_or_ge ((n : ℚ) / 10 ^ 4) (10 ^ 16) with hlt | hge
  · rw [sig_units h0 hlt]
  · have hsig := hm.le.trans (le_sig hge)
    have hself : (m : ℚ) ≤ n / 10 ^ 4 := hm.le.trans (le_trans (by norm_num) hge)
    rw [min_eq_right (le_floorR (Decimal.sig_nonneg _ hnonneg) hsig),
      min_eq_right (le_floorR hnonneg hself)]

/-- The gold needed for a remainder: rounded to twenty digits and then up, it suffices. -/
theorem needed_spec {D r : ℤ} (hD0 : 0 ≤ D) (hr : 0 < r) (hD : (D : ℚ) < 2 * 10 ^ 15) :
    ∃ k : ℤ, 0 ≤ k ∧
      toDecimalPlaces GOLD_DP .up (Decimal.dividedBy precision D r) = k / 10 ^ 4 ∧
      (D : ℚ) ≤ k / 10 ^ 4 * r ∧ (k : ℚ) / 10 ^ 4 ≤ D + 1 := by
  have hr' : (0 : ℚ) < r := by exact_mod_cast hr
  have hr1 : (1 : ℚ) ≤ r := by exact_mod_cast hr
  have hD' : (0 : ℚ) ≤ D := by exact_mod_cast hD0
  have hx : (0 : ℚ) ≤ D / r := div_nonneg hD' hr'.le
  have hsig0 := Decimal.sig_nonneg precision hx
  have hnear := Decimal.sig_near precision ((D : ℚ) / r)
  rw [abs_of_nonneg hx] at hnear
  set x := sig precision ((D : ℚ) / r) with hxdef
  have hscaled : 0 ≤ x * 10 ^ GOLD_DP := by positivity
  refine ⟨⌈x * 10 ^ 4⌉, Int.ceil_nonneg (by positivity), ?_, ?_, ?_⟩
  · rw [Decimal.dividedBy, ← hxdef]
    simp only [toDecimalPlaces, Rounding.toInt, Numeric.ofScale, if_pos hscaled]
    rfl
  · -- a multiple of the unit below the quotient is too far below it to be reached by rounding
    by_contra hlt
    set k := ⌈x * 10 ^ 4⌉ with hk
    have hceil : x * 10 ^ 4 ≤ k := Int.le_ceil _
    have hlow := neg_abs_le (x - D / r)
    have hgap : (k * r + 1 : ℤ) ≤ 10 ^ 4 * D := by
      have hint : ((k * r : ℤ) : ℚ) < (10 ^ 4 * D : ℤ) := by
        push_cast
        rw [not_le, div_mul_eq_mul_div, div_lt_iff₀ (by positivity)] at hlt
        linarith
      exact Int.add_one_le_of_lt (Int.cast_lt.mp hint)
    have hgap' : (k : ℚ) * r + 1 ≤ 10 ^ 4 * D := by exact_mod_cast hgap
    have hquot : (D : ℚ) / r * r = D := div_mul_cancel₀ _ hr'.ne'
    set e := |x - D / r|
    have hfar : e * r * 10 ^ 20 ≤ 5 * D := by
      have hscale := mul_le_mul_of_nonneg_right hnear hr'.le
      simp only [precision] at hscale
      rwa [mul_assoc 5, hquot, mul_right_comm] at hscale
    have hreach : (D / r - e) * 10 ^ 4 * r ≤ k * r := by
      refine mul_le_mul_of_nonneg_right (le_trans ?_ hceil) hr'.le
      linarith
    have hsplit : (D / r - e) * 10 ^ 4 * r = 10 ^ 4 * D - e * r * 10 ^ 4 := by
      linear_combination 10 ^ 4 * hquot
    linarith
  · have hceil := (Int.ceil_lt_add_one (x * 10 ^ 4)).le
    have hup := le_abs_self (x - D / r)
    have hquot : (D : ℚ) / r ≤ D := div_le_self hD' hr1
    rw [div_le_iff₀ (by positivity)]
    simp only [precision] at hnear
    linarith

theorem floorR_units {n : ℤ} (h0 : 0 ≤ n) : floorR ((n : ℚ) / 10 ^ 4) = (n / 10 ^ 4 : ℤ) := by
  rw [floorR_of_nonneg (div_nonneg (Int.cast_nonneg h0) (by positivity))]
  exact_mod_cast Rat.floor_intCast_div_natCast n (10 ^ 4)

/-- What is paid with units of gold: the whole remainder, or what the units are worth. They cover
what is paid with them, and they are all gone where they do not cover the remainder. -/
theorem extraGold_spec {D r u : ℤ} (hD0 : 0 ≤ D) (hr : 0 < r) (hu : 0 ≤ u)
    (hD : (D : ℚ) < 2 * 10 ^ 15) :
    ∃ k : ℤ, 0 ≤ k ∧ k ≤ u ∧ (k : ℚ) / 10 ^ 4 ≤ 2 * 10 ^ 15 ∧
      extraGold r (sig precision ((u : ℚ) / 10 ^ 4)) D
        = ((k : ℚ) / 10 ^ 4, ((min (u * r / 10 ^ 4) D : ℤ) : ℚ)) ∧
      ((min (u * r / 10 ^ 4) D : ℤ) : ℚ) ≤ k / 10 ^ 4 * r ∧
      (min (u * r / 10 ^ 4) D < D → k = u) := by
  have hr1 : (1 : ℚ) ≤ r := by exact_mod_cast hr
  have hint : D + 1 ≤ 2 * 10 ^ 15 := Int.add_one_le_of_lt (by exact_mod_cast hD)
  have hint' : (D : ℚ) + 1 ≤ 2 * 10 ^ 15 := by exact_mod_cast hint
  obtain ⟨n, hn0, hneeded, hsuffices, hbound⟩ := needed_spec hD0 hr hD
  have hu' : (0 : ℚ) ≤ u / 10 ^ 4 := div_nonneg (Int.cast_nonneg hu) (by positivity)
  rw [extraGold, hneeded]
  rcases le_or_gt n u with hle | hgt
  · -- enough gold
    have hcover : (D : ℤ) ≤ u * r / 10 ^ 4 := by
      rw [Int.le_ediv_iff_mul_le (by norm_num)]
      have hmul : ((D * 10 ^ 4 : ℤ) : ℚ) ≤ (n * r : ℤ) := by
        push_cast
        rw [div_mul_eq_mul_div, le_div_iff₀ (by positivity)] at hsuffices
        exact hsuffices
      exact (Int.cast_le.mp hmul).trans (Int.mul_le_mul_of_nonneg_right hle hr.le)
    have hsig : (n : ℚ) / 10 ^ 4 ≤ sig precision ((u : ℚ) / 10 ^ 4) := by
      rcases lt_or_ge ((u : ℚ) / 10 ^ 4) (10 ^ 16) with hlt | hge
      · rw [sig_units hu hlt]
        exact div_le_div_of_nonneg_right (Int.cast_le.mpr hle) (by positivity)
      · exact (hbound.trans hint').trans (le_trans (by norm_num) (le_sig hge))
    rw [if_pos hsig, min_eq_right hcover]
    exact ⟨n, hn0, hle, hbound.trans hint', rfl, hsuffices, fun hlt => absurd hlt (lt_irrefl _)⟩
  · -- too little gold, hence few digits
    have hlt : (u : ℚ) / 10 ^ 4 < n / 10 ^ 4 :=
      div_lt_div_of_pos_right (Int.cast_lt.mpr hgt) (by positivity)
    have hsmall : (u : ℚ) / 10 ^ 4 ≤ 2 * 10 ^ 15 := hlt.le.trans (hbound.trans hint')
    have hvalue : (0 : ℤ) ≤ u * r := mul_nonneg hu hr.le
    have hworth : ((min (u * r / 10 ^ 4) D : ℤ) : ℚ) ≤ u / 10 ^ 4 * r := by
      have hfloor := floorR_le (div_nonneg (Int.cast_nonneg hvalue) (by positivity) :
        (0 : ℚ) ≤ ((u * r : ℤ) : ℚ) / 10 ^ 4)
      rw [floorR_units hvalue] at hfloor
      rw [div_mul_eq_mul_div, ← Int.cast_mul]
      exact (Int.cast_le.mpr (min_le_left _ _)).trans hfloor
    rw [sig_units hu (hsmall.trans_lt (by norm_num)), if_neg hlt.not_ge]
    refine ⟨u, hu, le_rfl, hsmall, ?_, hworth, fun _ => rfl⟩
    split
    · rw [Decimal.times, div_mul_eq_mul_div, ← Int.cast_mul, min_floorR_sig hvalue hD,
        floorR_units hvalue, Int.cast_min]
    · have hzero : u = 0 := by
        by_contra hne
        have hpos : (0 : ℚ) < u / 10 ^ 4 :=
          div_pos (Int.cast_pos.mpr (by omega)) (by positivity)
        contradiction
      subst hzero
      simp [min_eq_left hD0]

/-! ## The plan in whole numbers -/

namespace GoldBarPlanInput

variable (i : GoldBarPlanInput)

/-- The price in rials. -/
def price : ℤ := ⌊i.priceRial⌋

/-- The shipping in rials. -/
def shipping : ℤ := ⌊i.shippingRial.getD 0⌋

/-- The rate in rials. -/
def rate : ℤ := ⌊i.goldRateRial⌋

/-- The weight in units of the last place. -/
def weight : ℤ := ⌊i.weightGrams * 10 ^ 4⌋

/-- The gold in units of the last place. -/
def gold : ℤ := ⌊i.goldAvailableGrams * 10 ^ 4⌋

/-- The wallet in rials. -/
def rial : ℤ := ⌊i.rialAvailable⌋

/-- The units that stand for the weight of the bar. -/
def barUnits : ℤ := min i.gold i.weight

/-- What they are worth, up to the price. -/
def barRial : ℤ := min (i.barUnits * i.rate / 10 ^ 4) i.price

/-- What is left of the bill. -/
def difference : ℤ := i.price - i.barRial + i.shipping

/-- What more gold pays of it. -/
def extraRial : ℤ :=
  if i.useExtraGold then min ((i.gold - i.barUnits) * i.rate / 10 ^ 4) i.difference else 0

/-- What the wallet pays of the rest. -/
def walletRial : ℤ :=
  if i.useRialWallet then min i.rial (i.difference - i.extraRial) else 0

end GoldBarPlanInput

section Exact

variable {i : GoldBarPlanInput}

theorem WellFormed.price_eq (h : WellFormed i) : i.priceRial = i.price ∧ 0 ≤ i.price := by
  obtain ⟨n, hn, heq⟩ := h.price
  simp [GoldBarPlanInput.price, heq, hn]

theorem WellFormed.shipping_eq (h : WellFormed i) :
    i.shippingRial.getD 0 = i.shipping ∧ 0 ≤ i.shipping := by
  obtain ⟨n, hn, heq⟩ := h.shipping
  simp [GoldBarPlanInput.shipping, heq, hn]

theorem WellFormed.rate_eq (h : WellFormed i) : i.goldRateRial = i.rate ∧ 0 ≤ i.rate := by
  obtain ⟨n, hn, heq⟩ := h.rate
  simp [GoldBarPlanInput.rate, heq, hn]

theorem WellFormed.weight_eq (h : WellFormed i) :
    i.weightGrams = i.weight / 10 ^ 4 ∧ 0 ≤ i.weight := by
  obtain ⟨n, hn, heq⟩ := h.weight
  simp [GoldBarPlanInput.weight, heq, hn]

theorem WellFormed.gold_nonneg (h : WellFormed i) : 0 ≤ i.gold :=
  Int.floor_nonneg.mpr (mul_nonneg h.gold (by positivity))

theorem WellFormed.rial_nonneg (h : WellFormed i) : 0 ≤ i.rial := Int.floor_nonneg.mpr h.rial

theorem WellFormed.barUnits_nonneg (h : WellFormed i) : 0 ≤ i.barUnits :=
  le_min h.gold_nonneg h.weight_eq.2

theorem WellFormed.barRial_nonneg (h : WellFormed i) : 0 ≤ i.barRial :=
  le_min (Int.ediv_nonneg (mul_nonneg h.barUnits_nonneg h.rate_eq.2) (by norm_num)) h.price_eq.2

theorem WellFormed.difference_nonneg (h : WellFormed i) : 0 ≤ i.difference := by
  have hcap : i.barRial ≤ i.price := min_le_right _ _
  have hship := h.shipping_eq.2
  rw [GoldBarPlanInput.difference]
  omega

/-- What is left over when the weight of the bar is covered. -/
theorem leftUnits_nonneg : 0 ≤ i.gold - i.barUnits :=
  sub_nonneg.mpr (min_le_left _ _)

theorem WellFormed.extraRial_nonneg (h : WellFormed i) : 0 ≤ i.extraRial := by
  unfold GoldBarPlanInput.extraRial
  split
  · exact le_min (Int.ediv_nonneg (mul_nonneg leftUnits_nonneg h.rate_eq.2) (by norm_num))
      h.difference_nonneg
  · exact le_rfl

theorem WellFormed.extraRial_le (h : WellFormed i) : i.extraRial ≤ i.difference := by
  unfold GoldBarPlanInput.extraRial
  split
  · exact min_le_right _ _
  · exact h.difference_nonneg

theorem WellFormed.walletRial_nonneg (h : WellFormed i) : 0 ≤ i.walletRial := by
  unfold GoldBarPlanInput.walletRial
  split
  · exact le_min h.rial_nonneg (sub_nonneg.mpr h.extraRial_le)
  · exact le_rfl

theorem WellFormed.walletRial_le (h : WellFormed i) :
    i.walletRial ≤ i.difference - i.extraRial := by
  unfold GoldBarPlanInput.walletRial
  split
  · exact min_le_right _ _
  · exact sub_nonneg.mpr h.extraRial_le

/-- Of the bill nothing needs more than sixteen digits. -/
theorem InDigits.bill (hd : InDigits i) (h : WellFormed i) :
    i.price + i.shipping < 2 * 10 ^ 15 := by
  have hlt := hd.1
  rw [h.price_eq.1, h.shipping_eq.1] at hlt
  exact_mod_cast hlt

theorem InDigits.bar (hd : InDigits i) (h : WellFormed i) :
    (i.weight : ℚ) / 10 ^ 4 < 8 * 10 ^ 15 := by
  rw [← h.weight_eq.1]
  exact hd.2

/-- Whole rials of a bill are exact. -/
theorem sig_rial {n : ℤ} (h0 : 0 ≤ n) (h : n < 2 * 10 ^ 15) : sig precision n = n := by
  refine Decimal.sig_intCast ?_
  rw [abs_of_nonneg h0, precision]
  omega

theorem available_eq (h : WellFormed i) :
    max 0 (floorG i.goldAvailableGrams) = (i.gold : ℚ) / 10 ^ 4 := by
  rw [floorG_of_nonneg h.gold]
  exact max_eq_right (div_nonneg (Int.cast_nonneg h.gold_nonneg) (by positivity))

theorem goldForBarGrams_eq (h : WellFormed i) :
    (planGoldBarPayment i).goldForBarGrams = (i.barUnits : ℚ) / 10 ^ 4 := by
  simp only [planGoldBarPayment]
  rw [available_eq h, h.weight_eq.1, GoldBarPlanInput.barUnits, Int.cast_min,
    min_div_div_right (by positivity)]

theorem goldForBarRial_eq (h : WellFormed i) (hd : InDigits i) :
    (planGoldBarPayment i).goldForBarRial = i.barRial := by
  have hbar := goldForBarGrams_eq h
  have hunits := mul_nonneg h.barUnits_nonneg h.rate_eq.2
  have hbill := hd.bill h
  have hship := h.shipping_eq.2
  have hprice : (i.price : ℚ) < 2 * 10 ^ 15 := by
    exact_mod_cast (by omega : i.price < 2 * 10 ^ 15)
  simp only [planGoldBarPayment] at hbar ⊢
  rw [hbar, h.rate_eq.1, h.price_eq.1, Decimal.times, div_mul_eq_mul_div, ← Int.cast_mul,
    min_floorR_sig hunits hprice, floorR_units hunits, GoldBarPlanInput.barRial, Int.cast_min]

theorem shippingRial_eq (h : WellFormed i) : (planGoldBarPayment i).shippingRial = i.shipping := by
  simp only [planGoldBarPayment]
  rw [h.shipping_eq.1]
  exact max_eq_right (Int.cast_nonneg h.shipping_eq.2)

theorem differenceRial_eq (h : WellFormed i) (hd : InDigits i) :
    (planGoldBarPayment i).differenceRial = i.difference := by
  have hbar := goldForBarRial_eq h hd
  have hship := shippingRial_eq h
  have hcap : i.barRial ≤ i.price := min_le_right _ _
  have hbar0 := h.barRial_nonneg
  have hship0 := h.shipping_eq.2
  have hbill := hd.bill h
  simp only [planGoldBarPayment] at hbar hship ⊢
  rw [hbar, hship, h.price_eq.1, Decimal.minus, ← Int.cast_sub, sig_rial (by omega) (by omega),
    Decimal.plus, ← Int.cast_add, sig_rial (by omega) (by omega), GoldBarPlanInput.difference]

theorem InDigits.difference (hd : InDigits i) (h : WellFormed i) :
    i.difference < 2 * 10 ^ 15 := by
  have hbill := hd.bill h
  have hbar := h.barRial_nonneg
  rw [GoldBarPlanInput.difference]
  omega

/-- The extra gold of the plan, in units, and what remains of the difference. -/
theorem payWithGold_eq (h : WellFormed i) (hd : InDigits i) :
    ∃ k : ℤ, 0 ≤ k ∧ k ≤ i.gold - i.barUnits ∧ (k : ℚ) / 10 ^ 4 ≤ 2 * 10 ^ 15 ∧
      payWithGold i (Decimal.minus precision (i.gold / 10 ^ 4) (i.barUnits / 10 ^ 4)) i.difference
        = (((k : ℚ) / 10 ^ 4, (i.extraRial : ℚ)), ((i.difference - i.extraRial : ℤ) : ℚ)) ∧
      (i.extraRial : ℚ) ≤ k / 10 ^ 4 * i.rate ∧
      (i.useExtraGold = true → 0 < i.rate → i.extraRial < i.difference →
        k = i.gold - i.barUnits) := by
  have hleft : 0 ≤ i.gold - i.barUnits := leftUnits_nonneg
  have hdiff0 := h.difference_nonneg
  have hdiff := hd.difference h
  rw [payWithGold, h.rate_eq.1, Decimal.minus, ← sub_div, ← Int.cast_sub]
  simp only [Int.cast_pos]
  by_cases hextra : i.useExtraGold = true ∧ 0 < i.difference ∧ 0 < i.rate
  · obtain ⟨k, hk0, hk, hsmall, heq, hcover, hall⟩ := extraGold_spec hdiff0 hextra.2.2 hleft
      (by exact_mod_cast hdiff)
    have hrial : i.extraRial = min ((i.gold - i.barUnits) * i.rate / 10 ^ 4) i.difference := by
      rw [GoldBarPlanInput.extraRial, if_pos hextra.1]
    have hextra0 := h.extraRial_nonneg
    have hle := h.extraRial_le
    rw [← hrial] at heq hcover hall
    refine ⟨k, hk0, hk, hsmall, ?_, hcover, fun _ _ => hall⟩
    rw [if_pos hextra, heq, Decimal.minus, ← Int.cast_sub, sig_rial (by omega) (by omega)]
  · have hzero : i.extraRial = 0 := by
      have hrate0 := h.rate_eq.2
      rw [GoldBarPlanInput.extraRial]
      split
      · rename_i hflag
        rcases hdiff0.eq_or_lt with hd0 | hdpos
        · rw [← hd0]
          exact min_eq_right (Int.ediv_nonneg (mul_nonneg hleft hrate0) (by norm_num))
        · have hrate : i.rate = 0 := by
            by_contra hne
            exact hextra ⟨hflag, hdpos, lt_of_le_of_ne hrate0 (Ne.symm hne)⟩
          simp [hrate, hdiff0]
      · rfl
    rw [if_neg hextra, hzero]
    refine ⟨0, le_rfl, hleft, by norm_num, by simp, by simp, ?_⟩
    intro hflag hrate hlt
    exact absurd ⟨hflag, hlt, hrate⟩ hextra

theorem payFromWallet_eq (h : WellFormed i) (hd : InDigits i) :
    payFromWallet i ((i.difference - i.extraRial : ℤ) : ℚ)
      = ((i.walletRial : ℚ), ((i.difference - i.extraRial - i.walletRial : ℤ) : ℚ)) := by
  have hrial0 := h.rial_nonneg
  have hrial : max 0 (floorR i.rialAvailable) = i.rial := by
    rw [floorR_of_nonneg h.rial]
    exact max_eq_right (Int.cast_nonneg hrial0)
  have hextra0 := h.extraRial_nonneg
  have hextra := h.extraRial_le
  have hdiff := hd.difference h
  have hwallet : i.walletRial
      = if i.useRialWallet then min i.rial (i.difference - i.extraRial) else 0 := rfl
  rw [payFromWallet, hrial]
  simp only [Int.cast_pos]
  by_cases hpays : i.useRialWallet = true ∧ 0 < i.difference - i.extraRial
  · have hmin0 := le_min hrial0 hpays.2.le
    have hmin := min_le_right i.rial (i.difference - i.extraRial)
    rw [if_pos hpays, hwallet, if_pos hpays.1, ← Int.cast_min, Decimal.minus, ← Int.cast_sub,
      sig_rial (by omega) (by omega)]
  · have hzero : i.walletRial = 0 := by
      rw [hwallet]
      split
      · rename_i hflag
        rw [show i.difference - i.extraRial = 0 by
          by_contra hne
          exact hpays ⟨hflag, by omega⟩]
        exact min_eq_right hrial0
      · rfl
    rw [if_neg hpays, hzero, sub_zero, Int.cast_zero]

/-- The plan in whole rials and units of gold. -/
structure InUnits (i : GoldBarPlanInput) (k : ℤ) : Prop where
  nonneg : 0 ≤ k
  left : k ≤ i.gold - i.barUnits
  covers : (i.extraRial : ℚ) ≤ k / 10 ^ 4 * i.rate
  exhausted : i.useExtraGold = true → 0 < i.rate → i.extraRial < i.difference →
    k = i.gold - i.barUnits
  extraGoldGrams : (planGoldBarPayment i).extraGoldGrams = k / 10 ^ 4
  extraGoldRial : (planGoldBarPayment i).extraGoldRial = i.extraRial
  rialWalletRial : (planGoldBarPayment i).rialWalletRial = i.walletRial
  gatewayRial : (planGoldBarPayment i).gatewayRial
    = ((i.difference - i.extraRial - i.walletRial : ℤ) : ℚ)
  goldAppliedRial : (planGoldBarPayment i).goldAppliedRial = ((i.barRial + i.extraRial : ℤ) : ℚ)
  goldAppliedGrams : (planGoldBarPayment i).goldAppliedGrams
    = ((i.barUnits + k : ℤ) : ℚ) / 10 ^ 4

theorem inUnits (h : WellFormed i) (hd : InDigits i) : ∃ k, InUnits i k := by
  obtain ⟨k, hk0, hk, hsmall, hgold, hcovers, hall⟩ := payWithGold_eq h hd
  have hbar := goldForBarGrams_eq h
  have hbarRial := goldForBarRial_eq h hd
  have hdiff := differenceRial_eq h hd
  have hwallet := payFromWallet_eq h hd
  have hunits0 := h.barUnits_nonneg
  have hunits : (i.barUnits : ℚ) / 10 ^ 4 ≤ i.weight / 10 ^ 4 :=
    div_le_div_of_nonneg_right (Int.cast_le.mpr (min_le_right _ _)) (by positivity)
  have hweight := hd.bar h
  have hbill := hd.bill h
  have hbarRial0 := h.barRial_nonneg
  have hextra0 := h.extraRial_nonneg
  have hextra := h.extraRial_le
  have hdiffEq : i.difference = i.price - i.barRial + i.shipping := rfl
  have hplan : payWithGold i (Decimal.minus precision (max 0 (floorG i.goldAvailableGrams))
      (planGoldBarPayment i).goldForBarGrams) (planGoldBarPayment i).differenceRial
        = (((k : ℚ) / 10 ^ 4, (i.extraRial : ℚ)), ((i.difference - i.extraRial : ℤ) : ℚ)) := by
    rw [hbar, hdiff, available_eq h, hgold]
  refine ⟨k, hk0, hk, hcovers, hall, ?_, ?_, ?_, ?_, ?_, ?_⟩
  · exact congrArg (fun paid => paid.1.1) hplan
  · exact congrArg (fun paid => paid.1.2) hplan
  · have hpaid := congrArg (fun paid => (payFromWallet i paid.2).1) hplan
    rw [hwallet] at hpaid
    exact hpaid
  · have hpaid := congrArg (fun paid => (payFromWallet i paid.2).2) hplan
    rw [hwallet] at hpaid
    exact hpaid
  · have hsum := congrArg (fun paid => Decimal.plus precision
      (planGoldBarPayment i).goldForBarRial paid.1.2) hplan
    rw [hbarRial, Decimal.plus, Decimal.plus, ← Int.cast_add,
      sig_rial (by omega) (by omega)] at hsum
    rw [← hsum, ← hbarRial]
    rfl
  · have hsum := congrArg (fun paid => Decimal.plus precision
      (planGoldBarPayment i).goldForBarGrams paid.1.1) hplan
    rw [hbar, Decimal.plus, Decimal.plus, ← add_div, ← Int.cast_add, sig_units (by omega)] at hsum
    · rw [← hsum, ← hbar]
      rfl
    · rw [Int.cast_add, add_div]
      linarith

end Exact

/-! ## What a plan promises -/

/-- Every source that may be used is used up, to one unit of its rounding: the gold for the bar
unless the whole weight is covered, more gold where it is wanted and has a rate, the wallet where
it is wanted. -/
structure Exhausted (i : GoldBarPlanInput) (plan : GoldBarPlan) : Prop where
  bar : plan.goldForBarGrams = i.weightGrams ∨
    i.goldAvailableGrams - plan.goldForBarGrams < 1 / 10 ^ 4
  gold : i.useExtraGold = true → 0 < i.goldRateRial →
    i.goldAvailableGrams - plan.goldAppliedGrams < 1 / 10 ^ 4
  wallet : i.useRialWallet = true → i.rialAvailable - plan.rialWalletRial < 1

/-- The bill is split between gold, wallet and gateway, and no source gives more than it has. -/
structure SplitsTheBill (i : GoldBarPlanInput) (plan : GoldBarPlan) : Prop where
  sum : plan.goldAppliedRial + plan.rialWalletRial + plan.gatewayRial
    = i.priceRial + i.shippingRial.getD 0
  gold_nonneg : 0 ≤ plan.goldAppliedGrams ∧ 0 ≤ plan.goldAppliedRial
  wallet_nonneg : 0 ≤ plan.rialWalletRial
  gateway_nonneg : 0 ≤ plan.gatewayRial
  gold_le : plan.goldAppliedGrams ≤ i.goldAvailableGrams
  wallet_le : plan.rialWalletRial ≤ i.rialAvailable
  value_le : plan.goldAppliedRial ≤ plan.goldAppliedGrams * i.goldRateRial
  exhausted : plan.gatewayRial ≠ 0 → Exhausted i plan

section Promise

variable {i : GoldBarPlanInput}

theorem gold_floor :
    (i.gold : ℚ) / 10 ^ 4 ≤ i.goldAvailableGrams ∧
      i.goldAvailableGrams < (i.gold : ℚ) / 10 ^ 4 + 1 / 10 ^ 4 := by
  have hle : (i.gold : ℚ) ≤ i.goldAvailableGrams * 10 ^ 4 := Int.floor_le _
  have hlt : i.goldAvailableGrams * 10 ^ 4 < (i.gold : ℚ) + 1 := Int.lt_floor_add_one _
  constructor
  · rwa [div_le_iff₀ (by positivity)]
  · rwa [← add_div, lt_div_iff₀ (by positivity)]

theorem barRial_le (h : WellFormed i) : (i.barRial : ℚ) ≤ i.barUnits / 10 ^ 4 * i.rate := by
  have hvalue := mul_nonneg h.barUnits_nonneg h.rate_eq.2
  have hfloor := floorR_le (div_nonneg (Int.cast_nonneg hvalue) (by positivity) :
    (0 : ℚ) ≤ ((i.barUnits * i.rate : ℤ) : ℚ) / 10 ^ 4)
  rw [floorR_units hvalue] at hfloor
  rw [div_mul_eq_mul_div, ← Int.cast_mul]
  exact (Int.cast_le.mpr (min_le_left _ _)).trans hfloor

theorem InUnits.exhausted_of_gateway {k : ℤ} (hk : InUnits i k) (h : WellFormed i)
    (hgateway : i.difference - i.extraRial - i.walletRial ≠ 0) :
    Exhausted i (planGoldBarPayment i) := by
  have hgold := gold_floor (i := i)
  have hextra := h.extraRial_le
  have hwallet := h.walletRial_le
  have hwallet0 := h.walletRial_nonneg
  constructor
  · rw [goldForBarGrams_eq h, h.weight_eq.1]
    rcases le_total i.weight i.gold with hle | hle
    · left
      rw [GoldBarPlanInput.barUnits, min_eq_right hle]
    · right
      rw [GoldBarPlanInput.barUnits, min_eq_left hle]
      linarith
  · intro hflag hrate
    rw [h.rate_eq.1, Int.cast_pos] at hrate
    rw [hk.goldAppliedGrams, hk.exhausted hflag hrate (by omega), add_sub_cancel]
    linarith
  · intro hflag
    have hall : i.walletRial = i.rial := by
      have heq : i.walletRial = min i.rial (i.difference - i.extraRial) := by
        rw [GoldBarPlanInput.walletRial, if_pos hflag]
      omega
    rw [hk.rialWalletRial, hall]
    have hfloor : i.rialAvailable < i.rial + 1 := Int.lt_floor_add_one _
    linarith

theorem splitsTheBill (h : WellFormed i) (hd : InDigits i) :
    SplitsTheBill i (planGoldBarPayment i) := by
  obtain ⟨k, hk⟩ := inUnits h hd
  have hbar0 := h.barRial_nonneg
  have hextra0 := h.extraRial_nonneg
  have hunits0 := h.barUnits_nonneg
  have hk0 := hk.nonneg
  have hleft := hk.left
  have hwallet := h.walletRial_le
  constructor
  · rw [hk.goldAppliedRial, hk.rialWalletRial, hk.gatewayRial, h.price_eq.1, h.shipping_eq.1,
      GoldBarPlanInput.difference]
    push_cast
    ring
  · rw [hk.goldAppliedGrams, hk.goldAppliedRial]
    exact ⟨div_nonneg (Int.cast_nonneg (by omega)) (by positivity), Int.cast_nonneg (by omega)⟩
  · rw [hk.rialWalletRial]
    exact Int.cast_nonneg h.walletRial_nonneg
  · rw [hk.gatewayRial]
    exact Int.cast_nonneg (by omega)
  · rw [hk.goldAppliedGrams]
    refine le_trans ?_ gold_floor.1
    exact div_le_div_of_nonneg_right (Int.cast_le.mpr (by omega)) (by positivity)
  · rw [hk.rialWalletRial]
    have hle : i.walletRial ≤ i.rial := by
      have hrial := h.rial_nonneg
      unfold GoldBarPlanInput.walletRial
      split
      · exact min_le_left _ _
      · exact hrial
    exact (Int.cast_le.mpr hle).trans (Int.floor_le _)
  · have hbar := barRial_le h
    have hcovers := hk.covers
    rw [hk.goldAppliedRial, hk.goldAppliedGrams, h.rate_eq.1, Int.cast_add, Int.cast_add, add_div,
      add_mul]
    linarith
  · intro hgateway
    rw [hk.gatewayRial, Int.cast_ne_zero] at hgateway
    exact hk.exhausted_of_gateway h hgateway

/-- With more gold and more money. -/
def withMore (i : GoldBarPlanInput) (gold rial : ℚ) : GoldBarPlanInput :=
  { i with goldAvailableGrams := gold, rialAvailable := rial }

variable {gold rial : ℚ}

theorem WellFormed.withMore (h : WellFormed i) (hgold : i.goldAvailableGrams ≤ gold)
    (hrial : i.rialAvailable ≤ rial) : WellFormed (withMore i gold rial) :=
  ⟨h.price, h.weight, h.rate, h.gold.trans hgold, h.rial.trans hrial, h.shipping⟩

/-- What gold pays of the bill, and that more gold pays no less of it. -/
theorem barRial_extra_mono (h : WellFormed i) (hgold : i.goldAvailableGrams ≤ gold) :
    i.barRial ≤ (withMore i gold rial).barRial ∧
      (i.gold - i.barUnits) * i.rate / 10 ^ 4
        ≤ ((withMore i gold rial).gold - (withMore i gold rial).barUnits) * i.rate / 10 ^ 4 := by
  have hunits : i.gold ≤ (withMore i gold rial).gold :=
    Int.floor_le_floor (mul_le_mul_of_nonneg_right hgold (by positivity))
  have hrate := h.rate_eq.2
  have hbar : i.barUnits ≤ (withMore i gold rial).barUnits := min_le_min_right _ hunits
  have hleft : i.gold - i.barUnits
      ≤ (withMore i gold rial).gold - (withMore i gold rial).barUnits := by
    have hweight : (withMore i gold rial).weight = i.weight := rfl
    simp only [GoldBarPlanInput.barUnits, hweight]
    omega
  exact ⟨min_le_min_right _ (Int.ediv_le_ediv (by norm_num)
      (Int.mul_le_mul_of_nonneg_right hbar hrate)),
    Int.ediv_le_ediv (by norm_num) (Int.mul_le_mul_of_nonneg_right hleft hrate)⟩

theorem gateway_antitone (h : WellFormed i) (hd : InDigits i)
    (hgold : i.goldAvailableGrams ≤ gold) (hrial : i.rialAvailable ≤ rial) :
    (planGoldBarPayment (withMore i gold rial)).gatewayRial
      ≤ (planGoldBarPayment i).gatewayRial := by
  obtain ⟨k, hk⟩ := inUnits h hd
  obtain ⟨k', hk'⟩ := inUnits (h.withMore hgold hrial) hd
  obtain ⟨hbar, hextra⟩ := (@barRial_extra_mono _ _ rial) h hgold
  have hrialUnits : i.rial ≤ (withMore i gold rial).rial := Int.floor_le_floor hrial
  have hdiff : (withMore i gold rial).difference
      = i.price - (withMore i gold rial).barRial + i.shipping := rfl
  have hdiff' : i.difference = i.price - i.barRial + i.shipping := rfl
  rw [hk.gatewayRial, hk'.gatewayRial, Int.cast_le]
  have hflags : (withMore i gold rial).useExtraGold = i.useExtraGold ∧
      (withMore i gold rial).useRialWallet = i.useRialWallet := ⟨rfl, rfl⟩
  have hrate : (withMore i gold rial).rate = i.rate := rfl
  have hrest : (withMore i gold rial).difference - (withMore i gold rial).extraRial
      ≤ i.difference - i.extraRial := by
    simp only [GoldBarPlanInput.extraRial, hflags.1, hrate]
    split <;> omega
  have hrest0 := h.extraRial_le
  have hrest1 := (h.withMore hgold hrial).extraRial_le
  have hrial0 := h.rial_nonneg
  simp only [GoldBarPlanInput.walletRial, hflags.2]
  split <;> omega

end Promise

/-- For whole rials and weights of four places, with a bill below `2 * 10 ^ 15`, the plan splits
the bill, and with more gold or more money the gateway is asked for no more. -/
theorem bill_split_exactly (i : GoldBarPlanInput) (h : WellFormed i) (hd : InDigits i) :
    SplitsTheBill i (planGoldBarPayment i) ∧
      ∀ gold rial, i.goldAvailableGrams ≤ gold → i.rialAvailable ≤ rial →
        (planGoldBarPayment (withMore i gold rial)).gatewayRial
          ≤ (planGoldBarPayment i).gatewayRial :=
  ⟨splitsTheBill h hd, fun _ _ hgold hrial => gateway_antitone h hd hgold hrial⟩

/-- A bar of two grams at a rate of 300: the rest of its price takes more gold, the wallet and the
gateway. -/
def bar : GoldBarPlanInput := ⟨1000, 2, 300, 21 / 10, 250, true, true, some 50⟩

theorem bar_split_exactly :
    SplitsTheBill bar (planGoldBarPayment bar) ∧
      ∀ gold rial, bar.goldAvailableGrams ≤ gold → bar.rialAvailable ≤ rial →
        (planGoldBarPayment (withMore bar gold rial)).gatewayRial
          ≤ (planGoldBarPayment bar).gatewayRial := by
  refine bill_split_exactly bar ⟨⟨1000, by decide, rfl⟩, ⟨20000, by decide, ?_⟩,
    ⟨300, by decide, rfl⟩, ?_, ?_, ⟨50, by decide, rfl⟩⟩ ⟨?_, ?_⟩ <;> norm_num [bar]

/-- No rate: more gold is wanted and there, and the gateway is asked for the bill. -/
def unrated : GoldBarPlanInput := ⟨100, 1, 0, 5, 0, true, true, none⟩

/-- A bill beyond `2 * 10 ^ 15`: twenty digits do not see that the gold is worth less. -/
def oversized : GoldBarPlanInput := ⟨2000000119998001, 0, 20000001, 200000000, 0, true, true, none⟩

theorem unrated_and_oversized :
    (WellFormed unrated ∧ unrated.useExtraGold = true ∧
      (planGoldBarPayment unrated).gatewayRial = 100 ∧
      unrated.goldAvailableGrams - (planGoldBarPayment unrated).goldAppliedGrams = 4) ∧
    (WellFormed oversized ∧
      (planGoldBarPayment oversized).goldAppliedGrams * oversized.goldRateRial
        < (planGoldBarPayment oversized).goldAppliedRial) := by
  refine ⟨⟨⟨⟨100, by decide, rfl⟩, ⟨10000, by decide, ?_⟩, ⟨0, by decide, rfl⟩, ?_, ?_,
    ⟨0, by decide, rfl⟩⟩, rfl, ?_, ?_⟩, ⟨⟨2000000119998001, by decide, rfl⟩, ⟨0, by decide, ?_⟩,
    ⟨20000001, by decide, rfl⟩, ?_, ?_, ⟨0, by decide, rfl⟩⟩, ?_⟩
  all_goals decide +kernel

end GoldBarDeliveryService

end ArkanGold
