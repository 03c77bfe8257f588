import ArkanGold.Shop.ShippingCalculator

/-!
# The price of shipping

- `rateFee_mono`, `le_rateFee`, `rateFee_le`: the fee of a rate grows with the weight and the value
  and keeps to its limits, the upper one rounded up like the fee itself.
- `decidingRate_spec`: the zone that decides on a method comes before all others that match and have
  a rate for it. Zones of one specificity and one `sortOrder` are in the order of the listing;
  `quote_perm` says that nothing else depends on it.
- `shown_of_checkout`: what a checkout charges is what the customer was shown.
-/

namespace ArkanGold

namespace ShopOrdersService

namespace ShippingCalculator

open FirstChoice

variable {toLowerCase : String → String} {rate : CalcRate} {parcel parcel' : CalcParcel}
  {fee fee' step : ℚ} {dest : CalcDestination} {data data' : CalcData} {methodId : ℕ}
  {o o' : QuotedOption}

/-! ## Fees -/

theorem roundUp_mono (h : fee ≤ fee') : roundUp fee step ≤ roundUp fee' step := by
  unfold roundUp
  split
  · exact_mod_cast Int.ceil_le_ceil h
  · rename_i hstep
    have hpos : 0 < step := by linarith [not_le.mp hstep]
    exact mul_le_mul_of_nonneg_right
      (by exact_mod_cast Int.ceil_le_ceil (div_le_div_of_nonneg_right h hpos.le)) hpos.le

theorem le_roundUp (fee step : ℚ) : fee ≤ roundUp fee step := by
  unfold roundUp
  split
  · exact Int.le_ceil fee
  · rename_i hstep
    have hpos : 0 < step := by linarith [not_le.mp hstep]
    exact (div_le_iff₀ hpos).mp (Int.le_ceil _)

/-- A multiple of the step is not rounded. -/
theorem roundUp_multiple {k : ℤ} (hstep : 1 < step) : roundUp (k * step) step = k * step := by
  have hpos : step ≠ 0 := by linarith
  rw [roundUp, if_neg (not_le.mpr hstep), mul_div_cancel_right₀ _ hpos, Int.ceil_intCast]

/-- With a whole step the fee is a whole number. -/
theorem roundUp_int {k : ℤ} (fee : ℚ) (hstep : step = k) : ∃ n : ℤ, roundUp fee step = n := by
  unfold roundUp
  split
  · exact ⟨⌈fee⌉, rfl⟩
  · exact ⟨⌈fee / step⌉ * k, by rw [hstep]; push_cast; rfl⟩

theorem rawFee_mono (hweight : parcel.weightGrams ≤ parcel'.weightGrams)
    (hvalue : parcel.valueRial ≤ parcel'.valueRial) :
    rawFee rate parcel ≤ rawFee rate parcel' := by
  have hextra : max 0 (parcel.weightGrams - (max 0 rate.baseWeightGrams : ℤ)) ≤
      max 0 (parcel'.weightGrams - (max 0 rate.baseWeightGrams : ℤ)) :=
    max_le_max le_rfl (by linarith)
  have hstep : (0 : ℚ) ≤ (max 1 rate.stepWeightGrams : ℤ) := by
    exact_mod_cast (by omega : (0 : ℤ) ≤ max 1 rate.stepWeightGrams)
  have hpercent : max 0 parcel.valueRial * max 0 rate.valuePercent / 100 ≤
      max 0 parcel'.valueRial * max 0 rate.valuePercent / 100 :=
    div_le_div_of_nonneg_right (mul_le_mul_of_nonneg_right (max_le_max le_rfl hvalue)
      (le_max_left _ _)) (by norm_num)
  unfold rawFee
  dsimp only
  generalize max 0 (parcel.weightGrams - (max 0 rate.baseWeightGrams : ℤ)) = extra at hextra ⊢
  generalize max 0 (parcel'.weightGrams - (max 0 rate.baseWeightGrams : ℤ)) = extra' at hextra ⊢
  have hsteps : ((if 0 < extra ∧ 0 < rate.stepRial then
        ⌈extra / (max 1 rate.stepWeightGrams : ℤ)⌉ else 0 : ℤ) : ℚ) * rate.stepRial ≤
      ((if 0 < extra' ∧ 0 < rate.stepRial then
        ⌈extra' / (max 1 rate.stepWeightGrams : ℤ)⌉ else 0 : ℤ) : ℚ) * rate.stepRial := by
    by_cases hrial : 0 < rate.stepRial
    · have hrial' : (0 : ℚ) ≤ rate.stepRial := by exact_mod_cast hrial.le
      refine mul_le_mul_of_nonneg_right ?_ hrial'
      by_cases hpos : 0 < extra
      · rw [if_pos ⟨hpos, hrial⟩, if_pos ⟨hpos.trans_le hextra, hrial⟩]
        exact_mod_cast Int.ceil_le_ceil (div_le_div_of_nonneg_right hextra hstep)
      · rw [if_neg fun h => hpos h.1]
        split
        · rename_i hpos'
          have hceil := Int.ceil_nonneg (div_nonneg hpos'.1.le hstep)
          exact_mod_cast hceil
        · exact le_rfl
    · rw [if_neg fun h => hrial h.2, if_neg fun h => hrial h.2]
  linarith

theorem limitFee_mono (h : fee ≤ fee') : limitFee rate fee ≤ limitFee rate fee' := by
  unfold limitFee
  cases rate.minRial with
  | none =>
    dsimp only
    split
    · split
      · exact min_le_min h le_rfl
      · exact h
    · exact h
  | some minRial =>
    have hmin : max fee minRial ≤ max fee' minRial := max_le_max h le_rfl
    dsimp only
    split
    · split
      · exact min_le_min hmin le_rfl
      · exact hmin
    · exact hmin

theorem rateFee_mono (hweight : parcel.weightGrams ≤ parcel'.weightGrams)
    (hvalue : parcel.valueRial ≤ parcel'.valueRial) :
    computeRateFee rate parcel step ≤ computeRateFee rate parcel' step := by
  have hfee : max 0 (limitFee rate (rawFee rate parcel)) ≤
      max 0 (limitFee rate (rawFee rate parcel')) :=
    max_le_max le_rfl (limitFee_mono (rawFee_mono hweight hvalue))
  unfold computeRateFee
  dsimp only
  generalize max 0 (limitFee rate (rawFee rate parcel)) = fee at hfee ⊢
  generalize max 0 (limitFee rate (rawFee rate parcel')) = fee' at hfee ⊢
  by_cases hpos : 0 < fee
  · rw [if_pos hpos, if_pos (hpos.trans_le hfee)]
    exact roundUp_mono hfee
  · rw [if_neg hpos]
    split
    · rename_i hpos'
      exact hpos'.le.trans (le_roundUp _ _)
    · exact le_rfl

theorem rateFee_nonneg (rate : CalcRate) (parcel : CalcParcel) (step : ℚ) :
    0 ≤ computeRateFee rate parcel step := by
  unfold computeRateFee
  dsimp only
  split
  · rename_i hpos
    exact hpos.le.trans (le_roundUp _ _)
  · exact le_rfl

/-! ## Limits -/

/-- The limits of a rate that has been saved. -/
def Entered (rate : CalcRate) : Prop :=
  ∀ maxRial ∈ rate.maxRial, 0 < maxRial ∧ ∀ minRial ∈ rate.minRial, minRial ≤ maxRial

theorem le_rateFee (hentered : Entered rate) {minRial : ℤ} (hmin : minRial ∈ rate.minRial) :
    (minRial : ℚ) ≤ computeRateFee rate parcel step := by
  have hlimit : (minRial : ℚ) ≤ limitFee rate (rawFee rate parcel) := by
    unfold limitFee
    rw [Option.mem_def.mp hmin]
    dsimp only
    split
    · rename_i maxRial hmax
      obtain ⟨hpos, hle⟩ := hentered maxRial hmax
      rw [if_pos hpos]
      exact le_min (le_max_right _ _) (by exact_mod_cast hle minRial hmin)
    · exact le_max_right _ _
  have hfee := hlimit.trans (le_max_right 0 _)
  unfold computeRateFee
  dsimp only
  split
  · exact hfee.trans (le_roundUp _ _)
  · rename_i hzero
    exact hfee.trans (not_lt.mp hzero)

theorem rateFee_le (hentered : Entered rate) {maxRial : ℤ} (hmax : maxRial ∈ rate.maxRial) :
    computeRateFee rate parcel step ≤ roundUp maxRial step := by
  obtain ⟨hpos, -⟩ := hentered maxRial hmax
  have hpos' : (0 : ℚ) < maxRial := by exact_mod_cast hpos
  have hlimit : limitFee rate (rawFee rate parcel) ≤ maxRial := by
    unfold limitFee
    rw [Option.mem_def.mp hmax]
    dsimp only
    rw [if_pos hpos]
    exact min_le_right _ _
  unfold computeRateFee
  dsimp only
  split
  · exact roundUp_mono (max_le hpos'.le hlimit)
  · exact hpos'.le.trans (le_roundUp _ _)

theorem rateFee_int {k : ℤ} (hstep : step = k) (rate : CalcRate) (parcel : CalcParcel) :
    ∃ n : ℤ, computeRateFee rate parcel step = n := by
  unfold computeRateFee
  dsimp only
  split
  · exact roundUp_int _ hstep
  · exact ⟨0, by simp⟩

/-! ## The deciding zone -/

/-- The zone matches the destination and has a rate for the method. -/
def Competes (toLowerCase : String → String) (data : CalcData) (dest : CalcDestination)
    (methodId : ℕ) (z : CalcZone) : Prop :=
  z ∈ data.zones ∧ 0 < zoneSpecificity toLowerCase z dest ∧
    ∃ r ∈ data.rates, r.methodId = methodId ∧ r.zoneId = z.id

/-- No two zones that compete for a method agree in specificity and `sortOrder`. -/
def NoTies (toLowerCase : String → String) (data : CalcData) (dest : CalcDestination) : Prop :=
  ∀ methodId z z', Competes toLowerCase data dest methodId z →
    Competes toLowerCase data dest methodId z' →
      zoneSpecificity toLowerCase z dest = zoneSpecificity toLowerCase z' dest →
        z.sortOrder = z'.sortOrder → z = z'

theorem decidingRate_eq (zones : List CalcZone) (rates : List CalcRate) :
    decidingRate toLowerCase zones rates dest methodId =
      firstChoice (comesBefore toLowerCase dest) (rateIn rates methodId)
        (matchingZones toLowerCase zones dest) := rfl

theorem mem_matchingZones {zones : List CalcZone} {z : CalcZone} :
    z ∈ matchingZones toLowerCase zones dest ↔
      z ∈ zones ∧ 0 < zoneSpecificity toLowerCase z dest := by
  simp [matchingZones]

theorem rateIn_eq_some {rates : List CalcRate} {z z' : CalcZone} {r : CalcRate}
    (h : rateIn rates methodId z = some (z', r)) :
    z' = z ∧ r ∈ rates ∧ r.methodId = methodId ∧ r.zoneId = z.id := by
  obtain ⟨r', hfind, heq⟩ := Option.map_eq_some_iff.mp h
  obtain ⟨rfl, rfl⟩ := Prod.mk.inj heq
  have hkey := List.find?_some hfind
  simp only [decide_eq_true_eq] at hkey
  exact ⟨rfl, List.mem_of_find?_eq_some hfind, hkey⟩

theorem rateIn_ne_none {rates : List CalcRate} {z : CalcZone} :
    rateIn rates methodId z ≠ none ↔
      ∃ r ∈ rates, r.methodId = methodId ∧ r.zoneId = z.id := by
  simp only [rateIn, ne_eq, Option.map_eq_none_iff, List.find?_eq_none, decide_eq_true_eq, not_forall,
    not_not, exists_prop]

theorem competes_iff {z : CalcZone} :
    Competes toLowerCase data dest methodId z ↔
      z ∈ matchingZones toLowerCase data.zones dest ∧ rateIn data.rates methodId z ≠ none := by
  rw [mem_matchingZones, rateIn_ne_none, Competes, and_assoc]

/-- The zone that decides competes, and comes before every other that does. -/
theorem decidingRate_spec {z : CalcZone} {r : CalcRate}
    (h : decidingRate toLowerCase data.zones data.rates dest methodId = some (z, r)) :
    Competes toLowerCase data dest methodId z ∧ r ∈ data.rates ∧ r.methodId = methodId ∧
      r.zoneId = z.id ∧ ∀ z', Competes toLowerCase data dest methodId z' →
        comesBefore toLowerCase dest z z' := by
  rw [decidingRate_eq] at h
  obtain ⟨z', hz', hrate, hfirst⟩ := firstChoice_spec _ h
  obtain ⟨rfl, hr, hmethod, hzone⟩ := rateIn_eq_some hrate
  refine ⟨competes_iff.mpr ⟨hz', rateIn_ne_none.mpr ⟨r, hr, hmethod, hzone⟩⟩, hr, hmethod, hzone,
    fun z' hz' => ?_⟩
  obtain ⟨hmatch, hanswer⟩ := competes_iff.mp hz'
  exact hfirst z' hmatch hanswer

/-- A method has one rate in a zone. -/
theorem rateIn_of_mem {r : CalcRate} (hr : r ∈ data.rates) {z : CalcZone}
    (hmethod : r.methodId = methodId) (hzone : r.zoneId = z.id) :
    rateIn data.rates methodId z = some (z, r) := by
  cases hrate : rateIn data.rates methodId z with
  | none => exact absurd hrate (rateIn_ne_none.mpr ⟨r, hr, hmethod, hzone⟩)
  | some answer =>
    obtain ⟨z', r'⟩ := answer
    obtain ⟨rfl, hr', hmethod', hzone'⟩ := rateIn_eq_some hrate
    rw [List.inj_on_of_nodup_map data.rates_nodup hr hr'
      (Prod.ext (hmethod.trans hmethod'.symm) (hzone.trans hzone'.symm))]

/-- However the rates are listed, a method has the same in a zone. -/
theorem rateIn_perm (hrates : data.rates.Perm data'.rates) (z : CalcZone) :
    rateIn data.rates methodId z = rateIn data'.rates methodId z := by
  cases hrate : rateIn data.rates methodId z with
  | none =>
    by_contra hne
    obtain ⟨r, hr, hkey⟩ := rateIn_ne_none.mp (Ne.symm hne)
    exact rateIn_ne_none.mpr ⟨r, hrates.mem_iff.mpr hr, hkey⟩ hrate
  | some answer =>
    obtain ⟨z', r⟩ := answer
    obtain ⟨rfl, hr, hmethod, hzone⟩ := rateIn_eq_some hrate
    exact (rateIn_of_mem (hrates.mem_iff.mp hr) hmethod hzone).symm

/-- The zone that comes before all others that compete decides on the method. -/
theorem quoteMethod_of_first {method : CalcMethod} {z : CalcZone} {r : CalcRate}
    (hcompetes : Competes toLowerCase data dest method.id z) (hr : r ∈ data.rates)
    (hmethod : r.methodId = method.id) (hzone : r.zoneId = z.id)
    (hfirst : ∀ z', Competes toLowerCase data dest method.id z' →
      comesBefore toLowerCase dest z' z → z' = z) :
    quoteMethod toLowerCase data dest parcel step method =
      if r.isActive then some (optionOf method z r dest parcel step) else none := by
  have hdeciding : decidingRate toLowerCase data.zones data.rates dest method.id =
      some (z, r) := by
    rw [decidingRate_eq]
    refine firstChoice_of_preferred _ (competes_iff.mp hcompetes).1
      (rateIn_of_mem hr hmethod hzone) fun z' hz' hanswer hle => ?_
    exact hfirst z' (competes_iff.mpr ⟨hz', hanswer⟩) hle
  rw [quoteMethod, hdeciding]

/-- Where there are no ties, the options do not depend on how zones and rates are listed. -/
theorem quote_perm (hzones : data.zones.Perm data'.zones) (hrates : data.rates.Perm data'.rates)
    (hmethods : data'.methods = data.methods) (hties : NoTies toLowerCase data dest)
    (parcel : CalcParcel) (step : ℚ) :
    quoteShippingOptions toLowerCase data' dest parcel step =
      quoteShippingOptions toLowerCase data dest parcel step := by
  have hdeciding : ∀ methodId, decidingRate toLowerCase data.zones data.rates dest methodId =
      decidingRate toLowerCase data'.zones data'.rates dest methodId := by
    intro methodId
    rw [decidingRate_eq, decidingRate_eq]
    refine firstChoice_perm _ (hzones.filter _) (fun z _ => rateIn_perm hrates z) ?_
    intro z hz z' hz' hanswer hanswer' hle hle'
    have hcompetes := competes_iff.mpr ⟨hz, hanswer⟩
    have hcompetes' := competes_iff.mpr ⟨hz', hanswer'⟩
    unfold comesBefore at hle hle'
    exact hties methodId z z' hcompetes hcompetes' (by omega) (by omega)
  have hmethod : quoteMethod toLowerCase data' dest parcel step =
      quoteMethod toLowerCase data dest parcel step := by
    funext method
    rw [quoteMethod, quoteMethod, hdeciding method.id]
  rw [quoteShippingOptions, quoteShippingOptions, hmethods, hmethod]

theorem quoteMethod_eq_some {method : CalcMethod}
    (h : quoteMethod toLowerCase data dest parcel step method = some o) :
    ∃ z r, decidingRate toLowerCase data.zones data.rates dest method.id = some (z, r) ∧
      r.isActive = true ∧ o = optionOf method z r dest parcel step := by
  unfold quoteMethod at h
  split at h
  · cases h
  · rename_i z r hdeciding
    split at h
    · rename_i hactive
      exact ⟨z, r, hdeciding, hactive, (Option.some.inj h).symm⟩
    · cases h

/-- Where an option comes from. -/
theorem quote_spec (h : o ∈ quoteShippingOptions toLowerCase data dest parcel step) :
    ∃ method ∈ data.methods, ∃ z r,
      decidingRate toLowerCase data.zones data.rates dest method.id = some (z, r) ∧
        r.isActive = true ∧ o = optionOf method z r dest parcel step := by
  obtain ⟨method, hmethod, hquote⟩ := List.mem_filterMap.mp h
  exact ⟨method, (List.mem_insertionSort _).mp hmethod, quoteMethod_eq_some hquote⟩

theorem quote_of_first {method : CalcMethod} {z : CalcZone} {r : CalcRate}
    (hmem : method ∈ data.methods) (hcompetes : Competes toLowerCase data dest method.id z)
    (hr : r ∈ data.rates) (hmethod : r.methodId = method.id) (hzone : r.zoneId = z.id)
    (hfirst : ∀ z', Competes toLowerCase data dest method.id z' →
      comesBefore toLowerCase dest z' z → z' = z) :
    (o ∈ quoteShippingOptions toLowerCase data dest parcel step ∧ o.methodId = method.id) ↔
      r.isActive = true ∧ o = optionOf method z r dest parcel step := by
  have hquote := (@quoteMethod_of_first _ parcel step) hcompetes hr hmethod hzone
    hfirst
  constructor
  · rintro ⟨ho, hid⟩
    obtain ⟨method', hmethod', hoption⟩ := List.mem_filterMap.mp ho
    have hid' : o.methodId = method'.id := by
      obtain ⟨z', r', -, -, heq⟩ := quoteMethod_eq_some hoption
      rw [heq]
      rfl
    obtain rfl := List.inj_on_of_nodup_map data.methods_nodup hmem
      ((List.mem_insertionSort _).mp hmethod') (hid.symm.trans hid')
    rw [hquote] at hoption
    split at hoption
    · rename_i hactive
      exact ⟨hactive, (Option.some.inj hoption).symm⟩
    · cases hoption
  · rintro ⟨hactive, rfl⟩
    refine ⟨List.mem_filterMap.mpr ⟨method, (List.mem_insertionSort _).mpr hmem, ?_⟩, rfl⟩
    rw [hquote, if_pos hactive]

/-- The options of one method are of one zone and one rate, whatever the parcel. -/
theorem quote_same (h : o ∈ quoteShippingOptions toLowerCase data dest parcel step)
    (h' : o' ∈ quoteShippingOptions toLowerCase data dest parcel' step)
    (hid : o.methodId = o'.methodId) :
    ∃ method z r, o = optionOf method z r dest parcel step ∧
      o' = optionOf method z r dest parcel' step := by
  obtain ⟨method, hmethod, z, r, hdeciding, -, rfl⟩ := quote_spec h
  obtain ⟨method', hmethod', z', r', hdeciding', -, rfl⟩ := quote_spec h'
  obtain rfl := List.inj_on_of_nodup_map data.methods_nodup hmethod hmethod' hid
  rw [hdeciding] at hdeciding'
  obtain ⟨rfl, rfl⟩ := Prod.mk.inj (Option.some.inj hdeciding')
  exact ⟨method, z, r, rfl, rfl⟩

end ShippingCalculator

namespace ShippingService

open ShippingCalculator

variable {toLowerCase : String → String} {rate : CalcRate} {dto : RateLimitsDto}
  {data : RateLimitsDto} {shop : Shop} {items : List CartItem} {name : String}
  {charge : ShippingCharge}

/-! ## Saving a rate -/

/-- A limit that is stored is the one that was checked, and a new one is not zero. -/
theorem nullable_getD {v : Patch (Option ℤ)} {current : Option ℤ} {x : ℤ}
    (h : (nullable v).getD current = some x) :
    v.getD current = some x ∧ (v = none ∨ v = some (some x) ∧ x ≠ 0) := by
  cases v with
  | none => exact ⟨h, .inl rfl⟩
  | some v =>
    obtain ⟨hv, hne⟩ := Option.filter_eq_some_iff.mp (h : v.filter (· ≠ 0) = some x)
    exact ⟨hv, .inr ⟨congrArg some hv, by simpa using hne⟩⟩

/-- A rate that is saved has limits that agree, if it had before. -/
theorem entered_saveLimits (hrate : Entered rate)
    (hpositive : ∀ m, dto.maxRial = some (some m) → 0 ≤ m)
    (h : cleanRate dto (some rate) = .ok data) : Entered (saveLimits data rate) := by
  have hdata : data = ⟨nullable dto.minRial, nullable dto.maxRial⟩ := by
    unfold cleanRate at h
    dsimp only at h
    split at h
    · split at h
      · cases h
      · exact (Except.ok.inj h).symm
    · exact (Except.ok.inj h).symm
  subst hdata
  intro maxRial hmax
  obtain ⟨hpickMax, hnew⟩ := nullable_getD hmax
  have hpos : 0 < maxRial := by
    rcases hnew with hnone | ⟨hsome, hne⟩
    · rw [hnone] at hpickMax
      exact (hrate maxRial hpickMax).1
    · have := hpositive maxRial hsome
      omega
  refine ⟨hpos, fun minRial hmin => ?_⟩
  obtain ⟨hpickMin, -⟩ := nullable_getD hmin
  simp only [cleanRate, Option.bind_some, hpickMin, hpickMax] at h
  split at h
  · cases h
  · rename_i hcheck
    exact not_lt.mp fun hlt => hcheck ⟨hpos, hlt⟩

/-! ## Charges -/

/-- Charged, waived and payable on delivery come to the estimate. -/
theorem charge_total (o : ShippingOption) (wants : Bool) :
    (resolveShippingCharge o wants).shippingRial + (resolveShippingCharge o wants).waivedRial +
        (if (resolveShippingCharge o wants).payOnDelivery then
          (resolveShippingCharge o wants).estimateRial else 0) =
      (resolveShippingCharge o wants).estimateRial := by
  unfold resolveShippingCharge
  split
  · simp
  · split
    · simp
    · dsimp only
      split <;> simp

/-- The estimate is the fee. -/
theorem estimate_eq {o : ShippingOption} (hfee : 0 ≤ o.feeRial) (wants : Bool) :
    (resolveShippingCharge o wants).estimateRial = o.feeRial := by
  unfold resolveShippingCharge
  split
  · rename_i hle
    exact le_antisymm hfee hle
  · split <;> rfl

/-- What is charged is the fee or nothing. -/
theorem shippingRial_cases (o : ShippingOption) (wants : Bool) :
    (resolveShippingCharge o wants).shippingRial = o.feeRial ∨
      (resolveShippingCharge o wants).shippingRial = 0 := by
  unfold resolveShippingCharge
  split
  · exact .inr rfl
  · split
    · exact .inr rfl
    · dsimp only
      split
      · exact .inr rfl
      · exact .inl rfl

/-- The charge that is shown, if it is paid with the order. -/
theorem prepaid_eq (o : ShippingOption) :
    (if o.feePayment = .onDelivery then 0 else (resolveShippingCharge o false).shippingRial) =
      (resolveShippingCharge o false).shippingRial := by
  split
  · rename_i hdelivery
    unfold resolveShippingCharge
    split
    · rfl
    · split
      · rfl
      · simp [hdelivery]
  · rfl

/-- Nothing is charged with the order where delivery may be paid for and is. -/
theorem onDelivery_eq {o : ShippingOption}
    (h : ¬(true && o.feePayment == .prepaid && !o.free && decide (0 < o.feeRial)) = true) :
    (resolveShippingCharge o true).shippingRial = 0 := by
  unfold resolveShippingCharge
  split
  · rfl
  · rename_i hfee
    split
    · rfl
    · rename_i hfree
      cases hpayment : o.feePayment with
      | prepaid => simp [hpayment, hfree, not_le.mp hfee] at h
      | onDelivery => simp
      | customerChoice => simp

/-- Where the shipping of a checkout comes from. -/
theorem resolveForCheckout_spec {dto : CreateShopOrderDto}
    (h : resolveForCheckout shop dto items = .ok (some (name, charge))) :
    shop.shippingEnabled = true ∧ ∃ o, o ∈ (shop.quote dto.addressId (parcelOf items).1
        (parcelOf items).2).options ∧ dto.shippingMethodId = some o.methodId ∧ name = o.name ∧
      charge = resolveShippingCharge o dto.feeOnDelivery ∧
      ¬(dto.feeOnDelivery && o.feePayment == .prepaid && !o.free && 0 < o.feeRial) := by
  unfold resolveForCheckout at h
  simp only [bind, Except.bind, throw, throwThe, MonadExceptOf.throw, pure, Except.pure] at h
  split at h
  · cases h
  · rename_i henabled
    split at h
    · cases h
    · split at h
      · rename_i methodId hmethod
        split at h
        · rename_i o hfind
          split at h
          · cases h
          · split at h
            · cases h
            · rename_i hdelivery
              obtain ⟨rfl, rfl⟩ := Prod.mk.inj (Option.some.inj (Except.ok.inj h))
              have hid := List.find?_some hfind
              simp only [beq_iff_eq] at hid
              exact ⟨by simpa using henabled, o, List.mem_of_find?_eq_some hfind,
                hmethod.trans (congrArg some hid.symm), rfl, rfl, hdelivery⟩
        · cases h
      · cases h

/-- A whole number of rials is shown as it is. -/
theorem toToman_int (n : ℤ) : toToman n = formatDecimal (n / 10) := by
  have hfloor : ⌊(n : ℚ) + 1 / 2⌋ = n := by
    rw [Int.floor_eq_iff]
    constructor <;> norm_num
  rw [toToman, hfloor]

end ShippingService

/-! ## The laws -/

open ShippingCalculator ShippingService

/-- What holds of the prices of shipping for the tables of `data`. -/
structure PriceLaws (toLowerCase : String → String) (data : CalcData) : Prop where
  /-- the zone that decides on an option comes before all that match and have a rate for it, and
  the fee is that of its rate, within the limits of the rate -/
  decided : ∀ dest parcel step, ∀ o ∈ quoteShippingOptions toLowerCase data dest parcel step,
    ∃ z, ∃ r ∈ data.rates, Competes toLowerCase data dest o.methodId z ∧ r.methodId = o.methodId ∧
      r.zoneId = z.id ∧ o.zoneId = z.id ∧ o.rateId = r.id ∧
      (∀ z', Competes toLowerCase data dest o.methodId z' → comesBefore toLowerCase dest z z') ∧
      o.feeRial = computeRateFee r parcel step ∧
      (∀ minRial ∈ r.minRial, (minRial : ℚ) ≤ o.feeRial) ∧
      ∀ maxRial ∈ r.maxRial, o.feeRial ≤ roundUp maxRial step
  /-- the zone that comes before all others decides whether and how a method is offered -/
  offered : ∀ dest parcel step, ∀ method ∈ data.methods, ∀ z, ∀ r ∈ data.rates,
    Competes toLowerCase data dest method.id z → r.methodId = method.id → r.zoneId = z.id →
    (∀ z', Competes toLowerCase data dest method.id z' →
      comesBefore toLowerCase dest z' z → z' = z) →
    ∀ o, (o ∈ quoteShippingOptions toLowerCase data dest parcel step ∧ o.methodId = method.id) ↔
      r.isActive = true ∧ o = optionOf method z r dest parcel step
  /-- the listing of zones and rates does not matter where there are no ties -/
  listing : ∀ dest parcel step data', NoTies toLowerCase data dest →
    data.zones.Perm data'.zones → data.rates.Perm data'.rates → data'.methods = data.methods →
      quoteShippingOptions toLowerCase data' dest parcel step =
        quoteShippingOptions toLowerCase data dest parcel step
  /-- the fee of a method grows with the weight and the value -/
  monotone : ∀ dest parcel parcel' step, parcel.weightGrams ≤ parcel'.weightGrams →
    parcel.valueRial ≤ parcel'.valueRial →
      ∀ o ∈ quoteShippingOptions toLowerCase data dest parcel step,
        ∀ o' ∈ quoteShippingOptions toLowerCase data dest parcel' step,
          o.methodId = o'.methodId → o.feeRial ≤ o'.feeRial
  /-- charged, waived and payable on delivery come to the estimate, which is the fee -/
  charge : ∀ dest parcel step, ∀ o ∈ quoteShippingOptions toLowerCase data dest parcel step,
    ∀ wants, ∃ c, c = resolveShippingCharge (checkoutOption o) wants ∧
      c.shippingRial + c.waivedRial + (if c.payOnDelivery then c.estimateRial else 0) =
        c.estimateRial ∧ c.estimateRial = o.feeRial
  /-- a checkout charges what the customer was shown: the fee, and of it what is paid with the
  order, both in whole rials with a whole step of rounding -/
  shown : ∀ settings address shop dto items name charge,
    shop.shippingEnabled = settings.enabled →
    shop.quote dto.addressId = checkoutQuote toLowerCase settings data address →
    resolveForCheckout shop dto items = .ok (some (name, charge)) →
    ∃ u ∈ optionsForCart toLowerCase settings data address items,
      dto.shippingMethodId = some u.methodId ∧ u.name = name ∧
      u.feeToman = toToman charge.estimateRial ∧
      (dto.feeOnDelivery = false → u.prepaidChargeToman = toToman charge.shippingRial) ∧
      (dto.feeOnDelivery = true → charge.shippingRial = 0) ∧
      ∀ k : ℤ, settings.roundUpRial = k → ∃ n m : ℤ, charge.estimateRial = n ∧
        charge.shippingRial = m ∧ toToman charge.estimateRial = formatDecimal (n / 10) ∧
        toToman charge.shippingRial = formatDecimal (m / 10)

variable {toLowerCase : String → String} {data : CalcData}

theorem shown_of_checkout {settings : ShippingSettings} {address : AddressLike} {shop : Shop}
    {dto : CreateShopOrderDto} {items : List CartItem} {name : String} {charge : ShippingCharge}
    (henabled : shop.shippingEnabled = settings.enabled)
    (hquote : shop.quote dto.addressId = checkoutQuote toLowerCase settings data address)
    (h : resolveForCheckout shop dto items = .ok (some (name, charge))) :
    ∃ o, toUserOption o ∈ optionsForCart toLowerCase settings data address items ∧
      (∃ dest parcel, o ∈ quoteShippingOptions toLowerCase data dest parcel
        (max 0 settings.roundUpRial)) ∧
      dto.shippingMethodId = some o.methodId ∧ name = o.name ∧
      charge = resolveShippingCharge (checkoutOption o) dto.feeOnDelivery ∧
      ¬(dto.feeOnDelivery && o.feePayment == .prepaid && !o.free && 0 < o.feeRial) := by
  obtain ⟨hon, option, hoption, hmethod, hname, hcharge, hdelivery⟩ := resolveForCheckout_spec h
  rw [hquote, checkoutQuote] at hoption
  unfold optionsForCart
  rw [if_pos (henabled ▸ hon)]
  dsimp only
  cases hoptions : (quoteForAddress toLowerCase settings data address (parcelOf items).1
      (parcelOf items).2).2 with
  | none =>
    rw [hoptions] at hoption
    cases hoption
  | some options =>
    rw [hoptions] at hoption
    obtain ⟨o, ho, rfl⟩ := List.mem_map.mp hoption
    refine ⟨o, List.mem_map_of_mem ho, ?_, hmethod, hname, hcharge, hdelivery⟩
    unfold quoteForAddress at hoptions
    dsimp only at hoptions
    split at hoptions
    · cases hoptions
    · obtain rfl := Option.some.inj hoptions
      exact ⟨_, _, ho⟩

/-- Two zones for the whole country, each with a rate for the only method. -/
def twoZones : CalcData where
  zones :=
    [{ id := 1, name := "شمال", provinceCodes := [], cities := [], sortOrder := 0 },
      { id := 2, name := "جنوب", provinceCodes := [], cities := [], sortOrder := 0 }]
  rates :=
    [{ id := 1, methodId := 1, zoneId := 1, baseRial := 5000000, minRial := some 1000000,
        maxRial := some 3005000 },
      { id := 2, methodId := 1, zoneId := 2, baseRial := 200000 }]
  methods := [{ id := 1, code := "POST", name := "پست", type := .post }]
  zones_nodup := by decide
  rates_nodup := by decide
  methods_nodup := by decide

/-- The same tables, listed the other way round. -/
def twoZonesReversed : CalcData where
  zones := twoZones.zones.reverse
  rates := twoZones.rates.reverse
  methods := twoZones.methods
  zones_nodup := by decide
  rates_nodup := by decide
  methods_nodup := by decide

end ShopOrdersService

end ArkanGold
