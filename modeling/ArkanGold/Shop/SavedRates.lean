import ArkanGold.Lib.Runs
import ArkanGold.Shop.ShippingPrices

/-!
# Rates that were saved

Whatever requests save a rate, one after the other, its fees stay between its two limits. The panel
checks the limits that a rate will have, those of the request and those it keeps, and the other
columns may change at the same time (`SavesRate`).
-/

namespace ArkanGold

namespace ShopOrdersService

namespace ShippingService

open ShippingCalculator

variable {rate rate' : CalcRate} {dto : RateLimitsDto}

/-- A request that is accepted: the limits are stored as `cleanRate` has them, and the other columns
as the request has them. -/
def SavesRate (rate : CalcRate) (dto : RateLimitsDto) (rate' : CalcRate) : Prop :=
  ∃ data, cleanRate dto (some rate) = .ok data ∧
    rate'.minRial = (saveLimits data rate).minRial ∧
    rate'.maxRial = (saveLimits data rate).maxRial

/-- `@Min(0)` of the upper limit. -/
def Validated (_ : CalcRate) (dto : RateLimitsDto) : Prop :=
  ∀ maxRial, dto.maxRial = some (some maxRial) → 0 ≤ maxRial

/-- The step lemma: the limits agree after every request that is accepted. -/
theorem entered_savesRate (hrate : Entered rate) (hvalidated : Validated rate dto)
    (hsaves : SavesRate rate dto rate') : Entered rate' := by
  obtain ⟨data, hclean, hmin, hmax⟩ := hsaves
  have hsaved := entered_saveLimits hrate hvalidated hclean
  unfold Entered at hsaved ⊢
  rw [hmin, hmax]
  exact hsaved

/-- However often a rate is saved: no fee is below its lower limit, and none is above its upper
limit but for rounding. -/
theorem fee_within_limits (hnew : rate.maxRial = none)
    (hrun : Runs SavesRate Validated rate rate') (parcel : CalcParcel) (step : ℚ) :
    (∀ minRial ∈ rate'.minRial, (minRial : ℚ) ≤ computeRateFee rate' parcel step) ∧
      ∀ maxRial ∈ rate'.maxRial, 0 < maxRial ∧
        computeRateFee rate' parcel step ≤ roundUp maxRial step := by
  have hstart : Entered rate := by
    intro maxRial hmax
    rw [hnew] at hmax
    cases hmax
  have hentered : Entered rate' :=
    hrun.invariant hstart fun _ _ _ h hvalidated hsaves => entered_savesRate h hvalidated hsaves
  exact ⟨fun minRial hmin => le_rateFee hentered hmin,
    fun maxRial hmax => ⟨(hentered maxRial hmax).1, rateFee_le hentered hmax⟩⟩

/-- A rate of half a million rials without limits. -/
def flatRate : CalcRate where
  id := 1
  methodId := 1
  zoneId := 1
  baseRial := 500000

/-- The rate with an upper limit, and then with a lower one. -/
def limitedRate : CalcRate := { flatRate with minRial := some 100000, maxRial := some 400000 }

/-- Half a kilogram without a value. -/
def someParcel : CalcParcel where
  weightGrams := 500
  valueRial := 0

/-- `fee_within_limits` for a rate that gets an upper limit, and then a lower one. -/
theorem fee_within_limits_flat :
    (∀ minRial ∈ limitedRate.minRial, (minRial : ℚ) ≤ computeRateFee limitedRate someParcel 1000) ∧
      ∀ maxRial ∈ limitedRate.maxRial, 0 < maxRial ∧
        computeRateFee limitedRate someParcel 1000 ≤ roundUp maxRial 1000 := by
  have hmax : SavesRate flatRate { maxRial := some (some 400000) }
      { flatRate with maxRial := some 400000 } :=
    ⟨⟨none, some (some 400000)⟩, rfl, rfl, rfl⟩
  have hmin : SavesRate { flatRate with maxRial := some 400000 } { minRial := some (some 100000) }
      limitedRate :=
    ⟨⟨some (some 100000), none⟩, rfl, rfl, rfl⟩
  have hvalidated : Validated flatRate { maxRial := some (some 400000) } := by
    intro maxRial hsome
    cases hsome
    decide
  have hrun : Runs SavesRate Validated flatRate limitedRate :=
    .tail (.single hvalidated hmax) (fun maxRial hsome => by cases hsome) hmin
  exact fee_within_limits rfl hrun someParcel 1000

end ShippingService

end ShopOrdersService

end ArkanGold
