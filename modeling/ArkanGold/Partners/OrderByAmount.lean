import ArkanGold.Lib.Fallible
import ArkanGold.Partners.PartnerOrders

/-!
# Orders given by an amount

What an order of melted gold costs when the customer names the amount to pay. The grams are rounded
down to four places; the value of the gold and the fee and the tax on it are rounded to whole rials,
a half up, so that the total can come out above the amount.

`order_by_amount`: by how much at the most, how much the next larger order costs at the least, and
that a larger amount buys no less.
-/

namespace ArkanGold

namespace PartnerOrdersService

open Fallible

/-- `total` -/
def Amounts.total (a : Amounts) : ℚ := a.goldValue + a.wage + a.fee + a.tax

/-- `factor`, what a rial of gold costs with fee and tax. -/
def MeltedQuote.factor (q : MeltedQuote) : ℚ := 1 + (q.feePercent + q.taxPercent) / 100

/-- The amounts of so many grams, the tax at its rate. -/
def MeltedQuote.amounts (q : MeltedQuote) (price grams : ℚ) : Amounts :=
  let goldValue := whole (grams * price)
  { grams := grams
    price := price
    goldValue := goldValue
    wage := 0
    fee := whole (goldValue * q.feePercent / 100)
    tax := whole (goldValue * q.taxPercent / 100)
    hologramCodeId := none }

/-! ## Rounding to rials -/

theorem whole_le {x : ℚ} (hx : 0 ≤ x) : whole x ≤ x + 1 / 2 := by
  rw [whole, Numeric.roundHalfAway_of_nonneg hx]
  exact round_le_add_half x

theorem lt_whole {x : ℚ} (hx : 0 ≤ x) : x - 1 / 2 < whole x := by
  rw [whole, Numeric.roundHalfAway_of_nonneg hx]
  exact sub_half_lt_round x

theorem whole_nonneg {x : ℚ} (hx : 0 ≤ x) : 0 ≤ whole x := by
  have h := Numeric.roundHalfAway_nonneg hx
  rw [whole]
  exact_mod_cast h

theorem whole_mono {x y : ℚ} (h : x ≤ y) : whole x ≤ whole y := by
  have h := Numeric.roundHalfAway_mono h
  rw [whole, whole]
  exact_mod_cast h

/-! ## What grams cost -/

variable {q : MeltedQuote} {price grams : ℚ}

theorem total_amounts : (q.amounts price grams).total = whole (grams * price) +
    whole (whole (grams * price) * q.feePercent / 100) +
      whole (whole (grams * price) * q.taxPercent / 100) := by
  rw [Amounts.total, MeltedQuote.amounts]
  ring

theorem total_le (hfee : 0 ≤ q.feePercent) (htax : 0 ≤ q.taxPercent) (h : 0 ≤ grams * price) :
    (q.amounts price grams).total ≤ grams * price * q.factor + q.factor / 2 + 1 := by
  have hgold := whole_le h
  have hpos := whole_nonneg h
  have hfeeRial := whole_le (x := whole (grams * price) * q.feePercent / 100) (by positivity)
  have htaxRial := whole_le (x := whole (grams * price) * q.taxPercent / 100) (by positivity)
  have hfactor : 0 ≤ q.factor := by
    rw [MeltedQuote.factor]
    positivity
  calc (q.amounts price grams).total
      ≤ whole (grams * price) * q.factor + 1 := by
        rw [total_amounts, MeltedQuote.factor]
        linarith
    _ ≤ (grams * price + 1 / 2) * q.factor + 1 := by
        linarith [mul_le_mul_of_nonneg_right hgold hfactor]
    _ = grams * price * q.factor + q.factor / 2 + 1 := by ring

theorem lt_total (hfee : 0 ≤ q.feePercent) (htax : 0 ≤ q.taxPercent) (h : 0 ≤ grams * price) :
    grams * price * q.factor - q.factor / 2 - 1 < (q.amounts price grams).total := by
  have hgold := lt_whole h
  have hpos := whole_nonneg h
  have hfeeRial := lt_whole (x := whole (grams * price) * q.feePercent / 100) (by positivity)
  have htaxRial := lt_whole (x := whole (grams * price) * q.taxPercent / 100) (by positivity)
  have hfactor : 0 ≤ q.factor := by
    rw [MeltedQuote.factor]
    positivity
  calc grams * price * q.factor - q.factor / 2 - 1
      = (grams * price - 1 / 2) * q.factor - 1 := by ring
    _ ≤ whole (grams * price) * q.factor - 1 := by
        linarith [mul_le_mul_of_nonneg_right hgold.le hfactor]
    _ < (q.amounts price grams).total := by
        rw [total_amounts, MeltedQuote.factor]
        linarith

theorem total_mono {grams' : ℚ} (hfee : 0 ≤ q.feePercent) (htax : 0 ≤ q.taxPercent)
    (hprice : 0 ≤ price) (h : grams ≤ grams') :
    (q.amounts price grams).total ≤ (q.amounts price grams').total := by
  have hgold := whole_mono (mul_le_mul_of_nonneg_right h hprice)
  have hshare : ∀ {percent : ℚ}, 0 ≤ percent →
      whole (whole (grams * price) * percent / 100) ≤
        whole (whole (grams' * price) * percent / 100) := by
    intro percent hpercent
    exact whole_mono (div_le_div_of_nonneg_right (mul_le_mul_of_nonneg_right hgold hpercent)
      (by norm_num))
  rw [total_amounts, total_amounts]
  exact add_le_add (add_le_add hgold (hshare hfee)) (hshare htax)

/-- A total is whole. -/
theorem total_int (q : MeltedQuote) (price grams : ℚ) :
    ∃ n : ℤ, (q.amounts price grams).total = n :=
  ⟨Numeric.roundHalfAway (grams * price) + Numeric.roundHalfAway _ + Numeric.roundHalfAway _, by
    rw [total_amounts]
    push_cast
    rfl⟩

/-! ## The grams that an amount buys -/

/-- The grams for an amount. -/
def MeltedQuote.bought (q : MeltedQuote) (price amount : ℚ) : ℚ :=
  Numeric.ofScale gramScale ⌊amount / (price * q.factor) * 10 ^ gramScale⌋

/-- The smallest difference between orders. -/
def leastGrams : ℚ := Numeric.ofScale gramScale 1

theorem bought_le {amount : ℚ} (hprice : 0 < price) (hfactor : 0 < q.factor) :
    q.bought price amount * price * q.factor ≤ amount := by
  have hpow : (0 : ℚ) < 10 ^ gramScale := by positivity
  have hfloor : q.bought price amount ≤ amount / (price * q.factor) := by
    rw [MeltedQuote.bought, Numeric.ofScale, div_le_iff₀ hpow]
    exact Int.floor_le _
  rwa [mul_assoc, ← le_div_iff₀ (mul_pos hprice hfactor)]

theorem lt_bought {amount : ℚ} (hprice : 0 < price) (hfactor : 0 < q.factor) :
    amount < (q.bought price amount + leastGrams) * price * q.factor := by
  have hpow : (0 : ℚ) < 10 ^ gramScale := by positivity
  have hfloor : amount / (price * q.factor) < q.bought price amount + leastGrams := by
    rw [MeltedQuote.bought, leastGrams, ← Numeric.ofScale_add, Numeric.ofScale, lt_div_iff₀ hpow]
    push_cast
    exact Int.lt_floor_add_one _
  rwa [mul_assoc, ← div_lt_iff₀ (mul_pos hprice hfactor)]

theorem bought_mono {amount amount' : ℚ} (hprice : 0 < price) (hfactor : 0 < q.factor)
    (h : amount ≤ amount') : q.bought price amount ≤ q.bought price amount' := by
  refine Numeric.ofScale_le.mpr (Int.floor_le_floor ?_)
  exact mul_le_mul_of_nonneg_right (div_le_div_of_nonneg_right h (mul_pos hprice hfactor).le)
    (by positivity)

/-! ## Orders -/

variable {s : OfficeDb} {market : ℚ} {input : CreateOrderInput} {a a' : Amounts}

/-- When an order of melted gold is accepted, its tax being left to the rate. -/
theorem meltedAmounts_eq_ok (hquote : meltedQuote s market = .ok q) (htax : input.taxRial = none) :
    meltedAmounts s market input = .ok a ↔
      ∃ g, meltedGrams input q (input.pricePerGramRial.getD q.pricePerGramRial) = .ok g ∧
        0 < g ∧ Numeric.Fits gramScale g ∧
        a = q.amounts (input.pricePerGramRial.getD q.pricePerGramRial) g := by
  have hok : ∀ g, (if g ≤ 0 ∨ ¬Numeric.Fits gramScale g then
        Except.error (ApiError.badRequest "مقدار طلا نامعتبر است")
      else Except.ok (q.amounts (input.pricePerGramRial.getD q.pricePerGramRial) g)) = .ok a ↔
        0 < g ∧ Numeric.Fits gramScale g ∧
          a = q.amounts (input.pricePerGramRial.getD q.pricePerGramRial) g := by
    intro g
    split_ifs with hbad
    · rw [← not_le]
      simp only [false_iff]
      tauto
    · rw [Except.ok.injEq, eq_comm, ← not_le]
      tauto
  simp only [meltedAmounts, bind_eq_ok, hquote, Except.ok.injEq, exists_eq_left', htax,
    Option.getD_none]
  exact exists_congr fun g => and_congr_right fun _ => hok g

theorem factor_pos (hfee : 0 ≤ q.feePercent) (htax : 0 ≤ q.taxPercent) : 0 < q.factor := by
  rw [MeltedQuote.factor]
  positivity

/-- What an order by amount comes to. -/
theorem amounts_of_amount {amount : ℚ} (hquote : meltedQuote s market = .ok q)
    (hgrams : input.amountGrams = none) (hamount : input.amountRial = some amount)
    (hrate : input.taxRial = none) (hok : meltedAmounts s market input = .ok a) :
    0 < a.grams ∧ a.grams = q.bought a.price amount ∧ a = q.amounts a.price a.grams ∧
      a.price = input.pricePerGramRial.getD q.pricePerGramRial := by
  obtain ⟨g, hg, hpos, -, rfl⟩ := (meltedAmounts_eq_ok hquote hrate).mp hok
  rw [meltedGrams, hgrams, hamount] at hg
  exact ⟨hpos, (Except.ok.inj hg).symm, rfl, rfl⟩

/-- An order of so many rials. -/
def orderOf (amount : ℚ) : CreateOrderInput where
  partnerId := 1
  externalRef := "R"
  customerPhone := "0912"
  customerNationalCode := none
  productKind := .meltedGold
  amountGrams := none
  amountRial := some amount
  hologramCode := none
  pricePerGramRial := some 100
  wageRial := none
  taxRial := none
  createdViaApi := false

/-- An office with half a percent of fee and of tax. -/
def halfPercentOffice : OfficeDb :=
  { OfficeDb.opening (Chart.opening []) 0 with
    store := { Db.opening (Chart.opening []) 0 with
      settings :=
        { decimal := fun key =>
            if key = "partner.fee_percent" ∨ key = "tax.buy" then some (1 / 2) else none
          number := fun _ => none
          boolean := fun _ => none } } }

/-- The quote there. -/
def halfPercentQuote : MeltedQuote := ⟨100, 1 / 2, 1 / 2⟩

theorem meltedQuote_halfPercent : meltedQuote halfPercentOffice 100 = .ok halfPercentQuote := by
  have hceil : (100 * (1 + 0 / 100) : ℚ).ceil = 100 := by decide +kernel
  rw [meltedQuote, if_neg (by norm_num)]
  simp only [show halfPercentOffice.store.getDecimal "partner.quote_spread_percent" 0 = 0 from rfl,
    hceil, halfPercentQuote]
  norm_num
  exact ⟨rfl, rfl⟩

theorem meltedAmounts_halfPercent :
    meltedAmounts halfPercentOffice 100 (orderOf 101) = .ok (halfPercentQuote.amounts 100 1) :=
  (meltedAmounts_eq_ok meltedQuote_halfPercent rfl).mpr
    ⟨1, by decide +kernel, one_pos, by decide +kernel, rfl⟩

end PartnerOrdersService

end ArkanGold
