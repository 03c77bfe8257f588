import ArkanGold.Lib.Decimal
import ArkanGold.Market.LockedPrice

/-!
# Buying and selling at one price

A customer who buys gold and sells it again while the price has not risen gets no more than was
paid, however the gold is split into orders. Amounts are rounded to whole rials, so every order may
be off by half a rial in favour of the customer, and the fee and the tax of the order stand against
that: `order_gain`. What was bought may have been priced higher, and what was sold lower, than the
price that is named.
-/

namespace ArkanGold

namespace TradingService

/-! ## One order -/

/-- The rials of an order without fee and tax, before rounding. -/
def exactTotal (side : OrderSide) (amountGrams : ℤ) (priceRial spreadPercent : ℚ) : ℚ :=
  grams amountGrams * rials (effectivePrice side priceRial spreadPercent)

/-- What `lockPrice` shows: the amounts follow from the quote and the spread. -/
theorem returns_lockPrice_amounts {cal : Calendar} {quote : GoldQuote} {supervisor : Supervisor}
    {userId : ℕ} {side : OrderSide} {amountGramsInput : ℚ} {s s' : Db} {q : LockedPrice}
    (h : (lockPrice cal (some quote) supervisor userId side amountGramsInput).Returns s q s') :
    q.side = side ∧ 0 < q.amountGrams ∧ 0 < quote.priceRial ∧
      q.totalRial = roundRial (exactTotal side q.amountGrams quote.priceRial
        (getTradeConfig s side).spreadPercent) ∧
      q.totalPayableRial = payable side q.totalRial q.feeRial q.taxRial := by
  simp only [lockPrice, Call.returns_bind, Call.returns_transaction, Call.returns_check,
    Call.returns_ofExcept, Call.returns_getOrFail, Call.returns_pure, Block.ok_get] at h
  obtain ⟨_, s₁, huser, _, s₂, hservice, _, _, ⟨-, rfl⟩, _, _, ⟨-, rfl⟩, _, _, ⟨-, rfl⟩,
    _, _, ⟨hpos, rfl⟩, _, _, ⟨rfl, rfl⟩, _, _, ⟨-, rfl⟩, _, _, ⟨-, rfl⟩, _, _, -, _, _, -,
    quote', _, ⟨hquote, rfl⟩, _, _, ⟨rfl, rfl⟩, _, _, ⟨-, rfl⟩, _, _, ⟨-, rfl⟩, _, _, ⟨-, rfl⟩,
    _, _, ⟨-, rfl⟩, _, _, ⟨rfl, rfl⟩, id, _, -, rfl, rfl⟩ := h
  obtain ⟨-, rfl⟩ := ok_assertUserVerified huser
  obtain rfl := ok_assertServiceEnabled hservice
  obtain ⟨hsame, hprice⟩ := Option.filter_eq_some_iff.mp hquote
  obtain rfl := Option.some.inj hsame
  exact ⟨rfl, of_decide_eq_true hpos, of_decide_eq_true hprice, rfl, rfl⟩

/-- A purchase is priced no lower than the quote, and a sale no higher. -/
theorem effectivePrice_bound {priceRial spreadPercent : ℚ} (hprice : 0 < priceRial)
    (hspread : 0 ≤ spreadPercent) :
    priceRial ≤ effectivePrice .buy priceRial spreadPercent ∧
      (effectivePrice .sell priceRial spreadPercent : ℚ) ≤ priceRial := by
  have hmargin : 0 ≤ priceRial * (spreadPercent / 100) := by positivity
  constructor
  · have hup : priceRial ≤ priceRial * (1 + spreadPercent / 100) := by linarith
    simp only [effectivePrice, roundUp, if_pos (hprice.le.trans hup)]
    exact hup.trans (Int.le_ceil _)
  · have hdown : priceRial * (1 - spreadPercent / 100) ≤ priceRial := by linarith
    simp only [effectivePrice, roundDown]
    split_ifs with hsign
    · exact (Int.floor_le _).trans hdown
    · -- a spread of more than the whole price leaves nothing to pay
      have hceil : ⌈priceRial * (1 - spreadPercent / 100)⌉ ≤ 0 :=
        Int.ceil_le.mpr (by simpa using (not_le.mp hsign).le)
      exact (Int.cast_nonpos.mpr hceil).trans hprice.le

theorem roundRial_near (v : ℚ) : v - 1 / 2 ≤ roundRial v ∧ (roundRial v : ℚ) ≤ v + 1 / 2 := by
  have h := abs_le.mp (Decimal.abs_roundHalfAway_sub_le v)
  unfold roundRial
  constructor <;> linarith [h.1, h.2]

/-- `q` was shown while a gram cost at least `P` rials to a buyer, or at most `P` to a seller. -/
structure QuotedAround (P : ℚ) (q : LockedPrice) : Prop where
  shown : ∃ (cal : Calendar) (quote : GoldQuote) (supervisor : Supervisor) (userId : ℕ)
    (amountGramsInput : ℚ) (s s' : Db),
    (lockPrice cal (some quote) supervisor userId q.side amountGramsInput).Returns s q s' ∧
      0 ≤ (getTradeConfig s q.side).spreadPercent ∧
      match q.side with
      | .buy => P ≤ quote.priceRial
      | .sell => quote.priceRial ≤ P

/-- The fee and the tax of an order. -/
def charges (q : LockedPrice) : ℤ := q.feeRial + q.taxRial

/-- The gold that the customer has after the order, less what there was before. -/
def goldOf (q : LockedPrice) : ℤ :=
  match q.side with
  | .buy => q.amountGrams
  | .sell => -q.amountGrams

/-- The rials that the customer has after the order, less what there was before. -/
def rialOf (q : LockedPrice) : ℤ :=
  match q.side with
  | .buy => -q.totalPayableRial
  | .sell => q.totalPayableRial

/-- An order gains half a rial less its charges, when the gold is counted at the price `P`. -/
theorem order_gain {P : ℚ} {q : LockedPrice} (h : QuotedAround P q) :
    (rialOf q : ℚ) + grams (goldOf q) * P ≤ 1 / 2 - charges q := by
  obtain ⟨cal, quote, supervisor, userId, input, s, s', hreturns, hspread, hmarket⟩ := h.shown
  obtain ⟨-, hgold, hprice, htotal, hpayable⟩ := returns_lockPrice_amounts hreturns
  obtain ⟨hbuy, hsell⟩ := effectivePrice_bound hprice hspread
  have hgrams : 0 ≤ grams q.amountGrams := by
    unfold grams Numeric.ofScale
    positivity
  have hrials : ∀ n : ℤ, rials n = n := fun n => by simp [rials, Numeric.ofScale, rialScale]
  have hnear := roundRial_near
    (exactTotal q.side q.amountGrams quote.priceRial (getTradeConfig s q.side).spreadPercent)
  rw [← htotal, exactTotal, hrials] at hnear
  unfold rialOf goldOf charges
  cases hside : q.side with
  | buy =>
    rw [hside] at hnear hbuy hmarket hpayable
    have hworth := mul_le_mul_of_nonneg_left (hmarket.trans hbuy) hgrams
    rw [hpayable]
    simp only [payable, Int.cast_neg, Int.cast_add]
    linarith [hnear.1]
  | sell =>
    rw [hside] at hnear hsell hmarket hpayable
    have hworth := mul_le_mul_of_nonneg_left (hsell.trans hmarket) hgrams
    have hneg : grams (-q.amountGrams) = -grams q.amountGrams := Numeric.ofScale_neg gramScale _
    rw [hpayable, hneg]
    simp only [payable, Int.cast_sub, Int.cast_add]
    linarith [hnear.2]

/-! ## Any sequence of orders -/

/-- A sum over orders. -/
def sumOf (f : LockedPrice → ℤ) (qs : List LockedPrice) : ℤ := (qs.map f).sum

theorem orders_gain {P : ℚ} {qs : List LockedPrice} (h : ∀ q ∈ qs, QuotedAround P q) :
    (sumOf rialOf qs : ℚ) + grams (sumOf goldOf qs) * P ≤ qs.length / 2 - sumOf charges qs := by
  induction qs with
  | nil => simp [sumOf, grams]
  | cons q qs ih =>
    have hfirst := order_gain (h q List.mem_cons_self)
    have hrest := ih fun r hr => h r (List.mem_cons_of_mem _ hr)
    have hgrams : grams (goldOf q + sumOf goldOf qs) =
        grams (goldOf q) + grams (sumOf goldOf qs) := Numeric.ofScale_add gramScale _ _
    simp only [sumOf, List.map_cons, List.sum_cons, List.length_cons, Int.cast_add,
      Nat.cast_add, Nat.cast_one] at hrest hgrams ⊢
    rw [hgrams]
    linarith

/-- Whoever has no less gold after the orders than before has gained half a rial an order at the
most, less all fees and taxes; and nothing at all if every order was charged a rial. -/
theorem round_trips_gain_nothing {P : ℚ} (hP : 0 ≤ P) {qs : List LockedPrice}
    (h : ∀ q ∈ qs, QuotedAround P q) (hgold : 0 ≤ sumOf goldOf qs) :
    (sumOf rialOf qs : ℚ) ≤ qs.length / 2 - sumOf charges qs ∧
      ((∀ q ∈ qs, 1 ≤ charges q) → sumOf rialOf qs ≤ 0) := by
  have hgrams : 0 ≤ grams (sumOf goldOf qs) := by
    unfold grams Numeric.ofScale
    positivity
  have hgain := orders_gain h
  have hbound : (sumOf rialOf qs : ℚ) ≤ qs.length / 2 - sumOf charges qs := by
    have := mul_nonneg hgrams hP
    linarith
  refine ⟨hbound, fun hcharged => ?_⟩
  have hlength : (qs.length : ℤ) ≤ sumOf charges qs := by
    have hsum := List.card_nsmul_le_sum (qs.map charges) 1 (by simpa using hcharged)
    simpa [sumOf] using hsum
  have hlength' : (qs.length : ℚ) ≤ sumOf charges qs := by exact_mod_cast hlength
  have hnonneg : (0 : ℚ) ≤ qs.length := Nat.cast_nonneg _
  have : (sumOf rialOf qs : ℚ) ≤ 0 := by linarith
  exact_mod_cast this

/-- `round_trips_gain_nothing` for a gram that is bought under a fee of one percent. -/
theorem round_trips_gain_nothing_gram :
    (sumOf rialOf [shownPrice 1 10000] : ℚ) ≤ ([shownPrice 1 10000].length : ℚ) / 2 -
        sumOf charges [shownPrice 1 10000] ∧
      ((∀ q ∈ [shownPrice 1 10000], 1 ≤ charges q) → sumOf rialOf [shownPrice 1 10000] ≤ 0) := by
  refine round_trips_gain_nothing (P := 1000000) (by norm_num) ?_ (by decide +kernel)
  intro q hq
  obtain rfl := List.mem_singleton.mp hq
  exact ⟨.of1404, millionQuote, .off, 1, 1, tradeDb 1, gramLocked 1,
    returns_lockGram 1 10000 (by decide +kernel), by decide +kernel, le_refl _⟩

end TradingService

end ArkanGold
