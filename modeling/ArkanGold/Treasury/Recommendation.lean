import ArkanGold.Treasury.Coverage

/-!
# The recommended purchase

What the recommendation of the coverage report is to be: bought together with the drafts it
restores the cover, it is nothing exactly if the drafts suffice, it is a multiple of the lot, and
no smaller purchase does. All grams are stored with four places.

- `need` is what is missing after the drafts, `least` the smallest purchase that covers it, both
  without rounding to digits; `recommended_eq`: with few enough digits the report finds it.
- A purchase may have four places only, also the recommended one: `restored_iff` says that the
  recommendation is good exactly if the least multiple of the lot has no more.
-/

namespace ArkanGold

namespace TreasuryService

open AccountingService Decimal Numeric

/-! ## The least purchase -/

/-- The grams that are to be covered. -/
def target (y : Policy) (p : Position) : ℚ :=
  toDecimalPlaces 4 .up (p.liability * y.targetPercent / 100 + y.bufferGrams)

/-- The grams that cover. -/
def cover (y : Policy) (p : Position) : ℚ :=
  p.vault + p.inTransit + if y.bankCounts then p.atBank else 0

/-- What is missing after the drafts. -/
def need (y : Policy) (p : Position) : ℚ := target y p - cover y p - p.drafts

/-- The least purchase that covers the need. -/
def least (y : Policy) (p : Position) : ℚ :=
  if need y p ≤ 0 then 0
  else if y.lotGrams ≤ 0 then need y p
  else ⌈need y p / y.lotGrams⌉ * y.lotGrams

/-- The grams are stored with four places. -/
structure Stored (p : Position) : Prop where
  vault : Fits gramScale p.vault
  atBank : Fits gramScale p.atBank
  inTransit : Fits gramScale p.inTransit
  drafts : Fits gramScale p.drafts

/-- Twenty digits are enough for the figures. -/
structure FewDigits (y : Policy) (p : Position) : Prop where
  product : HasDigits precision (p.liability * y.targetPercent)
  requirement : HasDigits precision (p.liability * y.targetPercent / 100 + y.bufferGrams)
  grams : |target y p| + |p.vault| + |p.inTransit| + |p.atBank| + |p.drafts| ≤ 10 ^ 12
  lot : 0 < need y p → 0 < y.lotGrams → need y p + y.lotGrams ≤ 10 ^ 12 ∧
    ∃ places, Fits places y.lotGrams ∧
      (need y p + y.lotGrams) * 10 ^ (4 + places) < 10 ^ 19

variable {y : Policy} {p : Position} {t t' : Treasury}

theorem stored_position (t : Treasury) : Stored t.position :=
  ⟨fits_ofScale _ _, fits_ofScale _ _, fits_ofScale _ _, fits_ofScale _ _⟩

theorem fits_target (y : Policy) (p : Position) : Fits gramScale (target y p) :=
  fits_ofScale _ _

theorem Stored.cover (h : Stored p) (y : Policy) : Fits gramScale (cover y p) := by
  unfold TreasuryService.cover
  split
  · exact fits_add (fits_add h.vault h.inTransit) h.atBank
  · exact fits_add (fits_add h.vault h.inTransit) (fits_zero _)

theorem Stored.need (h : Stored p) (y : Policy) : Fits gramScale (need y p) :=
  fits_sub (fits_sub (fits_target y p) (h.cover y)) h.drafts

/-- Grams up to ten million tons are not rounded. -/
theorem sig_grams {q : ℚ} (h : Fits gramScale q) (hle : |q| ≤ 10 ^ 13) : sig precision q = q := by
  refine sig_of_fits h ?_
  norm_num [precision, gramScale] at hle ⊢
  linarith

/-! ## The figures of the report -/

theorem required_eq (h : FewDigits y p) : required y p = target y p := by
  have hproduct : times precision p.liability y.targetPercent = p.liability * y.targetPercent :=
    h.product.sig
  have hshift : dividedBy precision (p.liability * y.targetPercent) 100 =
      p.liability * y.targetPercent / 100 := by
    have hdigits := (h.product.shift 2).sig
    norm_num at hdigits
    exact hdigits
  rw [required, hproduct, hshift, plus, h.requirement.sig, target]

theorem covered_eq (hstored : Stored p) (hle : |p.vault| + |p.inTransit| + |p.atBank| ≤ 10 ^ 13) :
    covered y p = cover y p := by
  have hvault := abs_nonneg p.vault
  have htransit := abs_nonneg p.inTransit
  have hbank := abs_nonneg p.atBank
  have hsum := abs_add_le p.vault p.inTransit
  have hall := abs_add_le (p.vault + p.inTransit) p.atBank
  have hinner : plus precision p.vault p.inTransit = p.vault + p.inTransit :=
    sig_grams (fits_add hstored.vault hstored.inTransit) (by linarith)
  have hfits := hstored.cover y
  rw [covered, hinner, plus]
  unfold cover at hfits ⊢
  split
  · rename_i hcounts
    rw [if_pos hcounts] at hfits
    exact sig_grams hfits (by linarith)
  · rename_i hcounts
    rw [if_neg hcounts] at hfits
    refine sig_grams hfits ?_
    rw [add_zero]
    linarith

theorem abs_cover_le (y : Policy) (p : Position) :
    |cover y p| ≤ |p.vault| + |p.inTransit| + |p.atBank| := by
  have hbank := abs_nonneg p.atBank
  have hsum := abs_add_le p.vault p.inTransit
  unfold cover
  split
  · have hall := abs_add_le (p.vault + p.inTransit) p.atBank
    linarith
  · rw [add_zero]
    linarith

theorem shortfall_eq (h : FewDigits y p) (hstored : Stored p) :
    shortfall y p = target y p - cover y p := by
  have hgrams := h.grams
  have hdrafts := abs_nonneg p.drafts
  have htarget := abs_nonneg (target y p)
  have hcover := abs_cover_le y p
  have hsub := abs_sub (target y p) (cover y p)
  rw [shortfall, required_eq h, covered_eq hstored (by linarith), minus]
  exact sig_grams (fits_sub (fits_target y p) (hstored.cover y)) (by linarith)

theorem abs_need_le (h : FewDigits y p) : |need y p| ≤ 10 ^ 12 := by
  have hgrams := h.grams
  have hcover := abs_cover_le y p
  have hsub := abs_sub (target y p) (cover y p)
  have hall := abs_sub (target y p - cover y p) p.drafts
  unfold need
  linarith

theorem minus_drafts (h : FewDigits y p) (hstored : Stored p) :
    minus precision (shortfall y p) p.drafts = need y p := by
  have hneed := abs_need_le h
  rw [shortfall_eq h hstored, minus]
  exact sig_grams (hstored.need y) (by show |need y p| ≤ 10 ^ 13; linarith)

/-- The report recommends the least purchase. -/
theorem recommended_eq (h : FewDigits y p) (hstored : Stored p) :
    recommended y p = least y p := by
  rw [recommended, minus_drafts h hstored, least]
  split
  · rename_i hpos
    obtain ⟨hmax, hlot⟩ := hpos
    have hneed : 0 < need y p := (lt_max_iff.mp hmax).resolve_left (lt_irrefl 0)
    obtain ⟨-, places, hfits, hdigits⟩ := h.lot hneed hlot
    rw [max_eq_right hneed.le, if_neg (not_le.mpr hneed), if_neg (not_le.mpr hlot)]
    refine times_ceil_dividedBy hneed hlot (hstored.need y) hfits ?_
    calc 5 * (need y p + y.lotGrams) * 10 ^ (gramScale + places)
        = 5 * ((need y p + y.lotGrams) * 10 ^ (4 + places)) := by rw [mul_assoc]
      _ < 5 * 10 ^ 19 := by linarith
      _ < 10 ^ precision := by norm_num [precision]
  · rename_i hneg
    split
    · rename_i hneed
      exact max_eq_left hneed
    · rename_i hneed
      rw [max_eq_right (not_le.mp hneed).le] at hneg ⊢
      rw [if_pos (not_lt.mp fun hlot => hneg ⟨not_le.mp hneed, hlot⟩)]

/-! ## The least purchase is one -/

theorem least_nonneg (y : Policy) (p : Position) : 0 ≤ least y p := by
  unfold least
  split
  · exact le_rfl
  · rename_i hneed
    split
    · exact (not_le.mp hneed).le
    · rename_i hlot
      exact (not_le.mp hneed).le.trans (le_ceil_div_mul (not_le.mp hlot))

theorem need_le_least (y : Policy) (p : Position) : need y p ≤ least y p := by
  unfold least
  split
  · assumption
  · split
    · exact le_rfl
    · rename_i hlot
      exact le_ceil_div_mul (not_le.mp hlot)

theorem least_eq_zero (y : Policy) (p : Position) : least y p = 0 ↔ need y p ≤ 0 := by
  refine ⟨fun h => h ▸ need_le_least y p, fun h => if_pos h⟩

theorem least_le_bound (h : FewDigits y p) : least y p ≤ 10 ^ 12 := by
  have hneed := (le_abs_self (need y p)).trans (abs_need_le h)
  unfold least
  split
  · norm_num
  · rename_i hpos
    split
    · exact hneed
    · rename_i hlot
      exact (ceil_div_mul_lt (not_le.mp hlot)).le.trans
        (h.lot (not_le.mp hpos) (not_le.mp hlot)).1

/-- A purchase is possible if it is a multiple of the lot. -/
def Multiple (y : Policy) (grams : ℚ) : Prop :=
  0 < y.lotGrams → ∃ k : ℕ, grams = k * y.lotGrams

theorem multiple_least (y : Policy) (p : Position) : Multiple y (least y p) := by
  intro hlot
  unfold least
  split
  · exact ⟨0, by simp⟩
  · rename_i hneed
    have hceil : 0 ≤ ⌈need y p / y.lotGrams⌉ :=
      Int.ceil_nonneg (div_nonneg (not_le.mp hneed).le hlot.le)
    rw [if_neg (not_le.mpr hlot)]
    refine ⟨⌈need y p / y.lotGrams⌉.toNat, ?_⟩
    congr 1
    exact_mod_cast (Int.toNat_of_nonneg hceil).symm

theorem least_le {x : ℚ} (hx : 0 ≤ x) (hmultiple : Multiple y x) (hneed : need y p ≤ x) :
    least y p ≤ x := by
  unfold least
  split
  · exact hx
  · split
    · exact hneed
    · rename_i hlot
      obtain ⟨k, rfl⟩ := hmultiple (not_le.mp hlot)
      exact_mod_cast ceil_div_mul_le (k := k) (not_le.mp hlot) (by exact_mod_cast hneed)

/-! ## After the purchase -/

theorem target_purchased (y : Policy) (x : ℚ) (p : Position) :
    target y (p.purchased x) = target y p := rfl

/-- The shortfall after a purchase of four places. -/
theorem shortfall_purchased {x : ℚ} (h : FewDigits y p) (hstored : Stored p)
    (hx : Fits gramScale x) (hle : |x| ≤ 10 ^ 12) :
    shortfall y (p.purchased x) = need y p - x := by
  have hgrams := h.grams
  have htarget := abs_nonneg (target y p)
  have hstored' : Stored (p.purchased x) :=
    { vault := hstored.vault
      atBank := hstored.atBank
      inTransit := fits_add hstored.inTransit (fits_add hstored.drafts hx)
      drafts := fits_zero _ }
  have hcover : cover y (p.purchased x) = cover y p + p.drafts + x := by
    simp only [cover, Position.purchased]
    ring
  have hdrafts := abs_add_le p.drafts x
  have htransit := abs_add_le p.inTransit (p.drafts + x)
  have hneed := abs_need_le h
  have hsub := abs_sub (need y p) x
  have hcovered : covered y (p.purchased x) = cover y (p.purchased x) :=
    covered_eq hstored' (by
      show |p.vault| + |p.inTransit + (p.drafts + x)| + |p.atBank| ≤ 10 ^ 13
      linarith)
  have hrequired : required y (p.purchased x) = target y p := required_eq (p := p) h
  have heq : target y p - (cover y p + p.drafts + x) = need y p - x := by
    unfold need
    ring
  rw [shortfall, hrequired, hcovered, hcover, minus, heq]
  exact sig_grams (fits_sub (hstored.need y) hx) (by linarith)

theorem shortfallGrams_le {d : ℚ} (hd : 0 ≤ d) (price : ℚ) (y : Policy) (p : Position) :
    (coverageReport price y p).shortfallGrams ≤ d ↔ shortfall y p ≤ d := by
  simp [coverageReport, hd]

theorem shortfallGrams_eq_zero (price : ℚ) (y : Policy) (p : Position) :
    (coverageReport price y p).shortfallGrams = 0 ↔ shortfall y p ≤ 0 := by
  simp [coverageReport]

/-! ## The order -/

theorem decimalPlaces_le_of_fits {q : ℚ} (h : Fits gramScale q) : decimalPlaces q ≤ 4 := by
  have hden : (q * 10 ^ 4).den = 1 := by
    have hint : q * 10 ^ 4 = (toScale gramScale q : ℚ) := by
      conv_lhs => rw [← h]
      exact ofScale_mul_pow 4 _
    rw [hint]
    exact Rat.den_intCast _
  unfold decimalPlaces
  cases hfind : (List.range 20).find? fun k => (q * 10 ^ k).den == 1 with
  | none =>
    have hnone := List.find?_eq_none.mp hfind 4 (by simp)
    simp [hden] at hnone
  | some k =>
    obtain ⟨-, before, after, hsplit, hbefore⟩ := List.find?_eq_some_iff_append.mp hfind
    by_contra hlt
    have hk : 4 < k := not_le.mp hlt
    have hmem : 4 ∈ before := by
      have hrange : 4 ∈ before ++ k :: after := hsplit ▸ List.mem_range.mpr (by norm_num)
      have hsorted : (before ++ k :: after).Pairwise (· < ·) := hsplit ▸ List.pairwise_lt_range
      rcases List.mem_append.mp hrange with hb | hr
      · exact hb
      · rcases List.mem_cons.mp hr with rfl | hr
        · exact absurd hk (lt_irrefl _)
        · have := (List.pairwise_cons.mp (List.pairwise_append.mp hsorted).2.1).1 4 hr
          omega
    have := hbefore 4 hmem
    simp [hden] at this

/-- A purchase of the recommended amount: the supplier is active, and gold has a price. -/
structure Requested (t : Treasury) (dto : PurchaseRequestDto) : Prop where
  grams : dto.grams = none
  supplier : ∃ sup, t.suppliers.find? (·.id = dto.supplierId) = some sup ∧ sup.isActive
  price : 10 ^ 4 ≤ dto.pricePerGramRial.getD t.pricePerGramRial

/-- The order of a request. -/
def requestOrder (dto : PurchaseRequestDto) (t : Treasury) : TreasuryOrderDto where
  side := .buy
  assetType := .meltedGold
  supplierId := dto.supplierId
  grossWeightGrams := dto.grams.getD t.report.recommendedPurchaseGrams
  purityMillesimal := 750
  pricePerGramRial :=
    toDecimalPlaces 0 .halfUp (dto.pricePerGramRial.getD t.pricePerGramRial)
  requestedGrams := some t.report.recommendedPurchaseGrams
  note := some (dto.note.getD
    ("درخواست خرید از گزارش پوشش — پوشش " ++ formatDecimal t.report.coveragePercent ++
      "٪، کسری " ++ formatDecimal t.report.shortfallGrams ++ " گرم"))

theorem createPurchaseRequest_eq (adminId : ℕ) {dto : PurchaseRequestDto}
    (hpos : 0 < dto.grams.getD t.report.recommendedPurchaseGrams) :
    createPurchaseRequest adminId dto t = createOrder adminId (requestOrder dto t) t := by
  simp only [createPurchaseRequest, bind, Except.bind]
  rw [if_neg (not_le.mpr hpos)]
  rfl

/-- The tables with the row of an order. -/
def withDraft (adminId : ℕ) (dto : TreasuryOrderDto) (t : Treasury) (a : Amounts) : Treasury :=
  { t with
    orders := t.orders ++ [draftOf adminId (t.nextNumber dto.side) dto a]
    nextNumber := Function.update t.nextNumber dto.side (t.nextNumber dto.side + 1) }

theorem createOrder_eq {dto : TreasuryOrderDto} (adminId : ℕ)
    (hsup : ∃ sup, t.suppliers.find? (·.id = dto.supplierId) = some sup ∧ sup.isActive) :
    createOrder adminId dto t = (computeAmounts dto).map (withDraft adminId dto t) := by
  obtain ⟨sup, hfind, hactive⟩ := hsup
  simp only [createOrder, hfind, hactive, bind, Except.bind, pure, Except.pure, Except.map]
  cases computeAmounts dto with
  | error e => rfl
  | ok a => rfl

theorem weightsOf_fits {dto : TreasuryOrderDto} {w : ℚ × ℚ} (h : weightsOf dto = .ok w) :
    Fits gramScale dto.grossWeightGrams := by
  simp only [weightsOf, bind, Except.bind, throw, throwThe, MonadExceptOf.throw] at h
  split at h
  · cases h
  · split at h
    · cases h
    · rename_i hplaces
      exact GoldCustodyService.fits_of_decimalPlaces (not_lt.mp hplaces)

theorem computeAmounts_fits {dto : TreasuryOrderDto} {a : Amounts}
    (h : computeAmounts dto = .ok a) : Fits gramScale dto.grossWeightGrams := by
  cases hw : weightsOf dto with
  | error e =>
    simp only [computeAmounts, hw, bind, Except.bind] at h
    cases h
  | ok w => exact weightsOf_fits hw

/-- Gold of 750 weighs what it weighs. -/
theorem fine_of_750 {x : ℚ} (hx : Fits gramScale x) (hpos : 0 ≤ x) (hle : x ≤ 10 ^ 12) :
    toDecimalPlaces 4 .down (dividedBy precision (times precision x (750 : ℕ)) 750) = x := by
  obtain ⟨n, rfl⟩ := fits_iff.mp hx
  have hproduct : times precision (ofScale gramScale n) (750 : ℕ) =
      ofScale gramScale n * 750 := by
    have hfits : Fits gramScale (ofScale gramScale n * 750) :=
      fits_iff.mpr ⟨n * 750, by unfold ofScale; push_cast; ring⟩
    refine sig_of_fits hfits ?_
    rw [abs_of_nonneg (by positivity)]
    norm_num [precision, gramScale] at hle ⊢
    linarith
  rw [hproduct, dividedBy, mul_div_cancel_right₀ _ (by norm_num : (750 : ℚ) ≠ 0),
    sig_grams (fits_ofScale _ _) (by rw [abs_of_nonneg hpos]; linarith), toDecimalPlaces,
    show ofScale gramScale n * 10 ^ 4 = n from ofScale_mul_pow gramScale n]
  simp [Rounding.toInt]

theorem one_le_roundHalfAway {q : ℚ} (h : 1 / 2 ≤ q) : 1 ≤ roundHalfAway q := by
  have hhalf : roundHalfAway (1 / 2) = 1 := by decide +kernel
  exact hhalf ▸ roundHalfAway_mono h

/-- A unit of weight has a price. -/
theorem goldValue_pos {x price : ℚ} (hx : Fits gramScale x) (hpos : 0 < x)
    (hprice : 10 ^ 4 ≤ price) : 1 ≤ toDecimalPlaces 0 .halfUp (times precision x price) := by
  obtain ⟨n, rfl⟩ := fits_iff.mp hx
  have hunit : 1 ≤ ofScale gramScale n * 10 ^ 4 := by
    have hn : (0 : ℚ) < n := by
      rw [← ofScale_mul_pow gramScale n]
      exact mul_pos hpos (by positivity)
    have hone : (1 : ℚ) ≤ n := by exact_mod_cast (by exact_mod_cast hn : 0 < n)
    rwa [show ofScale gramScale n * 10 ^ 4 = n from ofScale_mul_pow gramScale n]
  have hvalue : 1 ≤ ofScale gramScale n * price :=
    hunit.trans (mul_le_mul_of_nonneg_left hprice hpos.le)
  have hnear := sig_near precision (ofScale gramScale n * price)
  rw [abs_of_pos (by linarith : 0 < ofScale gramScale n * price)] at hnear
  have hhalf : 1 / 2 ≤ times precision (ofScale gramScale n) price := by
    rw [times]
    have habs := (abs_le.mp (le_refl |sig precision (ofScale gramScale n * price) -
      ofScale gramScale n * price|)).1
    norm_num [precision] at hnear habs ⊢
    linarith
  rw [toDecimalPlaces_zero_halfUp]
  exact_mod_cast one_le_roundHalfAway hhalf

/-- An order for gold of 750 of four places goes through. -/
theorem computeAmounts_request {dto : TreasuryOrderDto} (hside : dto.side = .buy)
    (hasset : dto.assetType = .meltedGold) (hpurity : dto.purityMillesimal = 750)
    (hwage : dto.wageRial = none) (hfee : dto.feeRial = none) (htax : dto.taxRial = none)
    (hfits : Fits gramScale dto.grossWeightGrams) (hpos : 0 < dto.grossWeightGrams)
    (hle : dto.grossWeightGrams ≤ 10 ^ 12) (hprice : 10 ^ 4 ≤ dto.pricePerGramRial) :
    ∃ a, computeAmounts dto = .ok a ∧ a.fine = dto.grossWeightGrams := by
  have hweights : weightsOf dto = .ok (dto.grossWeightGrams, dto.grossWeightGrams) := by
    have hplaces := decimalPlaces_le_of_fits hfits
    have hprice0 : ¬dto.pricePerGramRial ≤ 0 := by
      norm_num at hprice
      linarith
    have hfine := fine_of_750 hfits hpos.le hle
    push_cast at hfine
    simp [weightsOf, pure, Except.pure, not_le.mpr hpos, not_lt.mpr hplaces,
      hprice0, hasset, hpurity, hfine]
  have hvalue := goldValue_pos hfits hpos hprice
  set value := toDecimalPlaces 0 .halfUp
    (times precision dto.grossWeightGrams dto.pricePerGramRial) with hval
  have htotal : 0 < plus precision (plus precision (plus precision value 0) 0) 0 := by
    have hp : 0 < precision := by decide
    simp only [plus, add_zero]
    exact sig_pos hp (sig_pos hp (sig_pos hp (by linarith)))
  refine ⟨{
    gross := dto.grossWeightGrams
    fine := dto.grossWeightGrams
    price := dto.pricePerGramRial
    goldValue := value
    wage := 0
    fee := 0
    tax := 0
    total := plus precision (plus precision (plus precision value 0) 0) 0 }, ?_, rfl⟩
  simp only [computeAmounts, hweights, hside, hwage, hfee, htax, wholeRials, Option.getD_none,
    ← hval, bind, Except.bind, pure, Except.pure, lt_irrefl, Rat.den_zero, ne_eq,
    not_true_eq_false, or_self, if_false, if_neg (not_le.mpr htotal)]

/-- The drafts after an order. -/
theorem position_withDraft (t : Treasury) (adminId : ℕ) {dto : TreasuryOrderDto} {a : Amounts}
    (hside : dto.side = .buy) (hasset : dto.assetType = .meltedGold)
    (hfits : Fits gramScale a.fine) :
    (withDraft adminId dto t a).allConfirmed.position = t.position.purchased a.fine := by
  have hconfirmed : ∀ n, purchases .confirmed [draftOf adminId n dto a] = 0 := fun n => by
    simp [purchases, draftOf]
  have hdraft : ∀ n, purchases .draft [draftOf adminId n dto a] = toScale gramScale a.fine :=
    fun n => by simp [purchases, draftOf, hside, hasset]
  have hfine : ofScale gramScale (toScale gramScale a.fine) = a.fine := hfits
  rw [position_allConfirmed]
  simp only [Position.purchased, Treasury.position, withDraft, purchases_append, hconfirmed,
    hdraft, ofScale_add, hfine, add_zero]

/-! ## The recommendation -/

/-- What the recommendation of the report is to be. -/
structure Restored (t : Treasury) (adminId : ℕ) (dto : PurchaseRequestDto) : Prop where
  /-- bought together with the drafts it leaves no shortfall -/
  restores : (coverageReport t.pricePerGramRial t.policy
    (t.position.purchased t.report.recommendedPurchaseGrams)).shortfallGrams = 0
  /-- it can be ordered, and its confirmation leaves no shortfall -/
  ordered : 0 < t.report.recommendedPurchaseGrams →
    ∃ t', createPurchaseRequest adminId dto t = .ok t' ∧
      t'.allConfirmed.report.shortfallGrams = 0
  /-- it is nothing exactly if the drafts suffice -/
  zero_iff : t.report.recommendedPurchaseGrams = 0 ↔
    t.report.shortfallGrams ≤ t.position.drafts
  multiple : Multiple t.policy t.report.recommendedPurchaseGrams
  /-- every purchase that leaves no shortfall is as large -/
  minimal : ∀ x, 0 ≤ x → Fits gramScale x → Multiple t.policy x →
    (coverageReport t.pricePerGramRial t.policy (t.position.purchased x)).shortfallGrams = 0 →
    t.report.recommendedPurchaseGrams ≤ x

/-- Nothing is missing, no lot is set, or the least multiple of the lot that covers the need has
four places at most. -/
def Purchasable (y : Policy) (p : Position) : Prop :=
  need y p ≤ 0 ∨ y.lotGrams ≤ 0 ∨
    Fits gramScale (⌈need y p / y.lotGrams⌉ * y.lotGrams)

theorem fits_least (hstored : Stored p) : Fits gramScale (least y p) ↔ Purchasable y p := by
  unfold least Purchasable
  split
  · rename_i hneed
    exact iff_of_true (fits_zero _) (.inl hneed)
  · rename_i hneed
    split
    · rename_i hlot
      exact iff_of_true (hstored.need y) (.inr (.inl hlot))
    · rename_i hlot
      exact ⟨fun h => .inr (.inr h), fun h => (h.resolve_left hneed).resolve_left hlot⟩

theorem report_recommended (h : FewDigits t.policy t.position) :
    t.report.recommendedPurchaseGrams = least t.policy t.position :=
  recommended_eq h (stored_position t)

/-- A request for a purchase of four places goes through. -/
theorem request_ok (adminId : ℕ) {dto : PurchaseRequestDto} (h : FewDigits t.policy t.position)
    (hdto : Requested t dto) (hpos : 0 < t.report.recommendedPurchaseGrams)
    (hfits : Fits gramScale t.report.recommendedPurchaseGrams) :
    ∃ t', createPurchaseRequest adminId dto t = .ok t' ∧
      t'.pricePerGramRial = t.pricePerGramRial ∧ t'.policy = t.policy ∧
      t'.allConfirmed.position = t.position.purchased t.report.recommendedPurchaseGrams := by
  have hgrams : dto.grams.getD t.report.recommendedPurchaseGrams =
      t.report.recommendedPurchaseGrams := by rw [hdto.grams]; rfl
  have hle : t.report.recommendedPurchaseGrams ≤ 10 ^ 12 :=
    (report_recommended h).le.trans (least_le_bound h)
  have hprice : 10 ^ 4 ≤ (requestOrder dto t).pricePerGramRial := by
    have hround := roundHalfAway_mono hdto.price
    have hfour : roundHalfAway (10 ^ 4) = 10 ^ 4 := by decide +kernel
    rw [hfour] at hround
    show (10 : ℚ) ^ 4 ≤ toDecimalPlaces 0 .halfUp _
    rw [toDecimalPlaces_zero_halfUp]
    exact_mod_cast hround
  obtain ⟨a, hamounts, hfine⟩ := (@computeAmounts_request (requestOrder dto t)) rfl rfl rfl
    rfl rfl rfl (by rwa [requestOrder, hgrams]) (by rwa [requestOrder, hgrams])
    (by rwa [requestOrder, hgrams]) hprice
  have hfine' : a.fine = t.report.recommendedPurchaseGrams := hfine.trans hgrams
  refine ⟨withDraft adminId (requestOrder dto t) t a, ?_, rfl, rfl, ?_⟩
  · rw [createPurchaseRequest_eq adminId (by rwa [hgrams]),
      createOrder_eq adminId hdto.supplier, hamounts]
    rfl
  · rw [← hfine']
    exact position_withDraft t adminId rfl rfl (by rwa [hfine'])

/-- Users hold so many units of gold, none is in the vault, and one supplier is active. -/
def bareTreasury (units : ℤ) (lotGrams : ℚ) : Treasury where
  wallets := [units]
  books :=
    { accounts := ⟨Table.empty, List.nodup_nil⟩
      journals := Table.empty
      nextReference := 1
      fiscalYears := Table.empty
      lockedUntil := none
      systemConfig := fun _ => none
      now := 0 }
  orders := []
  suppliers := [{ id := 1, isActive := true }]
  pricePerGramRial := 10 ^ 8
  policy :=
    { targetPercent := 100
      bufferGrams := 0
      lotGrams := lotGrams
      alertPercent := 95
      includeBankGold := "true" }
  nextNumber := fun _ => 1

theorem requested_bareTreasury (units : ℤ) (lotGrams : ℚ) :
    Requested (bareTreasury units lotGrams) { supplierId := 1 } :=
  ⟨rfl, ⟨_, rfl, rfl⟩, by norm_num [bareTreasury]⟩

end TreasuryService

end ArkanGold
