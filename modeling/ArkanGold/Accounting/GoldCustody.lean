import ArkanGold.Common.Format
import ArkanGold.Lib.Decimal
import ArkanGold.Lib.Runs
import ArkanGold.Accounting.ControlAccount

/-!
# Gold in custody of the bank

`GoldCustodyService.transfer`: gold moves between the vault (1020) and the bank (1027), with a
cost that is its share of the book value of the account it leaves.

- `averageCostRial` divides and multiplies with twenty significant digits and then rounds to
  rials. The book value is a column of eighteen digits, so all the gold of an account takes all
  of the book value with it (`averageCostRial_all`).
- `CostSound` is the invariant of the two accounts; `transfer_moves` is what a transfer does.
-/

namespace ArkanGold

namespace ACC

/-- `GOLD_VAULT` -/
def GOLD_VAULT : String := "1020"

/-- `GOLD_AT_BANK` -/
def GOLD_AT_BANK : String := "1027"

end ACC

namespace AccountingService

/-- The digits of a `Decimal`. -/
def precision : ℕ := 20

/-- `averageCostRial` -/
def averageCostRial (s : Books) (accountCode : String) (grams : ℚ) : ℚ :=
  if grams ≤ 0 then 0
  else
    let balG := Numeric.ofScale gramScale (balanceOf .grams s accountCode)
    let balR := Numeric.ofScale rialScale (balanceOf .rial s accountCode)
    if balG ≤ 0 ∨ balR ≤ 0 then 0
    else
      let cost := Decimal.toDecimalPlaces 0 .halfUp
        (Decimal.times precision (Decimal.dividedBy precision balR balG) grams)
      if balR < cost then balR else cost

end AccountingService

/-- `CustodyDirection` -/
inductive CustodyDirection where
  | toBank
  | fromBank
  deriving DecidableEq

/-- The text of a weight, as `Decimal` reads it. -/
inductive GramsText where
  | unreadable
  | notFinite
  | number (q : ℚ)

/-- `CustodyTransferInput`; a direction may be neither of the two. -/
structure CustodyTransferInput where
  direction : Option CustodyDirection
  grams : GramsText
  date : Option DateInput
  reference : Option String
  description : Option String

namespace GoldCustodyService

open AccountingService

/-- `REFERENCE_TYPE` -/
def REFERENCE_TYPE : String := "GOLD_BANK_CUSTODY"

/-- The account that the gold leaves. -/
def sourceOf : CustodyDirection → String
  | .toBank => ACC.GOLD_VAULT
  | .fromBank => ACC.GOLD_AT_BANK

/-- The account that the gold goes to. -/
def targetOf : CustodyDirection → String
  | .toBank => ACC.GOLD_AT_BANK
  | .fromBank => ACC.GOLD_VAULT

/-- The weight of a request. -/
def gramsOf : GramsText → Except ApiError ℚ
  | .unreadable => .error (.badRequest "وزن نامعتبر است")
  | .notFinite => .error (.badRequest "وزن باید بیشتر از صفر باشد")
  | .number q =>
    if q ≤ 0 then .error (.badRequest "وزن باید بیشتر از صفر باشد")
    else if 4 < decimalPlaces q then
      .error (.badRequest "دقت وزن حداکثر ۴ رقم اعشار است")
    else .ok q

/-- The date of a request. -/
def entryDateOf (now : ℤ) : Option DateInput → Except ApiError (Option ℤ)
  | none => .ok none
  | some (.day d) =>
    if now < utcMidnight d then .error (.badRequest "تاریخ نمی‌تواند در آینده باشد")
    else .ok (some (utcMidnight d))
  | some _ => .error (.badRequest "قالب تاریخ باید YYYY-MM-DD باشد")

/-- The description of the journal. -/
def descriptionOf (direction : CustodyDirection) (grams : ℚ) (input : CustodyTransferInput) :
    String :=
  let label := match direction with
    | .toBank => s!"سپردن {formatDecimal grams} گرم طلای ۷۵۰ از خزانه به بانک کارگشایی"
    | .fromBank => s!"بازگشت {formatDecimal grams} گرم طلای ۷۵۰ از بانک کارگشایی به خزانه"
  let reference := (input.reference.map fun r => ((trim r).take 100).toString).filter (· ≠ "")
  let parts := [some label, reference.map fun r => s!"رسید/قرارداد {r}",
    (input.description.map trim).filter (· ≠ "")]
  ((" — ".intercalate (parts.filterMap id)).take 500).toString

/-- The journal of a transfer; its reference is a text, which is part of the description. -/
def transferJournal (adminId : ℕ) (direction : CustodyDirection) (grams cost : ℚ)
    (entryDate : Option ℤ) (input : CustodyTransferInput) : JournalInput where
  description := descriptionOf direction grams input
  totalRial := cost
  totalGrams := grams
  source := .treasury
  referenceType := some REFERENCE_TYPE
  createdByAdminId := some adminId
  entryDate := entryDate
  lines :=
    [{ accountCode := targetOf direction, side := .debit, amountRial := cost,
        amountGrams := grams },
      { accountCode := sourceOf direction, side := .credit, amountRial := cost,
        amountGrams := grams }]

/-- `transfer`: the id of the journal and the cost. -/
def transfer (adminId : ℕ) (input : CustodyTransferInput) : Tx ApiError Books (ℕ × ℚ) := do
  let direction ← Tx.getOrFail input.direction (.badRequest "جهت انتقال نامعتبر است")
  let grams ← Tx.ofExcept (gramsOf input.grams)
  let s ← Tx.get
  let entryDate ← Tx.ofExcept (entryDateOf s.now input.date)
  let source := s.accounts.findByCode (sourceOf direction)
  let available := Numeric.ofScale gramScale (balanceOf .grams s (sourceOf direction))
  let name := (source.map Account.name).getD (sourceOf direction)
  Tx.check (decide (grams ≤ available)) (.badRequest
    s!"موجودی {name} ({formatDecimal available} گرم) کمتر از {formatDecimal grams} گرم است")
  let cost := averageCostRial s (sourceOf direction) grams
  let journalId ← postJournal (transferJournal adminId direction grams cost entryDate input)
  pure (journalId, cost)

/-! ## The cost -/

variable {s s' : Books}

/-- The balances of the two accounts are ones that their columns hold. -/
def InColumns (s : Books) : Prop :=
  ∀ a ∈ s.accounts.rows, |a.balanceRial| < 10 ^ 18 ∧ |a.balanceGrams| < 10 ^ 18

theorem InColumns.rial (h : InColumns s) (code : String) : |balanceOf .rial s code| < 10 ^ 18 := by
  unfold balanceOf
  cases ha : s.accounts.findByCode code with
  | none => norm_num
  | some a => exact (h a (Chart.mem_of_findByCode ha)).1

/-- The cost is a whole number of rials between nothing and the book value. -/
theorem averageCostRial_spec (code : String) (grams : ℚ) :
    ∃ n : ℤ, averageCostRial s code grams = n ∧ 0 ≤ n ∧
      (0 ≤ balanceOf .rial s code → n ≤ balanceOf .rial s code) := by
  have hscale : ∀ n : ℤ, Numeric.ofScale rialScale n = n := fun n => by simp [Numeric.ofScale]
  unfold averageCostRial
  split
  · exact ⟨0, by simp, le_rfl, id⟩
  · simp only [hscale]
    split
    · exact ⟨0, by simp, le_rfl, id⟩
    · rename_i hgrams hbal
      push Not at hgrams hbal
      obtain ⟨hbalG, hbalR⟩ := hbal
      have hratio := Decimal.sig_nonneg precision (div_nonneg hbalR.le hbalG.le)
      have hcost := Decimal.sig_nonneg precision (mul_nonneg hratio hgrams.le)
      split
      · exact ⟨_, rfl, by exact_mod_cast hbalR.le, fun _ => le_rfl⟩
      · rename_i hle
        rw [Decimal.toDecimalPlaces_zero_halfUp] at hle ⊢
        refine ⟨_, rfl, Numeric.roundHalfAway_nonneg hcost, fun _ => ?_⟩
        exact_mod_cast not_lt.mp hle

/-- Twice rounded to twenty digits, a number of eighteen digits is off by less than a half. -/
theorem abs_times_dividedBy_sub_lt {r g : ℚ} (hr : 0 < r) (hg : 0 < g) (hmax : r ≤ 10 ^ 18) :
    |Decimal.times precision (Decimal.dividedBy precision r g) g - r| < 1 / 2 := by
  set x := Decimal.dividedBy precision r g with hx
  have hnear : |x - r / g| * 10 ^ 20 ≤ 5 * |r / g| := Decimal.sig_near precision (r / g)
  have hprod : |Decimal.times precision x g - x * g| * 10 ^ 20 ≤ 5 * |x * g| :=
    Decimal.sig_near precision (x * g)
  have hx0 : 0 ≤ x := Decimal.sig_nonneg precision (div_nonneg hr.le hg.le)
  rw [abs_of_pos (div_pos hr hg)] at hnear
  rw [abs_of_nonneg (mul_nonneg hx0 hg.le)] at hprod
  have hscaled : |x * g - r| * 10 ^ 20 ≤ 5 * r := by
    have heq : x * g - r = (x - r / g) * g := by rw [sub_mul, div_mul_cancel₀ _ hg.ne']
    rw [heq, abs_mul, abs_of_pos hg]
    calc |x - r / g| * g * 10 ^ 20 = |x - r / g| * 10 ^ 20 * g := by ring
      _ ≤ 5 * (r / g) * g := mul_le_mul_of_nonneg_right hnear hg.le
      _ = 5 * r := by rw [mul_assoc, div_mul_cancel₀ _ hg.ne']
  have hle := le_abs_self (x * g - r)
  have htriangle := abs_sub_le (Decimal.times precision x g) (x * g) r
  linarith

/-- **All the gold of an account costs all of its book value.** -/
theorem averageCostRial_all {code : String} {grams : ℚ} (hgrams : 0 < grams)
    (hall : grams = Numeric.ofScale gramScale (balanceOf .grams s code))
    (hrial : 0 ≤ balanceOf .rial s code) (hmax : |balanceOf .rial s code| < 10 ^ 18) :
    averageCostRial s code grams = balanceOf .rial s code := by
  have hscale : Numeric.ofScale rialScale (balanceOf .rial s code) = balanceOf .rial s code := by
    simp [Numeric.ofScale]
  unfold averageCostRial
  rw [if_neg (not_le.mpr hgrams), ← hall]
  simp only [hscale]
  rcases hrial.eq_or_lt with hzero | hpos
  · rw [← hzero]
    simp
  · have hpos' : (0 : ℚ) < balanceOf .rial s code := by exact_mod_cast hpos
    have hmax' : (balanceOf .rial s code : ℚ) ≤ 10 ^ 18 := by
      exact_mod_cast ((le_abs_self _).trans_lt hmax).le
    have hround : Numeric.roundHalfAway (Decimal.times precision
        (Decimal.dividedBy precision (balanceOf .rial s code) grams) grams) =
          balanceOf .rial s code :=
      Decimal.roundHalfAway_eq (abs_times_dividedBy_sub_lt hpos' hgrams hmax')
    rw [if_neg (by push Not; exact ⟨hgrams, hpos'⟩), Decimal.toDecimalPlaces_zero_halfUp, hround,
      if_neg (lt_irrefl _)]

/-! ## Transfers -/

/-- A weight of at most four places is one that a gram column holds. -/
theorem fits_of_decimalPlaces {q : ℚ} (h : decimalPlaces q ≤ 4) : Numeric.Fits gramScale q := by
  obtain ⟨k, hk, hden⟩ : ∃ k ≤ 4, (q * 10 ^ k).den = 1 := by
    unfold decimalPlaces at h
    cases hfind : (List.range 20).find? fun k => (q * 10 ^ k).den == 1 with
    | none =>
      rw [hfind] at h
      exact absurd h (by decide)
    | some k =>
      rw [hfind] at h
      exact ⟨k, h, by simpa using List.find?_some hfind⟩
  have hint : q * 10 ^ k = (q * 10 ^ k).num := (Rat.den_eq_one_iff _).mp hden |>.symm
  have hunits : q = Numeric.ofScale gramScale ((q * 10 ^ k).num * 10 ^ (4 - k)) := by
    have hpow : (10 : ℚ) ^ k * 10 ^ (4 - k) = 10 ^ 4 := by rw [← pow_add, Nat.add_sub_cancel' hk]
    rw [Numeric.ofScale, eq_div_iff (by positivity)]
    push_cast
    rw [← hint, mul_assoc, hpow]
  rw [hunits]
  exact Numeric.fits_ofScale _ _

theorem gramsOf_ok {text : GramsText} {grams : ℚ} (h : gramsOf text = .ok grams) :
    0 < grams ∧ Numeric.Fits gramScale grams := by
  cases text with
  | unreadable => cases h
  | notFinite => cases h
  | number q =>
    simp only [gramsOf] at h
    split at h
    · cases h
    · rename_i hpos
      split at h
      · cases h
      · rename_i hplaces
        cases h
        exact ⟨not_le.mp hpos, fits_of_decimalPlaces (not_lt.mp hplaces)⟩

/-- What a transfer that returns has done: so many units of gold and so many rials have moved,
and if this is all the gold it is all of the book value. -/
structure Moves (direction : CustodyDirection) (rial grams : ℤ) (s s' : Books) : Prop where
  rial_nonneg : 0 ≤ rial
  grams_pos : 0 < grams
  grams_le : grams ≤ balanceOf .grams s (sourceOf direction)
  rial_le : 0 ≤ balanceOf .rial s (sourceOf direction) →
    rial ≤ balanceOf .rial s (sourceOf direction)
  all : grams = balanceOf .grams s (sourceOf direction) →
    0 ≤ balanceOf .rial s (sourceOf direction) →
    |balanceOf .rial s (sourceOf direction)| < 10 ^ 18 →
    rial = balanceOf .rial s (sourceOf direction)
  source : balanceOf .rial s' (sourceOf direction) = balanceOf .rial s (sourceOf direction) - rial ∧
    balanceOf .grams s' (sourceOf direction) = balanceOf .grams s (sourceOf direction) - grams
  target : balanceOf .rial s' (targetOf direction) = balanceOf .rial s (targetOf direction) + rial ∧
    balanceOf .grams s' (targetOf direction) = balanceOf .grams s (targetOf direction) + grams

/-- What the journal of a transfer does to the two accounts. -/
theorem lineEffect_transfer (c : Commodity) (adminId : ℕ) (direction : CustodyDirection)
    (grams cost : ℚ) (entryDate : Option ℤ) (input : CustodyTransferInput) (amount : ℤ)
    (hamount : ∀ l ∈ (transferJournal adminId direction grams cost entryDate input).lines,
      Numeric.toScale c.scale (c.lineAmount l) = amount) :
    lineEffect c (targetOf direction)
        (transferJournal adminId direction grams cost entryDate input).lines = amount ∧
      lineEffect c (sourceOf direction)
        (transferJournal adminId direction grams cost entryDate input).lines = -amount := by
  have hvault : natureOf ACC.GOLD_VAULT = .debit := by decide +kernel
  have hbank : natureOf ACC.GOLD_AT_BANK = .debit := by decide +kernel
  have hne : ACC.GOLD_VAULT ≠ ACC.GOLD_AT_BANK := by decide
  simp only [transferJournal, List.forall_mem_cons] at hamount
  obtain ⟨hdebit, hcredit, -⟩ := hamount
  cases direction <;>
    simp [lineEffect, transferJournal, sideEffect, sourceOf, targetOf, hvault, hbank, hne, hne.symm,
      hdebit, hcredit] at hdebit hcredit ⊢

theorem transfer_moves {adminId : ℕ} {input : CustodyTransferInput} {r : ℕ × ℚ}
    (h : (transfer adminId input).Ok s r s') :
    ∃ direction rial grams, Moves direction rial grams s s' := by
  simp only [transfer, Tx.ok_bind, Tx.ok_getOrFail, Tx.ok_ofExcept, Tx.ok_get, Tx.ok_check,
    Tx.ok_pure] at h
  obtain ⟨direction, s₁, ⟨-, hs₁⟩, grams, s₂, ⟨hgrams, hs₂⟩, s₃, s₄, ⟨hs₃, hs₄⟩, entryDate, s₅,
    ⟨-, hs₅⟩, _, s₆, ⟨havailable, hs₆⟩, journalId, _, hpost, -, rfl⟩ := h
  subst s₆ s₅ s₄ s₃ s₂ s₁
  obtain ⟨hpos, hfits⟩ := gramsOf_ok hgrams
  obtain ⟨cost, hcost, hnonneg, hle⟩ := averageCostRial_spec (s := s) (sourceOf direction) grams
  obtain ⟨posted, hposting, -, rfl⟩ := postJournal_ok hpost
  rw [hcost] at hposting ⊢
  have hunits : grams = Numeric.ofScale gramScale (Numeric.toScale gramScale grams) := hfits.symm
  set units := Numeric.toScale gramScale grams with hunits'
  have hrial : ∀ l ∈ (transferJournal adminId direction grams cost entryDate input).lines,
      l.amountRial = cost ∧ l.amountGrams = grams := by
    simp [transferJournal]
  have hcash : ∀ d : CustodyDirection, (sourceOf d).startsWith CASH_ROOT_CODE = false ∧
      (targetOf d).startsWith CASH_ROOT_CODE = false := by
    rintro (_ | _) <;> decide +kernel
  have hrials := lineEffect_transfer .rial adminId direction grams cost entryDate input cost
    fun l hl => by
      show Numeric.toScale rialScale l.amountRial = cost
      rw [(hrial l hl).1]
      simpa [Numeric.ofScale] using Numeric.toScale_ofScale rialScale cost
  have hweights := lineEffect_transfer .grams adminId direction grams cost entryDate input units
    fun l hl => by
      show Numeric.toScale gramScale l.amountGrams = units
      rw [(hrial l hl).2]
  have hfitsRial : ∀ l ∈ (transferJournal adminId direction grams cost entryDate input).lines,
      Numeric.Fits Commodity.rial.scale (Commodity.rial.lineAmount l) := fun l hl => by
    show Numeric.Fits rialScale l.amountRial
    rw [(hrial l hl).1]
    simpa [Numeric.ofScale] using Numeric.fits_ofScale rialScale cost
  have hfitsGrams : ∀ l ∈ (transferJournal adminId direction grams cost entryDate input).lines,
      Numeric.Fits Commodity.grams.scale (Commodity.grams.lineAmount l) := fun l hl => by
    show Numeric.Fits gramScale l.amountGrams
    rw [(hrial l hl).2]
    exact hfits
  have hmoved := fun (c : Commodity) hfits code hcode =>
    @balanceOf_posting c _ _ _ _ (transferJournal adminId direction grams cost entryDate input)
      hposting (ChartKept.refl s) hfits code hcode
  have hbal : Numeric.ofScale gramScale units ≤
      Numeric.ofScale gramScale (balanceOf .grams s (sourceOf direction)) := by
    rw [← hunits]
    exact of_decide_eq_true havailable
  refine ⟨direction, cost, units, hnonneg, ?_, Numeric.ofScale_le.mp hbal, hle,
    fun hall hge hmax => ?_, ⟨?_, ?_⟩, ?_, ?_⟩
  · have hzero : Numeric.ofScale gramScale 0 < Numeric.ofScale gramScale units := by
      rw [← hunits, Numeric.ofScale_zero]
      exact hpos
    exact lt_of_not_ge fun hle => absurd (Numeric.ofScale_le.mpr hle) (not_le.mpr hzero)
  · have hcostAll := averageCostRial_all hpos (hunits.trans (congrArg _ hall)) hge hmax
    exact_mod_cast hcost.symm.trans hcostAll
  · rw [hmoved .rial hfitsRial _ (hcash direction).1, hrials.2]
    rfl
  · rw [hmoved .grams hfitsGrams _ (hcash direction).1, hweights.2]
    rfl
  · rw [hmoved .rial hfitsRial _ (hcash direction).2, hrials.1]
  · rw [hmoved .grams hfitsGrams _ (hcash direction).2, hweights.1]

/-! ## Sequences of transfers and purchases -/

/-- A journal that buys gold into the vault: so many rials and so many units, both positive; its
other lines are of other accounts. -/
structure Purchase (params : JournalInput) (rial grams : ℤ) : Prop where
  rial_pos : 0 < rial
  grams_pos : 0 < grams
  lines : ∃ before l after, params.lines = before ++ l :: after ∧ l.accountCode = ACC.GOLD_VAULT ∧
    l.side = .debit ∧ l.amountRial = (rial : ℚ) ∧
    l.amountGrams = Numeric.ofScale gramScale grams ∧
    ∀ l' ∈ before ++ after, l'.accountCode ≠ ACC.GOLD_VAULT ∧ l'.accountCode ≠ ACC.GOLD_AT_BANK
  fits : ∀ l ∈ params.lines,
    Numeric.Fits rialScale l.amountRial ∧ Numeric.Fits gramScale l.amountGrams

/-- What happens to the gold. -/
inductive CustodyEvent where
  | transfer (adminId : ℕ) (input : CustodyTransferInput)
  | purchase (params : JournalInput) (rial grams : ℤ)
  /-- other accounts, settings and the clock -/
  | elsewhere

/-- The accounts of the gold. -/
def goldAccounts : List String := [ACC.GOLD_VAULT, ACC.GOLD_AT_BANK]

/-- One event. -/
def CustodyStep (s : Books) (e : CustodyEvent) (s' : Books) : Prop :=
  match e with
  | .transfer adminId input => ∃ r, (transfer adminId input).Ok s r s'
  | .purchase params rial grams =>
    Purchase params rial grams ∧ ∃ id, (postJournal params).Ok s id s'
  | .elsewhere => ∀ (c : Commodity), ∀ code ∈ goldAccounts, balanceOf c s' code = balanceOf c s code

/-- A sequence of events, on books that their columns hold. -/
inductive CustodyRun (s₀ : Books) : List CustodyEvent → Books → Prop where
  | start : CustodyRun s₀ [] s₀
  | next {es : List CustodyEvent} {e : CustodyEvent} {s s' : Books} (h : CustodyRun s₀ es s)
      (hcolumns : InColumns s) (hstep : CustodyStep s e s') : CustodyRun s₀ (es ++ [e]) s'

/-- The rials that an event buys gold for. -/
def CustodyEvent.boughtRial : CustodyEvent → ℤ
  | purchase _ rial _ => rial
  | _ => 0

/-- The units of gold that an event buys. -/
def CustodyEvent.boughtGrams : CustodyEvent → ℤ
  | purchase _ _ grams => grams
  | _ => 0

/-- The balance of both accounts. -/
def total (c : Commodity) (s : Books) : ℤ :=
  balanceOf c s ACC.GOLD_VAULT + balanceOf c s ACC.GOLD_AT_BANK

/-- Neither account has less than nothing. -/
def NonNegative (s : Books) : Prop :=
  ∀ code ∈ goldAccounts, 0 ≤ balanceOf .rial s code ∧ 0 ≤ balanceOf .grams s code

/-- No gold, no book value. -/
def NoRialAlone (code : String) (s : Books) : Prop :=
  balanceOf .grams s code = 0 → balanceOf .rial s code = 0

/-- What a sequence of events leaves of the two accounts. -/
structure NothingLeaks (s₀ : Books) (es : List CustodyEvent) (s : Books) : Prop where
  nonneg : NonNegative s
  /-- an account that had gold, or nothing at all, has no book value when it has no gold -/
  emptied : ∀ code ∈ goldAccounts, NoRialAlone code s₀ → NoRialAlone code s
  rial : total .rial s = total .rial s₀ + (es.map CustodyEvent.boughtRial).sum
  grams : total .grams s = total .grams s₀ + (es.map CustodyEvent.boughtGrams).sum

theorem mem_goldAccounts {code : String} (h : code ∈ goldAccounts) (direction : CustodyDirection) :
    code = sourceOf direction ∨ code = targetOf direction := by
  simp only [goldAccounts, List.mem_cons, List.not_mem_nil, or_false] at h
  cases direction
  · exact h
  · exact h.symm

theorem source_mem (direction : CustodyDirection) : sourceOf direction ∈ goldAccounts := by
  cases direction <;> simp [goldAccounts, sourceOf]

theorem target_mem (direction : CustodyDirection) : targetOf direction ∈ goldAccounts := by
  cases direction <;> simp [goldAccounts, targetOf]

theorem vault_mem : ACC.GOLD_VAULT ∈ goldAccounts := source_mem .toBank

theorem bank_mem : ACC.GOLD_AT_BANK ∈ goldAccounts := source_mem .fromBank

theorem total_eq (c : Commodity) (s : Books) (direction : CustodyDirection) :
    total c s = balanceOf c s (sourceOf direction) + balanceOf c s (targetOf direction) := by
  cases direction
  · rfl
  · exact add_comm _ _

/-- One event, for the two accounts. -/
structure StepSound (e : CustodyEvent) (s s' : Books) : Prop where
  nonneg : NonNegative s'
  emptied : ∀ code ∈ goldAccounts, NoRialAlone code s → NoRialAlone code s'
  rial : total .rial s' = total .rial s + e.boughtRial
  grams : total .grams s' = total .grams s + e.boughtGrams

theorem Moves.sound {direction : CustodyDirection} {rial grams : ℤ} {adminId : ℕ}
    {input : CustodyTransferInput} (h : Moves direction rial grams s s') (hs : NonNegative s)
    (hcolumns : InColumns s) : StepSound (.transfer adminId input) s s' := by
  obtain ⟨hsourceRial, hsourceGrams⟩ := h.source
  obtain ⟨htargetRial, htargetGrams⟩ := h.target
  obtain ⟨hrial, hgrams⟩ := hs _ (source_mem direction)
  obtain ⟨hrial', hgrams'⟩ := hs _ (target_mem direction)
  have hmoved := h.rial_nonneg
  have hweight := h.grams_pos
  refine ⟨fun code hcode => ?_, fun code hcode _ hempty => ?_, ?_, ?_⟩
  · rcases mem_goldAccounts hcode direction with rfl | rfl
    · have hle := h.rial_le hrial
      have hle' := h.grams_le
      rw [hsourceRial, hsourceGrams]
      omega
    · rw [htargetRial, htargetGrams]
      omega
  · rcases mem_goldAccounts hcode direction with rfl | rfl
    · -- the last of the gold has taken the book value with it
      have hall := h.all (by omega) hrial (hcolumns.rial _)
      omega
    · omega
  · rw [total_eq .rial s' direction, total_eq .rial s direction, hsourceRial, htargetRial]
    show _ = _ + (0 : ℤ)
    omega
  · rw [total_eq .grams s' direction, total_eq .grams s direction, hsourceGrams, htargetGrams]
    show _ = _ + (0 : ℤ)
    omega

/-- What the journal of a purchase does to the two accounts. -/
theorem Purchase.lineEffect {params : JournalInput} {rial grams : ℤ}
    (h : Purchase params rial grams) (c : Commodity) {amount : ℤ}
    (hamount : ∀ l : LedgerLineInput, l.amountRial = (rial : ℚ) →
      l.amountGrams = Numeric.ofScale gramScale grams →
      Numeric.toScale c.scale (c.lineAmount l) = amount) :
    lineEffect c ACC.GOLD_VAULT params.lines = amount ∧
      lineEffect c ACC.GOLD_AT_BANK params.lines = 0 := by
  obtain ⟨before, l, after, hlines, hcode, hside, hrial, hgrams, hothers⟩ := h.lines
  have hvault : natureOf ACC.GOLD_VAULT = .debit := by decide +kernel
  have hnone : ∀ code ∈ goldAccounts, ∀ ls ⊆ before ++ after,
      AccountingService.lineEffect c code ls = 0 := by
    intro code hmem ls hls
    refine List.sum_eq_zero fun x hx => ?_
    obtain ⟨l', hl', rfl⟩ := List.mem_map.mp hx
    refine if_neg fun heq => ?_
    obtain ⟨hne, hne'⟩ := hothers l' (hls hl')
    rcases mem_goldAccounts hmem .toBank with rfl | rfl
    · exact hne heq
    · exact hne' heq
  have hsplit : ∀ code ∈ goldAccounts, AccountingService.lineEffect c code params.lines =
      if l.accountCode = code then sideEffect code l.side amount else 0 := by
    intro code hmem
    have hbefore := hnone code hmem before (List.subset_append_left _ _)
    have hafter := hnone code hmem after (List.subset_append_right _ _)
    rw [hlines, AccountingService.lineEffect, List.map_append, List.sum_append, List.map_cons,
      List.sum_cons, hamount l hrial hgrams]
    unfold AccountingService.lineEffect at hbefore hafter
    rw [hbefore, hafter, zero_add, add_zero]
  constructor
  · rw [hsplit _ vault_mem, if_pos hcode, hside, sideEffect, hvault, if_pos rfl]
  · rw [hsplit _ bank_mem, hcode, if_neg (by decide)]

theorem Purchase.sound {params : JournalInput} {rial grams : ℤ} {id : ℕ}
    (h : Purchase params rial grams) (hok : (postJournal params).Ok s id s') (hs : NonNegative s) :
    StepSound (.purchase params rial grams) s s' := by
  obtain ⟨posted, hposting, -, rfl⟩ := postJournal_ok hok
  have hcash : ∀ code ∈ goldAccounts, code.startsWith CASH_ROOT_CODE = false := by
    decide +kernel
  obtain ⟨hvaultRial, hbankRial⟩ := @Purchase.lineEffect _ _ _ h .rial rial fun l hl _ => by
    show Numeric.toScale rialScale l.amountRial = rial
    rw [hl]
    simpa [Numeric.ofScale] using Numeric.toScale_ofScale rialScale rial
  obtain ⟨hvaultGrams, hbankGrams⟩ := @Purchase.lineEffect _ _ _ h .grams grams fun l _ hl => by
    show Numeric.toScale gramScale l.amountGrams = grams
    rw [hl, Numeric.toScale_ofScale]
  have hrial (code : String) (hcode : code ∈ goldAccounts) :
      balanceOf .rial (write params posted s) code =
        balanceOf .rial s code + AccountingService.lineEffect .rial code params.lines :=
    balanceOf_posting .rial hposting (ChartKept.refl s) (fun l hl => (h.fits l hl).1)
      (hcash code hcode)
  have hgrams (code : String) (hcode : code ∈ goldAccounts) :
      balanceOf .grams (write params posted s) code =
        balanceOf .grams s code + AccountingService.lineEffect .grams code params.lines :=
    balanceOf_posting .grams hposting (ChartKept.refl s) (fun l hl => (h.fits l hl).2)
      (hcash code hcode)
  have hrials := hrial _ vault_mem
  have hrials' := hrial _ bank_mem
  have hweights := hgrams _ vault_mem
  have hweights' := hgrams _ bank_mem
  rw [hvaultRial] at hrials
  rw [hbankRial] at hrials'
  rw [hvaultGrams] at hweights
  rw [hbankGrams] at hweights'
  have hpos := h.rial_pos
  have hpos' := h.grams_pos
  obtain ⟨hv, hv'⟩ := hs _ vault_mem
  obtain ⟨hb, hb'⟩ := hs _ bank_mem
  refine ⟨fun code hcode => ?_, fun code hcode hbefore hempty => ?_, ?_, ?_⟩
  · rcases mem_goldAccounts hcode .toBank with rfl | rfl
    · exact ⟨by simp only [sourceOf]; omega, by simp only [sourceOf]; omega⟩
    · exact ⟨by simp only [targetOf]; omega, by simp only [targetOf]; omega⟩
  · rcases mem_goldAccounts hcode .toBank with rfl | rfl
    · simp only [sourceOf] at hempty
      omega
    · simp only [NoRialAlone, targetOf] at hempty hbefore ⊢
      omega
  · simp only [total, CustodyEvent.boughtRial]
    omega
  · simp only [total, CustodyEvent.boughtGrams]
    omega

theorem CustodyStep.sound {e : CustodyEvent} (h : CustodyStep s e s') (hs : NonNegative s)
    (hcolumns : InColumns s) : StepSound e s s' := by
  cases e with
  | transfer adminId input =>
    obtain ⟨r, hok⟩ := h
    obtain ⟨direction, rial, grams, hmoves⟩ := transfer_moves hok
    exact hmoves.sound hs hcolumns
  | purchase params rial grams =>
    obtain ⟨hpurchase, id, hok⟩ := h
    exact hpurchase.sound hok hs
  | elsewhere =>
    have hsame : ∀ (c : Commodity), ∀ code ∈ goldAccounts,
        balanceOf c s' code = balanceOf c s code := h
    refine ⟨fun code hcode => ?_, fun code hcode hbefore => ?_, ?_, ?_⟩
    · rw [hsame .rial code hcode, hsame .grams code hcode]
      exact hs code hcode
    · rw [NoRialAlone, hsame .rial code hcode, hsame .grams code hcode]
      exact hbefore
    · rw [total, hsame .rial _ vault_mem, hsame .rial _ bank_mem]
      exact (add_zero _).symm
    · rw [total, hsame .grams _ vault_mem, hsame .grams _ bank_mem]
      exact (add_zero _).symm

/-- **No transfer creates or loses value.** -/
theorem cost_never_leaks {s₀ : Books} {es : List CustodyEvent} (hstart : NonNegative s₀)
    (hrun : CustodyRun s₀ es s) : NothingLeaks s₀ es s := by
  induction hrun with
  | start => exact ⟨hstart, fun _ _ h => h, (add_zero _).symm, (add_zero _).symm⟩
  | next _ hcolumns hstep ih =>
    have hsound := hstep.sound ih.nonneg hcolumns
    refine ⟨hsound.nonneg, fun code hcode hbefore =>
      hsound.emptied code hcode (ih.emptied code hcode hbefore), ?_, ?_⟩
    · rw [hsound.rial, ih.rial, List.map_append, List.sum_append, List.map_singleton,
        List.sum_singleton, add_assoc]
    · rw [hsound.grams, ih.grams, List.map_append, List.sum_append, List.map_singleton,
        List.sum_singleton, add_assoc]

/-! ## Gold bought and deposited in two parts -/

/-- A leaf account without balances. -/
def emptyAccount (id : ℕ) (code : String) (type : AccountType) : Account :=
  ⟨id, code, code, type, 0, 0, none, true⟩

/-- Books with the two accounts of the gold and the capital. -/
def goldBooks : Books where
  accounts :=
    { table :=
        { rows := [emptyAccount 1 ACC.GOLD_VAULT .asset, emptyAccount 2 ACC.GOLD_AT_BANK .asset,
            emptyAccount 3 "3010" .equity]
          next := 4
          lt_next := by decide
          nodup := by decide }
      code_nodup := by decide }
  journals := .empty
  nextReference := 1
  fiscalYears := .empty
  lockedUntil := none
  systemConfig _ := none
  now := 0

/-- Three grams for ten rials. -/
def goldPurchase : JournalInput where
  description := "خرید طلا"
  totalRial := 10
  totalGrams := 3
  lines := [{ accountCode := ACC.GOLD_VAULT, side := .debit, amountRial := 10, amountGrams := 3 },
    { accountCode := "3010", side := .credit, amountRial := 10, amountGrams := 3 }]

/-- A deposit of so many grams. -/
def deposit (grams : ℚ) : CustodyTransferInput := ⟨some .toBank, .number grams, none, none, none⟩

/-- The books after the purchase. -/
def goldBought : Books := ((postJournal goldPurchase).run goldBooks).2

/-- The books after a deposit. -/
def afterDeposit (grams : ℚ) (s : Books) : Books := ((transfer 7 (deposit grams)).run s).2

instance (s : Books) : Decidable (InColumns s) :=
  inferInstanceAs (Decidable (∀ a ∈ s.accounts.rows, _))

/-- `cost_never_leaks` for three grams that are deposited in two parts. -/
theorem cost_never_leaks_deposit :
    balanceOf .rial (afterDeposit 1 goldBought) ACC.GOLD_AT_BANK = 3 ∧
    balanceOf .rial (afterDeposit 2 (afterDeposit 1 goldBought)) ACC.GOLD_AT_BANK = 10 ∧
    NothingLeaks goldBooks [.purchase goldPurchase 10 30000, .transfer 7 (deposit 1),
      .transfer 7 (deposit 2)] (afterDeposit 2 (afterDeposit 1 goldBought)) := by
  have hpurchase : Purchase goldPurchase 10 30000 := by
    refine ⟨by decide, by decide,
      ⟨[], _, _, rfl, rfl, rfl, by decide +kernel, by decide +kernel, ?_⟩, ?_⟩
    · decide
    · decide +kernel
  have hbought : CustodyStep goldBooks (.purchase goldPurchase 10 30000) goldBought :=
    ⟨hpurchase, Tx.exists_ok_run (by decide +kernel)⟩
  have hfirst : CustodyStep goldBought (.transfer 7 (deposit 1)) (afterDeposit 1 goldBought) :=
    Tx.exists_ok_run (by decide +kernel)
  have hsecond : CustodyStep (afterDeposit 1 goldBought) (.transfer 7 (deposit 2))
      (afterDeposit 2 (afterDeposit 1 goldBought)) := Tx.exists_ok_run (by decide +kernel)
  refine ⟨by decide +kernel, by decide +kernel, ?_⟩
  exact (@cost_never_leaks _ goldBooks) (by unfold NonNegative; decide +kernel)
    (.next (.next (.next .start (by decide +kernel) hbought) (by decide +kernel) hfirst)
      (by decide +kernel) hsecond)

end GoldCustodyService

end ArkanGold
