import ArkanGold.Accounting.GoldCustody

/-!
# Revaluation of the gold

`AccountingReportsService`: the gold in the vault (1020), the gold at the bank (1027) and the
gold owed to the users (2020) are brought to their value at a price.

- `revaluationLines`: an account whose book value is not its target gets a line on the side on
  which it moves, and gain (4070) or loss (5070) the other one.
- The target is a product of `Decimal`, hence of twenty digits, and then rounded to rials.
- `InColumns`: balances are columns of eighteen digits, and with them no difference is rounded.
-/

namespace ArkanGold

open AccountingService

namespace ACC

/-- `USER_GOLD` -/
def USER_GOLD : String := "2020"

/-- `GOLD_GAIN` -/
def GOLD_GAIN : String := "4070"

/-- `GOLD_LOSS` -/
def GOLD_LOSS : String := "5070"

end ACC

namespace AccountingReportsService

open GoldCustodyService (InColumns)

/-! ## The journal -/

/-- What a price says about one account. -/
structure RevaluationItem where
  code : String
  name : String
  grams : ℚ
  bookValueRial : ℚ
  targetValueRial : ℚ
  adjustmentRial : ℚ
  gainRial : ℚ

/-- What a price says about all of them. -/
structure Revaluation where
  price : ℚ
  items : List RevaluationItem
  lines : List LedgerLineInput
  netGain : ℚ

/-- The accounts of the gold. -/
def revaluedCodes : List String := [ACC.GOLD_VAULT, ACC.GOLD_AT_BANK, ACC.USER_GOLD]

/-- `target`: grams times the price, with twenty digits, in whole rials. -/
def targetValue (price : ℚ) (a : Account) : ℚ :=
  Decimal.toDecimalPlaces 0 .halfUp
    (Decimal.times precision (Numeric.ofScale gramScale a.balanceGrams) price)

/-- `diff` -/
def adjustment (price : ℚ) (a : Account) : ℚ :=
  Decimal.minus precision (targetValue price a) (Numeric.ofScale rialScale a.balanceRial)

/-- `gain`: more of an asset is a gain, more of a debt is a loss. -/
def gainOf (price : ℚ) (a : Account) : ℚ :=
  if isDebitNature a.code then adjustment price a else -adjustment price a

/-- The lines of one account. -/
def revaluationLines (price : ℚ) (a : Account) : List LedgerLineInput :=
  let diff := adjustment price a
  let gain := gainOf price a
  if diff = 0 then []
  else
    [{ accountCode := a.code
       side := if isDebitNature a.code = decide (0 < diff) then .debit else .credit
       amountRial := |diff| },
     { accountCode := if 0 < gain then ACC.GOLD_GAIN else ACC.GOLD_LOSS
       side := if 0 < gain then .credit else .debit
       amountRial := |diff| }]

/-- The item of one account. -/
def revaluationItem (price : ℚ) (a : Account) : RevaluationItem where
  code := a.code
  name := a.name
  grams := Numeric.ofScale gramScale a.balanceGrams
  bookValueRial := Numeric.ofScale rialScale a.balanceRial
  targetValueRial := targetValue price a
  adjustmentRial := adjustment price a
  gainRial := gainOf price a

/-- The accounts of the gold that are in the chart. -/
def goldRows (s : Books) : List Account := s.accounts.rows.filter fun a => a.code ∈ revaluedCodes

/-- The revaluation at a price. -/
def revaluationAt (price : ℚ) (s : Books) : Revaluation :=
  let items := (goldRows s).map (revaluationItem price)
  { price, items
    lines := (goldRows s).flatMap (revaluationLines price)
    netGain := items.foldl (fun t i => Decimal.plus precision t i.gainRial) 0 }

/-- `buildRevaluation` at a price that is given or the one of the market. -/
def buildRevaluation (priceOverride : Option ℚ) (currentGoldPriceRial : ℚ) (s : Books) :
    Except ApiError Revaluation :=
  let price := priceOverride.getD currentGoldPriceRial
  if price ≤ 0 then .error (.badRequest "قیمت روز طلا در دسترس نیست")
  else .ok (revaluationAt price s)

/-- The journal of a revaluation. -/
def revaluationJournal (adminId : ℕ) (r : Revaluation) : JournalInput where
  description :=
    s!"ارزیابی (تسعیر) طلای آب‌شده به قیمت {formatDecimal r.price} ریال برای هر گرم"
  totalRial := (r.lines.filter fun l => l.side = .debit).foldl
    (fun t l => Decimal.plus precision t l.amountRial) 0
  totalGrams := 0
  source := .revaluation
  referenceType := some "GOLD_REVALUATION"
  createdByAdminId := some adminId
  lines := r.lines

/-- What `postRevaluation` returns. -/
structure RevaluationResult where
  message : String
  journalEntryId : ℕ
  netGainRial : ℚ

/-- `postRevaluation` -/
def postRevaluation (adminId : ℕ) (priceOverride : Option ℚ) (currentGoldPriceRial : ℚ) :
    Tx ApiError Books RevaluationResult := do
  let s ← Tx.get
  let r ← Tx.ofExcept (buildRevaluation priceOverride currentGoldPriceRial s)
  Tx.check (!r.lines.isEmpty)
    (.badRequest "ارزش دفتری طلا با قیمت روز برابر است؛ سندی لازم نیست")
  let journalId ← postJournal (revaluationJournal adminId r)
  pure
    { message := "سند ارزیابی طلا ثبت شد"
      journalEntryId := journalId
      netGainRial := r.netGain }

/-! ## What the lines do -/

variable {price : ℚ} {s s' : Books} {a : Account}

/-- The target in whole rials. -/
def targetRial (price : ℚ) (a : Account) : ℤ :=
  Numeric.roundHalfAway
    (Decimal.times precision (Numeric.ofScale gramScale a.balanceGrams) price)

/-- The adjustment in whole rials. -/
def diffRial (price : ℚ) (a : Account) : ℤ := ⌊adjustment price a⌋

/-- The gain in whole rials. -/
def gainRial (price : ℚ) (a : Account) : ℤ :=
  if isDebitNature a.code then diffRial price a else -diffRial price a

theorem targetValue_eq (price : ℚ) (a : Account) : targetValue price a = targetRial price a :=
  Decimal.toDecimalPlaces_zero_halfUp _

theorem adjustment_sig (price : ℚ) (a : Account) :
    adjustment price a
      = Decimal.sig precision ((targetRial price a - a.balanceRial : ℤ) : ℚ) := by
  rw [adjustment, targetValue_eq, Decimal.minus, Int.cast_sub]
  simp [Numeric.ofScale]

theorem adjustment_eq (price : ℚ) (a : Account) : adjustment price a = diffRial price a := by
  obtain ⟨d, hd⟩ := Decimal.sig_int precision (targetRial price a - a.balanceRial)
  rw [diffRial, adjustment_sig, hd, Int.floor_intCast]

theorem gainOf_eq (price : ℚ) (a : Account) : gainOf price a = gainRial price a := by
  rw [gainOf, gainRial, adjustment_eq]
  split <;> simp

/-- A difference that its column can hold is exact. -/
theorem diffRial_exact (h : |diffRial price a| < 2 * 10 ^ 18) :
    diffRial price a = targetRial price a - a.balanceRial := by
  have heq := (adjustment_eq price a).symm.trans (adjustment_sig price a)
  set q := targetRial price a - a.balanceRial
  have hnear := Decimal.sig_near precision (q : ℚ)
  have htriangle : |(q : ℚ)| ≤ |(diffRial price a : ℚ)| + |Decimal.sig precision q - q| := by
    rw [heq]
    have hsub := abs_sub_abs_le_abs_sub (q : ℚ) (Decimal.sig precision q)
    rw [abs_sub_comm] at hsub
    linarith
  have hdiff : |(diffRial price a : ℚ)| < 2 * 10 ^ 18 := by exact_mod_cast h
  have hq : |q| < 10 ^ precision := by
    have hlt : |(q : ℚ)| < 10 ^ precision := by
      simp only [precision] at hnear htriangle ⊢
      linarith
    exact_mod_cast hlt
  rw [Decimal.sig_intCast hq] at heq
  exact_mod_cast heq

theorem lineEffect_flatMap (c : Commodity) (code : String) (f : Account → List LedgerLineInput)
    (rows : List Account) :
    lineEffect c code (rows.flatMap f) = (rows.map fun a => lineEffect c code (f a)).sum := by
  induction rows with
  | nil => rfl
  | cons a rows ih =>
    rw [List.flatMap_cons, List.map_cons, List.sum_cons, ← ih, lineEffect, List.map_append,
      List.sum_append]
    rfl

theorem toScale_abs (d : ℤ) : Numeric.toScale rialScale |(d : ℚ)| = |d| := by
  have h := Numeric.toScale_ofScale rialScale |d|
  simpa [Numeric.ofScale] using h

/-- The lines of one account, in whole rials. -/
theorem revaluationLines_eq (price : ℚ) (a : Account) :
    revaluationLines price a =
      if diffRial price a = 0 then []
      else
        [{ accountCode := a.code
           side := if isDebitNature a.code = decide (0 < diffRial price a) then .debit else .credit
           amountRial := |(diffRial price a : ℚ)| },
         { accountCode := if 0 < gainRial price a then ACC.GOLD_GAIN else ACC.GOLD_LOSS
           side := if 0 < gainRial price a then .credit else .debit
           amountRial := |(diffRial price a : ℚ)| }] := by
  simp only [revaluationLines, adjustment_eq, gainOf_eq, Int.cast_eq_zero, Int.cast_pos]

/-- The account moves by its difference. -/
theorem sideEffect_account (code : String) (d : ℤ) :
    sideEffect code (if isDebitNature code = decide (0 < d) then .debit else .credit) |d| = d := by
  rcases lt_or_ge 0 d with hpos | hneg
  · cases hnature : isDebitNature code <;> simp [sideEffect, natureOf, hnature, hpos, abs_of_pos]
  · cases hnature : isDebitNature code <;>
      simp [sideEffect, natureOf, hnature, not_lt.mpr hneg, abs_of_nonpos hneg]

theorem not_mem_revaluedCodes : ACC.GOLD_GAIN ∉ revaluedCodes ∧ ACC.GOLD_LOSS ∉ revaluedCodes := by
  decide

theorem lineEffect_revaluationLines {code : String} (hcode : code ∈ revaluedCodes) :
    lineEffect .rial code (revaluationLines price a)
      = if a.code = code then diffRial price a else 0 := by
  have hgain : (if 0 < gainRial price a then ACC.GOLD_GAIN else ACC.GOLD_LOSS) ≠ code := by
    rintro rfl
    split at hcode
    · exact not_mem_revaluedCodes.1 hcode
    · exact not_mem_revaluedCodes.2 hcode
  rw [revaluationLines_eq]
  split
  · rename_i hzero
    simp [lineEffect, hzero]
  · simp only [lineEffect, List.map_cons, List.map_nil, List.sum_cons, List.sum_nil, if_neg hgain,
      add_zero]
    split
    · rename_i heq
      subst heq
      exact (congrArg _ (toScale_abs _)).trans (sideEffect_account a.code _)
    · rfl

/-- Gain and loss take the difference up. -/
theorem lineEffect_gain (price : ℚ) (ha : a.code ∈ revaluedCodes) :
    lineEffect .rial ACC.GOLD_GAIN (revaluationLines price a)
        - lineEffect .rial ACC.GOLD_LOSS (revaluationLines price a) = gainRial price a := by
  have hgain : natureOf ACC.GOLD_GAIN = .credit := by decide +kernel
  have hloss : natureOf ACC.GOLD_LOSS = .debit := by decide +kernel
  have hne : ACC.GOLD_GAIN ≠ ACC.GOLD_LOSS := by decide
  have hacc : a.code ≠ ACC.GOLD_GAIN ∧ a.code ≠ ACC.GOLD_LOSS :=
    ⟨fun h => not_mem_revaluedCodes.1 (h ▸ ha), fun h => not_mem_revaluedCodes.2 (h ▸ ha)⟩
  have habs : |gainRial price a| = |diffRial price a| := by
    unfold gainRial
    split <;> simp
  rw [revaluationLines_eq]
  split
  · rename_i hzero
    simp [lineEffect, gainRial, hzero]
  · have hscale := toScale_abs (diffRial price a)
    have hline : ∀ l : LedgerLineInput, l.amountRial = |(diffRial price a : ℚ)| →
        Numeric.toScale Commodity.rial.scale (Commodity.rial.lineAmount l)
          = |diffRial price a| := by
      intro l hl
      rw [← hscale, ← hl]
      rfl
    simp only [lineEffect, List.map_cons, List.map_nil, List.sum_cons, List.sum_nil,
      if_neg hacc.1, if_neg hacc.2, zero_add, add_zero, hline]
    rcases lt_or_ge 0 (gainRial price a) with hpos | hneg
    · simp only [if_pos hpos, if_true, if_neg hne, sideEffect, hgain, ← habs, sub_zero]
      exact abs_of_pos hpos
    · simp only [if_neg (not_lt.mpr hneg), if_true, if_neg hne.symm, sideEffect, hloss, ← habs,
        zero_sub, abs_of_nonpos hneg, neg_neg]

/-! ## Revaluations that are posted -/

theorem mem_goldRows : a ∈ goldRows s ↔ a ∈ s.accounts.rows ∧ a.code ∈ revaluedCodes := by
  simp [goldRows]

theorem nodup_goldRows (s : Books) : ((goldRows s).map Account.code).Nodup :=
  s.accounts.code_nodup.sublist (List.filter_sublist.map _)

/-- There are at most three of them. -/
theorem length_goldRows (s : Books) : (goldRows s).length ≤ 3 := by
  have hsub : (goldRows s).map Account.code ⊆ revaluedCodes := by
    intro code hcode
    obtain ⟨a, ha, rfl⟩ := List.mem_map.mp hcode
    exact (mem_goldRows.mp ha).2
  simpa [revaluedCodes] using ((nodup_goldRows s).subperm hsub).length_le

/-- What a call that returns has found and posted. -/
theorem postRevaluation_ok {adminId : ℕ} {priceOverride : Option ℚ} {current : ℚ}
    {r : RevaluationResult} (h : (postRevaluation adminId priceOverride current).Ok s r s') :
    ∃ price posted, price = priceOverride.getD current ∧ 0 < price ∧
      (goldRows s).flatMap (revaluationLines price) ≠ [] ∧
      Posting s (revaluationJournal adminId (revaluationAt price s)) posted ∧
      s' = write (revaluationJournal adminId (revaluationAt price s)) posted s ∧
      r.journalEntryId = s.journals.next ∧ r.netGainRial = (revaluationAt price s).netGain := by
  simp only [postRevaluation, Tx.ok_bind, Tx.ok_get, Tx.ok_ofExcept, Tx.ok_check, Tx.ok_pure] at h
  obtain ⟨s₀, s₁, ⟨hs, hs₁⟩, rev, s₂, ⟨hbuild, hs₂⟩, _, s₃, ⟨hlines, hs₃⟩, journalId, s₄, hpost, rfl,
    hs₄⟩ := h
  subst s₄ s₃ s₂ s₁ s₀
  unfold buildRevaluation at hbuild
  dsimp only at hbuild
  split at hbuild
  · cases hbuild
  · rename_i hpos
    obtain rfl := Except.ok.inj hbuild
    obtain ⟨posted, hposting, rfl, rfl⟩ := postJournal_ok hpost
    have hsome : (revaluationAt (priceOverride.getD current) s).lines ≠ [] := by simpa using hlines
    exact ⟨_, posted, rfl, not_le.mp hpos, hsome, hposting, rfl, rfl, rfl⟩

/-- The amounts are whole rials, and there are no grams. -/
theorem fits_revaluation (adminId : ℕ) (price : ℚ) (s : Books) :
    ∀ l ∈ (revaluationJournal adminId (revaluationAt price s)).lines,
      Numeric.Fits rialScale l.amountRial ∧ l.amountGrams = 0 := by
  intro l hl
  obtain ⟨a, -, hl⟩ := List.mem_flatMap.mp hl
  rw [revaluationLines_eq] at hl
  have habs : Numeric.Fits rialScale |(diffRial price a : ℚ)| := by
    simpa [Numeric.ofScale] using Numeric.fits_ofScale rialScale |diffRial price a|
  split at hl
  · cases hl
  · simp only [List.mem_cons, List.not_mem_nil, or_false] at hl
    rcases hl with rfl | rfl
    · exact ⟨habs, rfl⟩
    · exact ⟨habs, rfl⟩

/-- No account of cash is among them. -/
theorem code_of_revaluation (adminId : ℕ) (price : ℚ) (s : Books) :
    ∀ l ∈ (revaluationJournal adminId (revaluationAt price s)).lines,
      l.accountCode ∈ revaluedCodes ++ [ACC.GOLD_GAIN, ACC.GOLD_LOSS] := by
  intro l hl
  obtain ⟨a, ha, hl⟩ := List.mem_flatMap.mp hl
  rw [revaluationLines_eq] at hl
  split at hl
  · cases hl
  · simp only [List.mem_cons, List.not_mem_nil, or_false] at hl
    rcases hl with rfl | rfl
    · exact List.mem_append_left _ (mem_goldRows.mp ha).2
    · refine List.mem_append_right _ ?_
      split <;> simp

/-- How a balance in rials changes. -/
def rialChange (s s' : Books) (code : String) : ℤ :=
  balanceOf .rial s' code - balanceOf .rial s code

/-- What a revaluation at a price leaves. -/
structure Revalued (price : ℚ) (r : RevaluationResult) (s s' : Books) : Prop where
  /-- the journal is balanced, in rials and in grams -/
  balanced : ∃ j, s'.journals.rows = s.journals.rows ++ [j] ∧ j.id = r.journalEntryId ∧
    DoubleEntry.Balanced LedgerEntry.side LedgerEntry.amountRial j.ledgerEntries ∧
    DoubleEntry.Balanced LedgerEntry.side LedgerEntry.amountGrams j.ledgerEntries
  /-- every account of the gold stands at its target -/
  target : ∀ code ∈ revaluedCodes, ∀ a, s'.accounts.findByCode code = some a →
    a.balanceRial = Numeric.roundHalfAway
      (Decimal.times precision (Numeric.ofScale gramScale a.balanceGrams) price)
  gain : ((rialChange s s' ACC.GOLD_GAIN - rialChange s s' ACC.GOLD_LOSS : ℤ) : ℚ) = r.netGainRial
  /-- the gain is what the assets have gained over the debts -/
  gain_eq : rialChange s s' ACC.GOLD_GAIN - rialChange s s' ACC.GOLD_LOSS =
    rialChange s s' ACC.GOLD_VAULT + rialChange s s' ACC.GOLD_AT_BANK - rialChange s s' ACC.USER_GOLD
  grams : ∀ code, balanceOf .grams s' code = balanceOf .grams s code
  others : ∀ code, code ∉ revaluedCodes ++ [ACC.GOLD_GAIN, ACC.GOLD_LOSS] →
    s'.accounts.findByCode code = s.accounts.findByCode code

section Posted

variable {adminId : ℕ} {posted : List PostedLine}

theorem rialChange_posted
    (h : Posting s (revaluationJournal adminId (revaluationAt price s)) posted)
    {code : String} (hcode : code.startsWith CASH_ROOT_CODE = false) :
    rialChange s (write (revaluationJournal adminId (revaluationAt price s)) posted s) code =
      ((goldRows s).map fun a => lineEffect .rial code (revaluationLines price a)).sum := by
  have hmoved : balanceOf .rial (write (revaluationJournal adminId (revaluationAt price s)) posted s)
      code = balanceOf .rial s code +
        lineEffect .rial code (revaluationJournal adminId (revaluationAt price s)).lines :=
    balanceOf_posting .rial h (ChartKept.refl s)
      (fun l hl => (fits_revaluation adminId price s l hl).1) hcode
  have hlines : (revaluationJournal adminId (revaluationAt price s)).lines
      = (goldRows s).flatMap (revaluationLines price) := rfl
  rw [rialChange, hmoved, add_sub_cancel_left, hlines, lineEffect_flatMap]

theorem startsWith_revalued : ∀ code ∈ revaluedCodes ++ [ACC.GOLD_GAIN, ACC.GOLD_LOSS],
    code.startsWith CASH_ROOT_CODE = false := by
  decide +kernel

/-- An account of the gold moves by its difference. -/
theorem rialChange_account
    (h : Posting s (revaluationJournal adminId (revaluationAt price s)) posted)
    (ha : a ∈ goldRows s) :
    rialChange s (write (revaluationJournal adminId (revaluationAt price s)) posted s) a.code =
      diffRial price a := by
  have hcode := (mem_goldRows.mp ha).2
  rw [rialChange_posted h (startsWith_revalued _ (List.mem_append_left _ hcode))]
  simp only [lineEffect_revaluationLines hcode]
  exact Table.sum_map_ite_key Account.code _ (nodup_goldRows s) ha

theorem abs_diffRial_lt
    (h : Posting s (revaluationJournal adminId (revaluationAt price s)) posted)
    (hcolumns : InColumns s)
    (hcolumns' : InColumns (write (revaluationJournal adminId (revaluationAt price s)) posted s))
    (ha : a ∈ goldRows s) : |diffRial price a| < 2 * 10 ^ 18 := by
  have hbefore := hcolumns.rial a.code
  have hafter := hcolumns'.rial a.code
  have hsub := abs_sub (balanceOf .rial
    (write (revaluationJournal adminId (revaluationAt price s)) posted s) a.code)
    (balanceOf .rial s a.code)
  rw [← rialChange_account h ha, rialChange]
  omega

theorem posted_line (h : Posting s (revaluationJournal adminId (revaluationAt price s)) posted)
    {x : PostedLine} (hx : x ∈ posted) :
    x.line ∈ (revaluationJournal adminId (revaluationAt price s)).lines := by
  have hroot : ¬(revaluationJournal adminId (revaluationAt price s)).lines.any
      (fun l => l.accountCode == CASH_ROOT_CODE) = true := by
    simp only [List.any_eq_true, beq_iff_eq, not_exists, not_and]
    intro l hl hcash
    have hno : CASH_ROOT_CODE ∉ revaluedCodes ++ [ACC.GOLD_GAIN, ACC.GOLD_LOSS] := by decide
    exact hno (hcash ▸ code_of_revaluation adminId price s l hl)
  have hline := List.mem_map_of_mem (f := PostedLine.line) hx
  rw [h.lines, redirectedLines, if_neg (fun hboth => hroot (by
    simp only [Bool.and_eq_true] at hboth
    exact hboth.2))] at hline
  exact hline

theorem noGrams_posted
    (h : Posting s (revaluationJournal adminId (revaluationAt price s)) posted) :
    ∀ x ∈ posted, x.line.amountGrams = 0 :=
  fun _ hx => (fits_revaluation adminId price s _ (posted_line h hx)).2

theorem code_posted (h : Posting s (revaluationJournal adminId (revaluationAt price s)) posted)
    {x : PostedLine} (hx : x ∈ posted) :
    x.line.accountCode ∈ revaluedCodes ++ [ACC.GOLD_GAIN, ACC.GOLD_LOSS] :=
  code_of_revaluation adminId price s _ (posted_line h hx)

/-- What the target of an account reads does not change. -/
theorem find?_posted (h : Posting s (revaluationJournal adminId (revaluationAt price s)) posted)
    {code : String} {a' : Account}
    (ha' : (write (revaluationJournal adminId (revaluationAt price s)) posted s).accounts.findByCode
      code = some a') :
    ∃ a, s.accounts.findByCode code = some a ∧ a'.balanceGrams = a.balanceGrams ∧
      a'.balanceRial = a.balanceRial + rialChange s
        (write (revaluationJournal adminId (revaluationAt price s)) posted s) code := by
  have hgrams := balanceOf_grams_write (b := s)
    (revaluationJournal adminId (revaluationAt price s)) (noGrams_posted h) code
  cases ha : s.accounts.findByCode code with
  | none =>
    rw [accounts_write, findByCode_updateBalances, ha] at ha'
    cases ha'
  | some a =>
    simp only [balanceOf, ha, ha', Option.map_some, Option.getD_some] at hgrams
    refine ⟨a, rfl, hgrams, ?_⟩
    simp only [rialChange, balanceOf, ha, ha', Option.map_some, Option.getD_some]
    show a'.balanceRial = a.balanceRial + (a'.balanceRial - a.balanceRial)
    omega

end Posted

/-- The gain of an account, by its code. -/
theorem gainRial_eq (price : ℚ) (ha : a.code ∈ revaluedCodes) :
    gainRial price a
      = lineEffect .rial ACC.GOLD_VAULT (revaluationLines price a)
        + lineEffect .rial ACC.GOLD_AT_BANK (revaluationLines price a)
        - lineEffect .rial ACC.USER_GOLD (revaluationLines price a) := by
  have hnature : ∀ code ∈ revaluedCodes, isDebitNature code = decide (code ≠ ACC.USER_GOLD) := by
    decide +kernel
  rw [lineEffect_revaluationLines (by simp [revaluedCodes]),
    lineEffect_revaluationLines (by simp [revaluedCodes]),
    lineEffect_revaluationLines (by simp [revaluedCodes]), gainRial, hnature _ ha]
  simp only [revaluedCodes, List.mem_cons, List.not_mem_nil, or_false] at ha
  rcases ha with ha | ha | ha <;>
    simp [ha, ACC.GOLD_VAULT, ACC.GOLD_AT_BANK, ACC.USER_GOLD]

theorem sum_gainRial (price : ℚ) {rows : List Account} (f : Account → ℤ) (g h : Account → ℤ)
    (hrows : ∀ a ∈ rows, gainRial price a = f a + g a - h a) :
    (rows.map (gainRial price)).sum = (rows.map f).sum + (rows.map g).sum - (rows.map h).sum := by
  induction rows with
  | nil => rfl
  | cons a rows ih =>
    have ha := hrows a List.mem_cons_self
    have ih' := ih fun b hb => hrows b (List.mem_cons_of_mem a hb)
    simp only [List.map_cons, List.sum_cons]
    omega

/-- **A revaluation hits its target, and there is nothing left for a second one.** -/
theorem revaluation_hits_target {adminId : ℕ} {priceOverride : Option ℚ} {current : ℚ}
    {r : RevaluationResult} (h : (postRevaluation adminId priceOverride current).Ok s r s')
    (hcolumns : InColumns s) (hcolumns' : InColumns s') :
    Revalued (priceOverride.getD current) r s s' ∧
      ∀ t adminId' priceOverride' current' r' t',
        t.accounts.rows.map (fun a => (a.code, a.balanceRial, a.balanceGrams))
          = s'.accounts.rows.map (fun a => (a.code, a.balanceRial, a.balanceGrams)) →
        priceOverride'.getD current' = priceOverride.getD current →
        ¬(postRevaluation adminId' priceOverride' current').Ok t r' t' := by
  obtain ⟨price, posted, hprice, hpos, hlines, hposting, hs', hid, hnet⟩ := postRevaluation_ok h
  rw [← hprice]
  have hdiff : ∀ a ∈ goldRows s, diffRial price a = targetRial price a - a.balanceRial :=
    fun a ha => diffRial_exact (abs_diffRial_lt hposting hcolumns (hs' ▸ hcolumns') ha)
  have htarget : ∀ code ∈ revaluedCodes, ∀ a', s'.accounts.findByCode code = some a' →
      a'.balanceRial = targetRial price a' := by
    intro code hcode a' ha'
    rw [hs'] at ha'
    obtain ⟨a, ha, hgrams, hrial⟩ := find?_posted hposting ha'
    obtain ⟨hmem, rfl⟩ := Chart.findByCode_eq_some.mp ha
    have hrow : a ∈ goldRows s := mem_goldRows.mpr ⟨hmem, hcode⟩
    rw [hrial, rialChange_account hposting hrow, hdiff a hrow, targetRial, targetRial, hgrams]
    omega
  have hchange := fun code hcode => rialChange_posted hposting (startsWith_revalued code hcode)
  rw [← hs'] at hchange
  have hgains : rialChange s s' ACC.GOLD_GAIN - rialChange s s' ACC.GOLD_LOSS
      = ((goldRows s).map (gainRial price)).sum := by
    rw [sum_gainRial price (fun a => lineEffect .rial ACC.GOLD_GAIN (revaluationLines price a))
      (fun _ => 0) (fun a => lineEffect .rial ACC.GOLD_LOSS (revaluationLines price a))
      (fun a ha => by rw [← lineEffect_gain price (mem_goldRows.mp ha).2]; omega),
      hchange _ (by decide), hchange _ (by decide)]
    simp
  refine ⟨⟨?_, htarget, ?_, ?_, ?_, ?_⟩, ?_⟩
  · obtain ⟨j, hadded, hentries⟩ := journalAdded_write
      (revaluationJournal adminId (revaluationAt price s)) hposting (ChartKept.refl s)
      fun l hl => ⟨(fits_revaluation adminId price s l hl).1, by
        rw [(fits_revaluation adminId price s l hl).2]
        simpa using Numeric.fits_ofScale gramScale 0⟩
    rw [← hs'] at hadded
    exact ⟨j, hadded.rows, hadded.id.trans hid.symm, hadded.sound.rial, hadded.sound.grams⟩
  · have hfold := Decimal.foldl_plus (p := precision) (B := 2 * 10 ^ 18) (gainRial price)
      (goldRows s) 0 (fun a ha => by
        have hlt := abs_diffRial_lt hposting hcolumns (hs' ▸ hcolumns') ha
        have habs : |gainRial price a| = |diffRial price a| := by
          unfold gainRial
          split <;> simp
        omega) (by
          have hlen := length_goldRows s
          simp only [precision, abs_zero]
          omega)
    rw [hgains, hnet, revaluationAt, List.foldl_map]
    simp only [revaluationItem, gainOf_eq]
    simpa using hfold.symm
  · rw [hgains, hchange _ (by decide), hchange _ (by decide), hchange _ (by decide)]
    exact sum_gainRial price _ _ _ fun a ha => gainRial_eq price (mem_goldRows.mp ha).2
  · intro code
    rw [hs']
    exact balanceOf_grams_write _ (noGrams_posted hposting) code
  · intro code hcode
    rw [hs']
    refine findByCode_write _ hposting.inChart fun x hx heq => hcode ?_
    rw [← heq]
    exact code_posted hposting hx
  · intro t adminId' priceOverride' current' r' t' hsame hsamePrice hagain
    obtain ⟨price', _, hprice', -, hagain', -⟩ := postRevaluation_ok hagain
    obtain rfl : price' = price := hprice'.trans hsamePrice
    refine hagain' (List.flatMap_eq_nil_iff.mpr fun a ha => ?_)
    obtain ⟨hmem, hcode⟩ := mem_goldRows.mp ha
    have hrow : (a.code, a.balanceRial, a.balanceGrams) ∈
        s'.accounts.rows.map fun a => (a.code, a.balanceRial, a.balanceGrams) :=
      hsame ▸ List.mem_map_of_mem hmem
    obtain ⟨a', ha', heq⟩ := List.mem_map.mp hrow
    simp only [Prod.mk.injEq] at heq
    have hbook := htarget a'.code (heq.1 ▸ hcode) a' (Chart.findByCode_eq_some.mpr ⟨ha', rfl⟩)
    have hzero : adjustment price' a = 0 := by
      have hsameTarget : targetRial price' a = targetRial price' a' := by
        rw [targetRial, targetRial, heq.2.2]
      rw [adjustment_sig, hsameTarget, ← heq.2.1, hbook, sub_self, Int.cast_zero, Decimal.sig_zero]
    rw [revaluationLines]
    exact if_pos hzero

/-! ## Two revaluations -/

/-- Three grams in the vault for ten rials, one gram owed to users for four. -/
def goldHeld : Books where
  accounts :=
    { table :=
        { rows := [
            { GoldCustodyService.emptyAccount 1 ACC.GOLD_VAULT .asset with
              balanceRial := 10, balanceGrams := 30000 },
            { GoldCustodyService.emptyAccount 2 ACC.USER_GOLD .liability with
              balanceRial := 4, balanceGrams := 10000 },
            GoldCustodyService.emptyAccount 3 ACC.GOLD_GAIN .income,
            GoldCustodyService.emptyAccount 4 ACC.GOLD_LOSS .expense]
          next := 5
          lt_next := by decide
          nodup := by decide }
      code_nodup := by decide }
  journals := .empty
  nextReference := 1
  fiscalYears := .empty
  lockedUntil := none
  systemConfig _ := none
  now := 0

/-- The call at a price that is given. -/
def revalue (price : ℚ) : Tx ApiError Books RevaluationResult := postRevaluation 7 (some price) 0

/-- The books after it. -/
def afterRevaluation (price : ℚ) : Books := ((revalue price).run goldHeld).2

/-- `revaluation_hits_target` at six rials: the vault gains eight and the debt two. -/
theorem revaluation_hits_target_six :
    ∃ r, Revalued 6 r goldHeld (afterRevaluation 6) ∧ r.netGainRial = 6 ∧
      ∀ r' t', ¬(revalue 6).Ok (afterRevaluation 6) r' t' := by
  obtain ⟨r, hr⟩ : ∃ r, (revalue 6).Ok goldHeld r (afterRevaluation 6) :=
    Tx.exists_ok_run (by decide +kernel)
  obtain ⟨hrevalued, hsecond⟩ := revaluation_hits_target hr (by decide +kernel) (by decide +kernel)
  refine ⟨r, hrevalued, ?_, fun r' t' => hsecond _ 7 (some 6) 0 r' t' rfl rfl⟩
  have hgain : rialChange goldHeld (afterRevaluation 6) ACC.GOLD_GAIN -
      rialChange goldHeld (afterRevaluation 6) ACC.GOLD_LOSS = 6 := by decide +kernel
  rw [← hrevalued.gain, hgain]
  norm_num

/-- A price of twenty-three digits. -/
def finePrice : ℚ := 49999999999999999999999 / 10 ^ 23

/-- One gram at this price is worth less than half a rial, and the product of twenty digits is
half a rial: the debt is brought to one rial instead of none. -/
theorem rounded_twice : 0 < finePrice ∧
    (∃ r, (revalue finePrice).Ok goldHeld r (afterRevaluation finePrice)) ∧
    balanceOf .grams (afterRevaluation finePrice) ACC.USER_GOLD = 10000 ∧
    Numeric.roundHalfAway (Numeric.ofScale gramScale 10000 * finePrice) = 0 ∧
    balanceOf .rial (afterRevaluation finePrice) ACC.USER_GOLD = 1 := by
  refine ⟨by norm_num [finePrice], Tx.exists_ok_run (by decide +kernel), ?_, ?_, ?_⟩ <;>
    decide +kernel

end AccountingReportsService

end ArkanGold
