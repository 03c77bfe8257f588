import ArkanGold.Accounting.ClosedBooks
import ArkanGold.Accounting.ControlAccount

/-!
# What closing a year does

The closing entry takes the balances of the income and expense accounts up to the end of the year
off them, and puts the profit on retained earnings (3020).

- `CodesTyped`: the code of an account begins with the digit of its type, which the chart's
  defaults obey and `createAccount` checks. Hence 3020 is none of the accounts being closed.
- `ClosedExactly`: what a call that returns leaves, for all accounts at once.
-/

namespace ArkanGold

open AccountingService

namespace AccountingManageService

/-- `TYPE_PREFIX` -/
def TYPE_PREFIX : AccountType → String
  | .asset => "1"
  | .liability => "2"
  | .equity => "3"
  | .income => "4"
  | .expense => "5"

/-- Every account stands under a code of its type. -/
def CodesTyped (s : Books) : Prop :=
  ∀ a ∈ s.accounts.rows, a.code.startsWith (TYPE_PREFIX a.type) = true

instance (s : Books) : Decidable (CodesTyped s) :=
  inferInstanceAs (Decidable (∀ a ∈ s.accounts.rows, _))

/-- The income that is not closed before `t`. -/
def totalIncome (s : Books) (t : ℤ) : ℤ :=
  ((s.accounts.rows.filter fun a => a.type = .income).map fun a => -cumulative s t a.id).sum

/-- The expenses that are not closed before `t`. -/
def totalExpense (s : Books) (t : ℤ) : ℤ :=
  ((s.accounts.rows.filter fun a => a.type = .expense).map fun a => cumulative s t a.id).sum

/-- What closing a year that ends at `t` leaves. -/
structure ClosedExactly (t : ℤ) (s s' : Books) : Prop where
  /-- nothing is posted, or one journal that is balanced in rials and has no grams -/
  journal : s'.journals.rows = s.journals.rows ∨
    ∃ j, s'.journals.rows = s.journals.rows ++ [j] ∧
      DoubleEntry.Balanced LedgerEntry.side LedgerEntry.amountRial j.ledgerEntries ∧
      ∀ e ∈ j.ledgerEntries, e.amountGrams = 0
  temporary : ∀ a ∈ s'.accounts.rows, isTemporary a = true → cumulative s' t a.id = 0
  retained : balanceOf .rial s' ACC.RETAINED_EARNINGS =
    balanceOf .rial s ACC.RETAINED_EARNINGS + (totalIncome s t - totalExpense s t)
  grams : ∀ code, balanceOf .grams s' code = balanceOf .grams s code
  others : ∀ a ∈ s.accounts.rows, (isTemporary a = true → cumulative s t a.id = 0) →
    a.code ≠ ACC.RETAINED_EARNINGS → s'.accounts.findByCode a.code = some a

variable {tz : TehranZone} {adminId id : ℕ} {year : FiscalYear} {s s' : Books} {t : ℤ}
  {rows : List (String × ℤ)} {posted : List PostedLine}

/-! ## The lines -/

theorem CodesTyped.ne_retained (h : CodesTyped s) {a : Account} (ha : a ∈ s.accounts.rows)
    (htemp : isTemporary a = true) : a.code ≠ ACC.RETAINED_EARNINGS := by
  intro hcode
  have htyped := h a ha
  have hother : ACC.RETAINED_EARNINGS.startsWith (TYPE_PREFIX .income) = false ∧
      ACC.RETAINED_EARNINGS.startsWith (TYPE_PREFIX .expense) = false := by decide +kernel
  simp only [isTemporary, Bool.or_eq_true, beq_iff_eq] at htemp
  rcases htemp with htype | htype <;> rw [hcode, htype] at htyped
  · exact absurd htyped (by simp [hother.1])
  · exact absurd htyped (by simp [hother.2])

theorem mem_temporaryBalances {r : String × ℤ} :
    r ∈ temporaryBalances s t ↔
      r.2 ≠ 0 ∧ ∃ a ∈ s.accounts.rows, isTemporary a = true ∧ r = (a.code, cumulative s t a.id) := by
  simp only [temporaryBalances, List.mem_filter, List.mem_map, bne_iff_ne]
  constructor
  · rintro ⟨⟨a, ⟨ha, htemp⟩, rfl⟩, hne⟩
    exact ⟨hne, a, ha, htemp, rfl⟩
  · rintro ⟨hne, a, ha, htemp, rfl⟩
    exact ⟨⟨a, ⟨ha, htemp⟩, rfl⟩, hne⟩

/-- The amounts are whole rials, and there are no grams. -/
theorem fits_closingLines : ∀ l ∈ closingLines rows,
    Numeric.Fits rialScale l.amountRial ∧ l.amountGrams = 0 := by
  have hline : ∀ (code : String) (d : ℤ), Numeric.Fits rialScale (closingLine code d).amountRial ∧
      (closingLine code d).amountGrams = 0 := by
    intro code d
    refine ⟨?_, rfl⟩
    have hfits := Numeric.fits_ofScale rialScale |d|
    simpa [closingLine, Numeric.ofScale] using hfits
  intro l hl
  rw [closingLines, List.mem_append] at hl
  rcases hl with hl | hl
  · obtain ⟨r, -, rfl⟩ := List.mem_map.mp hl
    exact hline _ _
  · split at hl
    · cases hl
    · obtain rfl := List.mem_singleton.mp hl
      exact hline _ _

/-- Retained earnings receives the profit. -/
theorem lineEffect_closingLine (d : ℤ) :
    sideEffect ACC.RETAINED_EARNINGS (closingLine ACC.RETAINED_EARNINGS d).side
      (Numeric.toScale rialScale (closingLine ACC.RETAINED_EARNINGS d).amountRial) = d := by
  have hnature : natureOf ACC.RETAINED_EARNINGS = .credit := by decide +kernel
  have hscale : Numeric.toScale rialScale (closingLine ACC.RETAINED_EARNINGS d).amountRial = |d| := by
    have h := Numeric.toScale_ofScale rialScale |d|
    simpa [closingLine, Numeric.ofScale] using h
  rw [hscale, sideEffect, hnature]
  rcases lt_or_ge 0 d with hpos | hneg
  · simp [closingLine, hpos, abs_of_pos]
  · simp [closingLine, not_lt.mpr hneg, abs_of_nonpos hneg]

theorem lineEffect_closingLines (h : ∀ r ∈ rows, r.1 ≠ ACC.RETAINED_EARNINGS) :
    lineEffect .rial ACC.RETAINED_EARNINGS (closingLines rows) = netProfit rows := by
  have hrows : lineEffect .rial ACC.RETAINED_EARNINGS (rows.map fun r => closingLine r.1 r.2) = 0 := by
    refine List.sum_eq_zero fun x hx => ?_
    simp only [List.map_map, List.mem_map, Function.comp_apply] at hx
    obtain ⟨r, hr, rfl⟩ := hx
    exact if_neg (h r hr)
  have happend : ∀ ls ls' : List LedgerLineInput, lineEffect .rial ACC.RETAINED_EARNINGS (ls ++ ls')
      = lineEffect .rial ACC.RETAINED_EARNINGS ls + lineEffect .rial ACC.RETAINED_EARNINGS ls' := by
    intro ls ls'
    simp only [lineEffect, List.map_append, List.sum_append]
  rw [closingLines, happend, hrows, zero_add]
  split
  · rename_i hzero
    rw [hzero]
    rfl
  · simp only [lineEffect, List.map_cons, List.map_nil, List.sum_cons, List.sum_nil, add_zero]
    exact (if_pos rfl).trans (lineEffect_closingLine _)

/-- The profit is the income less the expenses. -/
theorem netProfit_eq (s : Books) (t : ℤ) :
    netProfit (temporaryBalances s t) = totalIncome s t - totalExpense s t := by
  have hsplit : ∀ accounts : List Account,
      -((((accounts.filter isTemporary).map fun a => (a.code, cumulative s t a.id)).filter
        fun r => r.2 != 0).map Prod.snd).sum =
      ((accounts.filter fun a => a.type = .income).map fun a => -cumulative s t a.id).sum -
        ((accounts.filter fun a => a.type = .expense).map fun a => cumulative s t a.id).sum := by
    intro accounts
    induction accounts with
    | nil => rfl
    | cons a accounts ih =>
      by_cases hzero : cumulative s t a.id = 0
      · cases htype : a.type <;> simp [isTemporary, htype, hzero] at ih ⊢ <;> omega
      · cases htype : a.type <;> simp [isTemporary, htype, hzero] at ih ⊢ <;> omega
  exact hsplit s.accounts.rows

/-! ## Closing -/

section Entry

variable (h : Posting s (closingJournal tz adminId year rows) posted)

include h in
theorem closing_lines : posted.map PostedLine.line = closingLines rows := by
  rw [h.lines, redirectedLines]
  simp only [closingJournal_source, keepsExactAccount, Bool.not_true, Bool.and_false,
    Bool.false_and, Bool.false_eq_true, if_false, closingJournal_lines]

include h in
theorem noGrams_closing : ∀ x ∈ posted, x.line.amountGrams = 0 := by
  intro x hx
  have hline := List.mem_map_of_mem (f := PostedLine.line) hx
  rw [closing_lines h] at hline
  exact (fits_closingLines _ hline).2

include h in
/-- Only accounts that are closed, and retained earnings, have a line. -/
theorem code_closing {x : PostedLine} (hx : x ∈ posted) :
    x.line.accountCode = ACC.RETAINED_EARNINGS ∨ ∃ r ∈ rows, x.line.accountCode = r.1 := by
  have hline := List.mem_map_of_mem (f := PostedLine.line) hx
  rw [closing_lines h, closingLines, List.mem_append] at hline
  rcases hline with hline | hline
  · obtain ⟨r, hr, heq⟩ := List.mem_map.mp hline
    exact .inr ⟨r, hr, by rw [← heq]; rfl⟩
  · split at hline
    · cases hline
    · rw [List.mem_singleton.mp hline]
      exact .inl rfl

include h in
theorem retained_closing (hrows : ∀ r ∈ rows, r.1 ≠ ACC.RETAINED_EARNINGS) :
    balanceOf .rial (write (closingJournal tz adminId year rows) posted s) ACC.RETAINED_EARNINGS
      = balanceOf .rial s ACC.RETAINED_EARNINGS + netProfit rows := by
  have hcash : ACC.RETAINED_EARNINGS.startsWith CASH_ROOT_CODE = false := by decide +kernel
  have hmoved : balanceOf .rial (write (closingJournal tz adminId year rows) posted s)
      ACC.RETAINED_EARNINGS = balanceOf .rial s ACC.RETAINED_EARNINGS +
        lineEffect .rial ACC.RETAINED_EARNINGS (closingJournal tz adminId year rows).lines :=
    balanceOf_posting .rial h (ChartKept.refl s) (fun l hl => (fits_closingLines l hl).1) hcash
  rw [hmoved, closingJournal_lines, lineEffect_closingLines hrows]

end Entry

/-- The books after the closing entry. -/
theorem ClosingPosted.exact {mid : Books}
    (h : ClosingPosted tz adminId year (temporaryBalances s (fiscalYearRange tz year).lt) s mid)
    (htyped : CodesTyped s) : ClosedExactly (fiscalYearRange tz year).lt s mid := by
  set t := (fiscalYearRange tz year).lt with ht
  have hrows : ∀ r ∈ temporaryBalances s t, r.1 ≠ ACC.RETAINED_EARNINGS := by
    intro r hr
    obtain ⟨-, a, ha, htemp, rfl⟩ := mem_temporaryBalances.mp hr
    exact htyped.ne_retained ha htemp
  have hclosed : ∀ a ∈ s.accounts.rows, isTemporary a = true → cumulative mid t a.id = 0 :=
    fun a ha htemp => cumulative_closingPosted h ha htemp (htyped.ne_retained ha htemp)
  cases h with
  | none hnone =>
    refine ⟨.inl rfl, hclosed, ?_, fun _ => rfl, fun a ha _ _ => ?_⟩
    · rw [← netProfit_eq, hnone]
      simp [netProfit]
    · exact Chart.findByCode_eq_some.mpr ⟨ha, rfl⟩
  | entry posted hposting =>
    refine ⟨.inr ?_, ?_, ?_, ?_, ?_⟩
    · obtain ⟨j, hadded, hentries⟩ := journalAdded_write
        (closingJournal tz adminId year (temporaryBalances s t)) hposting (ChartKept.refl s)
        fun l hl => ⟨(fits_closingLines l hl).1, by
          rw [(fits_closingLines l hl).2]
          simpa using Numeric.fits_ofScale gramScale 0⟩
      refine ⟨j, hadded.rows, hadded.sound.rial, fun e he => ?_⟩
      rw [hentries] at he
      obtain ⟨x, hx, rfl⟩ := List.mem_map.mp he
      have hscale : Numeric.toScale gramScale 0 = 0 := by
        simpa using Numeric.toScale_ofScale gramScale 0
      rw [ledgerEntry, noGrams_closing hposting x hx]
      exact hscale
    · intro a ha htemp
      rw [accounts_write, rows_updateBalances] at ha
      obtain ⟨a₀, ha₀, rfl⟩ := List.mem_map.mp ha
      obtain ⟨rial, grams, hkept⟩ := foldl_receive posted a₀
      rw [hkept] at htemp ⊢
      exact hclosed a₀ ha₀ htemp
    · rw [retained_closing hposting hrows, netProfit_eq]
    · exact balanceOf_grams_write _ (noGrams_closing hposting)
    · intro a ha hzero hcode
      rw [findByCode_write _ hposting.inChart]
      · exact Chart.findByCode_eq_some.mpr ⟨ha, rfl⟩
      · intro x hx heq
        rcases code_closing hposting hx with hretained | ⟨r, hr, hrow⟩
        · exact hcode (heq.symm.trans hretained)
        · obtain ⟨hne, b, hb, htemp, rfl⟩ := mem_temporaryBalances.mp hr
          obtain rfl : b = a := List.inj_on_of_nodup_map s.accounts.code_nodup hb ha
            (hrow.symm.trans heq)
          exact hne (hzero htemp)

/-- **Closing a year is exact.** -/
theorem closing_is_exact (tz : TehranZone) {adminId id : ℕ} {s s' : Books} {r : ClosingResult}
    (htyped : CodesTyped s) (h : (closeFiscalYear tz adminId id).Ok s r s') :
    ∃ year, s.fiscalYears.find? id = some year ∧ year.status = .open ∧
      ClosedExactly (fiscalYearRange tz year).lt s s' := by
  obtain ⟨year, mid, journalId, hfind, hopen, -, -, hposted, rfl⟩ := closeFiscalYear_ok h
  have hexact := hposted.exact htyped
  exact ⟨year, hfind, hopen, hexact.journal, hexact.temporary, hexact.retained, hexact.grams,
    hexact.others⟩

/-- `closing_is_exact` for a year with a fee of a hundred rials. -/
theorem closing_is_exact_1403 :
    (∃ year, (yearDefined year1403 feePosted).fiscalYears.find? 0 = some year ∧
      year.status = .open ∧
      ClosedExactly (fiscalYearRange .standard year).lt (yearDefined year1403 feePosted)
        closed1403) ∧
    balanceOf .rial closed1403 ACC.RETAINED_EARNINGS = 100 := by
  have hclose : ∃ r, (closeFiscalYear .standard 1 0).Ok (yearDefined year1403 feePosted) r
      closed1403 := Tx.exists_ok_run (by decide +kernel)
  obtain ⟨r, hr⟩ := hclose
  exact ⟨closing_is_exact .standard (by decide +kernel) hr, by decide +kernel⟩

end AccountingManageService

end ArkanGold
