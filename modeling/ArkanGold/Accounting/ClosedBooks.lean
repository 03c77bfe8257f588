import ArkanGold.Accounting.FiscalYears

/-!
# Closed books stay closed

After a year is closed the temporary accounts have no balance before its end. What can
undo that is an entry dated before the end of a closed year:

- a dated posting needs an open year around its date, an undated one carries the
  clock, and the clock is past the end of every closed year;
- the closing entry of another year is dated at the end of that year.

So it depends on where open years lie relative to closed ones. `createFiscalYear` only
refuses overlaps: a year in front of a closed one can still be defined, posted to (once
the lock is cleared) and closed. `YearsInOrder` asks of each new year what is missing,
and along such runs closed books stay closed (`closed_books_stay_closed`). For years
given as whole days that is all it asks (`follows_of_wholeDays`).
-/

namespace ArkanGold

open AccountingService AccountingManageService DoubleEntry

/-- The year `z` begins when the real range of `y` is over, and ends later. -/
def Follows (tz : TehranZone) (y z : FiscalYear) : Prop :=
  (fiscalYearRange tz y).lt ≤ z.startDate ∧ (fiscalYearRange tz y).lt < (fiscalYearRange tz z).lt

instance (tz : TehranZone) (y z : FiscalYear) : Decidable (Follows tz y z) :=
  inferInstanceAs (Decidable (_ ∧ _))

/-- A new year follows every closed year, and follows or precedes the open ones in the
order of their first instants. -/
def YearsInOrder (tz : TehranZone) (s : Books) (e : PeriodEvent) : Prop :=
  match e with
  | .createFiscalYear dto => ∀ startDate endDate,
      dto.startDate.toInstant = some startDate → dto.endDate.endOfDay = some endDate →
      ∀ y ∈ s.fiscalYears.rows,
        (y.status = .closed ∨ y.startDate < startDate →
          Follows tz y (newFiscalYear dto.title startDate endDate s.fiscalYears.next)) ∧
        (y.status = .open → startDate < y.startDate →
          Follows tz (newFiscalYear dto.title startDate endDate s.fiscalYears.next) y)
  | _ => True

/-- For every closed year, the income and expense accounts have no balance over the
entries before its end. -/
def BooksClosed (tz : TehranZone) (s : Books) : Prop :=
  ∀ y ∈ s.fiscalYears.rows, y.status = .closed →
    ∀ a ∈ s.accounts.rows, isTemporary a = true →
      cumulative s (fiscalYearRange tz y).lt a.id = 0

instance (tz : TehranZone) (s : Books) : Decidable (BooksClosed tz s) :=
  inferInstanceAs (Decidable (∀ y ∈ s.fiscalYears.rows, _))

/-- No fiscal year has been defined, and retained earnings is not a temporary account. -/
structure NoYears (s : Books) : Prop where
  years : s.fiscalYears.rows = []
  equity : ∀ a ∈ s.accounts.rows, a.code = ACC.RETAINED_EARNINGS → isTemporary a = false

/-! ## Whole-day years -/

/-- A year given by its first and its last day. -/
def WholeDays (y : FiscalYear) : Prop :=
  isUtcMidnight y.startDate = true ∧ isUtcEndOfDay y.endDate = true

theorem range_lt_of_wholeDays (tz : TehranZone) {y : FiscalYear} (h : WholeDays y) :
    (fiscalYearRange tz y).lt = tz.tehranDayStart (storedDay y.endDate + 1) := by
  simp [fiscalYearRange, h.2, addDays]

/-- Whole-day years that do not overlap follow each other. -/
theorem follows_of_wholeDays (tz : TehranZone) {y z : FiscalYear} (hy : WholeDays y)
    (hz : WholeDays z) (hlt : y.endDate < z.startDate) (hz' : z.startDate < z.endDate) :
    Follows tz y z := by
  have hyend := utcEndOfDay_storedDay hy.2
  have hzstart := utcMidnight_storedDay hz.1
  have hzend := utcEndOfDay_storedDay hz.2
  have h₁ := tz.tehranDayStart_le (storedDay y.endDate + 1)
  have h₂ := tz.lt_tehranDayStart (storedDay z.endDate + 1)
  unfold Follows
  rw [range_lt_of_wholeDays tz hy, range_lt_of_wholeDays tz hz]
  simp only [utcEndOfDay, utcMidnight, dayMs, add_sub_cancel_right] at *
  omega

/-! ## The effect of a posting on sums up to a date -/

@[simp] theorem netRial_append (es fs : List LedgerEntry) :
    netRial (es ++ fs) = netRial es + netRial fs := by
  simp only [netRial, sumRial, total_append]
  omega

/-- The entries of a posting count from its date on. -/
theorem cumulative_write (params : JournalInput) (posted : List PostedLine) (s : Books)
    (t : ℤ) (k : ℕ) :
    cumulative (write params posted s) t k = cumulative s t k +
      if params.entryDate.getD s.now < t then
        netRial ((posted.map ledgerEntry).filter fun e => e.accountId = k) else 0 := by
  unfold cumulative entriesBefore
  simp only [write, createJournal, Table.create, List.filter_append, List.flatMap_append]
  by_cases hlt : params.entryDate.getD s.now < t
  · simp [hlt]
  · simp [hlt]

/-- What a line adds to the debits minus the credits of its account. -/
def signedLine (l : LedgerLineInput) : ℤ :=
  match l.side with
  | .debit => Numeric.toScale rialScale l.amountRial
  | .credit => -Numeric.toScale rialScale l.amountRial

/-- Over the lines of a posting, an account receives what the lines of its code say. -/
theorem netRial_posted {s : Books} {params : JournalInput} {posted : List PostedLine}
    (h : Posting s params posted) {a : Account} (ha : a ∈ s.accounts.rows) :
    netRial ((posted.map ledgerEntry).filter fun e => e.accountId = a.id) =
      ((redirectedLines s params).map fun l =>
        if l.accountCode = a.code then signedLine l else 0).sum := by
  rw [← h.lines, List.map_map]
  have hfound := h.found
  clear h
  induction posted with
  | nil => rfl
  | cons x posted ih =>
    have hx := hfound x List.mem_cons_self
    have hmem := Chart.mem_of_findByCode hx
    -- codes and ids name the same rows
    have hiff : x.account.id = a.id ↔ x.line.accountCode = a.code := by
      constructor
      · intro hid
        rw [← Chart.code_of_findByCode hx,
          List.inj_on_of_nodup_map s.accounts.table.nodup hmem ha hid]
      · intro hcode
        rw [List.inj_on_of_nodup_map s.accounts.code_nodup hmem ha
          ((Chart.code_of_findByCode hx).trans hcode)]
    have ih' := ih fun y hy => hfound y (List.mem_cons_of_mem x hy)
    rw [List.map_cons, List.map_cons, List.sum_cons, ← ih', List.filter_cons]
    simp only [ledgerEntry, decide_eq_true_eq, Function.comp_apply, hiff]
    by_cases hcode : x.line.accountCode = a.code
    · rw [if_pos hcode, if_pos hcode, ← List.singleton_append, netRial_append]
      congr 1
      simp only [netRial, sumRial, total, signedLine]
      cases x.line.side <;> simp
    · rw [if_neg hcode, if_neg hcode, zero_add]

@[simp] theorem signedLine_closingLine (code : String) (d : ℤ) :
    signedLine (closingLine code d) = -d := by
  have hscale : Numeric.toScale rialScale |(d : ℚ)| = |d| := by
    have h := Numeric.toScale_ofScale rialScale |d|
    simpa [Numeric.ofScale] using h
  unfold signedLine closingLine
  by_cases hpos : 0 < d
  · simp only [if_pos hpos]
    rw [hscale, abs_of_pos hpos]
  · simp only [if_neg hpos]
    rw [hscale, abs_of_nonpos (not_lt.mp hpos)]

/-- The lines of a closing entry take every temporary account's balance off it. -/
theorem sum_closingLines {s : Books} (t : ℤ) {a : Account} (ha : a ∈ s.accounts.rows)
    (htemp : isTemporary a = true) (hcode : a.code ≠ ACC.RETAINED_EARNINGS) :
    ((closingLines (temporaryBalances s t)).map fun l =>
      if l.accountCode = a.code then signedLine l else 0).sum = -cumulative s t a.id := by
  have hlast : ((if netProfit (temporaryBalances s t) = 0 then []
      else [closingLine ACC.RETAINED_EARNINGS (netProfit (temporaryBalances s t))]).map fun l =>
        if l.accountCode = a.code then signedLine l else 0).sum = 0 := by
    split
    · rfl
    · simp [closingLine, hcode.symm]
  have hskip : ∀ rows : List (String × ℤ),
      ((rows.filter fun r => r.2 != 0).map fun r => if r.1 = a.code then -r.2 else 0).sum =
        (rows.map fun r => if r.1 = a.code then -r.2 else 0).sum := by
    intro rows
    induction rows with
    | nil => rfl
    | cons r rows ih =>
      by_cases hr : r.2 = 0
      · simp [hr, ih]
      · simp [hr, ih]
  have hnodup : ((s.accounts.rows.filter isTemporary).map Account.code).Nodup :=
    s.accounts.code_nodup.sublist (List.filter_sublist.map _)
  have hmem : a ∈ s.accounts.rows.filter isTemporary := List.mem_filter.mpr ⟨ha, htemp⟩
  calc _ = ((temporaryBalances s t).map fun r => if r.1 = a.code then -r.2 else 0).sum := by
        rw [closingLines, List.map_append, List.sum_append, hlast, add_zero, List.map_map]
        congr 1
        refine List.map_congr_left fun r _ => ?_
        simp only [Function.comp_apply, signedLine_closingLine]
        rfl
    _ = ((s.accounts.rows.filter isTemporary).map fun b =>
          if b.code = a.code then -cumulative s t b.id else 0).sum := by
        rw [temporaryBalances, hskip, List.map_map]
        rfl
    _ = -cumulative s t a.id := Table.sum_map_ite_key Account.code _ hnodup hmem

/-- After the closing entry of a year, the temporary accounts have no balance before its
end. -/
theorem cumulative_closingPosted {tz : TehranZone} {adminId : ℕ} {year : FiscalYear}
    {s mid : Books}
    (h : ClosingPosted tz adminId year
      (temporaryBalances s (fiscalYearRange tz year).lt) s mid)
    {a : Account} (ha : a ∈ s.accounts.rows) (htemp : isTemporary a = true)
    (hcode : a.code ≠ ACC.RETAINED_EARNINGS) :
    cumulative mid (fiscalYearRange tz year).lt a.id = 0 := by
  have hsum := sum_closingLines (fiscalYearRange tz year).lt ha htemp hcode
  cases h with
  | none hrows =>
    rw [hrows] at hsum
    have hzero : cumulative s (fiscalYearRange tz year).lt a.id = 0 := by
      simpa [closingLines, netProfit] using hsum.symm
    exact hzero
  | entry posted hposting =>
    have hlines : redirectedLines s (closingJournal tz adminId year
        (temporaryBalances s (fiscalYearRange tz year).lt)) =
          closingLines (temporaryBalances s (fiscalYearRange tz year).lt) := by
      simp only [redirectedLines, closingJournal_source, keepsExactAccount, Bool.not_true,
        Bool.and_false, Bool.false_and, Bool.false_eq_true, if_false, closingJournal_lines]
    rw [cumulative_write, netRial_posted hposting ha, hlines, hsum, closingJournal_entryDate,
      Option.getD_some, if_pos (by omega)]
    omega

/-- Sums up to a date read the dates and the entries of the journals. -/
theorem cumulative_congr {s s' : Books}
    (h : s'.journals.rows.map (fun j => (j.entryDate, j.ledgerEntries)) =
      s.journals.rows.map (fun j => (j.entryDate, j.ledgerEntries))) (t : ℤ) (k : ℕ) :
    cumulative s' t k = cumulative s t k := by
  have key : ∀ rows : List JournalEntry,
      (rows.filter fun j => j.entryDate < t).flatMap JournalEntry.ledgerEntries =
        ((rows.map fun j => (j.entryDate, j.ledgerEntries)).filter fun r => r.1 < t).flatMap
          Prod.snd := by
    intro rows
    rw [List.filter_map, List.flatMap_map]
    rfl
  unfold cumulative entriesBefore
  rw [key, key, h]

/-- Numbering journals touches neither their dates nor their entries. -/
theorem map_finalizeYears (tz : TehranZone) (untilExcl : ℤ) (years : List FiscalYear)
    (s : Books) :
    (years.foldl (fun s y => finalizeYear tz untilExcl y s) s).journals.rows.map
        (fun j => (j.entryDate, j.ledgerEntries)) =
      s.journals.rows.map (fun j => (j.entryDate, j.ledgerEntries)) := by
  induction years generalizing s with
  | nil => rfl
  | cons y ys ih =>
    rw [List.foldl_cons, ih]
    simp only [finalizeYear, Table.updateWhere, List.map_map]
    refine List.map_congr_left fun j _ => ?_
    simp only [Function.comp_apply]
    split <;> rfl

theorem finalizeYears_frame (tz : TehranZone) (untilExcl : ℤ) (years : List FiscalYear)
    (s : Books) :
    (years.foldl (fun s y => finalizeYear tz untilExcl y s) s).fiscalYears = s.fiscalYears ∧
      (years.foldl (fun s y => finalizeYear tz untilExcl y s) s).accounts = s.accounts ∧
      (years.foldl (fun s y => finalizeYear tz untilExcl y s) s).now = s.now ∧
      (years.foldl (fun s y => finalizeYear tz untilExcl y s) s).lockedUntil = s.lockedUntil ∧
      (years.foldl (fun s y => finalizeYear tz untilExcl y s) s).nextReference =
        s.nextReference := by
  induction years generalizing s with
  | nil => exact ⟨rfl, rfl, rfl, rfl, rfl⟩
  | cons y ys ih => exact ih (finalizeYear tz untilExcl y s)

/-! ## The invariant -/

/-- What keeps closed books closed. -/
structure ClosedInv (tz : TehranZone) (s : Books) : Prop where
  equity : ∀ a ∈ s.accounts.rows, a.code = ACC.RETAINED_EARNINGS → isTemporary a = false
  valid : ∀ y ∈ s.fiscalYears.rows, y.startDate < y.endDate
  disjoint : ∀ y ∈ s.fiscalYears.rows, ∀ z ∈ s.fiscalYears.rows, y.id ≠ z.id →
    y.endDate < z.startDate ∨ z.endDate < y.startDate
  closedFirst : ∀ y ∈ s.fiscalYears.rows, ∀ z ∈ s.fiscalYears.rows, y.status = .closed →
    z.status = .open → Follows tz y z
  openInOrder : ∀ y ∈ s.fiscalYears.rows, ∀ z ∈ s.fiscalYears.rows, y.status = .open →
    z.status = .open → y.startDate < z.startDate → Follows tz y z
  past : ∀ y ∈ s.fiscalYears.rows, y.status = .closed → (fiscalYearRange tz y).lt ≤ s.now
  zero : BooksClosed tz s

section Invariant

variable {tz : TehranZone} {s s' : Books}

/-- The invariant only sees the identity and type of accounts, the years, the clock and
the sums before the ends of closed years. -/
theorem ClosedInv.congr (hinv : ClosedInv tz s)
    (hacc : s'.accounts.rows.map (fun a => (a.id, a.code, a.type)) =
      s.accounts.rows.map (fun a => (a.id, a.code, a.type)))
    (hyears : s'.fiscalYears = s.fiscalYears) (hnow : s.now ≤ s'.now)
    (hcum : ∀ y ∈ s.fiscalYears.rows, y.status = .closed → ∀ k,
      cumulative s' (fiscalYearRange tz y).lt k = cumulative s (fiscalYearRange tz y).lt k) :
    ClosedInv tz s' := by
  have hsame : ∀ a' ∈ s'.accounts.rows, ∃ a ∈ s.accounts.rows,
      a.id = a'.id ∧ a.code = a'.code ∧ a.type = a'.type := by
    intro a' ha'
    have hmem : (a'.id, a'.code, a'.type) ∈
        s.accounts.rows.map fun a => (a.id, a.code, a.type) := by
      rw [← hacc]
      exact List.mem_map_of_mem ha'
    obtain ⟨a, ha, heq⟩ := List.mem_map.mp hmem
    simp only [Prod.mk.injEq] at heq
    exact ⟨a, ha, heq⟩
  refine ⟨?_, hyears ▸ hinv.valid, hyears ▸ hinv.disjoint, hyears ▸ hinv.closedFirst,
    hyears ▸ hinv.openInOrder, ?_, ?_⟩
  · intro a' ha' hcode
    obtain ⟨a, ha, -, hac, hat⟩ := hsame a' ha'
    have := hinv.equity a ha (hac.trans hcode)
    rwa [isTemporary, hat] at this
  · intro y hy hclosed
    rw [hyears] at hy
    exact (hinv.past y hy hclosed).trans hnow
  · intro y hy hclosed a' ha' htemp
    rw [hyears] at hy
    obtain ⟨a, ha, hid, -, hat⟩ := hsame a' ha'
    rw [hcum y hy hclosed, ← hid]
    refine hinv.zero y hy hclosed a ha ?_
    rw [isTemporary, hat]
    exact htemp

/-- A posting dated past the ends of all closed years. -/
theorem ClosedInv.write (hinv : ClosedInv tz s) {params : JournalInput}
    {posted : List PostedLine}
    (hdate : ∀ y ∈ s.fiscalYears.rows, y.status = .closed →
      (fiscalYearRange tz y).lt ≤ params.entryDate.getD s.now) :
    ClosedInv tz (AccountingService.write params posted s) := by
  refine hinv.congr (map_updateBalances _ (fun _ _ _ => rfl) posted s.accounts) rfl (le_refl _) ?_
  intro y hy hclosed k
  rw [cumulative_write, if_neg (not_lt.mpr (hdate y hy hclosed)), add_zero]

/-- A date that the posting check admits is past the ends of all closed years. -/
theorem ClosedInv.admitted (hinv : ClosedInv tz s) {params : JournalInput}
    {posted : List PostedLine} (h : Posting s params posted)
    (hchecked : checksDate params = params.entryDate) :
    ∀ y ∈ s.fiscalYears.rows, y.status = .closed →
      (fiscalYearRange tz y).lt ≤ params.entryDate.getD s.now := by
  intro y hy hclosed
  cases hdate : params.entryDate with
  | none => exact hinv.past y hy hclosed
  | some d =>
    obtain ⟨-, hyears⟩ := assertPostingDateAllowed_ok (h.dated d (hchecked.trans hdate))
    rcases hyears with hnil | ⟨z, hz, hopen, hstart, -⟩
    · rw [hnil] at hy
      cases hy
    · exact (hinv.closedFirst y hy z hz hclosed hopen).1.trans hstart

/-- A new year in order keeps the invariant. -/
theorem ClosedInv.createFiscalYear (hinv : ClosedInv tz s) {dto : FiscalYearDto}
    {startDate endDate : ℤ} (hstart : dto.startDate.toInstant = some startDate)
    (hend : dto.endDate.endOfDay = some endDate) (hlt : startDate < endDate)
    (hfree : ∀ y ∈ s.fiscalYears.rows, endDate < y.startDate ∨ y.endDate < startDate)
    (hok : YearsInOrder tz s (.createFiscalYear dto)) :
    ClosedInv tz (addFiscalYear dto.title startDate endDate s) := by
  have hok' := hok startDate endDate hstart hend
  refine ⟨hinv.equity, ?_, ?_, ?_, ?_, ?_, ?_⟩
  · intro y hy
    rcases mem_addFiscalYear hy with hy | rfl
    · exact hinv.valid y hy
    · exact hlt
  · intro y hy z hz hne
    rcases mem_addFiscalYear hy with hy | rfl <;> rcases mem_addFiscalYear hz with hz | rfl
    · exact hinv.disjoint y hy z hz hne
    · exact (hfree y hy).symm
    · exact hfree z hz
    · exact absurd rfl hne
  · intro y hy z hz hclosed hopen
    rcases mem_addFiscalYear hy with hy | rfl
    · rcases mem_addFiscalYear hz with hz | rfl
      · exact hinv.closedFirst y hy z hz hclosed hopen
      · exact (hok' y hy).1 (.inl hclosed)
    · cases hclosed
  · intro y hy z hz hyopen hzopen hbefore
    rcases mem_addFiscalYear hy with hy | rfl <;> rcases mem_addFiscalYear hz with hz | rfl
    · exact hinv.openInOrder y hy z hz hyopen hzopen hbefore
    · exact (hok' y hy).1 (.inr hbefore)
    · exact (hok' z hz).2 hzopen hbefore
    · exact absurd hbefore (lt_irrefl _)
  · intro y hy hclosed
    rcases mem_addFiscalYear hy with hy | rfl
    · exact hinv.past y hy hclosed
    · cases hclosed
  · intro y hy hclosed
    rcases mem_addFiscalYear hy with hy | rfl
    · exact hinv.zero y hy hclosed
    · cases hclosed

/-- Marking a year whose accounts are zero, with no open year before it. -/
theorem ClosedInv.markClosed (hinv : ClosedInv tz s) {adminId id : ℕ} {journalId : Option ℕ}
    {year : FiscalYear} (hfind : s.fiscalYears.find? id = some year)
    (hopen : year.status = .open) (hover : (fiscalYearRange tz year).lt ≤ s.now)
    (hfirst : ∀ y ∈ s.fiscalYears.rows, y.status = .open → year.startDate ≤ y.endDate)
    (hzero : ∀ a ∈ s.accounts.rows, isTemporary a = true →
      cumulative s (fiscalYearRange tz year).lt a.id = 0) :
    ClosedInv tz (AccountingManageService.markClosed adminId id journalId s) := by
  obtain ⟨hyear, rfl⟩ := Table.find?_eq_some.mp hfind
  have hsame : ∀ y₀ ∈ s.fiscalYears.rows, y₀.id = year.id → y₀ = year := fun y₀ hy₀ hid =>
    List.inj_on_of_nodup_map s.fiscalYears.nodup hy₀ hyear hid
  have hfollows : ∀ y z y₀ z₀ : FiscalYear, y.startDate = y₀.startDate →
      y.endDate = y₀.endDate → z.startDate = z₀.startDate → z.endDate = z₀.endDate →
      Follows tz y₀ z₀ → Follows tz y z := by
    intro y z y₀ z₀ hy₁ hy₂ hz₁ hz₂ h
    unfold Follows
    rw [fiscalYearRange_congr tz hy₁ hy₂, fiscalYearRange_congr tz hz₁ hz₂, hz₁]
    exact h
  refine ⟨hinv.equity, ?_, ?_, ?_, ?_, ?_, ?_⟩
  · intro y hy
    obtain ⟨y₀, hy₀, -, hs, he, -⟩ := mem_markClosed hy
    rw [hs, he]
    exact hinv.valid y₀ hy₀
  · intro y hy z hz hne
    obtain ⟨y₀, hy₀, hyid, hys, hye, -⟩ := mem_markClosed hy
    obtain ⟨z₀, hz₀, hzid, hzs, hze, -⟩ := mem_markClosed hz
    rw [hys, hye, hzs, hze]
    exact hinv.disjoint y₀ hy₀ z₀ hz₀ (by rwa [← hyid, ← hzid])
  · intro y hy z hz hclosed hzopen
    obtain ⟨y₀, hy₀, -, hys, hye, hy'⟩ := mem_markClosed hy
    obtain ⟨z₀, hz₀, -, hzs, hze, hz'⟩ := mem_markClosed hz
    refine hfollows y z y₀ z₀ hys hye hzs hze ?_
    obtain ⟨hzid, hzstatus⟩ : z₀.id ≠ year.id ∧ z₀.status = .open := by
      rcases hz' with ⟨-, hz'⟩ | ⟨hzid, hz'⟩
      · rw [hz'] at hzopen
        cases hzopen
      · exact ⟨hzid, hz'.symm.trans hzopen⟩
    rcases hy' with ⟨hyid, -⟩ | ⟨hyid, hystatus⟩
    · -- the year being closed: an open year is disjoint from it and not before it
      rw [hsame y₀ hy₀ hyid]
      have hv := hinv.valid year hyear
      have hf := hfirst z₀ hz₀ hzstatus
      refine hinv.openInOrder year hyear z₀ hz₀ hopen hzstatus ?_
      rcases hinv.disjoint year hyear z₀ hz₀ (Ne.symm hzid) with h | h
      · omega
      · omega
    · exact hinv.closedFirst y₀ hy₀ z₀ hz₀ (hystatus.symm.trans hclosed) hzstatus
  · intro y hy z hz hyopen hzopen hbefore
    obtain ⟨y₀, hy₀, -, hys, hye, hy'⟩ := mem_markClosed hy
    obtain ⟨z₀, hz₀, -, hzs, hze, hz'⟩ := mem_markClosed hz
    refine hfollows y z y₀ z₀ hys hye hzs hze ?_
    rcases hy' with ⟨-, hy'⟩ | ⟨-, hy'⟩
    · rw [hy'] at hyopen
      cases hyopen
    · rcases hz' with ⟨-, hz'⟩ | ⟨-, hz'⟩
      · rw [hz'] at hzopen
        cases hzopen
      · refine hinv.openInOrder y₀ hy₀ z₀ hz₀ (hy'.symm.trans hyopen) (hz'.symm.trans hzopen) ?_
        rwa [← hys, ← hzs]
  · intro y hy hclosed
    obtain ⟨y₀, hy₀, -, hs, he, hy'⟩ := mem_markClosed hy
    rw [fiscalYearRange_congr tz hs he]
    rcases hy' with ⟨hid, -⟩ | ⟨-, hstatus⟩
    · rw [hsame y₀ hy₀ hid]
      exact hover
    · exact hinv.past y₀ hy₀ (hstatus.symm.trans hclosed)
  · intro y hy hclosed a ha htemp
    obtain ⟨y₀, hy₀, -, hs, he, hy'⟩ := mem_markClosed hy
    rw [fiscalYearRange_congr tz hs he]
    rcases hy' with ⟨hid, -⟩ | ⟨-, hstatus⟩
    · rw [hsame y₀ hy₀ hid]
      exact hzero a ha htemp
    · exact hinv.zero y₀ hy₀ (hstatus.symm.trans hclosed) a ha htemp

/-- Closing a year keeps the invariant. -/
theorem ClosedInv.closeFiscalYear (hinv : ClosedInv tz s) {adminId id : ℕ} {r : ClosingResult}
    (h : (AccountingManageService.closeFiscalYear tz adminId id).Ok s r s') :
    ClosedInv tz s' := by
  obtain ⟨year, mid, journalId, hfind, hopen, hover, hfirst, hposted, rfl⟩ := closeFiscalYear_ok h
  have hyear := Table.mem_of_find? hfind
  -- the closing entry is dated at the end of a year that follows all closed ones
  have hmid : ClosedInv tz mid ∧ mid.fiscalYears = s.fiscalYears ∧ mid.now = s.now := by
    cases hposted with
    | none => exact ⟨hinv, rfl, rfl⟩
    | entry posted hposting =>
      refine ⟨hinv.write fun y hy hclosed => ?_, rfl, rfl⟩
      have hlt := (hinv.closedFirst y hy year hyear hclosed hopen).2
      rw [closingJournal_entryDate, Option.getD_some]
      omega
  obtain ⟨hmidinv, hyears, hnow⟩ := hmid
  have hacc : mid.accounts.rows.map (fun a => (a.id, a.code, a.type)) =
      s.accounts.rows.map (fun a => (a.id, a.code, a.type)) := by
    cases hposted with
    | none => rfl
    | entry posted _ => exact map_updateBalances _ (fun _ _ _ => rfl) posted s.accounts
  have hzero : ∀ a ∈ mid.accounts.rows, isTemporary a = true →
      cumulative mid (fiscalYearRange tz year).lt a.id = 0 := by
    intro a' ha' htemp
    have hmem : (a'.id, a'.code, a'.type) ∈
        s.accounts.rows.map fun a => (a.id, a.code, a.type) := by
      rw [← hacc]
      exact List.mem_map_of_mem ha'
    obtain ⟨a, ha, heq⟩ := List.mem_map.mp hmem
    simp only [Prod.mk.injEq] at heq
    obtain ⟨hid, -, htype⟩ := heq
    have htemp' : isTemporary a = true := by
      rw [isTemporary, htype]
      exact htemp
    rw [← hid]
    refine cumulative_closingPosted hposted ha htemp' fun hcode => ?_
    rw [hinv.equity a ha hcode] at htemp'
    cases htemp'
  have hclosed : ClosedInv tz (AccountingManageService.markClosed adminId id journalId mid) :=
    hmidinv.markClosed (by rw [hyears]; exact hfind) hopen (by rw [hnow]; exact hover)
      (by rw [hyears]; exact hfirst) hzero
  exact hclosed.congr rfl rfl (le_refl _) fun _ _ _ _ => rfl

/-- **Step lemma**: every step with years in order keeps the invariant. -/
theorem closedInv_step {e : PeriodEvent} (hinv : ClosedInv tz s) (hok : YearsInOrder tz s e)
    (hstep : PeriodStep tz s e s') : ClosedInv tz s' := by
  cases e with
  | post params =>
    obtain ⟨hchecked, id, hpost⟩ := hstep
    obtain ⟨posted, hposting, -, rfl⟩ := postJournal_ok hpost
    exact hinv.write (hinv.admitted hposting hchecked)
  | reverse journalId opts =>
    obtain ⟨id, hrev⟩ := hstep
    obtain ⟨original, posted, -, -, -, hposting, -, rfl⟩ := reverseJournal_ok hrev
    exact hinv.write (hinv.admitted hposting rfl)
  | createFiscalYear dto =>
    obtain ⟨id, hcreate⟩ := hstep
    obtain ⟨startDate, endDate, hstart, hend, hlt, hfree, rfl⟩ := createFiscalYear_ok hcreate
    exact hinv.createFiscalYear hstart hend hlt hfree hok
  | setLockDate date =>
    rw [setLockDate_ok hstep]
    exact hinv.congr rfl rfl (le_refl _) fun _ _ _ _ => rfl
  | finalizeJournals upTo =>
    obtain ⟨n, hfin⟩ := hstep
    obtain ⟨years, -, -, rfl⟩ := finalizeJournals_ok hfin
    obtain ⟨hyears, hacc, hnow, -, -⟩ := finalizeYears_frame tz
      (tz.tehranDayStart (addDays upTo 1)) years s
    refine hinv.congr (by rw [raiseLock, hacc]) hyears hnow.ge fun y _ _ k => ?_
    exact cumulative_congr (map_finalizeYears tz _ years s) _ k
  | closeFiscalYear adminId id =>
    obtain ⟨r, hclose⟩ := hstep
    exact hinv.closeFiscalYear hclose
  | environment =>
    refine hinv.congr hstep.accounts hstep.years hstep.clock fun y _ _ k => ?_
    exact cumulative_congr (by rw [hstep.journals]) _ k

end Invariant

theorem closedInv_noYears (tz : TehranZone) {s : Books} (h : NoYears s) : ClosedInv tz s := by
  have hnil := h.years
  refine ⟨h.equity, ?_, ?_, ?_, ?_, ?_, ?_⟩
  all_goals
    intro y hy
    rw [hnil] at hy
    cases hy

/-- **Closed books stay closed**: in every run in which each new year is defined in order,
the temporary accounts of every closed year have no balance before its end. -/
theorem closed_books_stay_closed (tz : TehranZone) {s s' : Books} (h : NoYears s)
    (hrun : Runs (PeriodStep tz) (YearsInOrder tz) s s') : BooksClosed tz s' :=
  (hrun.invariant (closedInv_noYears tz h) fun _ _ _ => closedInv_step).zero

/-! ## A year in front of a closed one -/

/-- Cash, fee income and retained earnings, without a journal and without a year; the
clock stands in September 2026. -/
def feeBooks : Books where
  accounts :=
    { table :=
        { rows := [
            { id := 0, code := "1010", name := "موجودی نقد و بانک (ریال)", type := .asset,
              balanceRial := 0, balanceGrams := 0, parentId := none, isActive := true },
            { id := 1, code := "4010", name := "درآمد کارمزد معاملات", type := .income,
              balanceRial := 0, balanceGrams := 0, parentId := none, isActive := true },
            { id := 2, code := "3020", name := "سود (زیان) انباشته", type := .equity,
              balanceRial := 0, balanceGrams := 0, parentId := none, isActive := true }]
          next := 3
          nodup := by decide
          lt_next := by decide }
      code_nodup := by decide }
  journals := .empty
  nextReference := 1
  fiscalYears := .empty
  lockedUntil := none
  systemConfig _ := none
  now := utcMidnight 20700

/-- A fee of a hundred rials, received in June 2024. -/
def feeJournal : JournalInput where
  description := "کارمزد"
  totalRial := 100
  totalGrams := 0
  source := .manual
  entryDate := some (utcMidnight 19875)
  lines := [{ accountCode := "1010", side := .debit, amountRial := 100 },
    { accountCode := "4010", side := .credit, amountRial := 100 }]

/-- The year 1403, from 20 March 2024 to 20 March 2025. -/
def year1403 : FiscalYearDto := ⟨"1403", .day 19802, .day 20167⟩

/-- The year 1404, from 21 March 2025 to 20 March 2026. -/
def year1404 : FiscalYearDto := ⟨"1404", .day 20168, .day 20532⟩

/-- The books once the fee is posted. -/
def feePosted : Books := ((postJournal feeJournal).run feeBooks).2

/-- The books once a year is defined. -/
def yearDefined (dto : FiscalYearDto) (s : Books) : Books :=
  ((AccountingManageService.createFiscalYear dto).run s).2

/-- The books once the year `id` is closed. -/
def yearClosed (id : ℕ) (s : Books) : Books :=
  ((AccountingManageService.closeFiscalYear .standard 1 id).run s).2

/-- The fee posted and 1403 closed. -/
def closed1403 : Books := yearClosed 0 (yearDefined year1403 feePosted)

/-- The fee posted and 1404 closed. -/
def closed1404 : Books := yearClosed 0 (yearDefined year1404 feePosted)

/-- After 1404, the year 1403 is closed as well. -/
def closed1404Then1403 : Books := yearClosed 1 (yearDefined year1403 closed1404)

theorem noYears_feeBooks : NoYears feeBooks := ⟨rfl, by decide⟩

theorem step_feePosted : PeriodStep .standard feeBooks (.post feeJournal) feePosted :=
  ⟨rfl, Tx.exists_ok_run (by decide +kernel)⟩

/-- `closed_books_stay_closed` on a run that posts a fee and closes its year. -/
theorem closed_books_stay_closed_1403 : BooksClosed .standard closed1403 := by
  have hdefine : PeriodStep .standard feePosted (.createFiscalYear year1403)
      (yearDefined year1403 feePosted) := Tx.exists_ok_run (by decide +kernel)
  have hclose : PeriodStep .standard (yearDefined year1403 feePosted) (.closeFiscalYear 1 0)
      closed1403 := Tx.exists_ok_run (by decide +kernel)
  have horder : YearsInOrder .standard feePosted (.createFiscalYear year1403) := by
    intro startDate endDate _ _ y hy
    have hnil : feePosted.fiscalYears.rows = [] := by decide +kernel
    rw [hnil] at hy
    cases hy
  have hfee : Runs (PeriodStep .standard) (YearsInOrder .standard) feeBooks feePosted :=
    Runs.single (e := .post feeJournal) trivial step_feePosted
  have hrun : Runs (PeriodStep .standard) (YearsInOrder .standard) feeBooks closed1403 :=
    (hfee.tail horder hdefine).tail (e := .closeFiscalYear 1 0) trivial hclose
  exact closed_books_stay_closed .standard noYears_feeBooks hrun

/-- A fee of 1403 is closed with 1404; then 1403 is defined and closed as well, and the
entries up to the end of 1404 no longer sum to zero. -/
theorem earlier_year_reopens : NoYears feeBooks ∧
    Runs (PeriodStep .standard) always feeBooks closed1404Then1403 ∧
    ¬BooksClosed .standard closed1404Then1403 := by
  have hdefine : PeriodStep .standard feePosted (.createFiscalYear year1404)
      (yearDefined year1404 feePosted) := Tx.exists_ok_run (by decide +kernel)
  have hclose : PeriodStep .standard (yearDefined year1404 feePosted) (.closeFiscalYear 1 0)
      closed1404 := Tx.exists_ok_run (by decide +kernel)
  have hdefine' : PeriodStep .standard closed1404 (.createFiscalYear year1403)
      (yearDefined year1403 closed1404) := Tx.exists_ok_run (by decide +kernel)
  have hclose' : PeriodStep .standard (yearDefined year1403 closed1404) (.closeFiscalYear 1 1)
      closed1404Then1403 := Tx.exists_ok_run (by decide +kernel)
  refine ⟨noYears_feeBooks, ?_, by decide +kernel⟩
  exact ((((Runs.single trivial step_feePosted).tail trivial hdefine).tail trivial hclose).tail
    trivial hdefine').tail trivial hclose'

end ArkanGold
