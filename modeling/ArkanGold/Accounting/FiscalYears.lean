import ArkanGold.Lib.Rank
import ArkanGold.Lib.Runs
import ArkanGold.Accounting.Posting

/-!
# Fiscal years

`AccountingManageService`: defining and closing fiscal years, the lock date, and the
permanent numbers of journals.

- A year is stored by two instants. `fiscalYearRange` turns them into the real range
  of the year: whole days are days in Tehran, an exact instant stands for itself. The
  checks on the posting date and on overlap compare the stored instants instead.
- `closeFiscalYear` posts the closing entry one millisecond before the end of the
  real range, past the lock.
- `PeriodStep`: what can happen to the books around periods. A journal with an
  explicit date is one that `assertPostingDateAllowed` looks at: only
  `closeFiscalYear` posts dated closing entries, and reversals carry no date.
-/

namespace ArkanGold

open AccountingService

/-- The result of `fiscalYearRange`. -/
structure FiscalYearRange where
  gte : ℤ
  lt : ℤ
  firstDay : ℤ
  lastDay : ℤ

/-- `fiscalYearRange` -/
def fiscalYearRange (tz : TehranZone) (y : FiscalYear) : FiscalYearRange :=
  let startIsDay := isUtcMidnight y.startDate
  let endIsDay := isUtcMidnight y.endDate || isUtcEndOfDay y.endDate
  let firstDay := if startIsDay then storedDay y.startDate else tz.tehranDay y.startDate
  let lastDay := if endIsDay then storedDay y.endDate else tz.tehranDay y.endDate
  { gte := if startIsDay then tz.tehranDayStart firstDay else y.startDate
    lt := if endIsDay then tz.tehranDayStart (addDays lastDay 1) else y.endDate + 1
    firstDay := firstDay
    lastDay := lastDay }

/-- An instant lies in the real range of a year. -/
def FiscalYear.covers (tz : TehranZone) (y : FiscalYear) (t : ℤ) : Prop :=
  (fiscalYearRange tz y).gte ≤ t ∧ t < (fiscalYearRange tz y).lt

instance (tz : TehranZone) (y : FiscalYear) (t : ℤ) : Decidable (y.covers tz t) :=
  inferInstanceAs (Decidable (_ ∧ _))

/-- `FiscalYearDto` -/
structure FiscalYearDto where
  title : String
  startDate : DateInput
  endDate : DateInput

namespace AccountingManageService

/-! ## Years and the lock date -/

/-- The fiscal year that a request defines, under the id `id`. -/
def newFiscalYear (title : String) (startDate endDate : ℤ) (id : ℕ) : FiscalYear where
  id := id
  title := trim title
  startDate := startDate
  endDate := endDate
  status := .open
  closedAt := none
  closedByAdminId := none
  closingJournalId := none

/-- The books with a new fiscal year. -/
def addFiscalYear (title : String) (startDate endDate : ℤ) (s : Books) : Books :=
  { s with fiscalYears := s.fiscalYears.create (newFiscalYear title startDate endDate) }

/-- `createFiscalYear`: the id of the new year. -/
def createFiscalYear (dto : FiscalYearDto) : Tx ApiError Books ℕ := do
  let startDate ← Tx.getOrFail dto.startDate.toInstant (.badRequest "بازه‌ی سال مالی نامعتبر است")
  let endDate ← Tx.getOrFail dto.endDate.endOfDay (.badRequest "بازه‌ی سال مالی نامعتبر است")
  Tx.check (startDate < endDate) (.badRequest "بازه‌ی سال مالی نامعتبر است")
  let s ← Tx.get
  Tx.ofExcept
    (match s.fiscalYears.rows.find? fun y => y.startDate ≤ endDate ∧ startDate ≤ y.endDate with
    | some overlap => .error (.conflict s!"با سال مالی «{overlap.title}» هم‌پوشانی دارد")
    | none => .ok ())
  Tx.modify (addFiscalYear dto.title startDate endDate)
  pure s.fiscalYears.next

/-- `setLockDate`; no date clears the lock. -/
def setLockDate (date : Option ℤ) : Tx ApiError Books Unit := do
  let s ← Tx.get
  Tx.ofExcept
    (match date with
    | none => .ok ()
    | some d =>
      if s.now ≤ utcEndOfDay d then .error (.badRequest "تاریخ قفل باید قبل از امروز باشد")
      else
        match s.lockedUntil with
        | none => .ok ()
        | some current =>
          if d < current then
            match s.fiscalYears.rows.find? fun y =>
              y.status = .closed ∧ utcMidnight d ≤ y.endDate with
            | some closed => .error (.badRequest
                s!"سال مالی «{closed.title}» بسته شده؛ قفل را نمی‌توان به قبل از پایان آن برگرداند")
            | none => .ok ()
          else .ok ())
  Tx.modify fun s => { s with lockedUntil := date }

/-- The lock after the period up to the day `d` is done: it only moves forward. -/
def raisedLock (d : ℤ) : Option ℤ → Option ℤ
  | none => some d
  | some current => if current < d then some d else some current

/-- Lock the period up to the day `d`. -/
def raiseLock (d : ℤ) (s : Books) : Books := { s with lockedUntil := raisedLock d s.lockedUntil }

/-! ## Permanent numbers -/

/-- The order of permanent numbers: by date, then by reference number. -/
def journalKey (j : JournalEntry) : ℤ ×ₗ ℕ := toLex (j.entryDate, j.referenceNumber)

/-- The journals that a batch numbers in the year `y`. -/
def finalizable (tz : TehranZone) (untilExcl : ℤ) (y : FiscalYear) (j : JournalEntry) : Bool :=
  j.permanentNumber.isNone && decide ((fiscalYearRange tz y).gte ≤ j.entryDate ∧
    j.entryDate < min (fiscalYearRange tz y).lt untilExcl)

/-- The permanent numbers given in a year. -/
def numbersOf (s : Books) (yearId : ℕ) : List ℕ :=
  s.journals.rows.filterMap fun j =>
    if j.fiscalYearId = some yearId then j.permanentNumber else none

/-- The journals of the next batch of a year. -/
def batchOf (tz : TehranZone) (untilExcl : ℤ) (y : FiscalYear) (s : Books) : List JournalEntry :=
  s.journals.rows.filter (finalizable tz untilExcl y)

/-- A journal under its permanent number. -/
def finalizedAs (tz : TehranZone) (untilExcl : ℤ) (y : FiscalYear) (s : Books)
    (j : JournalEntry) : JournalEntry :=
  { j with
    permanentNumber := some ((numbersOf s y.id).foldl max 0 +
      Rank.rank journalKey (batchOf tz untilExcl y s) j)
    fiscalYearId := some y.id
    finalizedAt := some s.now }

/-- The batch of one year: the numbers go on from the greatest one given. -/
def finalizeYear (tz : TehranZone) (untilExcl : ℤ) (y : FiscalYear) (s : Books) : Books :=
  { s with
    journals := s.journals.updateWhere (finalizable tz untilExcl y)
      (finalizedAs tz untilExcl y s) }

/-- The batches of all years; the number of journals finalized. -/
def finalizeYears (tz : TehranZone) (untilExcl : ℤ) : List FiscalYear → Tx ApiError Books ℕ
  | [] => pure 0
  | y :: ys => do
    let s ← Tx.get
    Tx.modify (finalizeYear tz untilExcl y)
    let rest ← finalizeYears tz untilExcl ys
    pure ((batchOf tz untilExcl y s).length + rest)

/-- `finalizeJournals`: the number of journals finalized up to the day `upTo`. -/
def finalizeJournals (tz : TehranZone) (upTo : ℤ) : Tx ApiError Books ℕ := do
  let s ← Tx.get
  let untilExcl := tz.tehranDayStart (addDays upTo 1)
  Tx.check (untilExcl ≤ s.now) (.badRequest "قطعی‌سازی فقط برای روزهای گذشته ممکن است")
  let years := (s.fiscalYears.rows.filter fun y => y.startDate < untilExcl).mergeSort
    fun y z => y.startDate ≤ z.startDate
  Tx.check (years.length != 0) (.badRequest "ابتدا سال مالی را تعریف کنید")
  let finalized ← Tx.atomic (finalizeYears tz untilExcl years)
  Tx.modify (raiseLock upTo)
  pure finalized

/-! ## Closing a year -/

/-- Temporary accounts are closed with the year. -/
def isTemporary (a : Account) : Bool := a.type == .income || a.type == .expense

/-- The ledger entries of an account dated before `t`. -/
def entriesBefore (s : Books) (t : ℤ) (k : ℕ) : List LedgerEntry :=
  ((s.journals.rows.filter fun j => j.entryDate < t).flatMap JournalEntry.ledgerEntries).filter
    fun e => e.accountId = k

/-- `SUM(CASE WHEN side = … THEN amount_rial END)` -/
def sumRial (side : LedgerSide) (entries : List LedgerEntry) : ℤ :=
  DoubleEntry.total LedgerEntry.side LedgerEntry.amountRial side entries

/-- `diff`: the debits minus the credits. -/
def netRial (entries : List LedgerEntry) : ℤ := sumRial .debit entries - sumRial .credit entries

/-- The debits minus the credits of an account, dated before `t`. -/
def cumulative (s : Books) (t : ℤ) (k : ℕ) : ℤ := netRial (entriesBefore s t k)

/-- A line that credits an account with `diff`, or debits it where `diff` is negative. -/
def closingLine (code : String) (diff : ℤ) : LedgerLineInput where
  accountCode := code
  side := if 0 < diff then .credit else .debit
  amountRial := |diff|

/-- The temporary accounts with a balance before `t`. -/
def temporaryBalances (s : Books) (t : ℤ) : List (String × ℤ) :=
  ((s.accounts.rows.filter isTemporary).map fun a => (a.code, cumulative s t a.id)).filter
    fun r => r.2 != 0

/-- `net`: profit is positive. -/
def netProfit (rows : List (String × ℤ)) : ℤ := -(rows.map Prod.snd).sum

/-- The lines of the closing entry. -/
def closingLines (rows : List (String × ℤ)) : List LedgerLineInput :=
  (rows.map fun r => closingLine r.1 r.2) ++
    if netProfit rows = 0 then []
    else [closingLine ACC.RETAINED_EARNINGS (netProfit rows)]

/-- The closing entry of a year. -/
def closingJournal (tz : TehranZone) (adminId : ℕ) (year : FiscalYear)
    (rows : List (String × ℤ)) : JournalInput :=
  let net := netProfit rows
  let kind := if 0 ≤ net then "سود" else "زیان"
  { description :=
      s!"سند اختتامیه‌ی حساب‌های موقت — {year.title} ({kind} خالص {toString |net|} ریال)"
    totalRial := DoubleEntry.total LedgerLineInput.side LedgerLineInput.amountRial .debit
      (closingLines rows)
    totalGrams := 0
    entryDate := some ((fiscalYearRange tz year).lt - 1)
    source := .closing
    referenceType := some "FISCAL_YEAR"
    referenceId := some year.id
    createdByAdminId := some adminId
    lines := closingLines rows }

section ClosingJournal

variable (tz : TehranZone) (adminId : ℕ) (year : FiscalYear) (rows : List (String × ℤ))

@[simp] theorem closingJournal_lines :
    (closingJournal tz adminId year rows).lines = closingLines rows := rfl

@[simp] theorem closingJournal_source :
    (closingJournal tz adminId year rows).source = .closing := rfl

@[simp] theorem closingJournal_entryDate : (closingJournal tz adminId year rows).entryDate =
    some ((fiscalYearRange tz year).lt - 1) := rfl

end ClosingJournal

/-- What `closeFiscalYear` returns. -/
structure ClosingResult where
  message : String
  netProfitRial : ℤ
  closingJournalId : Option ℕ

/-- The closing entry, unless no temporary account has a balance. -/
def postClosing (tz : TehranZone) (adminId : ℕ) (year : FiscalYear)
    (rows : List (String × ℤ)) : Tx ApiError Books (Option ℕ) :=
  if rows.isEmpty then pure none
  else do
    let journalId ← postJournal (closingJournal tz adminId year rows)
    pure (some journalId)

/-- The year `id` as closed. -/
def markClosed (adminId id : ℕ) (journalId : Option ℕ) (s : Books) : Books :=
  { s with
    fiscalYears := s.fiscalYears.update id fun y =>
      { y with
        status := .closed
        closedAt := some s.now
        closedByAdminId := some adminId
        closingJournalId := journalId } }

/-- The transaction of `closeFiscalYear`. -/
def closeYearTx (tz : TehranZone) (adminId id : ℕ) : Tx ApiError Books ClosingResult := do
  let s ← Tx.get
  let year ← Tx.getOrFail (s.fiscalYears.find? id) (.notFound "سال مالی یافت نشد")
  Tx.check (year.status != .closed) (.conflict "این سال مالی قبلاً بسته شده است")
  Tx.check ((fiscalYearRange tz year).lt ≤ s.now)
    (.badRequest "سال مالی هنوز به پایان نرسیده است")
  Tx.ofExcept
    (match s.fiscalYears.rows.find? fun y => y.status = .open ∧ y.endDate < year.startDate with
    | some openBefore =>
      .error (.badRequest s!"ابتدا سال مالی قبلی «{openBefore.title}» را ببندید")
    | none => .ok ())
  let rows := temporaryBalances s (fiscalYearRange tz year).lt
  let journalId ← postClosing tz adminId year rows
  Tx.modify (markClosed adminId id journalId)
  let net := netProfit rows
  let kind := if 0 ≤ net then "سود" else "زیان"
  pure
    { message := s!"سال مالی بسته شد — {kind} خالص: {toString |net|} ریال"
      netProfitRial := net
      closingJournalId := journalId }

/-- The period is locked up to the end of the year `id`. -/
def lockUpToEnd (id : ℕ) (s : Books) : Books :=
  { s with
    lockedUntil :=
      match s.fiscalYears.find? id with
      | some year => raisedLock (storedDay year.endDate) s.lockedUntil
      | none => s.lockedUntil }

/-- `closeFiscalYear`: afterwards the period is locked up to the end of the year. -/
def closeFiscalYear (tz : TehranZone) (adminId id : ℕ) : Tx ApiError Books ClosingResult := do
  let res ← Tx.atomic (closeYearTx tz adminId id)
  Tx.modify (lockUpToEnd id)
  pure res

/-! ## What each call that returns has done -/

/-- The new year overlaps none of the stored ones. -/
theorem createFiscalYear_ok {dto : FiscalYearDto} {s s' : Books} {id : ℕ}
    (h : (createFiscalYear dto).Ok s id s') :
    ∃ startDate endDate, dto.startDate.toInstant = some startDate ∧
      dto.endDate.endOfDay = some endDate ∧ startDate < endDate ∧
      (∀ y ∈ s.fiscalYears.rows, endDate < y.startDate ∨ y.endDate < startDate) ∧
      s' = addFiscalYear dto.title startDate endDate s := by
  simp only [createFiscalYear, Tx.ok_bind, Tx.ok_getOrFail, Tx.ok_check, Tx.ok_get, Tx.ok_ofExcept,
    Tx.ok_modify, Tx.ok_pure] at h
  obtain ⟨startDate, _, ⟨hstart, rfl⟩, endDate, _, ⟨hend, rfl⟩, _, _, ⟨hlt, rfl⟩, _, _, ⟨rfl, rfl⟩,
    _, s, ⟨hover, rfl⟩, _, _, rfl, -, rfl⟩ := h
  refine ⟨startDate, endDate, hstart, hend, by simpa using hlt, ?_, rfl⟩
  intro y hy
  split at hover
  · cases hover
  · rename_i hnone
    have hy' := List.find?_eq_none.mp hnone y hy
    simp only [decide_eq_true_eq, not_and, not_le] at hy'
    by_cases hle : y.startDate ≤ endDate
    · exact .inr (hy' hle)
    · exact .inl (not_le.mp hle)

theorem setLockDate_ok {date : Option ℤ} {s s' : Books} {u : Unit}
    (h : (setLockDate date).Ok s u s') : s' = { s with lockedUntil := date } := by
  simp only [setLockDate, Tx.ok_bind, Tx.ok_get, Tx.ok_ofExcept, Tx.ok_modify] at h
  obtain ⟨_, _, ⟨rfl, rfl⟩, _, _, ⟨-, rfl⟩, rfl⟩ := h
  rfl

/-- The batches are the years' batches one after the other. -/
theorem finalizeYears_ok {tz : TehranZone} {untilExcl : ℤ} {years : List FiscalYear}
    {s s' : Books} {n : ℕ} (h : (finalizeYears tz untilExcl years).Ok s n s') :
    s' = years.foldl (fun s y => finalizeYear tz untilExcl y s) s := by
  induction years generalizing s n with
  | nil =>
    simp only [finalizeYears, Tx.ok_pure] at h
    exact h.2
  | cons y ys ih =>
    simp only [finalizeYears, Tx.ok_bind, Tx.ok_get, Tx.ok_modify, Tx.ok_pure] at h
    obtain ⟨_, _, ⟨rfl, rfl⟩, _, _, rfl, _, _, hrest, -, rfl⟩ := h
    exact ih hrest

/-- A finalization only covers days that are over in Tehran. -/
theorem finalizeJournals_ok {tz : TehranZone} {upTo : ℤ} {s s' : Books} {n : ℕ}
    (h : (finalizeJournals tz upTo).Ok s n s') :
    ∃ years : List FiscalYear, (∀ y ∈ years, y ∈ s.fiscalYears.rows) ∧
      tz.tehranDayStart (addDays upTo 1) ≤ s.now ∧
      s' = raiseLock upTo (years.foldl
        (fun s y => finalizeYear tz (tz.tehranDayStart (addDays upTo 1)) y s) s) := by
  simp only [finalizeJournals, Tx.ok_bind, Tx.ok_get, Tx.ok_check, Tx.ok_atomic, Tx.ok_modify,
    Tx.ok_pure] at h
  obtain ⟨_, _, ⟨rfl, rfl⟩, _, _, ⟨hnow, rfl⟩, _, _, ⟨-, rfl⟩, _, _, hyears, _, _, rfl, -, rfl⟩ := h
  refine ⟨_, ?_, by simpa using hnow, by rw [finalizeYears_ok hyears]⟩
  intro y hy
  exact (List.mem_filter.mp (List.mem_mergeSort.mp hy)).1

/-- The books between the two parts of closing: after the closing entry, if there is
one. -/
inductive ClosingPosted (tz : TehranZone) (adminId : ℕ) (year : FiscalYear)
    (rows : List (String × ℤ)) (s : Books) : Books → Prop where
  | none (h : rows = []) : ClosingPosted tz adminId year rows s s
  | entry (posted : List PostedLine)
      (h : Posting s (closingJournal tz adminId year rows) posted) :
      ClosingPosted tz adminId year rows s
        (write (closingJournal tz adminId year rows) posted s)

theorem postClosing_ok {tz : TehranZone} {adminId : ℕ} {year : FiscalYear}
    {rows : List (String × ℤ)} {s s' : Books} {journalId : Option ℕ}
    (h : (postClosing tz adminId year rows).Ok s journalId s') :
    ClosingPosted tz adminId year rows s s' := by
  unfold postClosing at h
  split at h
  · rename_i hempty
    obtain ⟨-, rfl⟩ := Tx.ok_pure.mp h
    exact .none (List.isEmpty_iff.mp hempty)
  · simp only [Tx.ok_bind, Tx.ok_pure] at h
    obtain ⟨_, _, hpost, -, rfl⟩ := h
    obtain ⟨posted, hposting, -, rfl⟩ := postJournal_ok hpost
    exact .entry posted hposting

/-- A year is closed when it is over and no year before it is open; then the balances of
the temporary accounts up to its end are posted away. -/
theorem closeFiscalYear_ok {tz : TehranZone} {adminId id : ℕ} {s s' : Books} {r : ClosingResult}
    (h : (closeFiscalYear tz adminId id).Ok s r s') :
    ∃ year mid journalId, s.fiscalYears.find? id = some year ∧ year.status = .open ∧
      (fiscalYearRange tz year).lt ≤ s.now ∧
      (∀ y ∈ s.fiscalYears.rows, y.status = .open → year.startDate ≤ y.endDate) ∧
      ClosingPosted tz adminId year (temporaryBalances s (fiscalYearRange tz year).lt) s mid ∧
      s' = lockUpToEnd id (markClosed adminId id journalId mid) := by
  simp only [closeFiscalYear, closeYearTx, Tx.ok_bind, Tx.ok_get, Tx.ok_getOrFail, Tx.ok_check,
    Tx.ok_ofExcept, Tx.ok_atomic, Tx.ok_modify, Tx.ok_pure] at h
  obtain ⟨_, _, ⟨_, _, ⟨rfl, rfl⟩, year, _, ⟨hfind, rfl⟩, _, _, ⟨hopen, rfl⟩, _, _, ⟨hover, rfl⟩, _, s,
    ⟨hbefore, rfl⟩, journalId, mid, hpost, _, _, rfl, -, rfl⟩, _, _, rfl, -, rfl⟩ := h
  refine ⟨year, mid, journalId, hfind, ?_, by simpa using hover, ?_, postClosing_ok hpost, rfl⟩
  · cases hstatus : year.status with
    | «open» => rfl
    | closed => simp [hstatus] at hopen
  · intro y hy hyopen
    split at hbefore
    · cases hbefore
    · rename_i hnone
      have hy' := List.find?_eq_none.mp hnone y hy
      simpa [hyopen] using hy'

/-- After raising it the lock covers the day, and whatever it covered before. -/
theorem raisedLock_spec (d : ℤ) (lock : Option ℤ) :
    ∃ e, raisedLock d lock = some e ∧ d ≤ e ∧ ∀ c, lock = some c → c ≤ e := by
  cases lock with
  | none => exact ⟨d, rfl, le_refl d, by simp⟩
  | some current =>
    by_cases hlt : current < d
    · refine ⟨d, if_pos hlt, le_refl d, ?_⟩
      rintro c ⟨⟩
      exact hlt.le
    · refine ⟨current, if_neg hlt, not_lt.mp hlt, ?_⟩
      rintro c ⟨⟩
      exact le_refl _

theorem mem_addFiscalYear {title : String} {startDate endDate : ℤ} {s : Books} {y : FiscalYear}
    (h : y ∈ (addFiscalYear title startDate endDate s).fiscalYears.rows) :
    y ∈ s.fiscalYears.rows ∨ y = newFiscalYear title startDate endDate s.fiscalYears.next := by
  rcases List.mem_append.mp h with h | h
  · exact .inl h
  · exact .inr (List.mem_singleton.mp h)

/-- A year after `markClosed` is the same year before it, or the one being closed. -/
theorem mem_markClosed {adminId id : ℕ} {journalId : Option ℕ} {s : Books} {y : FiscalYear}
    (h : y ∈ (markClosed adminId id journalId s).fiscalYears.rows) :
    ∃ y₀ ∈ s.fiscalYears.rows, y.id = y₀.id ∧ y.startDate = y₀.startDate ∧
      y.endDate = y₀.endDate ∧
      (y₀.id = id ∧ y.status = .closed ∨ y₀.id ≠ id ∧ y.status = y₀.status) := by
  simp only [markClosed, Table.mem_update] at h
  obtain ⟨y₀, hy₀, rfl⟩ := h
  refine ⟨y₀, hy₀, ?_⟩
  by_cases hid : y₀.id = id
  · rw [if_pos hid]
    exact ⟨rfl, rfl, rfl, .inl ⟨hid, rfl⟩⟩
  · rw [if_neg hid]
    exact ⟨rfl, rfl, rfl, .inr ⟨hid, rfl⟩⟩

/-- The real range of a year depends on its two dates. -/
theorem fiscalYearRange_congr (tz : TehranZone) {y y₀ : FiscalYear}
    (hstart : y.startDate = y₀.startDate) (hend : y.endDate = y₀.endDate) :
    fiscalYearRange tz y = fiscalYearRange tz y₀ := by
  simp only [fiscalYearRange, hstart, hend]

/-- A journal after a posting is an old one, or the new one without a number. -/
theorem mem_journals_write {params : JournalInput} {posted : List PostedLine} {s : Books}
    {j : JournalEntry} (h : j ∈ (write params posted s).journals.rows) :
    j ∈ s.journals.rows ∨ j.permanentNumber = none ∧ j.fiscalYearId = none ∧
      j.entryDate = params.entryDate.getD s.now ∧ j.referenceNumber = s.nextReference := by
  rcases Table.mem_create.mp h with h | rfl
  · exact .inl h
  · exact .inr ⟨rfl, rfl, rfl, rfl⟩

end AccountingManageService

/-! ## Periods over whole runs -/

open AccountingManageService

/-- What can happen to journals, years and the lock. -/
inductive PeriodEvent where
  | post (params : JournalInput)
  | reverse (journalId : ℕ) (opts : ReversalOptions)
  | createFiscalYear (dto : FiscalYearDto)
  | setLockDate (date : Option ℤ)
  | finalizeJournals (upTo : ℤ)
  | closeFiscalYear (adminId id : ℕ)
  | environment

/-- Time passes; settings, balances and the activation of accounts may change, journals,
years and the lock do not. -/
structure SamePeriods (s s' : Books) : Prop where
  journals : s'.journals = s.journals
  reference : s'.nextReference = s.nextReference
  years : s'.fiscalYears = s.fiscalYears
  lock : s'.lockedUntil = s.lockedUntil
  clock : s.now ≤ s'.now
  accounts : s'.accounts.rows.map (fun a => (a.id, a.code, a.type)) =
    s.accounts.rows.map (fun a => (a.id, a.code, a.type))

/-- One successful call, or a change around the periods. A posting with an explicit date
is one whose date is checked. -/
def PeriodStep (tz : TehranZone) (s : Books) (e : PeriodEvent) (s' : Books) : Prop :=
  match e with
  | .post params => checksDate params = params.entryDate ∧ ∃ id, (postJournal params).Ok s id s'
  | .reverse journalId opts => ∃ id, (reverseJournal journalId opts).Ok s id s'
  | .createFiscalYear dto => ∃ id, (createFiscalYear dto).Ok s id s'
  | .setLockDate date => (setLockDate date).Ok s () s'
  | .finalizeJournals upTo => ∃ n, (finalizeJournals tz upTo).Ok s n s'
  | .closeFiscalYear adminId id => ∃ r, (closeFiscalYear tz adminId id).Ok s r s'
  | .environment => SamePeriods s s'

end ArkanGold
