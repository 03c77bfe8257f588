import ArkanGold.Accounting.ClosedBooks

/-!
# The trial balance

`AccountingReportsService.trialBalance`: for every account its balance before a period, its
turnover in the period and its balance after it.

- A period is given by two days. It begins at midnight in UTC (`parseDate`) and ends with the day
  of the process (`endOfDay`); journals belong to days in Tehran.
- `ProcessZone` is the time zone of the process, with offsets and with the instants that local
  times stand for.
- `PeriodsTile`: two periods that follow each other share out the journals, and the first one ends
  where the second one begins. `periods_tile_iff` says for which journals they do.
-/

namespace ArkanGold

/-- The time zone of a process: the difference to UTC at an instant, and the instant of a local
time. Over a day both are in order. -/
structure ProcessZone where
  offsetMinutes : ℤ → ℤ
  ofLocal : ℤ → ℤ
  local_mono : ∀ t t', t + dayMs ≤ t' →
    t + offsetMinutes t * minuteMs ≤ t' + offsetMinutes t' * minuteMs
  ofLocal_mono : ∀ l l', l + dayMs ≤ l' → ofLocal l ≤ ofLocal l'

namespace ProcessZone

variable (pz : ProcessZone)

theorem le_of_day_le {t t' : ℤ} (h : t + dayMs ≤ t') : t ≤ t' := by
  simp only [dayMs] at h
  omega

theorem fixed_local_mono (minutes t t' : ℤ) (h : t + dayMs ≤ t') :
    t + minutes * minuteMs ≤ t' + minutes * minuteMs :=
  add_le_add_left (le_of_day_le h) _

theorem fixed_ofLocal_mono (minutes l l' : ℤ) (h : l + dayMs ≤ l') :
    l - minutes * minuteMs ≤ l' - minutes * minuteMs :=
  sub_le_sub_right (le_of_day_le h) _

/-- The zone with one offset all year. -/
def fixed (minutes : ℤ) : ProcessZone where
  offsetMinutes _ := minutes
  ofLocal l := l - minutes * minuteMs
  local_mono := fixed_local_mono minutes
  ofLocal_mono := fixed_ofLocal_mono minutes

/-- The local day of an instant. -/
def localDay (t : ℤ) : ℤ := (t + pz.offsetMinutes t * minuteMs) / dayMs

/-- `setHours(23, 59, 59, 999)` -/
def setEndOfDay (t : ℤ) : ℤ := pz.ofLocal (pz.localDay t * dayMs + (dayMs - 1))

/-- `endOfDay`: only a plain day is moved to its end, from its midnight in UTC. -/
def endOfDay : DateInput → Option ℤ
  | .day d => some (pz.setEndOfDay (utcMidnight d))
  | .instant t => some t
  | .invalid => none

/-- Days end in order. -/
theorem setEndOfDay_mono {b c : ℤ} (h : b < c) :
    pz.setEndOfDay (utcMidnight b) ≤ pz.setEndOfDay (utcMidnight c) := by
  have hlocal := pz.local_mono (utcMidnight b) (utcMidnight c) (by
    simp only [utcMidnight, dayMs]
    omega)
  have hday : pz.localDay (utcMidnight b) ≤ pz.localDay (utcMidnight c) :=
    Int.ediv_le_ediv (by decide) hlocal
  rcases hday.eq_or_lt with heq | hlt
  · rw [setEndOfDay, setEndOfDay, heq]
  · refine pz.ofLocal_mono _ _ ?_
    simp only [dayMs]
    omega

end ProcessZone

/-- `DateRange` -/
structure DateRange where
  fromDate : Option DateInput
  toDate : Option DateInput

namespace AccountingReportsService

/-! ## Sums -/

/-- `Sums` -/
structure Sums where
  dr : ℤ
  cr : ℤ
  drG : ℤ
  crG : ℤ
  deriving DecidableEq

/-- The options of `sumsByAccount`. -/
structure SumsOptions where
  fromDate : Option ℤ := none
  toDate : Option ℤ := none
  before : Option ℤ := none
  excludeClosing : Bool := false

/-- The conditions on a journal. -/
def SumsOptions.selects (o : SumsOptions) (j : JournalEntry) : Bool :=
  o.fromDate.all (fun t => decide (t ≤ j.entryDate)) &&
    o.toDate.all (fun t => decide (j.entryDate ≤ t)) &&
    o.before.all (fun t => decide (j.entryDate < t)) &&
    !(o.excludeClosing && j.source == .closing)

/-- The sums of entries. -/
def sumsOf (entries : List LedgerEntry) : Sums where
  dr := DoubleEntry.total LedgerEntry.side LedgerEntry.amountRial .debit entries
  cr := DoubleEntry.total LedgerEntry.side LedgerEntry.amountRial .credit entries
  drG := DoubleEntry.total LedgerEntry.side LedgerEntry.amountGrams .debit entries
  crG := DoubleEntry.total LedgerEntry.side LedgerEntry.amountGrams .credit entries

/-- The entries of an account in the journals that are selected. -/
def selectedEntries (selects : JournalEntry → Bool) (s : Books) (k : ℕ) : List LedgerEntry :=
  ((s.journals.rows.filter selects).flatMap JournalEntry.ledgerEntries).filter
    fun e => e.accountId = k

/-- `sumsByAccount`; an account without entries has no sums, which are read as zero. -/
def sumsByAccount (o : SumsOptions) (s : Books) (k : ℕ) : Sums :=
  sumsOf (selectedEntries o.selects s k)

/-- `natural`: grows on the side of the account. -/
def natural (code : String) (dr cr : ℤ) : ℤ := if isDebitNature code then dr - cr else cr - dr

/-! ## The report -/

/-- A row of the trial balance; grams in units of the last place. -/
structure TrialBalanceRow where
  accountId : ℕ
  code : String
  name : String
  type : AccountType
  parentId : Option ℕ
  isDebitNature : Bool
  openingDebitRial : ℤ
  openingCreditRial : ℤ
  periodDebitRial : ℤ
  periodCreditRial : ℤ
  closingDebitRial : ℤ
  closingCreditRial : ℤ
  openingGrams : ℤ
  periodDebitGrams : ℤ
  periodCreditGrams : ℤ
  closingGrams : ℤ
  deriving DecidableEq

/-- The row of an account. -/
def trialBalanceRow (o p : Sums) (a : Account) : TrialBalanceRow :=
  let openNet := o.dr - o.cr
  let closeNet := openNet + p.dr - p.cr
  let openG := natural a.code o.drG o.crG
  { accountId := a.id
    code := a.code
    name := a.name
    type := a.type
    parentId := a.parentId
    isDebitNature := isDebitNature a.code
    openingDebitRial := if 0 < openNet then openNet else 0
    openingCreditRial := if openNet < 0 then |openNet| else 0
    periodDebitRial := p.dr
    periodCreditRial := p.cr
    closingDebitRial := if 0 < closeNet then closeNet else 0
    closingCreditRial := if closeNet < 0 then |closeNet| else 0
    openingGrams := openG
    periodDebitGrams := p.drG
    periodCreditGrams := p.crG
    closingGrams := openG + natural a.code p.drG p.crG }

/-- What `hideZero` keeps. -/
def TrialBalanceRow.isShown (r : TrialBalanceRow) : Bool :=
  [r.openingDebitRial, r.openingCreditRial, r.periodDebitRial, r.periodCreditRial,
    r.closingGrams].any (· != 0)

/-- The total of a column. -/
def columnTotal (f : TrialBalanceRow → ℤ) (rows : List TrialBalanceRow) : ℤ := (rows.map f).sum

/-- The report; its totals are over all rows. -/
structure TrialBalance where
  fromDate : Option ℤ
  toDate : Option ℤ
  rows : List TrialBalanceRow
  openingDebit : ℤ
  openingCredit : ℤ
  periodDebit : ℤ
  periodCredit : ℤ
  closingDebit : ℤ
  closingCredit : ℤ
  isBalanced : Bool

/-- `parseDate` -/
def parseDate (label : String) : Option DateInput → Except ApiError (Option ℤ)
  | none => .ok none
  | some v =>
    match v.toInstant with
    | none => .error (.badRequest s!"تاریخ {label} نامعتبر است")
    | some t => .ok (some t)

/-- The end of a period; a date that is none cannot be sent to the database. -/
def parseEnd (pz : ProcessZone) : Option DateInput → Except ApiError (Option ℤ)
  | none => .ok none
  | some v =>
    match pz.endOfDay v with
    | none => .error (.internal "Invalid time value")
    | some t => .ok (some t)

/-- The journals of a period. -/
def periodOptions (pz : ProcessZone) (range : DateRange) : Except ApiError SumsOptions := do
  let fromDate ← parseDate "شروع" range.fromDate
  let toDate ← parseEnd pz range.toDate
  pure { fromDate, toDate }

/-- The sums before a period; without a beginning there are none. -/
def openingSums (period : SumsOptions) (s : Books) (k : ℕ) : Sums :=
  match period.fromDate with
  | some t => sumsByAccount { before := some t } s k
  | none => ⟨0, 0, 0, 0⟩

/-- The accounts in the order of their codes. -/
def allAccounts (s : Books) : List Account :=
  s.accounts.rows.insertionSort fun a b => a.code ≤ b.code

/-- `trialBalance` -/
def trialBalance (pz : ProcessZone) (range : DateRange) (hideZero : Bool) (s : Books) :
    Except ApiError TrialBalance := do
  let period ← periodOptions pz range
  let rows := (allAccounts s).map fun a =>
    trialBalanceRow (openingSums period s a.id) (sumsByAccount period s a.id) a
  let periodDebit := columnTotal TrialBalanceRow.periodDebitRial rows
  let periodCredit := columnTotal TrialBalanceRow.periodCreditRial rows
  let closingDebit := columnTotal TrialBalanceRow.closingDebitRial rows
  let closingCredit := columnTotal TrialBalanceRow.closingCreditRial rows
  pure
    { fromDate := period.fromDate
      toDate := period.toDate
      rows := rows.filter fun r => !hideZero || r.isShown
      openingDebit := columnTotal TrialBalanceRow.openingDebitRial rows
      openingCredit := columnTotal TrialBalanceRow.openingCreditRial rows
      periodDebit, periodCredit, closingDebit, closingCredit
      isBalanced := periodDebit == periodCredit && closingDebit == closingCredit }

/-! ## Two periods -/

/-- The period of the days from `a` to `b`. -/
def dayRange (a b : ℤ) : DateRange := ⟨some (.day a), some (.day b)⟩

/-- A journal is counted in the turnover of a period. -/
def countedIn (pz : ProcessZone) (range : DateRange) (j : JournalEntry) : Bool :=
  match periodOptions pz range with
  | .ok period => period.selects j
  | .error _ => false

/-- Where an account stands at the beginning of a period. -/
def TrialBalanceRow.opening (r : TrialBalanceRow) : ℕ × ℤ × ℤ × ℤ :=
  (r.accountId, r.openingDebitRial, r.openingCreditRial, r.openingGrams)

/-- Where an account stands at its end. -/
def TrialBalanceRow.closing (r : TrialBalanceRow) : ℕ × ℤ × ℤ × ℤ :=
  (r.accountId, r.closingDebitRial, r.closingCreditRial, r.closingGrams)

/-- The days from `a` to `b` and those after `b` up to `c` as two periods of the ledger. -/
structure PeriodsTile (pz : ProcessZone) (tz : TehranZone) (s : Books) (a b c : ℤ) : Prop where
  /-- every account ends the first period where it begins the second one -/
  balances : ∃ first second, trialBalance pz (dayRange a b) false s = .ok first ∧
    trialBalance pz (dayRange (addDays b 1) c) false s = .ok second ∧
    first.rows.map TrialBalanceRow.closing = second.rows.map TrialBalanceRow.opening
  /-- a journal of these days is counted once, and no other journal is counted -/
  journals : ∀ j ∈ s.journals.rows,
    if a ≤ tz.tehranDay j.entryDate ∧ tz.tehranDay j.entryDate ≤ c then
      countedIn pz (dayRange a b) j ≠ countedIn pz (dayRange (addDays b 1) c) j
    else countedIn pz (dayRange a b) j = false ∧
      countedIn pz (dayRange (addDays b 1) c) j = false

/-- The instants that the periods misplace: after midnight in Tehran and before midnight in UTC
at the beginning of `a`; between the end of `b` in the process and midnight in UTC, on either
side; between the ends of `c` in the process and in Tehran, on either side. -/
def Misplaced (pz : ProcessZone) (tz : TehranZone) (a b c t : ℤ) : Prop :=
  t < utcMidnight a ∧ tz.tehranDay t = a ∨
  utcMidnight a ≤ t ∧ pz.setEndOfDay (utcMidnight b) < t ∧ t < utcMidnight (addDays b 1) ∨
  utcMidnight (addDays b 1) ≤ t ∧ t ≤ pz.setEndOfDay (utcMidnight b) ∨
  utcMidnight (addDays b 1) ≤ t ∧ t ≤ pz.setEndOfDay (utcMidnight c) ∧ c < tz.tehranDay t ∨
  utcMidnight (addDays b 1) ≤ t ∧ pz.setEndOfDay (utcMidnight c) < t ∧ tz.tehranDay t ≤ c

instance (pz : ProcessZone) (tz : TehranZone) (a b c t : ℤ) :
    Decidable (Misplaced pz tz a b c t) := by
  unfold Misplaced
  infer_instance

variable {pz : ProcessZone} {tz : TehranZone} {s : Books} {a b c t : ℤ}

theorem countedIn_iff {j : JournalEntry} : countedIn pz (dayRange a b) j = true ↔
    utcMidnight a ≤ j.entryDate ∧ j.entryDate ≤ pz.setEndOfDay (utcMidnight b) := by
  have hoptions : periodOptions pz (dayRange a b) = .ok
      { fromDate := some (utcMidnight a), toDate := some (pz.setEndOfDay (utcMidnight b)) } := rfl
  simp [countedIn, hoptions, SumsOptions.selects]

/-- The days in Tehran around an instant, seen from midnight in UTC. -/
theorem tehranDay_of_lt (h : t < utcMidnight a) : tz.tehranDay t ≤ a := by
  have hlt := tz.lt_day t
  simp only [TehranZone.tehranDay, utcMidnight, minuteMs, dayMs] at *
  omega

theorem le_tehranDay (h : utcMidnight a ≤ t) : a ≤ tz.tehranDay t := by
  have hle := tz.nonneg t
  simp only [TehranZone.tehranDay, utcMidnight, minuteMs, dayMs] at *
  omega

/-- One journal. -/
theorem counted_iff_not_misplaced (hab : a ≤ b) (hbc : b < c) (j : JournalEntry) :
    (if a ≤ tz.tehranDay j.entryDate ∧ tz.tehranDay j.entryDate ≤ c then
      countedIn pz (dayRange a b) j ≠ countedIn pz (dayRange (addDays b 1) c) j
    else countedIn pz (dayRange a b) j = false ∧
      countedIn pz (dayRange (addDays b 1) c) j = false) ↔
    ¬Misplaced pz tz a b c j.entryDate := by
  have hends := pz.setEndOfDay_mono hbc
  have hfirst := (@countedIn_iff pz a b j)
  have hsecond := (@countedIn_iff pz (addDays b 1) c j)
  have hbefore := (@tehranDay_of_lt tz a j.entryDate)
  have hfrom := (@le_tehranDay tz a j.entryDate)
  have hbefore' := (@tehranDay_of_lt tz (addDays b 1) j.entryDate)
  have hfrom' := (@le_tehranDay tz (addDays b 1) j.entryDate)
  have hdays : utcMidnight a < utcMidnight (addDays b 1) := by
    simp only [utcMidnight, addDays, dayMs]
    omega
  have hnext : addDays b 1 = b + 1 := rfl
  generalize countedIn pz (dayRange a b) j = first at *
  generalize countedIn pz (dayRange (addDays b 1) c) j = second at *
  unfold Misplaced
  generalize utcMidnight a = startA at *
  generalize utcMidnight (addDays b 1) = startB at *
  generalize pz.setEndOfDay (utcMidnight b) = endB at *
  generalize pz.setEndOfDay (utcMidnight c) = endC at *
  generalize tz.tehranDay j.entryDate = day at *
  cases first <;> cases second <;> simp at hfirst hsecond ⊢ <;> omega

/-! ## Sums over two selections -/

/-- Both sums. -/
def Sums.plus (x y : Sums) : Sums := ⟨x.dr + y.dr, x.cr + y.cr, x.drG + y.drG, x.crG + y.crG⟩

theorem sumsOf_append (es fs : List LedgerEntry) :
    sumsOf (es ++ fs) = (sumsOf es).plus (sumsOf fs) := by
  simp only [sumsOf, Sums.plus, DoubleEntry.total_append]

/-- Journals that are selected once make up the sums together. -/
theorem sumsOf_selectedEntries {p q r : JournalEntry → Bool} (k : ℕ)
    (h : ∀ j ∈ s.journals.rows, r j = (p j || q j) ∧ ¬(p j = true ∧ q j = true)) :
    sumsOf (selectedEntries r s k) =
      (sumsOf (selectedEntries p s k)).plus (sumsOf (selectedEntries q s k)) := by
  unfold selectedEntries
  generalize s.journals.rows = rows at h ⊢
  induction rows with
  | nil => rfl
  | cons j rows ih =>
    have ih' := ih fun j' hj' => h j' (List.mem_cons_of_mem j hj')
    obtain ⟨heither, hboth⟩ := h j List.mem_cons_self
    have hcons : ∀ u : JournalEntry → Bool,
        sumsOf ((((j :: rows).filter u).flatMap JournalEntry.ledgerEntries).filter
          fun e => e.accountId = k) =
        if u j then (sumsOf (j.ledgerEntries.filter fun e => e.accountId = k)).plus
            (sumsOf (((rows.filter u).flatMap JournalEntry.ledgerEntries).filter
              fun e => e.accountId = k))
          else sumsOf (((rows.filter u).flatMap JournalEntry.ledgerEntries).filter
            fun e => e.accountId = k) := by
      intro u
      rw [List.filter_cons]
      split
      · rw [List.flatMap_cons, List.filter_append, sumsOf_append]
      · rfl
    rw [hcons p, hcons q, hcons r, ih', heither]
    by_cases hp : p j = true
    · have hq : q j = false := Bool.eq_false_iff.mpr fun hq => hboth ⟨hp, hq⟩
      simp only [hp, hq, Sums.plus, Bool.or_false, if_true, Bool.false_eq_true, if_false,
        Sums.mk.injEq]
      omega
    · cases hq : q j <;>
        simp only [Bool.eq_false_iff.mpr hp, Sums.plus, Bool.or_false, Bool.or_true, if_true,
          Bool.false_eq_true, if_false, Sums.mk.injEq]
      omega

/-- An account ends a period where it begins the next one, if the sums add up. -/
theorem closing_eq_opening {o p o' p' : Sums} (h : o' = o.plus p) (acc : Account) :
    (trialBalanceRow o p acc).closing = (trialBalanceRow o' p' acc).opening := by
  subst h
  have hnet : o.dr + p.dr - (o.cr + p.cr) = o.dr - o.cr + p.dr - p.cr := by omega
  have hgrams : natural acc.code (o.drG + p.drG) (o.crG + p.crG) =
      natural acc.code o.drG o.crG + natural acc.code p.drG p.crG := by
    unfold natural
    split <;> omega
  simp only [TrialBalanceRow.closing, TrialBalanceRow.opening, trialBalanceRow, Sums.plus, hnet,
    hgrams]

theorem trialBalance_dayRange (pz : ProcessZone) (s : Books) (a b : ℤ) :
    ∃ report, trialBalance pz (dayRange a b) false s = .ok report ∧
      report.rows = (allAccounts s).map fun acc => trialBalanceRow
        (sumsByAccount { before := some (utcMidnight a) } s acc.id)
        (sumsByAccount { fromDate := some (utcMidnight a)
                         toDate := some (pz.setEndOfDay (utcMidnight b)) } s acc.id) acc := by
  refine ⟨_, rfl, ?_⟩
  simp only [Bool.not_false, Bool.true_or, List.filter_true]
  rfl

/-- Where no journal lies between the periods, the balances meet. -/
theorem balances_meet (hab : a ≤ b)
    (h : ∀ j ∈ s.journals.rows, ¬Misplaced pz tz a b c j.entryDate) :
    ∃ first second, trialBalance pz (dayRange a b) false s = .ok first ∧
      trialBalance pz (dayRange (addDays b 1) c) false s = .ok second ∧
      first.rows.map TrialBalanceRow.closing = second.rows.map TrialBalanceRow.opening := by
  obtain ⟨first, hfirst, hrows⟩ := trialBalance_dayRange pz s a b
  obtain ⟨second, hsecond, hrows'⟩ := trialBalance_dayRange pz s (addDays b 1) c
  refine ⟨first, second, hfirst, hsecond, ?_⟩
  have hdays : utcMidnight a < utcMidnight (addDays b 1) := by
    simp only [utcMidnight, addDays, dayMs]
    omega
  rw [hrows, hrows', List.map_map, List.map_map]
  refine List.map_congr_left fun acc _ => closing_eq_opening ?_ acc
  refine sumsOf_selectedEntries acc.id fun j hj => ?_
  have hclear := h j hj
  simp only [Misplaced] at hclear
  simp only [SumsOptions.selects, Option.all_none, Option.all_some, Bool.true_and, Bool.false_and,
    Bool.not_false, Bool.and_true]
  constructor
  · rw [Bool.eq_iff_iff]
    simp only [Bool.or_eq_true, Bool.and_eq_true, decide_eq_true_eq]
    omega
  · simp only [Bool.and_eq_true, decide_eq_true_eq]
    omega

/-- The books with the fee received at an instant. -/
def feeAt (t : ℤ) : Books :=
  ((AccountingService.postJournal { feeJournal with entryDate := some t }).run feeBooks).2

end AccountingReportsService

end ArkanGold
