import ArkanGold.Accounting.Books
import ArkanGold.Lib.Json
import ArkanGold.Lib.OrderedMap

/-!
# The tax book of a period

`buildTaxBook`: the file for the tax authority, from journals and accounts alone.

- `toLines`: the rial lines of a journal, each under the root of its account (`kol`) and
  the second level (`moein`). Lines without rials are left out, and a line whose account
  is unknown raises an issue.
- In the mode `DOCUMENT` every journal is an event under its permanent number, in the mode
  `MONTHLY` an event sums up the journals of a Jalali month; opening and closing entries
  are kept apart.
- `records`: the rows of the file. All lines of an event stand under one row number.

Amounts are whole rials, as the ledger column has them, and are added exactly. A Gregorian
day is its number.
-/

namespace ArkanGold

/-- `TaxBookMode` -/
inductive TaxBookMode where
  | document
  | monthly
  deriving DecidableEq, Repr

/-- `YMD`, for the dates of the Jalali calendar. -/
structure YMD where
  y : ℤ
  m : ℤ
  d : ℤ
  deriving DecidableEq, Repr

/-- `TbAccount` -/
structure TbAccount where
  id : ℕ
  code : String
  name : String
  parentId : Option ℕ

/-- `TbLine` -/
structure TbLine where
  accountId : ℕ
  side : LedgerSide
  amountRial : ℤ
  description : Option String

/-- `TbJournal` -/
structure TbJournal where
  referenceNumber : ℕ
  permanentNumber : Option ℕ
  fiscalYearId : Option ℕ
  entryDate : ℤ
  description : Option String
  source : JournalSource
  lines : List TbLine

/-- `TbOptions` -/
structure TbOptions where
  mode : TaxBookMode
  fiscalYearId : ℕ
  fiscalLastDay : ℤ
  periodFirstDay : ℤ
  periodLastDay : ℤ

/-- `TbRecord`; the amounts are written without decimals. -/
structure TbRecord where
  row : ℕ
  date : String
  kolCode : String
  kolName : String
  moeinCode : String
  moeinName : String
  description : String
  debitRial : ℕ
  creditRial : ℕ
  deriving DecidableEq

/-- The levels of an issue. -/
inductive IssueLevel where
  | error
  | warning
  deriving DecidableEq, Repr

/-- `TbIssue` -/
structure TbIssue where
  level : IssueLevel
  message : String
  deriving DecidableEq

/-- `TbResult` -/
structure TbResult where
  records : List TbRecord
  issues : List TbIssue
  journalCount : ℕ
  eventCount : ℕ
  totalDebitRial : ℕ
  totalCreditRial : ℕ
  contentSha256 : String

/-- What the builder uses and the sources do not contain: the time zone data, the Jalali
calendar, the collation of texts and SHA-256. -/
structure TaxPlatform where
  tehran : TehranZone
  toJalaali : ℤ → YMD
  one_le_month : ∀ d, 1 ≤ (toJalaali d).m
  jalaaliMonthLength : ℤ → ℤ → ℤ
  localeCompare : String → String → ℤ
  sha256Hex : String → String

/-! ## Days -/

/-- `compareDay` -/
def compareDay (a b : YMD) : ℤ :=
  if a.y - b.y ≠ 0 then a.y - b.y else if a.m - b.m ≠ 0 then a.m - b.m else a.d - b.d

/-- `ymdLte` -/
def ymdLte (a b : YMD) : Prop := compareDay a b ≤ 0

instance (a b : YMD) : Decidable (ymdLte a b) := inferInstanceAs (Decidable (_ ≤ _))

/-- `minDay` of two days. -/
def minDay (m d : YMD) : YMD := if compareDay d m < 0 then d else m

/-- `formatJalaliKey` -/
def formatJalaliKey (j : YMD) : String := toString j.y ++ "/" ++ pad j.m ++ "/" ++ pad j.d

/-- `JALALI_MONTHS` -/
def JALALI_MONTHS : List String :=
  ["فروردین", "اردیبهشت", "خرداد", "تیر", "مرداد", "شهریور", "مهر", "آبان", "آذر", "دی",
    "بهمن", "اسفند"]

namespace TaxBooks

/-! ## Descriptions -/

/-- `DESCRIPTION_MAX` -/
def DESCRIPTION_MAX : ℕ := 255

/-- `\p{Cc}` -/
def isControl (c : Char) : Bool := c.toNat ≤ 0x1F || (0x7F ≤ c.toNat && c.toNat ≤ 0x9F)

/-- `\s` -/
def isSpace (c : Char) : Bool :=
  (0x9 ≤ c.toNat && c.toNat ≤ 0xD) || (0x2000 ≤ c.toNat && c.toNat ≤ 0x200A) ||
    [0x20, 0xA0, 0x1680, 0x2028, 0x2029, 0x202F, 0x205F, 0x3000, 0xFEFF].contains c.toNat

/-- Replace every run of at least `n` characters of a class by a blank. -/
def collapseRuns (p : Char → Bool) (n : ℕ) (v : List Char) : List Char :=
  (v.splitBy fun a b => p a == p b).flatMap fun run =>
    if run.all p && decide (n ≤ run.length) then [' '] else run

/-- `trim` on characters. -/
def trimSpaces (v : List Char) : List Char :=
  ((v.dropWhile isSpace).reverse.dropWhile isSpace).reverse

/-- `sanitizeDescription` -/
def sanitizeDescription (v : Option String) : String :=
  let text := trimSpaces (collapseRuns isSpace 2 (collapseRuns isControl 1 (v.getD "").toList))
  let text := text.dropWhile fun c => ['=', '+', '-', '@'].contains c || isSpace c
  String.ofList ((trimSpaces text).take DESCRIPTION_MAX)

/-! ## Accounts -/

/-- `byId`: of two accounts with one id the later one counts. -/
def byId (accounts : List TbAccount) (id : ℕ) : Option TbAccount :=
  accounts.reverse.find? fun a => a.id == id

/-- The accounts from the root down to `cur`, at most `n` of them in front of `chain`. -/
def ancestors (accounts : List TbAccount) : ℕ → Option TbAccount → List TbAccount → List TbAccount
  | 0, _, chain => chain
  | _ + 1, none, chain => chain
  | n + 1, some cur, chain =>
    ancestors accounts n (cur.parentId.bind (byId accounts)) (cur :: chain)

/-- The place of an account in the tree. -/
structure MappedAccount where
  kol : TbAccount
  moein : Option TbAccount
  leaf : TbAccount
  depth : ℕ

/-- `accountMapper` -/
def accountMapper (accounts : List TbAccount) (accountId : ℕ) : Option MappedAccount :=
  match ancestors accounts 20 (byId accounts accountId) [] with
  | [] => none
  | kol :: rest => some
      { kol := kol
        moein := rest.head?
        leaf := rest.getLastD kol
        depth := rest.length + 1 }

/-! ## Lines -/

/-- `Line`: an amount of rials that is not zero. -/
structure Line where
  kol : TbAccount
  moein : Option TbAccount
  side : LedgerSide
  amount : ℕ
  pos : 0 < amount
  description : String

/-- The code of the second level, empty if there is none. -/
def Line.moeinCode (l : Line) : String := (l.moein.map TbAccount.code).getD ""

/-- `l.description || j.description` -/
def ownDescription (j : TbJournal) (l : TbLine) : Option String :=
  match l.description with
  | some v => if v = "" then j.description else some v
  | none => j.description

/-- The line that `toLines` pushes for a journal line with rials. -/
def lineOf (j : TbJournal) (l : TbLine) (m : MappedAccount) (h : l.amountRial ≠ 0) : Line :=
  let base := sanitizeDescription (ownDescription j l)
  { kol := m.kol
    moein := m.moein
    side := l.side
    amount := l.amountRial.natAbs
    pos := Int.natAbs_pos.mpr h
    description :=
      if m.depth > 2 then sanitizeDescription (some (m.leaf.name ++ " — " ++ base)) else base }

/-- The loop body of `toLines`: nothing for a line without rials, an issue, or a line. -/
def readLine (accounts : List TbAccount) (j : TbJournal) (l : TbLine) :
    Option (TbIssue ⊕ Line) :=
  if h : l.amountRial = 0 then none
  else
    match accountMapper accounts l.accountId with
    | none => some (.inl ⟨.error, s!"سند عطف {j.referenceNumber}: حساب سطر یافت نشد"⟩)
    | some m => some (.inr (lineOf j l m h))

/-- The lines that `toLines` returns. -/
def toLines (accounts : List TbAccount) (j : TbJournal) : List Line :=
  j.lines.filterMap fun l => (readLine accounts j l).bind Sum.getRight?

/-- The issues that `toLines` raises. -/
def lineIssues (accounts : List TbAccount) (j : TbJournal) : List TbIssue :=
  j.lines.filterMap fun l => (readLine accounts j l).bind Sum.getLeft?

/-- The order of the journals. -/
def journalLe (a b : TbJournal) : Prop :=
  a.entryDate < b.entryDate ∨ a.entryDate = b.entryDate ∧ a.referenceNumber ≤ b.referenceNumber

instance : DecidableRel journalLe := fun a b =>
  inferInstanceAs (Decidable (a.entryDate < b.entryDate ∨
    a.entryDate = b.entryDate ∧ a.referenceNumber ≤ b.referenceNumber))

/-- `sorted` -/
def sortedJournals (journals : List TbJournal) : List TbJournal := journals.insertionSort journalLe

/-- The journals that have rial lines, each with these. -/
def rialJournals (accounts : List TbAccount) (journals : List TbJournal) :
    List (TbJournal × List Line) :=
  ((sortedJournals journals).map fun j => (j, toLines accounts j)).filter fun x => !x.2.isEmpty

variable (P : TaxPlatform) (opts : TbOptions)

/-- `journalJalali`: the Jalali date of a journal in the file. -/
def journalJalali (j : TbJournal) : YMD :=
  if j.source = .closing then P.toJalaali opts.fiscalLastDay
  else P.toJalaali (P.tehran.tehranDay j.entryDate)

/-- `Event` -/
structure Event where
  row : ℕ
  date : YMD
  lines : List Line
  label : String

/-! ## One event for each document -/

/-- The journal has its permanent number of this year. -/
def isFinal (j : TbJournal) : Bool :=
  j.permanentNumber.isSome && j.fiscalYearId == some opts.fiscalYearId

/-- The row of a journal: its permanent number, or its reference number. -/
def documentRow (j : TbJournal) : ℕ :=
  if isFinal opts j then j.permanentNumber.getD j.referenceNumber else j.referenceNumber

/-- The event of a journal. -/
def documentEvent (x : TbJournal × List Line) : Event :=
  let row := documentRow opts x.1
  { row := row
    date := journalJalali P opts x.1
    lines := x.2
    label := s!"سند {row} (عطف {x.1.referenceNumber})" }

/-- The events of the mode `DOCUMENT`, by their rows. -/
def documentEvents (journals : List (TbJournal × List Line)) : List Event :=
  (journals.map (documentEvent P opts)).insertionSort fun a b => a.row ≤ b.row

/-- `unfinalized` as an issue. -/
def unfinalizedIssues (journals : List (TbJournal × List Line)) : List TbIssue :=
  let unfinalized := journals.countP fun x => !isFinal opts x.1
  if unfinalized = 0 then []
  else [⟨.error, s!"{unfinalized} سند در این بازه هنوز قطعی نشده (شماره‌ی قطعی ندارد). " ++
    "ابتدا اسناد را تا پایان بازه قطعی کنید؛ در پیش‌نمایش به‌جای شماره‌ی قطعی، شماره‌ی عطف آمده است."⟩]

/-! ## One event for each month -/

/-- The kinds of groups. -/
inductive GroupKind where
  | opening
  | month
  | closing
  deriving DecidableEq

/-- `kind` -/
def kindOf (j : TbJournal) : GroupKind :=
  match j.source with
  | .opening => .opening
  | .closing => .closing
  | _ => .month

/-- `order` -/
def GroupKind.order : GroupKind → ℕ
  | .opening => 0
  | .month => 1
  | .closing => 2

/-- The key of the group of a journal. -/
def groupKey (j : TbJournal) : String :=
  let jd := journalJalali P opts j
  match kindOf j with
  | .opening => "OPENING"
  | .closing => "CLOSING"
  | .month => s!"M{jd.y}-{jd.m}"

/-- A group of journals with the sums of their lines. -/
structure Group where
  order : ℕ
  date : YMD
  label : String
  sums : OrderedMap String Line

/-- The group that a journal opens. -/
def newGroup (j : TbJournal) : Group :=
  let jd := journalJalali P opts j
  let monthEnd : YMD := ⟨jd.y, jd.m, P.jalaaliMonthLength jd.y jd.m⟩
  let month := (JALALI_MONTHS[(jd.m - 1).toNat]?).getD "undefined"
  let monthName := s!"{month} {jd.y}"
  { order := (kindOf j).order
    date :=
      match kindOf j with
      | .opening => jd
      | .closing => P.toJalaali opts.fiscalLastDay
      | .month => minDay (minDay monthEnd (P.toJalaali opts.periodLastDay))
          (P.toJalaali opts.fiscalLastDay)
    label :=
      match kindOf j with
      | .opening => "سند افتتاحیه‌ی حساب‌ها (مانده‌ی انتقالی از سال قبل)"
      | .closing => "سند اختتامیه‌ی حساب‌های موقت"
      | .month => s!"جمع عملیات {monthName}"
    sums := .empty }

/-- The group when another journal of it comes. -/
def touchGroup (j : TbJournal) (g : Group) : Group :=
  let jd := journalJalali P opts j
  if kindOf j = .opening ∧ compareDay jd g.date < 0 then { g with date := jd } else g

/-- The name of a side. -/
def sideText : LedgerSide → String
  | .debit => "DEBIT"
  | .credit => "CREDIT"

/-- The key of a line in its group. -/
def lineKey (l : Line) : String := l.kol.code ++ "|" ++ l.moeinCode ++ "|" ++ sideText l.side

/-- A line that takes up the amount of another one. -/
def Line.plus (cur l : Line) : Line :=
  { cur with amount := cur.amount + l.amount, pos := Nat.add_pos_left cur.pos _ }

/-- A line is added to the sums of a group. -/
def addLine (label : String) (sums : OrderedMap String Line) (l : Line) : OrderedMap String Line :=
  sums.alter (lineKey l) fun
    | some cur => cur.plus l
    | none => { l with description := label }

/-- The lines of a journal are added to a group. -/
def Group.add (g : Group) (lines : List Line) : Group :=
  { g with sums := lines.foldl (addLine g.label) g.sums }

/-- A journal is added to the groups. -/
def addJournal (groups : OrderedMap String Group) (x : TbJournal × List Line) :
    OrderedMap String Group :=
  groups.alter (groupKey P opts x.1) fun
    | some g => (touchGroup P opts x.1 g).add x.2
    | none => (newGroup P opts x.1).add x.2

/-- `groups` -/
def monthlyGroups (journals : List (TbJournal × List Line)) : OrderedMap String Group :=
  journals.foldl (addJournal P opts) .empty

/-- The order of the groups. -/
def groupLe (a b : String × Group) : Prop :=
  a.2.order < b.2.order ∨ a.2.order = b.2.order ∧ ymdLte a.2.date b.2.date

instance : DecidableRel groupLe := fun a b =>
  inferInstanceAs (Decidable (a.2.order < b.2.order ∨
    a.2.order = b.2.order ∧ ymdLte a.2.date b.2.date))

/-- `ordered`, each group under its key. -/
def orderedGroups (journals : List (TbJournal × List Line)) : List (String × Group) :=
  (monthlyGroups P opts journals).entries.insertionSort groupLe

/-- How the lines of a group compare. -/
def compareLines (a b : Line) : ℤ :=
  let bySide : ℤ := if a.side = b.side then 0 else if a.side = .debit then -1 else 1
  let byKol := P.localeCompare a.kol.code b.kol.code
  if bySide ≠ 0 then bySide
  else if byKol ≠ 0 then byKol
  else P.localeCompare a.moeinCode b.moeinCode

/-- The lines of a group in their order. -/
def groupLines (g : Group) : List Line :=
  g.sums.values.insertionSort fun a b => compareLines P a b ≤ 0

/-- The event of the group number `i`. -/
def groupEvent (x : (String × Group) × ℕ) : Event where
  row := x.2 + 1
  date := x.1.2.date
  lines := groupLines P x.1.2
  label := x.1.2.label

/-- The events of the mode `MONTHLY`. -/
def monthlyEvents (journals : List (TbJournal × List Line)) : List Event :=
  (orderedGroups P opts journals).zipIdx.map (groupEvent P)

/-! ## Records and checks -/

/-- The sum of one side of lines. -/
def sumOf (side : LedgerSide) (lines : List Line) : ℕ :=
  (lines.map fun l => if l.side = side then l.amount else 0).sum

/-- The record of a line. -/
def recordOf (e : Event) (l : Line) : TbRecord where
  row := e.row
  date := formatJalaliKey e.date
  kolCode := l.kol.code
  kolName := sanitizeDescription (some l.kol.name)
  moeinCode := l.moeinCode
  moeinName := (l.moein.map fun a => sanitizeDescription (some a.name)).getD ""
  description := l.description
  debitRial := if l.side = .debit then l.amount else 0
  creditRial := if l.side = .credit then l.amount else 0

/-- The records of an event. -/
def recordsOf (e : Event) : List TbRecord := e.lines.map (recordOf e)

/-- The date of an event lies in the period. -/
def inPeriod (d : YMD) : Prop :=
  ymdLte (P.toJalaali opts.periodFirstDay) d ∧ ymdLte d (P.toJalaali opts.periodLastDay)

instance (d : YMD) : Decidable (inPeriod P opts d) := inferInstanceAs (Decidable (_ ∧ _))

/-- The text that a date lies outside the period. -/
def outsideMessage (e : Event) : String :=
  let day := formatJalaliKey e.date
  let first := formatJalaliKey (P.toJalaali opts.periodFirstDay)
  let last := formatJalaliKey (P.toJalaali opts.periodLastDay)
  s!"{e.label}: تاریخ {day} خارج از بازه‌ی {first} تا {last} است"

/-- The checks of the loop over the events; `seenRows` are the rows so far. -/
def eventIssues : List ℕ → List Event → List TbIssue
  | _, [] => []
  | seenRows, e :: es =>
    let dr := sumOf .debit e.lines
    let cr := sumOf .credit e.lines
    (if seenRows.contains e.row then [⟨.error, s!"شماره‌ی ردیف {e.row} تکراری است"⟩] else []) ++
    (if inPeriod P opts e.date then [] else [⟨.error, outsideMessage P opts e⟩]) ++
    (if dr = cr then []
      else [⟨.error,
        s!"{e.label}: جمع بدهکار {dr} با جمع بستانکار {cr} ریال برابر نیست"⟩]) ++
    eventIssues (e.row :: seenRows) es

/-- The events of a file. -/
def eventsOf (journals : List (TbJournal × List Line)) : List Event :=
  match opts.mode with
  | .document => documentEvents P opts journals
  | .monthly => monthlyEvents P opts journals

/-- A text in JSON. -/
def jsonText (v : String) : String := String.ofList (Json.quote v)

/-- A record in JSON. -/
def recordText (r : TbRecord) : String :=
  "\x7b\"row\":" ++ toString r.row ++ ",\"date\":" ++ jsonText r.date ++
    ",\"kolCode\":" ++ jsonText r.kolCode ++ ",\"kolName\":" ++ jsonText r.kolName ++
    ",\"moeinCode\":" ++ jsonText r.moeinCode ++ ",\"moeinName\":" ++ jsonText r.moeinName ++
    ",\"description\":" ++ jsonText r.description ++
    ",\"debitRial\":" ++ jsonText (toString r.debitRial) ++
    ",\"creditRial\":" ++ jsonText (toString r.creditRial) ++ "\x7d"

/-- `JSON.stringify(records)` -/
def recordsText (records : List TbRecord) : String :=
  "[" ++ String.intercalate "," (records.map recordText) ++ "]"

end TaxBooks

open TaxBooks

/-- `buildTaxBook` -/
def buildTaxBook (P : TaxPlatform) (journals : List TbJournal) (accounts : List TbAccount)
    (opts : TbOptions) : TbResult :=
  let sorted := sortedJournals journals
  let withLines := rialJournals accounts journals
  let skippedGramOnly := sorted.length - withLines.length
  let events := eventsOf P opts withLines
  let records := events.flatMap recordsOf
  { records := records
    issues :=
      sorted.flatMap (lineIssues accounts) ++
      (if opts.mode = .document then unfinalizedIssues opts withLines else []) ++
      eventIssues P opts [] events ++
      (if skippedGramOnly = 0 then []
        else [⟨.warning, s!"{skippedGramOnly} سند فقط وزنی (گرم) بود و مبلغ ریالی نداشت؛ " ++
          "در دفاتر ریالی نمی‌آید"⟩]) ++
      (if records = [] then [⟨.warning, "در این بازه هیچ سند ریالی وجود ندارد"⟩] else [])
    journalCount := withLines.length
    eventCount := events.length
    totalDebitRial := (events.map fun e => sumOf .debit e.lines).sum
    totalCreditRial := (events.map fun e => sumOf .credit e.lines).sum
    contentSha256 := P.sha256Hex (recordsText records) }

end ArkanGold
