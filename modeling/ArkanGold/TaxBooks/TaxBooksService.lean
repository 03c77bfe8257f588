import ArkanGold.Lib.Statements
import ArkanGold.Common.IsoDay
import ArkanGold.Accounting.FiscalYears
import ArkanGold.TaxBooks.Builder

/-!
# Exports of tax books

`TaxBooksService.export`: a file for the next period of a fiscal year, or a new file for
the period of an earlier export.

- The file is built first, from reads that belong to no transaction (`build`). The next
  period begins after the last ACTIVE export (`nextStart`); a replacement takes the period
  of the export it replaces.
- The transaction (`store`) locks the fiscal year. For a new period it looks at
  `nextStart` again; the status of a replaced export was looked at before only.
- The periods are texts `YYYY-MM-DD`. The file itself and the summary in the response are
  left out, apart from the size of the CSV text.

`TaxMark` marks the place where an export is replaced.
-/

namespace ArkanGold

/-- `TaxBookStatus` -/
inductive TaxBookStatus where
  | active
  | superseded
  deriving DecidableEq, Repr

/-- `TaxBookFormat` -/
inductive TaxBookFormat where
  | csv
  | xlsx
  deriving DecidableEq, Repr

/-- A row of `tax_book_exports`. -/
structure TaxBookExport where
  id : ℕ
  fiscalYearId : ℕ
  trackingCode : String
  periodStart : String
  periodEnd : String
  periodStartJalali : String
  periodEndJalali : String
  mode : TaxBookMode
  format : TaxBookFormat
  includeClosing : Bool
  journalCount : ℕ
  recordCount : ℕ
  totalDebitRial : ℕ
  totalCreditRial : ℕ
  contentSha256 : String
  status : TaxBookStatus
  supersededById : Option ℕ
  note : Option String
  createdByAdminId : ℕ
  createdAt : ℤ
  deriving DecidableEq

/-- `TaxBookRequest` -/
structure TaxBookRequest where
  fiscalYearId : ℕ
  endDate : Option String
  mode : TaxBookMode
  includeClosing : Option Bool
  replaceExportId : Option ℕ

/-- `TaxBookExportRequest` -/
structure TaxBookExportRequest extends TaxBookRequest where
  trackingCode : String
  format : TaxBookFormat
  lockPeriod : Option Bool
  note : Option String

/-- The tables that exports read and write; `replacements` are the marks passed, each
replaced export with its replacement. -/
structure TaxDb where
  books : Books
  exports : Table TaxBookExport TaxBookExport.id
  replacements : List (ℕ × ℕ)
  nextId : ℕ

/-- The names of the row locks. -/
inductive TaxRow where
  | fiscalYear (id : ℕ)
  | taxBookExport (id : ℕ)
  | own (id : ℕ)
  deriving DecidableEq

/-- An export is replaced by another one. -/
inductive TaxMark where
  | replaced (id by_ : ℕ)

namespace TaxDb

instance : Supply TaxDb := ⟨nextId, fun s => { s with nextId := s.nextId + 1 }⟩

instance : History TaxMark TaxDb :=
  ⟨fun (.replaced id by_) s => { s with replacements := s.replacements ++ [(id, by_)] }⟩

/-- `tax_book_exports` -/
def exportRows : Relation TaxRow TaxDb TaxBookExport TaxBookExport.id where
  get := exports
  set t s := { s with exports := t }
  row := .taxBookExport

end TaxDb

/-- A transaction of the tax books. -/
abbrev TaxStmt (α : Type) : Type := Block ApiError TaxRow TaxMark TaxDb α

/-- A call of the tax books. -/
abbrev TaxCall (α : Type) : Type 1 := Call ApiError TaxRow TaxMark TaxDb α

namespace TaxBooksService

open TaxBooks AccountingService

/-- `HEADERS_KEY` -/
def HEADERS_KEY : String := "taxbooks.headers"

/-- `XLSX_MAX_RECORDS` -/
def XLSX_MAX_RECORDS : ℕ := 1000

/-- `CSV_MAX_BYTES` -/
def CSV_MAX_BYTES : ℕ := 100 * 1024 * 1024

/-- `DEFAULT_TAX_BOOK_HEADERS` -/
def DEFAULT_TAX_BOOK_HEADERS : List String :=
  ["ردیف", "تاریخ", "کد حساب کل", "عنوان حساب کل", "کد حساب معین", "عنوان حساب معین", "شرح",
    "مبلغ بدهکار (ریال)", "مبلغ بستانکار (ریال)"]

/-- A statement of its own, outside a transaction: what it sees. -/
def read : TaxCall TaxDb := Call.transaction Block.get

/-- `slice(0, n)` -/
def sliceTo (n : ℕ) (v : String) : String := String.ofList (v.toList.take n)

/-! ## The file -/

/-- `headers` -/
def headers (s : TaxDb) : List String :=
  let raw := trim ((s.books.systemConfig HEADERS_KEY).getD "")
  if raw = "" then DEFAULT_TAX_BOOK_HEADERS
  else
    let parts := (raw.toList.splitOn '|').map fun p => trim (String.ofList p)
    if parts.length = 9 ∧ ∀ p ∈ parts, p ≠ "" then parts else DEFAULT_TAX_BOOK_HEADERS

/-- `recordCells` -/
def recordCells (r : TbRecord) : List String :=
  [toString r.row, r.date, r.kolCode, r.kolName, r.moeinCode, r.moeinName, r.description,
    toString r.debitRial, toString r.creditRial]

/-- `csvField` -/
def csvField (v : String) : String :=
  if v.toList.any fun c => ['"', ',', '\r', '\n'].contains c then
    "\"" ++ String.ofList (v.toList.flatMap fun c => if c = '"' then ['"', '"'] else [c]) ++ "\""
  else v

/-- `toCsv` -/
def toCsv (records : List TbRecord) (headers : List String) : String :=
  let lines := (headers :: records.map recordCells).map fun cells =>
    String.intercalate "," (cells.map csvField)
  "\uFEFF" ++ String.intercalate "\r\n" lines ++ "\r\n"

/-! ## Building -/

/-- The ACTIVE exports of a fiscal year. -/
def activeExports (fiscalYearId : ℕ) (s : TaxDb) : List TaxBookExport :=
  s.exports.rows.filter fun e => e.fiscalYearId = fiscalYearId ∧ e.status = .active

/-- `nextStart` -/
def nextStart (fiscalYearId : ℕ) (fiscalFirst : ℤ) (s : TaxDb) : ℤ :=
  match (activeExports fiscalYearId s).argmax TaxBookExport.periodEnd with
  | none => fiscalFirst
  | some last =>
    match parseIsoDay last.periodEnd with
    | some end_ => addDays end_ 1
    | none => fiscalFirst

/-- The rows of a journal that the builder reads. -/
def tbJournal (j : JournalEntry) : TbJournal where
  referenceNumber := j.referenceNumber
  permanentNumber := j.permanentNumber
  fiscalYearId := j.fiscalYearId
  entryDate := j.entryDate
  description := some j.description
  source := j.source
  lines := j.ledgerEntries.map fun l => ⟨l.accountId, l.side, l.amountRial, l.description⟩

/-- The journals of a file: those of the period, and the closing entry of the year if the
period ends with it. -/
def inFile (gte lt : ℤ) (closingInPeriod : Bool) (fiscalYearId : ℕ) (j : JournalEntry) : Bool :=
  decide (gte ≤ j.entryDate ∧ j.entryDate < lt ∧ j.source ≠ .closing) ||
    closingInPeriod && decide (j.source = .closing ∧ j.referenceType = some "FISCAL_YEAR" ∧
      j.referenceId = some fiscalYearId)

/-- The result of `build`. -/
structure Built where
  year : FiscalYear
  first : ℤ
  last : ℤ
  fiscalFirst : ℤ
  includeClosing : Bool
  mode : TaxBookMode
  result : TbResult
  headers : List String

variable (P : TaxPlatform)

/-- `fj` -/
def jalaliKey (d : ℤ) : String := formatJalaliKey (P.toJalaali d)

/-- The period of a file: that of the export to be replaced, or the next one. -/
def periodOf (req : TaxBookRequest) (year : FiscalYear) : TaxCall (ℤ × ℤ) :=
  match req.replaceExportId with
  | some id => do
    let s ← read
    let prev ← Call.getOrFail ((s.exports.find? id).filter fun e => e.fiscalYearId = year.id)
      (.notFound "فایل قبلی برای جایگزینی یافت نشد")
    Call.getOrFail
      (do
        let first ← parseIsoDay prev.periodStart
        let last ← parseIsoDay prev.periodEnd
        pure (first, last))
      (.badRequest "بازه‌ی فایل قبلی نامعتبر است")
  | none => do
    let s ← read
    let first := nextStart year.id (fiscalYearRange P.tehran year).firstDay s
    let last ← Call.getOrFail (req.endDate.bind fun v => parseIsoDay (sliceTo 10 v))
      (.badRequest "تاریخ پایان بازه (YYYY-MM-DD) الزامی است")
    pure (first, last)

/-- `build` -/
def build (req : TaxBookRequest) : TaxCall Built := do
  let s ← read
  let year ← Call.getOrFail (s.books.fiscalYears.find? req.fiscalYearId)
    (.notFound "سال مالی یافت نشد")
  let range := fiscalYearRange P.tehran year
  let includeClosing := req.includeClosing.getD true
  let (first, last) ← periodOf P req year
  Call.check (first ≤ range.lastDay)
    (.badRequest s!"همه‌ی بازه‌های سال مالی «{year.title}» قبلاً بارگذاری شده‌اند")
  Call.check (first ≤ last)
    (.badRequest s!"پایان بازه باید از {jalaliKey P first} (ابتدای خودکار بازه) به بعد باشد")
  Call.check (last ≤ range.lastDay) (.badRequest
    s!"پایان بازه نمی‌تواند بعد از پایان سال مالی ({jalaliKey P range.lastDay}) باشد")
  let s ← read
  Call.check (last < P.tehran.tehranDay s.books.now)
    (.badRequest "پایان بازه باید روزی گذشته باشد تا اسناد آن روز کامل شده باشند")
  let gte := P.tehran.tehranDayStart first
  let lt := P.tehran.tehranDayStart (addDays last 1)
  let closingInPeriod := includeClosing && decide (range.lastDay ≤ last)
  let s ← read
  let journals := sortedJournals
    ((s.books.journals.rows.filter (inFile gte lt closingInPeriod year.id)).map tbJournal)
  let s ← read
  let accounts := s.books.accounts.rows.map fun a => ⟨a.id, a.code, a.name, a.parentId⟩
  let result := buildTaxBook P journals accounts ⟨req.mode, year.id, range.lastDay, first, last⟩
  let s ← read
  pure ⟨year, first, last, range.firstDay, includeClosing, req.mode, result, headers s⟩

/-- The limits that `render` puts on a file. -/
def render (b : Built) (format : TaxBookFormat) : TaxCall Unit :=
  let records := b.result.records
  match format with
  | .xlsx => Call.check (records.length ≤ XLSX_MAX_RECORDS) (.badRequest
      (s!"فایل‌های بیش از {XLSX_MAX_RECORDS} رکورد باید با قالب CSV بارگذاری شوند " ++
        s!"(این فایل {records.length} رکورد دارد)"))
  | .csv => Call.check ((toCsv records b.headers).utf8ByteSize ≤ CSV_MAX_BYTES) (.badRequest
      "حجم فایل CSV بیش از ۱۰۰ مگابایت است؛ بازه را کوتاه‌تر کنید یا قالب ماهانه را انتخاب کنید")

/-! ## Storing -/

/-- The row that an export creates. -/
def newExport (adminId : ℕ) (req : TaxBookExportRequest) (trackingCode : String) (b : Built)
    (createdAt : ℤ) (id : ℕ) : TaxBookExport where
  id := id
  fiscalYearId := b.year.id
  trackingCode := sliceTo 100 trackingCode
  periodStart := formatIsoDay b.first
  periodEnd := formatIsoDay b.last
  periodStartJalali := jalaliKey P b.first
  periodEndJalali := jalaliKey P b.last
  mode := req.mode
  format := req.format
  includeClosing := b.includeClosing
  journalCount := b.result.journalCount
  recordCount := b.result.records.length
  totalDebitRial := b.result.totalDebitRial
  totalCreditRial := b.result.totalCreditRial
  contentSha256 := b.result.contentSha256
  status := .active
  supersededById := none
  note := (req.note.map fun v => sliceTo 500 (trim v)).filter fun v => v ≠ ""
  createdByAdminId := adminId
  createdAt := createdAt

/-- An export that has been replaced. -/
def supersede (by_ : ℕ) (e : TaxBookExport) : TaxBookExport :=
  { e with status := .superseded, supersededById := some by_ }

theorem id_supersede (by_ : ℕ) (e : TaxBookExport) : (supersede by_ e).id = e.id := rfl

/-- `FOR UPDATE` on the fiscal year: without a row there is nothing to lock. -/
def lockYear (id : ℕ) : TaxStmt Unit := do
  let s ← Block.get
  match s.books.fiscalYears.find? id with
  | some _ => Block.lock (.fiscalYear id)
  | none => pure ()

/-- The transaction that stores an export: the id of the row. -/
def store (adminId : ℕ) (req : TaxBookExportRequest) (trackingCode : String) (b : Built) :
    TaxStmt ℕ := do
  lockYear b.year.id
  match req.replaceExportId with
  | none => do
    let s ← Block.get
    Block.check (nextStart b.year.id b.fiscalFirst s = b.first)
      (.conflict "فایل دیگری هم‌زمان برای این سال مالی ثبت شد؛ صفحه را تازه کنید")
  | some _ => pure ()
  let s ← Block.get
  let id ← TaxDb.exportRows.create .own (.internal "Unique constraint failed (id)")
    (newExport P adminId req trackingCode b s.books.now)
  match req.replaceExportId with
  | none => pure ()
  | some old => do
    Block.mark (.replaced old id)
    TaxDb.exportRows.update (.notFound "Record to update not found") old (supersede id)
      (id_supersede id)
  pure id

/-- The lock date after an export: the day it was moved to. -/
def lockPeriod (last : ℤ) : TaxCall (Option ℤ) := do
  let s ← read
  if s.books.lockedUntil.all fun current => current < last then
    Call.transaction (Block.write fun s =>
      { s with books := { s.books with lockedUntil := some last } })
    pure (some last)
  else pure none

/-- The response: its message and the id of the row. -/
structure ExportResult where
  message : String
  exportId : ℕ

/-- The message of an export. -/
def exportMessage (b : Built) (locked : Option ℤ) : String :=
  s!"فایل دفاتر تجاری بازه‌ی {jalaliKey P b.first} تا {jalaliKey P b.last} ثبت شد" ++
    match locked with
    | some d => s!" و دوره تا {formatIsoDay d} قفل گردید"
    | none => ""

/-- The errors of a file as one message. -/
def errorMessage (errors : List TbIssue) : String :=
  "فایل خطا دارد و ساخته نشد: " ++
    String.intercalate " | " ((errors.take 3).map TbIssue.message)

/-- The check on the export to be replaced. -/
def checkReplaced : Option ℕ → TaxCall Unit
  | some id => do
    let s ← read
    Call.check ((s.exports.find? id).map TaxBookExport.status = some .active)
      (.conflict "فقط فایل فعال (جایگزین‌نشده) را می‌توان اصلاح کرد")
  | none => pure ()

/-- `export` -/
def exportBook (adminId : ℕ) (req : TaxBookExportRequest) : TaxCall ExportResult := do
  let trackingCode := trim req.trackingCode
  Call.check (trackingCode ≠ "") (.badRequest "کد رهگیری پلمپ دفاتر الزامی است")
  checkReplaced req.replaceExportId
  let built ← build P req.toTaxBookRequest
  let errors := built.result.issues.filter fun i => i.level = .error
  Call.check errors.isEmpty (.badRequest (errorMessage errors))
  Call.check (!built.result.records.isEmpty) (.badRequest "در این بازه سند ریالی وجود ندارد")
  render built req.format
  let id ← Call.transaction (store P adminId req trackingCode built)
  let locked ← if req.lockPeriod.getD true then lockPeriod built.last else pure none
  pure ⟨exportMessage P built locked, id⟩

/-- The service: a request of an admin. -/
def serve (q : ℕ × TaxBookExportRequest) : TaxCall ExportResult := exportBook P q.1 q.2

end TaxBooksService

end ArkanGold
