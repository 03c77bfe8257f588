import ArkanGold.Accounting.Posting
import ArkanGold.Lib.Json

/-!
# Bank reconciliation

`BankReconciliationService`: the entries of a bank account are ticked off against a
statement of the bank. A reconciliation records the balances up to the date of the
statement and marks the entries that were selected; `undoLast` takes back the one that was
created last.

- `BankEntry`: a ledger entry with the date of its journal. Nothing else of a journal is
  read here, and a posting adds entries without marks.
- `BankCall`, `BankRun`: calls one after the other, each at a later instant.
- `pending`: the reconciliations of an account that have not been undone, as the states
  they started from.
-/

namespace ArkanGold

open AccountingService

/-- The columns of `accounts` that are read. -/
structure AccountRef where
  id : ℕ
  code : String

/-- A row of `ledger_entries` with the date of its journal. -/
structure BankEntry where
  id : ℕ
  accountId : ℕ
  side : LedgerSide
  amountRial : ℤ
  entryDate : ℤ
  reconciledAt : Option ℤ
  reconciliationId : Option ℕ
  deriving DecidableEq

/-- A row of `bank_reconciliations`. -/
structure BankReconciliation where
  id : ℕ
  accountId : ℕ
  statementDate : ℤ
  statementBalanceRial : ℤ
  bookBalanceRial : ℤ
  clearedBalanceRial : ℤ
  differenceRial : ℤ
  outstandingDebitRial : ℤ
  outstandingCreditRial : ℤ
  note : Option String
  createdById : ℕ
  createdAt : ℤ
  deriving DecidableEq

/-- The tables that reconciliation reads and writes, and the clock. -/
structure BankDb where
  accounts : List AccountRef
  entries : Table BankEntry BankEntry.id
  reconciliations : Table BankReconciliation BankReconciliation.id
  now : ℤ

/-- The body of a request; a balance that is no number is `none`. -/
structure BankReconcileDto where
  accountCode : String
  statementDate : DateInput
  statementBalanceRial : Option ℚ
  entryIds : List ℕ
  note : Option String
  allowDifference : Bool

/-- An entry of a journal that is being posted. -/
structure NewEntry where
  accountId : ℕ
  side : LedgerSide
  amountRial : ℤ
  entryDate : ℤ

/-- The mark of an entry: `reconciledAt` and `reconciliationId`. -/
abbrev ClearedMark : Type := Option ℤ × Option ℕ

namespace BankEntry

/-- The rials of an entry, credits below zero. -/
def signed (e : BankEntry) : ℤ := if e.side = .debit then e.amountRial else -e.amountRial

/-- The mark of an entry. -/
def mark (e : BankEntry) : ClearedMark := (e.reconciledAt, e.reconciliationId)

/-- Write the mark of an entry. -/
def withMark (m : ClearedMark) (e : BankEntry) : BankEntry :=
  { e with reconciledAt := m.1, reconciliationId := m.2 }

@[simp] theorem id_withMark (m : ClearedMark) (e : BankEntry) : (e.withMark m).id = e.id := rfl

@[simp] theorem accountId_withMark (m : ClearedMark) (e : BankEntry) :
    (e.withMark m).accountId = e.accountId := rfl

@[simp] theorem mark_withMark (m : ClearedMark) (e : BankEntry) : (e.withMark m).mark = m := rfl

@[simp] theorem withMark_mark (e : BankEntry) : e.withMark e.mark = e := rfl

end BankEntry

namespace BankReconciliationService

/-- `bankAccount` -/
def bankAccount (code : String) : Tx ApiError BankDb AccountRef := do
  Tx.check (isBankCode code)
    (.badRequest "مغایرت‌گیری فقط برای حساب نقد و بانک (1010 و معین‌ها) است")
  let s ← Tx.get
  Tx.getOrFail (s.accounts.find? fun a => a.code == code) (.notFound "حساب یافت نشد")

/-- What is wrong with an entry that was selected. -/
def entryError (accountId : ℕ) (till : ℤ) (e : BankEntry) : Option ApiError :=
  if e.accountId ≠ accountId then some (.badRequest "سطر انتخاب‌شده متعلق به این حساب نیست")
  else if e.reconciledAt.isSome then some (.conflict "برخی سطرها قبلاً تطبیق شده‌اند")
  else if till < e.entryDate then
    some (.badRequest "سطر با تاریخ بعد از تاریخ صورتحساب قابل تطبیق نیست")
  else none

/-- The entries of an account up to an instant. -/
def entriesUntil (accountId : ℕ) (till : ℤ) (rows : List BankEntry) : List BankEntry :=
  rows.filter fun e => e.accountId == accountId && decide (e.entryDate ≤ till)

/-- `sumSql` -/
def sumSql (onlyCleared : Bool) (accountId : ℕ) (till : ℤ) (rows : List BankEntry) : ℤ :=
  (((entriesUntil accountId till rows).filter fun e =>
    !onlyCleared || e.reconciledAt.isSome).map BankEntry.signed).sum

/-- A side of the entries that stay open. -/
def outstanding (side : LedgerSide) (accountId : ℕ) (till : ℤ) (ids : List ℕ)
    (rows : List BankEntry) : ℤ :=
  (((entriesUntil accountId till rows).filter fun e =>
    e.reconciledAt.isNone && !ids.contains e.id).map fun e =>
      if e.side = side then e.amountRial else 0).sum

/-- The row that a reconciliation stores. -/
def newReconciliation (adminId : ℕ) (dto : BankReconcileDto) (accountId : ℕ) (till balance : ℤ)
    (ids : List ℕ) (s : BankDb) (id : ℕ) : BankReconciliation :=
  let rows := s.entries.rows
  let cleared := sumSql true accountId till rows +
    ((rows.filter fun e => ids.contains e.id).map BankEntry.signed).sum
  { id := id
    accountId := accountId
    statementDate := till
    statementBalanceRial := balance
    bookBalanceRial := sumSql false accountId till rows
    clearedBalanceRial := cleared
    differenceRial := balance - cleared
    outstandingDebitRial := outstanding .debit accountId till ids rows
    outstandingCreditRial := outstanding .credit accountId till ids rows
    note := (dto.note.map trim).filter (· != "")
    createdById := adminId
    createdAt := s.now }

/-- The state once a reconciliation is stored and its entries are marked. -/
def storeReconciliation (mk : ℕ → BankReconciliation) (hmk : ∀ n, (mk n).id = n)
    (ids : List ℕ) (s : BankDb) : BankDb :=
  { s with
    reconciliations := s.reconciliations.create mk hmk
    entries := s.entries.updateWhere (fun e => ids.contains e.id)
      (BankEntry.withMark (some s.now, some s.reconciliations.next)) (BankEntry.id_withMark _) }

/-- A note of at least five characters. -/
def hasNote (note : Option String) : Bool :=
  match note with
  | some v => decide (5 ≤ (Json.utf16 (trim v)).length)
  | none => false

/-- `reconcile`: the message and the id of the new row. -/
def reconcile (adminId : ℕ) (dto : BankReconcileDto) : Tx ApiError BankDb (String × ℕ) := do
  let acc ← bankAccount dto.accountCode
  let balance ← Tx.getOrFail dto.statementBalanceRial (.badRequest "مانده‌ی صورتحساب نامعتبر است")
  Tx.check (balance.den == 1) (.badRequest "مانده‌ی صورتحساب باید ریال صحیح باشد")
  let till ← Tx.getOrFail dto.statementDate.endOfDay (.internal "Invalid Date")
  let ids := dto.entryIds.dedup
  let s ← Tx.get
  let entries := s.entries.rows.filter fun e => ids.contains e.id
  Tx.check (entries.length == ids.length) (.badRequest "برخی سطرهای انتخاب‌شده یافت نشد")
  Tx.ofExcept
    (match entries.findSome? (entryError acc.id till) with
    | some e => .error e
    | none => .ok ())
  let row := newReconciliation adminId dto acc.id till balance.num ids s s.reconciliations.next
  Tx.check (row.differenceRial == 0 || dto.allowDifference)
    (.badRequest (s!"مانده‌ی تطبیق‌شده ({row.clearedBalanceRial}) با مانده‌ی صورتحساب " ++
      s!"({row.statementBalanceRial}) برابر نیست؛ اختلاف {row.differenceRial} ریال"))
  Tx.check (row.differenceRial == 0 || hasNote dto.note)
    (.badRequest "برای ثبت با اختلاف، توضیح الزامی است")
  Tx.modify (storeReconciliation (newReconciliation adminId dto acc.id till balance.num ids s)
    (fun _ => rfl) ids)
  pure
    (if row.differenceRial = 0 then
      "مغایرت‌گیری بانکی ثبت شد؛ مانده‌ی دفتر با صورتحساب تطبیق دارد"
    else s!"مغایرت‌گیری با اختلاف {row.differenceRial} ریال ثبت شد", row.id)

/-- `findFirst` of an account, the latest `createdAt` first. -/
def lastReconciliation (accountId : ℕ) (s : BankDb) : Option BankReconciliation :=
  ((s.reconciliations.rows.filter fun r => r.accountId == accountId).insertionSort fun a b =>
    b.createdAt ≤ a.createdAt).head?

/-- The state without a reconciliation and its marks. -/
def dropReconciliation (id : ℕ) (s : BankDb) : BankDb :=
  { s with
    entries := s.entries.updateWhere (fun e => e.reconciliationId == some id)
      (BankEntry.withMark (none, none)) (BankEntry.id_withMark _)
    reconciliations := s.reconciliations.deleteWhere fun r => r.id == id }

/-- `undoLast` -/
def undoLast (code : String) : Tx ApiError BankDb String := do
  let acc ← bankAccount code
  let s ← Tx.get
  let last ← Tx.getOrFail (lastReconciliation acc.id s)
    (.notFound "مغایرت‌گیری ثبت‌شده‌ای وجود ندارد")
  Tx.modify (dropReconciliation last.id)
  pure "آخرین مغایرت‌گیری برگردانده شد"

/-- An entry of a journal, without a mark. -/
def postEntry (s : BankDb) (l : NewEntry) : BankDb :=
  { s with entries := s.entries.create fun id =>
      ⟨id, l.accountId, l.side, l.amountRial, l.entryDate, none, none⟩ }

/-- A journal adds its entries. -/
def postEntries (lines : List NewEntry) (s : BankDb) : BankDb := lines.foldl postEntry s

end BankReconciliationService

open BankReconciliationService

/-! ## Runs -/

/-- What is called. -/
inductive BankAction where
  | post (lines : List NewEntry)
  | reconcile (adminId : ℕ) (dto : BankReconcileDto)
  | undoLast (code : String)

/-- A call; one that throws takes its writes back. -/
def BankAction.perform : BankAction → Tx ApiError BankDb String
  | .post lines => Tx.atomic do
    Tx.modify (postEntries lines)
    pure ""
  | .reconcile adminId dto => Tx.atomic do
    let r ← BankReconciliationService.reconcile adminId dto
    pure r.1
  | .undoLast code => Tx.atomic (BankReconciliationService.undoLast code)

/-- A call that was made: the state it started from and how it ended. -/
structure BankCall where
  before : BankDb
  action : BankAction
  outcome : Except ApiError String

/-- The state at the instant `t`. -/
def BankDb.at (s : BankDb) (t : ℤ) : BankDb := { s with now := t }

/-- Calls one after the other, each at a later instant. -/
inductive BankRun (s₀ : BankDb) : List BankCall → BankDb → Prop
  | start : BankRun s₀ [] s₀
  | call {calls : List BankCall} {s : BankDb} (h : BankRun s₀ calls s) (t : ℤ) (ht : s.now < t)
      (action : BankAction) :
      BankRun s₀ (calls ++ [⟨s.at t, action, (action.perform.run (s.at t)).1⟩])
        (action.perform.run (s.at t)).2

/-- The id of the account that a code stands for. -/
def accountIdOf (s : BankDb) (code : String) : Option ℕ :=
  (s.accounts.find? fun a => a.code == code).map AccountRef.id

/-- A call and the reconciliations of the account `a` that are not undone. -/
def pendingStep (a : ℕ) (stack : List BankDb) (c : BankCall) : List BankDb :=
  match c.action, c.outcome with
  | .reconcile _ dto, .ok _ =>
    if accountIdOf c.before dto.accountCode = some a then c.before :: stack else stack
  | .undoLast code, .ok _ => if accountIdOf c.before code = some a then stack.tail else stack
  | _, _ => stack

/-- The states from which the reconciliations of the account `a` started that have not been
undone, the latest first. -/
def pending (a : ℕ) (calls : List BankCall) : List BankDb := calls.foldl (pendingStep a) []

end ArkanGold
