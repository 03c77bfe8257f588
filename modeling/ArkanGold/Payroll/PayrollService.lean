import ArkanGold.Accounting.ControlAccount
import ArkanGold.Store.Database
import ArkanGold.Lib.Confined

/-!
# Payroll

`PayrollService`: the execution of a payroll plan pays every user of the plan in gold, each
in a transaction of its own, and then stores a log.

- `executePlan` reads the plan, the clock, the logs of the day and the price in single
  statements, and what it has read may be out of date when it pays.
- A payment can fail: the user has no wallet, the journal is refused, or the database aborts
  the transaction. The loop takes note of it and goes on. Which payments the database aborts
  is part of the request.
- A log of the day is looked for before the payments and stored after them. No constraint
  keeps two logs of a plan and a day apart.
-/

namespace ArkanGold

/-- `PayrollAmountType` -/
inductive PayrollAmountType where
  | grams
  | rial
  deriving DecidableEq, Repr

/-- `PayrollStatus` -/
inductive PayrollStatus where
  | success
  | failed
  | partially
  deriving DecidableEq, Repr

/-- A row of `payroll_plans` with its users. -/
structure PayrollPlan where
  id : ℕ
  name : String
  amountType : PayrollAmountType
  amountGrams : ℤ
  amountRial : Option ℤ
  isActive : Bool
  users : List ℕ
  users_nodup : users.Nodup

/-- What the log says about a user. -/
structure PayrollDetail where
  userId : ℕ
  status : PayrollStatus
  error : Option ApiError
  deriving DecidableEq

/-- A row of `payroll_logs`. -/
structure PayrollLog where
  id : ℕ
  planId : ℕ
  executionDate : ℤ
  status : PayrollStatus
  totalUsers : ℕ
  successful : ℕ
  failed : ℕ
  details : List PayrollDetail
  startedAt : ℤ
  finishedAt : ℤ
  pricePerGramRial : Option ℤ
  gramsPerUser : ℤ
  deriving DecidableEq

/-- Statements that properties of runs speak about. -/
inductive PayrollMark where
  /-- an execution of the plan, as it was read, pays a user; `paid` are those it has paid before -/
  | pays (plan : PayrollPlan) (date : ℤ) (userId : ℕ) (grams : ℚ) (price : Option ℚ) (paid : List ℕ)
  /-- an execution that has paid the users `paid` stores its log -/
  | logs (planId : ℕ) (date : ℤ) (paid : List ℕ)

/-- The store, the plans and their logs, and the prices of gold. -/
structure PayrollDb where
  store : Db
  plans : Table PayrollPlan PayrollPlan.id
  logs : Table PayrollLog PayrollLog.id
  /-- what `getCurrentGoldPriceDecimal` answers -/
  livePrice : Option ℚ
  /-- the price of gold in `market_prices` -/
  marketPrice : Option ℚ
  history : List PayrollMark

namespace PayrollDb

/-- Replace `store`. -/
@[simps] def setStore (t : Db) (s : PayrollDb) : PayrollDb := { s with store := t }

/-- Replace `logs`. -/
@[simps] def setLogs (t : Table PayrollLog PayrollLog.id) (s : PayrollDb) : PayrollDb :=
  { s with logs := t }

/-- A number of the id supply is spent. -/
@[simps!] def spendId (s : PayrollDb) : PayrollDb := s.setStore s.store.spendId

/-- A mark enters the history. -/
@[simps] def note (l : PayrollMark) (s : PayrollDb) : PayrollDb :=
  { s with history := s.history ++ [l] }

instance : Supply PayrollDb := ⟨fun s => s.store.nextId, spendId⟩

instance : History PayrollMark PayrollDb := ⟨note⟩

@[simp] theorem supply_next (s : PayrollDb) : Supply.next s = s.store.nextId := rfl

@[simp] theorem supply_bump (s : PayrollDb) : Supply.bump s = s.spendId := rfl

@[simp] theorem history_record (l : PayrollMark) (s : PayrollDb) :
    History.record l s = s.note l := rfl

/-- The store as a part of the state. -/
def storePart : Part Db PayrollDb where
  get := store
  set := setStore
  get_set _ _ := rfl
  set_set _ _ _ := rfl
  set_get _ := rfl
  next_eq _ := rfl
  bump_eq _ := rfl

/-- The names of the row locks. -/
inductive PayrollRow where
  | store (r : Row)
  | log (id : ℕ)
  deriving DecidableEq

/-- `payroll_logs` -/
@[simps] def logRows : Relation PayrollRow PayrollDb PayrollLog PayrollLog.id :=
  ⟨logs, setLogs, .log⟩

end PayrollDb

open PayrollDb (PayrollRow)

/-- A transaction on the payroll. -/
abbrev PayrollStmt (α : Type) : Type := Block ApiError PayrollRow PayrollMark PayrollDb α

/-- A call of the service. -/
abbrev PayrollCall (α : Type) : Type 1 := Call ApiError PayrollRow PayrollMark PayrollDb α

namespace PayrollService

/-- A transaction on the store. -/
def onStore {α : Type} (x : Stmt α) : PayrollStmt α := x.zoom PayrollDb.storePart .store

@[simp] theorem ok_onStore {α : Type} {x : Stmt α} {s s' : PayrollDb} {a : α} :
    (onStore x).Ok s a s' ↔ ∃ t, x.Ok s.store a t ∧ s' = s.setStore t :=
  Block.ok_zoom

/-! ## Amounts -/

/-- `rialToGrams`: down to whole milligrams. -/
def rialToGrams (amountRial pricePerGramRial : ℚ) : ℚ :=
  ⌊amountRial / pricePerGramRial * 1000⌋ / 1000

/-- `MIN_GRAMS` -/
def MIN_GRAMS : ℚ := 1 / 1000

/-- The price and the grams for each user. -/
def planAmount (plan : PayrollPlan) : PayrollCall (Option ℚ × ℚ) :=
  match plan.amountType with
  | .grams => pure (none, Numeric.ofScale gramScale plan.amountGrams)
  | .rial => do
    let amountRial ← Call.getOrFail (plan.amountRial.filter fun a => 0 < a)
      (.badRequest "مبلغ ریالی پلن نامعتبر است")
    let s ← Call.transaction Block.get
    let price ← Call.getOrFail (s.livePrice.filter fun p => 0 < p)
      (.badRequest "قیمت لحظه‌ای طلا در دسترس نیست؛ اجرای پلن ریالی ممکن نیست")
    pure (some price, rialToGrams (Numeric.ofScale rialScale amountRial) price)

/-! ## Paying a user -/

/-- `currentGoldPriceRial` -/
def currentGoldPriceRial (s : PayrollDb) : ℚ := s.marketPrice.getD 0

/-- The gold for the wallet and the row that tells the user about it. -/
def creditSalary (plan : PayrollPlan) (userId : ℕ) (amountGrams : ℚ) : Stmt Unit := do
  let s ← Block.get
  let wallet ← Block.getOrFail (s.walletOf userId) (.notFound "کیف پول کاربر یافت نشد")
  Stmt.updateWallet wallet.id fun w =>
    { w with goldBalanceGrams := Numeric.increment gramScale w.goldBalanceGrams amountGrams }
  let _ ← Stmt.create Db.transactionRows fun id =>
    { id := id
      userId := userId
      walletId := wallet.id
      type := .salary
      amountGrams := some (Numeric.toScale gramScale amountGrams)
      amountRial := none
      pricePerGram := none
      feeAmount := none
      taxAmount := none
      status := .completed
      description := s!"salary|plan:{plan.id}|{plan.name}"
      createdAt := s.now
      shopOrderId := none
      relatedTransactionId := none }

/-- The part of the description that names the price. -/
def priceNote : Option ℚ → String
  | some price => s!" - قیمت هر گرم {Numeric.roundHalfAway price} ریال"
  | none => ""

/-- The lines of a payment: cost of salaries, uncovered gold and the debt to the user. -/
def salaryLines (amountGrams valueRial : ℚ) : List LedgerLineInput :=
  [{ accountCode := "5010", side := .debit, amountRial := valueRial },
    { accountCode := "1090", side := .debit, amountGrams := amountGrams },
    { accountCode := "2020", side := .credit, amountRial := valueRial, amountGrams := amountGrams }]

/-- The journal of a payment. -/
def salaryJournal (plan : PayrollPlan) (userId : ℕ) (amountGrams : ℚ)
    (pricePerGramRial : Option ℚ) (price : ℚ) : JournalInput :=
  let valueRial : ℚ := Numeric.roundHalfAway (amountGrams * price)
  { description :=
      s!"پرداخت حقوق طلا - پلن {plan.name} - کاربر {userId}{priceNote pricePerGramRial}"
    totalRial := valueRial
    totalGrams := amountGrams
    referenceType := some "PAYROLL_PLAN"
    referenceId := some plan.id
    lines := salaryLines amountGrams valueRial }

/-- The writes of `payUser`. -/
def payIn (plan : PayrollPlan) (userId : ℕ) (amountGrams : ℚ) (pricePerGramRial : Option ℚ)
    (aborted : Option ApiError) : PayrollStmt Unit := do
  onStore (creditSalary plan userId amountGrams)
  let s ← Block.get
  let price := pricePerGramRial.getD (currentGoldPriceRial s)
  onStore (Stmt.postJournal (salaryJournal plan userId amountGrams pricePerGramRial price))
  match aborted with
  | some e => Block.fail e
  | none => pure ()

/-- `payUser`; `paid` are the users that this execution has paid before. -/
def payUser (plan : PayrollPlan) (date : ℤ) (userId : ℕ) (amountGrams : ℚ)
    (pricePerGramRial : Option ℚ) (aborted : Option ApiError) (paid : List ℕ) :
    PayrollStmt Unit := do
  payIn plan userId amountGrams pricePerGramRial aborted
  Block.mark (.pays plan date userId amountGrams pricePerGramRial paid)

/-! ## Executing a plan -/

/-- What an execution counts. -/
structure Tally where
  successful : ℕ := 0
  failed : ℕ := 0
  details : List PayrollDetail := []

/-- The users that the details say were paid. -/
def paidUsers (details : List PayrollDetail) : List ℕ :=
  (details.filter fun d => d.status == .success).map PayrollDetail.userId

/-- The outcome of a payment is counted. -/
def Tally.add (tally : Tally) (userId : ℕ) : Except ApiError Unit → Tally
  | .ok () =>
    { tally with
      successful := tally.successful + 1
      details := tally.details ++ [⟨userId, .success, none⟩] }
  | .error e =>
    { tally with
      failed := tally.failed + 1
      details := tally.details ++ [⟨userId, .failed, some e⟩] }

/-- The loop over the users. -/
def payUsers (plan : PayrollPlan) (date : ℤ) (gramsPerUser : ℚ) (pricePerGramRial : Option ℚ)
    (aborts : ℕ → Option ApiError) : List ℕ → Tally → PayrollCall Tally
  | [], tally => pure tally
  | userId :: rest, tally => do
    let outcome ← Call.attempt (Call.transaction
      (payUser plan date userId gramsPerUser pricePerGramRial (aborts userId)
        (paidUsers tally.details)))
    payUsers plan date gramsPerUser pricePerGramRial aborts rest (tally.add userId outcome)

/-- The status of a log. -/
def logStatus (tally : Tally) : PayrollStatus :=
  if tally.failed = 0 then .success else if tally.successful = 0 then .failed else .partially

/-- The log of an execution. -/
def logOf (plan : PayrollPlan) (date : ℤ) (tally : Tally) (gramsPerUser : ℚ)
    (pricePerGramRial : Option ℚ) (startedAt finishedAt : ℤ) (id : ℕ) : PayrollLog where
  id := id
  planId := plan.id
  executionDate := date
  status := logStatus tally
  totalUsers := plan.users.length
  successful := tally.successful
  failed := tally.failed
  details := tally.details
  startedAt := startedAt
  finishedAt := finishedAt
  pricePerGramRial := pricePerGramRial.map (Numeric.toScale rialScale)
  gramsPerUser := Numeric.toScale gramScale gramsPerUser

/-- The statement that stores the log. -/
def storeLog (plan : PayrollPlan) (date : ℤ) (tally : Tally) (gramsPerUser : ℚ)
    (pricePerGramRial : Option ℚ) (startedAt : ℤ) : PayrollStmt PayrollLog := do
  let s ← Block.get
  Block.mark (.logs plan.id date (paidUsers tally.details))
  let log := logOf plan date tally gramsPerUser pricePerGramRial startedAt s.store.now
  let id ← PayrollDb.logRows.create (fun n => .store (.own n)) Stmt.constraintError log
  pure (log id)

/-- `executePlan`, once the log of the day was looked for. -/
def executeToday (plan : PayrollPlan) (today : ℤ) (aborts : ℕ → Option ApiError) :
    PayrollCall PayrollLog := do
  let (pricePerGramRial, gramsPerUser) ← planAmount plan
  Call.check (decide (MIN_GRAMS ≤ gramsPerUser)) (.badRequest
    "مقدار طلای قابل پرداخت کمتر از ۱ میلی‌گرم است؛ مبلغ پلن را افزایش دهید")
  let s ← Call.transaction Block.get
  let tally ← payUsers plan today gramsPerUser pricePerGramRial aborts plan.users {}
  Call.transaction (storeLog plan today tally gramsPerUser pricePerGramRial s.store.now)

/-- `executePlan` -/
def executePlan (planId : ℕ) (aborts : ℕ → Option ApiError) : PayrollCall PayrollLog := do
  let s ← Call.transaction Block.get
  let plan ← Call.getOrFail (s.plans.find? planId) (.notFound "پلن پی‌رول یافت نشد")
  Call.check plan.isActive (.badRequest "پلن غیرفعال است")
  Call.check (!plan.users.isEmpty) (.badRequest "این پلن هیچ کاربری ندارد")
  let s ← Call.transaction Block.get
  let today := utcMidnight (storedDay s.store.now)
  let s ← Call.transaction Block.get
  Call.check (!s.logs.rows.any fun l => l.planId == plan.id && l.executionDate == today)
    (.badRequest "پی‌رول این پلن امروز قبلاً اجرا شده است")
  executeToday plan today aborts

/-- An execution that is asked for, and the payments of it that the database aborts. -/
structure PayrollRequest where
  planId : ℕ
  aborts : ℕ → Option ApiError

/-- The service. -/
def serve (q : PayrollRequest) : PayrollCall PayrollLog := executePlan q.planId q.aborts

end PayrollService

end ArkanGold
