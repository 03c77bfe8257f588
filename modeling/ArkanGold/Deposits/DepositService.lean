import ArkanGold.Store.OfficeDatabase
import ArkanGold.Market.Trading

/-!
# Deposits

`DepositService`, `DepositAdminService`, `DepositExpiryCron` and the transition table of a
deposit request.

- A request is PENDING_PAYMENT until a receipt is uploaded; a reviewer approves or rejects
  it. Only the approval moves money: the wallet is credited and one journal is posted.
- The file in the storage and the random digits of a tracking id are part of the request;
  the text messages sent after a transaction reach none of the tables here.
- `createManual` opens requests for card-to-card and bank transfers. Those for large
  amounts come with a proforma, which is issued elsewhere.
-/

namespace ArkanGold

/-! ## The transitions of a request -/

namespace DepositState

/-- `TRANSITIONS` -/
def TRANSITIONS : DepositStatus → List DepositStatus
  | .pendingPayment => [.receiptUploaded, .cancelled, .expired]
  | .receiptUploaded => [.underReview, .cancelled]
  | .underReview => [.approved, .rejected, .receiptUploaded]
  | .rejected => [.receiptUploaded]
  | .approved => []
  | .cancelled => []
  | .expired => []

/-- `STATUS_LABEL` -/
def STATUS_LABEL : DepositStatus → String
  | .pendingPayment => "در انتظار پرداخت"
  | .receiptUploaded => "رسید ارسال شد"
  | .underReview => "در حال بررسی"
  | .approved => "تایید شد"
  | .rejected => "رد شد"
  | .cancelled => "لغو شد"
  | .expired => "منقضی شد"

/-- `canTransition` -/
def canTransition (before after : DepositStatus) : Bool := (TRANSITIONS before).contains after

/-- `assertTransition` -/
def assertTransition (before after : DepositStatus) : Except ApiError Unit :=
  if canTransition before after then .ok ()
  else .error (.conflict
    s!"تغییر وضعیت از «{STATUS_LABEL before}» به «{STATUS_LABEL after}» مجاز نیست")

/-- `MAX_REJECTIONS` -/
def MAX_REJECTIONS : ℕ := 3

theorem canTransition_of_assert {before after : DepositStatus} {u : Unit}
    (h : assertTransition before after = .ok u) : canTransition before after = true := by
  unfold assertTransition at h
  by_contra hno
  rw [if_neg hno] at h
  cases h

end DepositState

/-! ## Tracking ids -/

namespace DepositTrackingService

/-- The sum of `luhnCheckDigit`, from the last digit on. -/
def luhnSum : Bool → List Char → ℕ
  | _, [] => 0
  | double, c :: cs =>
    let d := c.toNat - '0'.toNat
    let d := if double then (if 9 < d * 2 then d * 2 - 9 else d * 2) else d
    d + luhnSum (!double) cs

/-- `luhnCheckDigit` -/
def luhnCheckDigit (payload : String) : ℕ := (10 - luhnSum true payload.toList.reverse % 10) % 10

/-- `withLuhn` -/
def withLuhn (payload : String) : String := payload ++ toString (luhnCheckDigit payload)

example : withLuhn "7992739871" = "79927398713" := by decide

/-- The first four digits of a tracking id. -/
def trackingPrefix (s : OfficeDb) : String :=
  let digits := String.ofList ((s.getText "proforma.tracking_prefix" "1023").toList.filter Char.isDigit)
  String.ofList ((padZeros 4 digits).toList.take 4)

/-- `generate` with so many attempts left; `body` is what each of them draws. -/
def generate (body : ℕ → String) : ℕ → OfficeStmt String
  | 0 => Block.fail (.internal "تولید شناسه واریز یکتا ناموفق بود")
  | attempts + 1 => do
    let s ← Block.get
    let candidate := withLuhn (trackingPrefix s ++ body attempts)
    if s.deposits.rows.any (·.depositTrackingId == candidate) then generate body attempts
    else pure candidate

end DepositTrackingService

namespace DepositService

open DepositState

/-- The UTF-16 code units of a character. -/
def codeUnits (c : Char) : ℕ := if c.val < 0x10000 then 1 else 2

/-- `length` of a string. -/
@[irreducible] def lengthOf (v : String) : ℕ := (v.toList.map codeUnits).sum

/-- `slice(0, n)` -/
def slice (n : ℕ) (v : String) : String :=
  let rec go : ℕ → List Char → List Char
    | _, [] => []
    | n, c :: cs => if codeUnits c ≤ n then c :: go (n - codeUnits c) cs else []
  String.ofList (go n v.toList)

/-- A note as it is stored: `trim().slice(0, 500)`. -/
def storedNote (note : String) : String := slice 500 (AccountingService.trim note)

/-- Update the proforma of a request, if it has one. -/
def updateProforma (proformaInvoiceId : Option ℕ) (f : Invoice → Invoice)
    (hf : ∀ i, (f i).id = i.id := by intro _; rfl) : OfficeStmt Unit :=
  match proformaInvoiceId with
  | none => pure ()
  | some id => OfficeStmt.update OfficeDb.invoiceRows id f hf

/-! ## Opening a request -/

/-- `ManualDepositMethod` -/
inductive ManualDepositMethod where
  | cardToCard
  | bankTransfer
  deriving DecidableEq, Repr

/-- The method as it is stored. -/
def ManualDepositMethod.stored : ManualDepositMethod → DepositMethod
  | .cardToCard => .cardToCard
  | .bankTransfer => .bankTransfer

/-- `MANUAL_CONFIG_KEY` -/
def MANUAL_CONFIG_KEY : ManualDepositMethod → String
  | .cardToCard => "card_to_card"
  | .bankTransfer => "bank_transfer"

/-- Where the user is to pay to. -/
structure Destination where
  owner : String
  bank : String
  accountNumber : String
  sheba : String
  card : String

/-- `manualDestination` -/
def manualDestination (s : OfficeDb) : ManualDepositMethod → Except ApiError Destination
  | .cardToCard =>
    let card := s.getText "deposit.card_to_card.destination_card"
    let owner := s.getText "deposit.card_to_card.destination_owner"
    if card = "" then .error (.badRequest "اطلاعات کارت مقصد در تنظیمات سیستم کامل نشده است")
    else .ok ⟨owner, "", "", "", card⟩
  | .bankTransfer =>
    let owner := s.getText "deposit.bank_transfer.destination_owner"
    let accountNumber := s.getText "deposit.bank_transfer.destination_account"
    let sheba := s.getText "deposit.bank_transfer.destination_sheba"
    if sheba = "" ∧ accountNumber = "" then
      .error (.badRequest "اطلاعات حساب مقصد در تنظیمات سیستم کامل نشده است")
    else .ok ⟨owner, "", accountNumber, sheba, ""⟩

/-- An amount of rials in tomans. -/
def toman (rial : ℚ) : String := localeFa (rial / 10)

/-- The requests that count towards the daily limit. -/
def countsToday : DepositStatus → Bool
  | .pendingPayment | .receiptUploaded | .underReview | .approved => true
  | _ => false

/-- The rials that the user has asked to deposit today. -/
def usedToday (s : OfficeDb) (userId : ℕ) (method : ManualDepositMethod) : ℤ :=
  ((s.deposits.rows.filter fun d =>
    d.userId == userId && d.method == method.stored &&
      decide (utcMidnight (storedDay s.now) ≤ d.createdAt) && countsToday d.status).map
    DepositRequest.amountRial).sum

/-- `assertManualAmount` -/
def assertManualAmount (s : OfficeDb) (userId : ℕ) (method : ManualDepositMethod) (amountRial : ℤ) :
    Except ApiError Unit :=
  let key := MANUAL_CONFIG_KEY method
  let min := s.store.getNumber s!"deposit.{key}.min_amount" 100000
  let max := s.store.getNumber s!"deposit.{key}.max_amount"
    (if method = .cardToCard then 150000000 else 0)
  let dailyLimit := s.store.getNumber s!"deposit.{key}.daily_limit" 0
  if amountRial < min then .error (.badRequest s!"حداقل مبلغ {toman min} تومان است")
  else if 0 < max ∧ max < amountRial then .error (.badRequest s!"حداکثر مبلغ {toman max} تومان است")
  else if dailyLimit ≤ 0 then .ok ()
  else
    let used := usedToday s userId method
    if dailyLimit < (used + amountRial : ℤ) then
      .error (.badRequest (s!"سقف واریز روزانه این روش {toman dailyLimit} تومان است. " ++
        s!"باقی‌مانده: {toman (Max.max 0 (dailyLimit - used))} تومان"))
    else .ok ()

/-- `assertIdentityVerified` -/
def assertIdentityVerified (s : OfficeDb) (userId : ℕ) (message : String) : Except ApiError Unit :=
  if (s.store.users.find? userId).bind User.identity = some .verified then .ok ()
  else .error (.forbidden message)

/-- `prepareManual` -/
def prepareManual (userId : ℕ) (method : ManualDepositMethod) (sourceCardId : ℕ)
    (amountRial : Option ℤ) : OfficeService (BankAccount × Destination) := do
  let s ← Call.transaction Block.get
  Call.check (s.store.getBoolean s!"deposit.{MANUAL_CONFIG_KEY method}.enabled" true)
    (.forbidden "این روش واریز در حال حاضر غیرفعال است. لطفاً از روش دیگری استفاده کنید")
  Call.ofExcept (assertIdentityVerified s userId
    "برای واریز وجه ابتدا احراز هویت خود را تکمیل کنید")
  let s ← Call.transaction Block.get
  let bankAccount ← Call.getOrFail
    (s.store.bankAccounts.rows.find? fun a => a.id == sourceCardId && a.userId == userId)
    (.notFound "کارت بانکی یافت نشد")
  Call.check bankAccount.isVerified
    (.badRequest "واریز فقط از کارت/حساب تأییدشده‌ی خودتان امکان‌پذیر است")
  let s ← Call.transaction Block.get
  let destination ← Call.ofExcept (manualDestination s method)
  let s ← Call.transaction Block.get
  Call.ofExcept (match amountRial with
    | none => .ok ()
    | some amount => assertManualAmount s userId method amount)
  pure (bankAccount, destination)

/-- Insert a request; the unique keys are the tracking id and the idempotency key. -/
def createDeposit (depositTrackingId : String) (idempotencyKey : Option String)
    (mk : ℕ → DepositRequest) : OfficeStmt ℕ := do
  Block.lockAll (.depositTracking depositTrackingId :: idempotencyKey.toList.map .depositKey)
  let s ← Block.get
  Block.check (s.deposits.rows.all fun d => d.depositTrackingId != depositTrackingId &&
    (idempotencyKey.isNone || d.idempotencyKey != idempotencyKey)) Stmt.constraintError
  OfficeStmt.create OfficeDb.depositRows mk

/-- What the user asks for. -/
structure ManualDepositDto where
  method : ManualDepositMethod
  amountRial : ℤ
  sourceCardId : ℕ

/-- The transaction of `createManual`. -/
def insertManual (cal : Calendar) (userId : ℕ) (dto : ManualDepositDto)
    (idempotencyKey : Option String) (expiresAt : ℤ) (body : ℕ → String) : OfficeStmt ℕ := do
  let s ← Block.get
  let wallet ← Block.getOrFail (s.store.walletOf userId) (.notFound "کیف پول یافت نشد")
  let requestNumber ← OfficeStmt.nextNumber cal "DEP"
  let depositTrackingId ← DepositTrackingService.generate body 5
  let s ← Block.get
  createDeposit depositTrackingId idempotencyKey fun id =>
    { id := id
      requestNumber := requestNumber
      userId := userId
      walletId := wallet.id
      amountRial := dto.amountRial
      method := dto.method.stored
      status := .pendingPayment
      depositTrackingId := depositTrackingId
      proformaInvoiceId := none
      transactionId := none
      idempotencyKey := idempotencyKey
      expiresAt := expiresAt
      reviewStartedAt := none
      reviewedById := none
      reviewedAt := none
      rejectionReason := none
      rejectionCount := 0
      adminNotes := none
      createdAt := s.now }

/-- `getOne` -/
def getOne (userId depositId : ℕ) : OfficeService DepositRequest := do
  let s ← Call.transaction Block.get
  Call.getOrFail (s.deposits.rows.find? fun d => d.id == depositId && d.userId == userId)
    (.notFound "درخواست واریز یافت نشد")

/-- The request with an idempotency key; an empty key is none. -/
def findByKey (s : OfficeDb) (idempotencyKey : Option String) : Option DepositRequest :=
  (idempotencyKey.filter (· != "")).bind fun key =>
    s.deposits.rows.find? fun d => d.idempotencyKey == some key

/-- What `createManual` returns once its transaction has ended. Only a unique key that
another request has taken meanwhile leads back to that request. -/
def createdManual (userId : ℕ) (idempotencyKey : Option String) :
    Except ApiError ℕ → OfficeService DepositRequest
  | .ok id => getOne userId id
  | .error e => do
    let s ← Call.transaction Block.get
    match if e = Stmt.constraintError then findByKey s idempotencyKey else none with
    | some existing => getOne userId existing.id
    | none => Call.fail e

/-- `createManual` -/
def createManual (cal : Calendar) (userId : ℕ) (dto : ManualDepositDto)
    (idempotencyKey : Option String) (body : ℕ → String) : OfficeService DepositRequest := do
  Call.check (decide (0 < dto.amountRial ∧ dto.amountRial ≤ 2 ^ 53 - 1))
    (.badRequest "مبلغ معتبر نیست")
  let s ← Call.transaction Block.get
  match findByKey s idempotencyKey with
  | some existing => do
    Call.check (existing.userId == userId) (.forbidden "کلید درخواست معتبر نیست")
    getOne userId existing.id
  | none => do
    let _ ← prepareManual userId dto.method dto.sourceCardId (some dto.amountRial)
    let s ← Call.transaction Block.get
    let windowHours := Max.max 1 (s.store.getNumber "deposit.manual.receipt_window_hours" 24)
    let expiresAt := s.now + (windowHours * 60 * 60 * 1000).floor
    let created ← Call.attempt
      (Call.transaction (insertManual cal userId dto idempotencyKey expiresAt body))
    createdManual userId idempotencyKey created

/-! ## Receipts -/

/-- The transaction of `uploadReceipt`. -/
def storeReceipt (depositId : ℕ) (stored : StoredFile) (userNote : Option String) :
    OfficeStmt Unit := do
  Block.lock (.deposit depositId)
  let s ← Block.get
  let fresh ← Block.getOrFail (s.deposits.find? depositId) (.notFound "درخواست واریز یافت نشد")
  Block.ofExcept (assertTransition fresh.status .receiptUploaded)
  Block.mark (.uploads depositId)
  let _ ← OfficeStmt.create OfficeDb.depositReceiptRows fun id =>
    { id := id
      depositRequestId := depositId
      file := stored
      userNote := (userNote.map storedNote).filter (· != "") }
  OfficeStmt.update OfficeDb.depositRows depositId fun d => { d with status := .receiptUploaded }

/-- `uploadReceipt`; `uploaded` is what the storage answers. Returns `duplicateSuspected`. -/
def uploadReceipt (userId depositId : ℕ) (uploaded : Except ApiError StoredFile)
    (userNote : Option String) : OfficeService Bool := do
  let s ← Call.transaction Block.get
  let deposit ← Call.getOrFail
    (s.deposits.rows.find? fun d => d.id == depositId && d.userId == userId)
    (.notFound "درخواست واریز یافت نشد")
  Call.ofExcept (assertTransition deposit.status .receiptUploaded)
  Call.check (decide (deposit.rejectionCount < MAX_REJECTIONS))
    (.badRequest "تعداد دفعات ارسال رسید به حداکثر رسیده است. با پشتیبانی تماس بگیرید")
  let stored ← Call.ofExcept uploaded
  let s ← Call.transaction Block.get
  let duplicate := s.depositReceipts.rows.any fun r =>
    r.file.checksumSha256 == stored.checksumSha256 && r.depositRequestId != depositId
  Call.transaction (storeReceipt depositId stored userNote)
  pure duplicate

/-! ## Cancelling -/

/-- What the calls on a request return. -/
structure DepositReply where
  message : String
  alreadyProcessed : Bool
  transactionId : Option ℕ := none
  remainingAttempts : Option ℕ := none
  deriving DecidableEq

/-- `cancel` -/
def cancel (userId depositId : ℕ) : OfficeService DepositReply := Call.transaction do
  Block.lock (.deposit depositId)
  let s ← Block.get
  let deposit ← Block.getOrFail ((s.deposits.find? depositId).filter (·.userId == userId))
    (.notFound "درخواست واریز یافت نشد")
  if deposit.status = .cancelled then
    pure { message := "این درخواست قبلاً لغو شده است", alreadyProcessed := true }
  else do
    Block.ofExcept (assertTransition deposit.status .cancelled)
    OfficeStmt.update OfficeDb.depositRows depositId fun d => { d with status := .cancelled }
    let s ← Block.get
    updateProforma deposit.proformaInvoiceId fun i =>
      { i with
        status := .cancelled
        cancelledAt := some s.now
        cancelReason := some "لغو درخواست واریز توسط کاربر" }
    pure { message := "درخواست واریز لغو شد", alreadyProcessed := false }

end DepositService

/-! ## Reviewing -/

namespace DepositAdminService

open DepositState DepositService

/-- Lock a request and read it. -/
def lockDeposit (depositId : ℕ) : OfficeStmt DepositRequest := do
  Block.lock (.deposit depositId)
  let s ← Block.get
  Block.getOrFail (s.deposits.find? depositId) (.notFound "درخواست واریز یافت نشد")

/-- `startReview` -/
def startReview (adminUserId depositId : ℕ) : OfficeService DepositReply := Call.transaction do
  let d ← lockDeposit depositId
  if d.status = .underReview then
    pure { message := "این درخواست در حال بررسی است", alreadyProcessed := true }
  else do
    Block.ofExcept (assertTransition d.status .underReview)
    let s ← Block.get
    OfficeStmt.update OfficeDb.depositRows depositId fun d =>
      { d with
        status := .underReview
        reviewStartedAt := some s.now
        reviewedById := some adminUserId }
    pure { message := "بررسی آغاز شد", alreadyProcessed := false }

/-- The journal of an approval. -/
def approvalJournal (d : DepositRequest) (cashCode : String) (adminUserId transactionId : ℕ) :
    JournalInput where
  description := s!"واریز بانکی کاربر — {d.requestNumber} — شناسه واریز {d.depositTrackingId}"
  totalRial := rials d.amountRial
  totalGrams := 0
  lines :=
    [{ accountCode := cashCode, side := .debit, amountRial := rials d.amountRial },
     { accountCode := "2010", side := .credit, amountRial := rials d.amountRial }]
  referenceType := some "DEPOSIT"
  referenceId := some d.id
  createdByAdminId := some adminUserId
  transactionId := some transactionId

/-- The wallet is credited and the transaction of the user recorded. -/
def creditWallet (d : DepositRequest) (walletId : ℕ) : Stmt ℕ := do
  Stmt.updateWallet walletId fun w => { w with rialBalance := w.rialBalance + d.amountRial }
  let s ← Block.get
  Stmt.create Db.transactionRows fun id =>
    { id := id
      userId := d.userId
      walletId := walletId
      type := .deposit
      amountGrams := none
      amountRial := some d.amountRial
      pricePerGram := none
      feeAmount := none
      taxAmount := none
      status := .completed
      description := s!"واریز بانکی تاییدشده — درخواست {d.requestNumber} — " ++
        s!"شناسه واریز {d.depositTrackingId}"
      createdAt := s.now
      shopOrderId := none
      relatedTransactionId := none }

/-- The money of an approval. Returns the id of the transaction. -/
def payIn (d : DepositRequest) (adminUserId : ℕ) (cashAccountCode : Option String) :
    OfficeStmt ℕ := do
  let s ← Block.get
  Block.check (s.depositReceipts.rows.any (·.depositRequestId == d.id))
    (.badRequest "بدون رسید واریز، تایید درخواست ممکن نیست")
  Block.lock (.store (.wallet d.walletId))
  let s ← Block.get
  let wallet ← Block.getOrFail (s.store.wallets.find? d.walletId) (.notFound "کیف پول کاربر یافت نشد")
  let s ← Block.get
  let cashCode ← Block.ofExcept (AccountingService.resolveBankAccount s.books cashAccountCode
    (some "deposit.default_cash_account"))
  let transactionId ← OfficeStmt.onStore (creditWallet d wallet.id)
  OfficeStmt.postJournal (approvalJournal d cashCode adminUserId transactionId)
  pure transactionId

theorem consumed_id (i : Invoice) : ({ i with status := .consumed } : Invoice).id = i.id :=
  rfl

/-- `approve` -/
def approve (adminUserId depositId : ℕ) (note cashAccountCode : Option String) :
    OfficeService DepositReply := Call.transaction do
  Block.lock (.depositAdvisory depositId)
  let d ← lockDeposit depositId
  if d.status = .approved then
    pure { message := "این درخواست قبلاً تایید شده است", alreadyProcessed := true,
           transactionId := d.transactionId }
  else do
    Block.ofExcept (assertTransition d.status .approved)
    let transactionId ← payIn d adminUserId cashAccountCode
    let s ← Block.get
    OfficeStmt.update OfficeDb.depositRows depositId fun r =>
      { r with
        status := .approved
        transactionId := some transactionId
        reviewedById := some adminUserId
        reviewedAt := some s.now
        adminNotes := (note.map storedNote).or d.adminNotes }
    updateProforma d.proformaInvoiceId (fun i => { i with status := .consumed }) consumed_id
    pure { message := "درخواست واریز تایید و کیف پول شارژ شد", alreadyProcessed := false,
           transactionId := some transactionId }

/-- The transaction of `reject`. -/
def rejectDeposit (adminUserId depositId : ℕ) (reason : String) : OfficeStmt DepositReply := do
  Block.lock (.depositAdvisory depositId)
  let d ← lockDeposit depositId
  if d.status = .rejected then
    pure { message := "این درخواست قبلاً رد شده است", alreadyProcessed := true }
  else do
    Block.ofExcept (assertTransition d.status .rejected)
    let nextCount := d.rejectionCount + 1
    Block.mark (.rejects depositId)
    let s ← Block.get
    OfficeStmt.update OfficeDb.depositRows depositId fun r =>
      { r with
        status := .rejected
        rejectionReason := some (AccountingService.trim reason)
        rejectionCount := nextCount
        reviewedById := some adminUserId
        reviewedAt := some s.now }
    updateProforma (if MAX_REJECTIONS ≤ nextCount then d.proformaInvoiceId else none) fun i =>
      { i with
        status := .cancelled
        cancelledAt := some s.now
        cancelReason := some "رد مکرر درخواست واریز" }
    pure { message := "درخواست واریز رد شد", alreadyProcessed := false,
           remainingAttempts := some (MAX_REJECTIONS - nextCount) }

/-- `reject` -/
def reject (adminUserId depositId : ℕ) (reason : String) : OfficeService DepositReply := do
  Call.check (decide (10 ≤ lengthOf (AccountingService.trim reason)))
    (.badRequest "دلیل رد باید حداقل ۱۰ کاراکتر باشد")
  Call.transaction (rejectDeposit adminUserId depositId reason)

/-- `requestNewReceipt` -/
def requestNewReceipt (adminUserId depositId : ℕ) (note : Option String) :
    OfficeService DepositReply := Call.transaction do
  let d ← lockDeposit depositId
  Block.ofExcept (assertTransition d.status .receiptUploaded)
  Block.mark (.asksReceipt depositId)
  OfficeStmt.update OfficeDb.depositRows depositId fun r =>
    { r with
      status := .receiptUploaded
      adminNotes := note.map storedNote
      reviewedById := some adminUserId }
  pure { message := "درخواست ارسال رسید جدید ثبت شد", alreadyProcessed := false }

end DepositAdminService

/-! ## Expiry -/

namespace DepositExpiryCron

open DepositService

/-- The transaction for a request that was found stale. -/
def expire (d : DepositRequest) : OfficeStmt Unit := do
  Block.lock (.deposit d.id)
  let s ← Block.get
  if (s.deposits.find? d.id).map DepositRequest.status ≠ some .pendingPayment then pure ()
  else do
    OfficeStmt.update OfficeDb.depositRows d.id fun r => { r with status := .expired }
    updateProforma d.proformaInvoiceId fun i =>
      { i with
        status := .expired
        cancelReason := some "گذشت مهلت اعتبار پیش‌فاکتور" }

/-- The requests without a receipt whose time is over. -/
def stale (s : OfficeDb) : List DepositRequest :=
  (s.deposits.rows.filter fun d =>
    d.status == .pendingPayment && decide (d.expiresAt < s.now)).take 200

/-- `expireStaleRequests`; a request whose transaction fails is left alone. -/
def expireStaleRequests : OfficeService Unit := do
  let s ← Call.transaction Block.get
  Call.forEach (fun d => do
    let _ ← Call.attempt (Call.transaction (expire d))
    pure ()) (stale s)

end DepositExpiryCron

end ArkanGold
