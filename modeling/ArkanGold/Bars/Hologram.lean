import ArkanGold.Store.OfficeDatabase

/-!
# Bars and their owners

`HologramTransferService`, `HologramIncidentService` and `HologramService`: the code of a
bar is assigned to an order item, the owner passes the bar on, a theft or loss is
reported, a code is revoked.

- The identity service answers before the transaction of `confirm` begins; its answer is
  part of the request.
- A transaction that reads a bar locks it first, but `confirm`, `reject` and `expireOne`
  lock the transfer request only and reach the bar with their last write.
-/

namespace ArkanGold

/-- The sum in `luhnCheckDigit`, over the digits from the right. -/
def luhnSum (doubleNext : Bool) : List ℕ → ℕ
  | [] => 0
  | d :: ds =>
    (if doubleNext then (if 9 < d * 2 then d * 2 - 9 else d * 2) else d) + luhnSum (!doubleNext) ds

/-- `luhnCheckDigit` -/
def luhnCheckDigit (payloadDigits : List ℕ) : ℕ :=
  (10 - luhnSum true payloadDigits.reverse % 10) % 10

/-- `isValidHologramCodeFormat`: eight digits, the last one the check digit. -/
def isValidHologramCodeFormat (code : String) : Bool :=
  let cs := code.toList
  let digits := cs.map fun c => c.val.toNat - 48
  decide (cs.length = 8) && cs.all (fun c => decide ('0' ≤ c ∧ c ≤ '9')) &&
    digits.getLast? == some (luhnCheckDigit digits.dropLast)

example : isValidHologramCodeFormat "79927398" = true ∧
    isValidHologramCodeFormat "79927391" = false := by decide

/-- A text without its margins; an empty one counts as missing. -/
def trimmed (v : Option String) : Option String :=
  (v.map AccountingService.trim).filter (· != "")

/-- The name on an identity record. -/
def Profile.fullName (p : Profile) : String :=
  AccountingService.trim (p.firstName.getD "" ++ " " ++ p.lastName.getD "")

namespace HologramIncident

/-- `INCIDENT_TYPE_FA` -/
def INCIDENT_TYPE_FA : HologramIncidentType → String
  | .theft => "سرقت"
  | .loss => "مفقودی"

/-- `INCIDENT_STATUS_FA` -/
def INCIDENT_STATUS_FA : HologramIncidentStatus → String
  | .open => "ثبت‌شده — در انتظار بررسی"
  | .confirmed => "تأییدشده"
  | .recovered => "بازیابی‌شده"
  | .rejected => "ردشده"
  | .cancelled => "لغوشده توسط گزارش‌دهنده"

/-- An error text that names the incident found. -/
def incidentError (text : HologramIncidentReport → String)
    (found : Option HologramIncidentReport) : ApiError :=
  .conflict ((found.map text).getD "")

/-- The text of `assertNoActiveIncident`. -/
def reportedText (i : HologramIncidentReport) : String :=
  s!"برای این شمش گزارش «{INCIDENT_TYPE_FA i.type}» (شماره {i.reportNumber}) ثبت شده است؛ تا رسیدگی و بسته‌شدن گزارش، هیچ انتقال یا فروشی برای آن مجاز نیست"

/-- `assertNoActiveIncident` -/
def assertNoActiveIncident (barId : ℕ) : OfficeStmt Unit := do
  let s ← Block.get
  Block.check (s.findActiveIncident barId).isNone
    (incidentError reportedText (s.findActiveIncident barId))

end HologramIncident

open HologramIncident

/-! ## Transfers -/

namespace HologramTransferService

/-- `getExpiresAt` -/
def getExpiresAt (s : OfficeDb) : ℤ :=
  let hours := s.store.getNumber "hologram.transfer.expiry_hours" 72 * 3600000
  s.now + hours.num.tdiv hours.den

/-- `createAdminInitiated` -/
def createAdminInitiated (barId itemId adminId : ℕ) (recipientPhoneNumber : String) :
    OfficeStmt ℕ := do
  let s ← Block.get
  OfficeStmt.createTransferRequest barId fun id =>
    { id := id
      hologramCodeId := barId
      shopOrderItemId := some itemId
      initiatedByUserId := none
      initiatedByAdminId := some adminId
      recipientPhoneNumber := recipientPhoneNumber
      recipientUserId := (s.userByPhone recipientPhoneNumber).map Profile.userId
      status := .pending
      transferType := .initialPurchase
      expiresAt := getExpiresAt s
      confirmedAt := none
      identityVerificationRef := none
      rejectionReason := none }

/-- The PENDING requests of a bar. -/
def isPendingFor (barId : ℕ) (r : OwnershipTransferRequest) : Bool :=
  r.hologramCodeId == barId && r.status == .pending

/-- A request that is cancelled. -/
def cancelled (reason : String) (r : OwnershipTransferRequest) : OwnershipTransferRequest :=
  { r with status := .cancelled, rejectionReason := some reason }

/-- `cancelPendingForCode` -/
def cancelPendingForCode (barId : ℕ) (reason : String) : OfficeStmt Unit := do
  let _ ← OfficeStmt.updateMany OfficeDb.transferRequestRows (isPendingFor barId)
    (cancelled reason) (fun _ => rfl)
  pure ()

/-- `initiateByUser` -/
def initiateByUser (userId barId : ℕ) (recipientPhoneNumber : String) : OfficeService ℕ := do
  let s₀ ← Call.transaction Block.get
  let expiresAt := getExpiresAt s₀
  Call.transaction do
    Block.lock (.bar barId)
    let s ← Block.get
    let code ← Block.getOrFail (s.bars.find? barId) (.notFound "شمش یافت نشد")
    Block.check ((s.activeOwnerships code.id).head?.any fun o => o.ownerUserId == userId)
      (.forbidden "شما مالک فعلی این شمش نیستید")
    Block.check (code.status == .assigned) (.conflict
      "این شمش در حال حاضر قابل انتقال نیست (وضعیت فعلی: در انتظار تأیید انتقال دیگری)")
    assertNoActiveIncident code.id
    let s ← Block.get
    let recipientUserId := (s.userByPhone recipientPhoneNumber).map Profile.userId
    Block.check (recipientUserId != some userId)
      (.badRequest "نمی‌توانید شمش را به خودتان منتقل کنید")
    let request ← OfficeStmt.createTransferRequest code.id fun id =>
      { id := id
        hologramCodeId := code.id
        shopOrderItemId := none
        initiatedByUserId := some userId
        initiatedByAdminId := none
        recipientPhoneNumber := recipientPhoneNumber
        recipientUserId := recipientUserId
        status := .pending
        transferType := .giftTransfer
        expiresAt := expiresAt
        confirmedAt := none
        identityVerificationRef := none
        rejectionReason := none }
    OfficeStmt.update OfficeDb.barRows code.id fun b => { b with status := .transferPending }
    pure request

/-- A bar after its transfer was not confirmed: back to the vault when it was on its way
to the first owner, otherwise with the owner it has. -/
def reverted (transferType : HologramTransferType) (b : HologramCode) : HologramCode :=
  if transferType = .initialPurchase then
    { b with
      status := .unassigned
      shopOrderItemId := none
      assignedByAdminId := none
      assignedAt := none }
  else { b with status := .assigned }

theorem id_reverted (transferType : HologramTransferType) (b : HologramCode) :
    (reverted transferType b).id = b.id := by
  unfold reverted
  split <;> rfl

/-- `revertCodeAfterNonConfirmation` -/
def revertCodeAfterNonConfirmation (request : OwnershipTransferRequest) : OfficeStmt Unit :=
  OfficeStmt.update OfficeDb.barRows request.hologramCodeId (reverted request.transferType)
    (id_reverted request.transferType)

/-- A request that ends without a transfer is written, and the bar reverts. -/
def endRequest (request : OwnershipTransferRequest)
    (f : OwnershipTransferRequest → OwnershipTransferRequest)
    (hf : ∀ r, (f r).id = r.id := by intro _; rfl) : OfficeStmt Unit := do
  OfficeStmt.update OfficeDb.transferRequestRows request.id f hf
  revertCodeAfterNonConfirmation request

/-- `expireOne` -/
def expireOne (requestId : ℕ) : OfficeService Unit :=
  Call.transaction do
    Block.lock (.transferRequest requestId)
    let s ← Block.get
    match (s.transferRequests.find? requestId).filter fun r => r.status == .pending with
    | none => pure ()
    | some request => endRequest request fun r => { r with status := .expired }

/-- `expireStaleRequests`: the failure of one request does not keep the others. -/
def expireStaleRequests : OfficeService Unit := do
  let s ← Call.transaction Block.get
  let stale := s.transferRequests.rows.filter fun r =>
    r.status == .pending && decide (r.expiresAt < s.now)
  expireEach (stale.map OwnershipTransferRequest.id)
where
  /-- One after the other. -/
  expireEach : List ℕ → OfficeService Unit
    | [] => pure ()
    | id :: ids => do
      let _ ← (expireOne id).attempt
      expireEach ids

/-- `reject`; tells whether the request had been rejected before. -/
def reject (userPhone : String) (requestId : ℕ) (reason : Option String) : OfficeService Bool :=
  Call.transaction do
    Block.lock (.transferRequest requestId)
    let s ← Block.get
    let request ← Block.getOrFail
      ((s.transferRequests.find? requestId).filter fun r => r.recipientPhoneNumber == userPhone)
      (.notFound "درخواست انتقال یافت نشد")
    if request.status = .rejected then pure true
    else do
      Block.check (request.status == .pending)
        (.conflict "این درخواست دیگر قابل رد کردن نیست")
      endRequest request fun r => { r with status := .rejected, rejectionReason := reason }
      pure false

/-- `IdentityVerificationResult`, as far as it is used. -/
structure IdentityVerificationResult where
  matched : Bool
  firstName : Option String
  lastName : Option String
  reference : Option String
  deriving DecidableEq

/-- `ConfirmHologramTransferDto` -/
structure ConfirmHologramTransferDto where
  nationalCode : String
  firstName : String
  lastName : String
  deriving DecidableEq

/-- The transaction of `confirm`. -/
def confirmTransfer (userId requestId : ℕ) (dto : ConfirmHologramTransferDto)
    (civil : IdentityVerificationResult) : OfficeStmt Bool := do
  Block.lock (.transferRequest requestId)
  let s ← Block.get
  let fresh ← Block.getOrFail (s.transferRequests.find? requestId)
    (.notFound "درخواست انتقال یافت نشد")
  if fresh.status = .confirmed then pure true
  else do
    Block.check (fresh.status == .pending) (.conflict "این درخواست دیگر قابل تأیید نیست")
    Block.check (decide (s.now ≤ fresh.expiresAt))
      (.gone "مهلت تأیید این درخواست به پایان رسیده است")
    assertNoActiveIncident fresh.hologramCodeId
    let s ← Block.get
    let _ ← OfficeStmt.updateMany OfficeDb.ownershipRows
      (fun o => o.hologramCodeId == fresh.hologramCodeId && o.status == .active)
      (fun o => { o with status := .transferred, ownershipEndAt := some s.now }) (fun _ => rfl)
    let _ ← OfficeStmt.createOwnership fresh.hologramCodeId fun id =>
      { id := id
        hologramCodeId := fresh.hologramCodeId
        ownerUserId := userId
        shopOrderId := none
        fullName := AccountingService.trim
          s!"{civil.firstName.getD dto.firstName} {civil.lastName.getD dto.lastName}"
        nationalCode := dto.nationalCode
        status := .active
        transferType := fresh.transferType
        createdAt := s.now
        ownershipEndAt := none }
    OfficeStmt.update OfficeDb.transferRequestRows fresh.id fun r =>
      { r with
        status := .confirmed
        confirmedAt := some s.now
        recipientUserId := some userId
        identityVerificationRef := civil.reference }
    OfficeStmt.update OfficeDb.barRows fresh.hologramCodeId fun b =>
      { b with status := .assigned }
    pure false

/-- What `confirm` looks at before it asks the identity service: the request, or that
there is nothing left to do. -/
def checkConfirmable (userPhone : String) (requestId : ℕ) : OfficeService Bool := do
  let s ← Call.transaction Block.get
  let request ← Call.getOrFail
    ((s.transferRequests.find? requestId).filter fun r => r.recipientPhoneNumber == userPhone)
    (.notFound "درخواست انتقال یافت نشد")
  if request.status = .confirmed then pure true
  else do
    Call.check (request.status == .pending) (.conflict "این درخواست دیگر قابل تأیید نیست")
    if request.expiresAt < s.now then do
      expireOne request.id
      Call.fail (.gone "مهلت تأیید این درخواست به پایان رسیده است")
    else do
      Call.transaction (assertNoActiveIncident request.hologramCodeId)
      pure false

/-- `confirm`; `civil` is the answer of the identity service, if it answers. Tells whether
the transfer had been confirmed before. -/
def confirm (userId : ℕ) (userPhone : String) (requestId : ℕ)
    (dto : ConfirmHologramTransferDto) (civil : Option IdentityVerificationResult) :
    OfficeService Bool := do
  let done ← checkConfirmable userPhone requestId
  if done then pure true
  else do
    let civil ← Call.getOrFail civil
      (.conflict "سرویس احراز هویت موقتاً در دسترس نیست. لطفاً بعداً دوباره تلاش کنید")
    Call.check civil.matched
      (.badRequest "اطلاعات هویتی وارد شده با سوابق ثبت احوال مطابقت ندارد")
    Call.transaction (confirmTransfer userId requestId dto civil)

end HologramTransferService

/-! ## Incidents -/

namespace HologramIncidentService

open HologramTransferService

/-- `TRANSITIONS` -/
def TRANSITIONS : HologramIncidentStatus → List HologramIncidentStatus
  | .open => [.confirmed, .rejected, .recovered, .cancelled]
  | .confirmed => [.rejected, .recovered]
  | .recovered => []
  | .rejected => []
  | .cancelled => []

/-- The text of `assertNoActiveReport`. -/
def alreadyReportedText (i : HologramIncidentReport) : String :=
  s!"برای این شمش قبلاً گزارش «{INCIDENT_TYPE_FA i.type}» با شماره {i.reportNumber} ثبت شده و در حال پیگیری است"

/-- `assertNoActiveReport` -/
def assertNoActiveReport (barId : ℕ) : OfficeStmt Unit := do
  let s ← Block.get
  Block.check (s.findActiveIncident barId).isNone
    (incidentError alreadyReportedText (s.findActiveIncident barId))

/-- `runCreate`: a report that collides with another one. -/
def translate (e : ApiError) : ApiError :=
  if e = Stmt.constraintError then .conflict "برای این شمش همین حالا یک گزارش فعال ثبت شده است"
  else e

/-- A transfer under way ends when the bar is reported: the bar is written with `f`. -/
def stopTransfer (bar : HologramCode) (reason : String) (f : HologramCode → HologramCode)
    (hf : ∀ b, (f b).id = b.id := by intro _; rfl) : OfficeStmt Unit :=
  if bar.status = .transferPending then do
    cancelPendingForCode bar.id reason
    OfficeStmt.update OfficeDb.barRows bar.id f hf
  else pure ()

/-- The instant that `details` accepts as the time of the incident. -/
def assertNotInFuture (incidentAt : Option ℤ) : OfficeStmt Unit := do
  let s ← Block.get
  Block.check (incidentAt.all fun t => decide (t ≤ s.now + minuteMs))
    (.badRequest "تاریخ وقوع نمی‌تواند در آینده باشد")

/-- `createByOwner` -/
def createByOwner (cal : Calendar) (userId barId : ℕ) (type : HologramIncidentType)
    (incidentAt : Option ℤ) : OfficeService ℕ :=
  Call.transaction (do
    Block.lock (.bar barId)
    let s ← Block.get
    let code ← Block.getOrFail (s.bars.find? barId) (.notFound "شمش یافت نشد")
    let owner ← Block.getOrFail
      ((s.activeOwnerships code.id).head?.filter fun o => o.ownerUserId == userId)
      (.forbidden "فقط مالک فعلی شمش می‌تواند سرقت یا مفقودی آن را اعلام کند")
    assertNoActiveReport code.id
    Block.check (code.status != .buybackPending) (.conflict
      "این شمش در فرآیند فروش به آرکان گلد (بازخرید) است؛ برای پیگیری با پشتیبانی تماس بگیرید")
    stopTransfer code "ثبت گزارش سرقت/مفقودی توسط مالک" fun b => { b with status := .assigned }
    let reportNumber ← OfficeStmt.nextNumber cal "HIR"
    assertNotInFuture incidentAt
    OfficeStmt.createIncident code.id fun id =>
      { id := id
        reportNumber := reportNumber
        hologramCodeId := code.id
        type := type
        status := .open
        reportedByUserId := some userId
        reportedByAdminId := none
        reviewedByAdminId := none
        ownerFullName := some owner.fullName
        ownerNationalCode := some owner.nationalCode
        adminNote := none
        closeReason := none }) translate

/-- `lockReport` -/
def lockReport (id : ℕ) : OfficeStmt HologramIncidentReport := do
  Block.lock (.incident id)
  let s ← Block.get
  Block.getOrFail (s.incidents.find? id) (.notFound "گزارش یافت نشد")

/-- `cancelByOwner` -/
def cancelByOwner (userId id : ℕ) (reason : Option String) : OfficeService Bool :=
  Call.transaction do
    let report ← lockReport id
    Block.check (report.reportedByUserId == some userId) (.notFound "گزارش یافت نشد")
    if report.status = .cancelled then pure true
    else do
      Block.check (report.status == .open) (.conflict
        (if report.status = .confirmed then
          "این گزارش توسط مدیریت تأیید شده است؛ برای اعلام پیدا شدن شمش با پشتیبانی تماس بگیرید"
        else "این گزارش دیگر قابل لغو نیست"))
      OfficeStmt.update OfficeDb.incidentRows id fun i =>
        { i with status := .cancelled, closeReason := some ((trimmed reason).getD "لغو توسط مالک") }
      pure false

/-- `createByAdmin` -/
def createByAdmin (cal : Calendar) (adminId : ℕ) (code : String) (type : HologramIncidentType)
    (incidentAt : Option ℤ) : OfficeService ℕ := do
  Call.check (isValidHologramCodeFormat code) (.badRequest "کد هولوگرام معتبر نیست")
  Call.transaction (do
    OfficeStmt.lockBarsByCode [code]
    let s ← Block.get
    let bar ← Block.getOrFail (s.barByCode code) (.notFound "کد هولوگرام یافت نشد")
    Block.check (bar.status != .revoked) (.conflict "این کد باطل شده است")
    assertNoActiveReport bar.id
    let t ← Block.get
    let transferType := (((t.pendingTransfers bar.id).head?).map
      OwnershipTransferRequest.transferType).getD .giftTransfer
    stopTransfer bar "ثبت گزارش سرقت/مفقودی توسط مدیریت" (reverted transferType)
      (id_reverted transferType)
    let reportNumber ← OfficeStmt.nextNumber cal "HIR"
    assertNotInFuture incidentAt
    OfficeStmt.createIncident bar.id fun id =>
      { id := id
        reportNumber := reportNumber
        hologramCodeId := bar.id
        type := type
        status := .confirmed
        reportedByUserId := none
        reportedByAdminId := some adminId
        reviewedByAdminId := some adminId
        ownerFullName := (s.activeOwnerships bar.id).head?.map HologramOwnership.fullName
        ownerNationalCode := (s.activeOwnerships bar.id).head?.map HologramOwnership.nationalCode
        adminNote := none
        closeReason := none }) translate

/-- `transition`: `confirm`, `reject` and `recover`. Tells whether there was nothing to do. -/
def transition (adminId id : ℕ) (target : HologramIncidentStatus)
    (adminNote closeReason : Option String) : OfficeService Bool :=
  Call.transaction do
    let report ← lockReport id
    if report.status = target then pure true
    else do
      Block.check ((TRANSITIONS report.status).contains target) (.conflict
        s!"تغییر وضعیت گزارش از «{INCIDENT_STATUS_FA report.status}» به «{INCIDENT_STATUS_FA target}» مجاز نیست")
      OfficeStmt.update OfficeDb.incidentRows id fun i =>
        { i with
          status := target
          reviewedByAdminId := some adminId
          adminNote := (trimmed adminNote).or i.adminNote
          closeReason := if target = .confirmed then i.closeReason
            else closeReason.map AccountingService.trim }
      pure false

/-- `confirm` -/
def confirm (adminId id : ℕ) (note : Option String) : OfficeService Bool :=
  transition adminId id .confirmed note none

/-- `reject` -/
def reject (adminId id : ℕ) (reason : String) : OfficeService Bool :=
  transition adminId id .rejected none (some reason)

/-- `recover` -/
def recover (adminId id : ℕ) (reason : String) : OfficeService Bool :=
  transition adminId id .recovered none (some reason)

end HologramIncidentService

/-! ## Codes -/

namespace HologramService

open HologramTransferService

/-- `AssignHologramCodeDto` -/
structure AssignHologramCodeDto where
  shopOrderItemId : ℕ
  factorySerialNumber : Option String
  mintedAt : Option ℤ
  deriving DecidableEq

/-- The part of `assignCode` after the item is recorded: the bar goes to the recipient for
confirmation, or to the buyer. -/
def handOver (adminId barId : ℕ) (item : CodedItem) : OfficeStmt HologramCodeStatus :=
  match item.recipientType with
  | .other => do
    let recipientPhoneNumber ← Block.getOrFail (item.recipientPhoneNumber.filter (· != ""))
      (.badRequest "شماره موبایل گیرنده برای این آیتم ثبت نشده است")
    let _ ← createAdminInitiated barId item.id adminId recipientPhoneNumber
    OfficeStmt.update OfficeDb.barRows barId fun b => { b with status := .transferPending }
    pure .transferPending
  | .self => do
    let s ← Block.get
    let order ← Block.getOrFail (s.store.shopOrders.find? item.orderId)
      (.internal "Foreign key constraint failed (order_id)")
    let buyer ← Block.getOrFail ((s.profiles.find? order.userId).filter fun p =>
        (s.store.users.find? p.userId).any fun u => u.identity == some .verified)
      (.conflict "خریدار هنوز احراز هویت خود را تکمیل نکرده است")
    let _ ← OfficeStmt.createOwnership barId fun id =>
      { id := id
        hologramCodeId := barId
        ownerUserId := buyer.userId
        shopOrderId := some item.orderId
        fullName := buyer.fullName
        nationalCode := buyer.nationalCode.getD ""
        status := .active
        transferType := .initialPurchase
        createdAt := s.now
        ownershipEndAt := none }
    OfficeStmt.update OfficeDb.barRows barId fun b => { b with status := .assigned }
    pure .assigned

/-- `assignCode`: the new status of the bar. -/
def assignCode (adminId : ℕ) (code : String) (dto : AssignHologramCodeDto) :
    OfficeService HologramCodeStatus := do
  Call.check (isValidHologramCodeFormat code) (.badRequest "کد هولوگرام معتبر نیست")
  Call.transaction do
    OfficeStmt.lockBarsByCode [code]
    let s ← Block.get
    let bar ← Block.getOrFail (s.barByCode code) (.notFound "کد هولوگرام یافت نشد")
    Block.check (bar.status == .unassigned)
      (.conflict "این کد هولوگرام قبلاً تخصیص یافته یا باطل شده است")
    assertNoActiveIncident bar.id
    let s ← Block.get
    let item ← Block.getOrFail (s.items.find? dto.shopOrderItemId)
      (.notFound "آیتم سفارش یافت نشد")
    Block.check (!s.bars.rows.any fun b => b.shopOrderItemId == some item.id)
      (.conflict "برای این آیتم سفارش قبلاً یک کد هولوگرام تخصیص یافته است")
    Block.lock (.item item.id)
    let t ← Block.get
    Block.check (!t.bars.rows.any fun b => b.shopOrderItemId == some item.id) Stmt.constraintError
    OfficeStmt.update OfficeDb.barRows bar.id fun b =>
      { b with
        productId := some item.productId
        variantId := item.variantId
        weightGrams := item.selectedWeightGrams.or item.variantWeightGrams
        purityKarat := item.purityKarat
        factorySerialNumber := dto.factorySerialNumber
        mintedAt := dto.mintedAt
        shopOrderItemId := some item.id
        assignedByAdminId := some adminId
        assignedAt := some s.now }
    handOver adminId bar.id item

/-- Why a code of this status cannot be revoked. -/
def irrevocable : HologramCodeStatus → Option String
  | .assigned => some
    "کد تخصیص‌یافته با مالک فعال را نمی‌توان مستقیماً باطل کرد؛ ابتدا از فرآیند انتقال مالکیت استفاده کنید"
  | .atAgent => some
    "این شمش به‌صورت امانی نزد نماینده است؛ ابتدا آن را از نماینده عودت بگیرید"
  | .agentOwned => some "این شمش به نماینده فروخته شده و ملک اوست؛ ابطال کد ممکن نیست"
  | .buybackPending => some
    "این شمش در فرآیند بازخرید است؛ ابتدا درخواست بازخرید را تکمیل یا عودت کنید"
  | .unassigned | .transferPending | .revoked => none

/-- A transfer under way is cancelled with the code. -/
def withdrawTransfer (bar : HologramCode) : OfficeStmt Unit :=
  if bar.status = .transferPending then cancelPendingForCode bar.id "ابطال کد توسط ادمین"
  else pure ()

/-- `revokeCode`; tells whether the code had been revoked before. -/
def revokeCode (adminId : ℕ) (code : String) (reason : Option String) : OfficeService Bool :=
  Call.transaction do
    OfficeStmt.lockBarsByCode [code]
    let s ← Block.get
    let bar ← Block.getOrFail (s.barByCode code) (.notFound "کد هولوگرام یافت نشد")
    if bar.status = .revoked then pure true
    else do
      Block.check (irrevocable bar.status).isNone (.conflict ((irrevocable bar.status).getD ""))
      Block.mark (.revokes bar.id)
      withdrawTransfer bar
      let s ← Block.get
      OfficeStmt.update OfficeDb.barRows bar.id fun b =>
        { b with
          status := .revoked
          revokedByAdminId := some adminId
          revokedAt := some s.now
          revokeReason := reason }
      pure false

end HologramService

end ArkanGold
