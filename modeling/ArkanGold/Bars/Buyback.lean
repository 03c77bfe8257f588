import ArkanGold.Bars.Hologram

/-!
# Buyback of bars from their owners

`BuybackService`: the owner offers a bar, which is locked as BUYBACK_PENDING until the
bar is bought (`pay`) or goes back to its owner.

- Every step after `create` locks the request and checks its status (`lockRequest`); the
  bar itself is reached only by `releaseCode` and `pay`.
- The price of gold is what the price feed gives; a request carries it.
-/

namespace ArkanGold

/-- `requiresDualControl` -/
def requiresDualControl (amountRial thresholdRial : ℚ) : Bool := decide (thresholdRial ≤ amountRial)

namespace BuybackService

open HologramIncident

/-- `BUYBACK_STATUS_FA` -/
def BUYBACK_STATUS_FA : BullionBuybackStatus → String
  | .submitted => "ثبت‌شده — در انتظار بررسی"
  | .awaitingDelivery => "در انتظار تحویل شمش"
  | .received => "شمش دریافت شد — در انتظار اصالت‌سنجی"
  | .inspectionPassed => "اصالت تأیید شد — در انتظار اعلام قیمت"
  | .offered => "قیمت نهایی اعلام شد — منتظر تأیید شما"
  | .accepted => "قیمت پذیرفته شد — در انتظار تأیید نهایی"
  | .approved => "تأیید نهایی — در صف واریز"
  | .paid => "واریز شد"
  | .returnPending => "در انتظار عودت شمش"
  | .returned => "شمش عودت داده شد"
  | .rejected => "ردشده"
  | .cancelled => "لغوشده"

/-! ## Prices -/

/-- `resolveGoldPricePerGram` -/
def goldPricePerGram (s : OfficeDb) (price18 : ℚ) (purity : GoldPurityKarat) : Except ApiError ℚ :=
  if price18 ≤ 0 then .error (.badRequest "قیمت لحظه‌ای طلا در دسترس نیست")
  else
    match purity with
    | .k18 => .ok price18
    | .k24 =>
      let factor := s.store.getDecimal "gold.purity.24" (24 / 18)
      if factor ≤ 0 then .error (.badRequest "ضریب عیار تنظیم‌شده نامعتبر است")
      else .ok (price18 * factor)

/-- What the price of a bar is computed from. -/
structure PriceInput where
  weightGrams : ℚ
  purityKarat : Option GoldPurityKarat
  fineness : Option ℚ
  pricePerGramRial : Option ℚ
  deductionPercent : Option ℚ
  feeRial : Option ℚ
  deriving DecidableEq

/-- `computePrice`: the net amount, rounded down to a thousand rials and not negative. -/
def computePrice (s : OfficeDb) (price18 : ℚ) (input : PriceInput) : Except ApiError ℤ :=
  let cfgPercent := min (max (s.store.getDecimal "buyback.deduction_percent" 2) 0) 50
  let cfgFee := max (s.store.getDecimal "buyback.fee_rial" 0) 0
  let price : Except ApiError ℚ := match input.pricePerGramRial, input.fineness with
    | some p, _ => .ok p
    | none, some f => (goldPricePerGram s price18 .k18).map fun p => p * f / 750
    | none, none => goldPricePerGram s price18 (input.purityKarat.getD .k24)
  match price with
  | .error e => .error e
  | .ok price =>
    let perGram : ℚ := price.floor
    if perGram ≤ 0 then .error (.badRequest "قیمت هر گرم نامعتبر است")
    else
      let gross : ℚ := (perGram * input.weightGrams).floor
      let deduction : ℚ := (gross * input.deductionPercent.getD cfgPercent / 100).floor
      let net := ((gross - deduction - input.feeRial.getD cfgFee) / 1000).floor * 1000
      .ok (max net 0)

/-- `pricingWeight`: the measured weight, at most the weight declared. -/
def pricingWeight (r : BullionBuybackRequest) : ℚ :=
  Numeric.ofScale gramScale (min (r.measuredWeightGrams.getD r.declaredWeightGrams)
    r.declaredWeightGrams)

/-! ## Statements -/

/-- `lockRequest` -/
def lockRequest (id : ℕ) (allowed : List BullionBuybackStatus) (userId : Option ℕ := none) :
    OfficeStmt BullionBuybackRequest := do
  Block.lock (.buyback id)
  let s ← Block.get
  let r ← Block.getOrFail
    ((s.buybacks.find? id).filter fun r => userId.all fun u => r.userId == u)
    (.notFound "درخواست بازخرید یافت نشد")
  Block.check (allowed.contains r.status)
    (.conflict s!"این اقدام در وضعیت «{BUYBACK_STATUS_FA r.status}» مجاز نیست")
  pure r

/-- Write a request. -/
def updateRequest (id : ℕ) (f : BullionBuybackRequest → BullionBuybackRequest)
    (hf : ∀ r, (f r).id = r.id := by intro _; rfl) : OfficeStmt Unit :=
  OfficeStmt.update OfficeDb.buybackRows id f hf

theorem assigned_id (b : HologramCode) : ({ b with status := .assigned } : HologramCode).id = b.id :=
  rfl

/-- `releaseCode` -/
def releaseCode (barId : ℕ) : OfficeStmt Unit := do
  let _ ← OfficeStmt.updateMany OfficeDb.barRows
    (fun b => b.id == barId && b.status == .buybackPending)
    (fun b => { b with status := .assigned }) assigned_id
  pure ()

/-- `defaultBankAccount` -/
def defaultBankAccount (s : OfficeDb) (userId : ℕ) : Option PayoutAccount :=
  s.payoutAccounts.rows.find? fun a =>
    a.userId == userId && a.isDefault && a.isVerified && a.statusVerified

/-! ## The owner -/

/-- `CreateBuybackDto` -/
structure CreateBuybackDto where
  hologramCodeId : ℕ
  deliveryMethod : BuybackDeliveryMethod
  deriving DecidableEq

/-- The text that names the active incident of a bar offered for sale. -/
def reportedForSale (i : HologramIncidentReport) : String :=
  s!"برای این شمش گزارش «{INCIDENT_TYPE_FA i.type}» (شماره {i.reportNumber}) ثبت شده و تا بسته‌شدن گزارش قابل فروش نیست"

/-- The limits on the time since the purchase and on the open requests of a user; the
message about the time does not repeat the date. -/
def assertAllowed (s : OfficeDb) (userId : ℕ) (ownership : HologramOwnership) :
    OfficeStmt Unit := do
  let minHoldingDays := max 0 (s.store.getNumber "buyback.min_holding_days" 0)
  let configured := s.store.getNumber "buyback.max_open_requests" 5
  let maxOpenRequests := max 1 (if configured = 0 then 5 else configured)
  Block.check (decide ((ownership.createdAt : ℚ) + minHoldingDays * dayMs ≤ s.now))
    (.conflict "فروش این شمش هنوز امکان‌پذیر نیست")
  let openRequests := (s.buybacks.rows.filter fun r =>
    r.userId == userId && OfficeDb.isOpenBuyback r.status).length
  Block.check (decide ((openRequests : ℚ) < maxOpenRequests))
    (.conflict s!"حداکثر {localeFa maxOpenRequests} درخواست بازخرید باز هم‌زمان مجاز است")

/-- The transaction of `create`. -/
def createRequest (cal : Calendar) (userId : ℕ) (dto : CreateBuybackDto) (nationalCode : String)
    (previewWeight estimate : ℤ) : OfficeStmt ℕ := do
  Block.lock (.bar dto.hologramCodeId)
  let s ← Block.get
  let code ← Block.getOrFail (s.bars.find? dto.hologramCodeId) (.notFound "شمش یافت نشد")
  let ownership ← Block.getOrFail
    ((s.activeOwnerships code.id).head?.filter fun o => o.ownerUserId == userId)
    (.forbidden "شما مالک فعلی این شمش نیستید")
  Block.check (ownership.nationalCode == nationalCode) (.forbidden
    "کد ملی مالک ثبت‌شده‌ی این شمش با کد ملی حساب شما یکسان نیست؛ با پشتیبانی تماس بگیرید")
  Block.check (code.status != .buybackPending)
    (.conflict "برای این شمش درخواست بازخرید باز وجود دارد")
  Block.check (code.status == .assigned) (.conflict
    "این شمش در حال حاضر قابل فروش نیست (درخواست انتقال مالکیت در جریان است)")
  let s ← Block.get
  Block.check (s.findActiveIncident code.id).isNone
    (incidentError reportedForSale (s.findActiveIncident code.id))
  assertAllowed s userId ownership
  let s ← Block.get
  let bank ← Block.getOrFail (defaultBankAccount s userId) (.conflict
    "حساب بانکی پیش‌فرض تأییدشده ندارید؛ ابتدا یک کارت بانکی تأییدشده را پیش‌فرض کنید")
  let requestNumber ← OfficeStmt.nextNumber cal "BBK"
  let id ← OfficeStmt.createBuyback code.id fun id =>
    { id := id
      requestNumber := requestNumber
      userId := userId
      hologramCodeId := code.id
      ownershipId := ownership.id
      status := .submitted
      declaredWeightGrams := code.weightGrams.getD previewWeight
      purityKarat := code.purityKarat
      ownerFullName := ownership.fullName
      ownerNationalCode := ownership.nationalCode
      deliveryMethod := dto.deliveryMethod
      estimatedPriceRial := estimate
      bankAccountId := bank.id
      inspectionPassed := none
      measuredWeightGrams := none
      offerNetRial := none
      offerExpiresAt := none
      acceptedAt := none
      approvedByAdminId := none
      bankReference := none
      sourceAccountCode := none
      journalEntryId := none
      returnReason := none
      rejectionReason := none }
  OfficeStmt.update OfficeDb.barRows code.id fun b => { b with status := .buybackPending }
  pure id

/-- `create`; `price18` is the price of gold at the estimate. -/
def create (cal : Calendar) (userId : ℕ) (dto : CreateBuybackDto) (price18 : ℚ) :
    OfficeService ℕ := do
  let s ← Call.transaction Block.get
  Call.check (s.store.getBoolean "buyback.enabled" true)
    (.forbidden "امکان فروش شمش به آرکان گلد موقتاً غیرفعال است")
  Call.check (dto.deliveryMethod == .inPerson || s.store.getBoolean "buyback.post_instructions" false)
    (.badRequest "ارسال پستی شمش در حال حاضر پذیرفته نمی‌شود")
  let s ← Call.transaction Block.get
  let nationalCode ← Call.getOrFail ((s.profiles.find? userId).bind fun p =>
      if (s.store.users.find? userId).any fun u => u.identity == some .verified then
        p.nationalCode.filter (· != "") else none)
    (.forbidden "برای فروش شمش ابتدا احراز هویت خود را تکمیل کنید")
  let s ← Call.transaction Block.get
  let preview ← Call.getOrFail (s.bars.find? dto.hologramCodeId) (.notFound "شمش یافت نشد")
  let weight ← Call.getOrFail (preview.weightGrams.filter (· != 0))
    (.conflict "وزن این شمش در سامانه ثبت نشده است؛ با پشتیبانی تماس بگیرید")
  let estimate ← Call.ofExcept (computePrice s price18
    ⟨Numeric.ofScale gramScale weight, preview.purityKarat, none, none, none, none⟩)
  Call.transaction (createRequest cal userId dto nationalCode weight estimate)

/-- A step that ends a request before the bar is bought: the bar is released. -/
def close (id : ℕ) (allowed : List BullionBuybackStatus) (userId : Option ℕ)
    (f : BullionBuybackRequest → BullionBuybackRequest)
    (hf : ∀ r, (f r).id = r.id := by intro _; rfl) : OfficeService Unit :=
  Call.transaction do
    let row ← lockRequest id allowed userId
    updateRequest id f hf
    releaseCode row.hologramCodeId

/-- `cancelByUser` -/
def cancelByUser (userId id : ℕ) (reason : Option String) : OfficeService Unit :=
  close id [.submitted, .awaitingDelivery] (some userId) fun r =>
    { r with status := .cancelled, rejectionReason := trimmed reason }

/-- `respondToOffer` -/
def respondToOffer (userId id : ℕ) (accept : Bool) : OfficeService Unit :=
  Call.transaction do
    let row ← lockRequest id [.offered] (some userId)
    let s ← Block.get
    Block.check (row.offerExpiresAt.any fun t => decide (s.now < t)) (.conflict
      "مهلت پذیرش این قیمت به پایان رسیده است؛ قیمت جدید به‌زودی اعلام می‌شود")
    if accept then
      updateRequest id fun r => { r with status := .accepted, acceptedAt := some s.now }
    else
      updateRequest id fun r =>
        { r with
          status := .returnPending
          returnReason := some "انصراف کاربر از فروش با قیمت اعلام‌شده" }

/-! ## The office -/

/-- A step that only moves a request on. -/
def move (id : ℕ) (allowed : List BullionBuybackStatus)
    (f : BullionBuybackRequest → BullionBuybackRequest)
    (hf : ∀ r, (f r).id = r.id := by intro _; rfl) : OfficeService Unit :=
  Call.transaction do
    let _ ← lockRequest id allowed
    updateRequest id f hf

/-- `accept` -/
def accept (id : ℕ) : OfficeService Unit :=
  move id [.submitted, .awaitingDelivery] fun r => { r with status := .awaitingDelivery }

/-- `reject` -/
def reject (id : ℕ) (reason : String) : OfficeService Unit :=
  close id [.submitted, .awaitingDelivery] none fun r =>
    { r with status := .rejected, rejectionReason := some (AccountingService.trim reason) }

/-- `markReceived` -/
def markReceived (id : ℕ) : OfficeService Unit :=
  move id [.submitted, .awaitingDelivery] fun r => { r with status := .received }

/-- `InspectBuybackDto`; `allChecks` tells whether every item of the checklist holds. -/
structure InspectBuybackDto where
  passed : Bool
  allChecks : Bool
  measuredWeightGrams : Option ℤ
  note : Option String
  deriving DecidableEq

/-- `inspect` -/
def inspect (id : ℕ) (dto : InspectBuybackDto) : OfficeService Unit := do
  Call.check (!dto.passed || dto.allChecks) (.badRequest
    "برای تأیید اصالت، همه‌ی موارد چک‌لیست باید تأیید شوند؛ در غیر این صورت نتیجه را «ناموفق» ثبت کنید")
  Call.check (!dto.passed || dto.measuredWeightGrams.isSome)
    (.badRequest "وزن اندازه‌گیری‌شده‌ی شمش را وارد کنید")
  Call.check (dto.passed || (trimmed dto.note).isSome)
    (.badRequest "دلیل ناموفق بودن اصالت‌سنجی را در توضیحات بنویسید")
  move id [.received, .inspectionPassed] fun r =>
    { r with
      status := if dto.passed then .inspectionPassed else .returnPending
      inspectionPassed := some dto.passed
      measuredWeightGrams := dto.measuredWeightGrams
      returnReason := if dto.passed then r.returnReason
        else some ("اصالت‌سنجی ناموفق: " ++ (trimmed dto.note).getD "") }

/-- `OfferBuybackDto` with what the inspection measured of the purity. -/
structure OfferBuybackDto where
  pricePerGramRial : Option ℚ
  deductionPercent : Option ℚ
  feeRial : Option ℚ
  fineness : Option ℚ
  deriving DecidableEq

/-- `offer`; `price18` is the price of gold at the offer. -/
def offer (id : ℕ) (dto : OfferBuybackDto) (price18 : ℚ) : OfficeService Unit := do
  let s ← Call.transaction Block.get
  let hours := s.store.getNumber "buyback.offer_validity_hours" 24
  let validity := min (max (if hours = 0 then 24 else hours) 1) 720
  let current ← Call.getOrFail (s.buybacks.find? id) (.notFound "درخواست بازخرید یافت نشد")
  let price ← Call.ofExcept (computePrice s price18 ⟨pricingWeight current, current.purityKarat,
    dto.fineness, dto.pricePerGramRial, dto.deductionPercent, dto.feeRial⟩)
  Call.check (decide (0 < price)) (.badRequest "مبلغ نهایی پس از کسورات باید بیشتر از صفر باشد")
  let expiresAt := ((s.now : ℚ) + validity * 3600000).floor
  Call.transaction do
    let row ← lockRequest id [.inspectionPassed, .offered]
    Block.check (row.inspectionPassed == some true)
      (.conflict "پیش از اعلام قیمت، اصالت‌سنجی شمش باید موفق ثبت شود")
    updateRequest id fun r =>
      { r with
        status := .offered
        offerExpiresAt := some expiresAt
        offerNetRial := some price
        acceptedAt := none }

/-- `approve` -/
def approve (adminId id : ℕ) : OfficeService Unit :=
  Call.transaction do
    let row ← lockRequest id [.accepted]
    let s ← Block.get
    let bank ← Block.getOrFail (defaultBankAccount s row.userId) (.conflict
      "کاربر حساب بانکی پیش‌فرض تأییدشده ندارد؛ پیش از تأیید نهایی باید حساب پیش‌فرض خود را تعیین کند")
    updateRequest id fun r =>
      { r with
        status := .approved
        approvedByAdminId := some adminId
        bankAccountId := bank.id }

/-- `PayBuybackDto` -/
structure PayBuybackDto where
  bankReference : String
  sourceAccountCode : Option String
  paidAt : Option ℤ
  deriving DecidableEq

/-- The text that names the active incident of a bar that is to be paid. -/
def reportedForPayment (i : HologramIncidentReport) : String :=
  s!"برای این شمش گزارش «{INCIDENT_TYPE_FA i.type}» ({i.reportNumber}) فعال است؛ واریز مجاز نیست"

/-- The journal of a payment: the bar enters the vault at the price paid. -/
def paymentJournal (adminId : ℕ) (row : BullionBuybackRequest) (code : HologramCode)
    (grams net : ℚ) (sourceCode bankReference : String) (entryDate : Option ℤ) : JournalInput where
  description := s!"بازخرید شمش {code.code} از مالک ({row.ownerFullName}) — درخواست {row.requestNumber} — پیگیری بانکی {bankReference}"
  totalRial := net
  totalGrams := grams
  lines :=
    [{ accountCode := "1025", side := .debit, amountRial := net, amountGrams := grams,
       description := some s!"ورود شمش بازخریدشده {code.code} به خزانه" },
     { accountCode := sourceCode, side := .credit, amountRial := net,
       description := some s!"واریز به حساب فروشنده — پیگیری {bankReference}" },
     { accountCode := "1095", side := .credit, amountGrams := grams,
       description := some "طرف مقداری ورود شمش بازخریدشده" }]
  referenceType := some "BULLION_BUYBACK"
  referenceId := some row.id
  createdByAdminId := some adminId
  entryDate := entryDate

/-- A bar that has come back to the vault. -/
def bought (paidAt : ℤ) (b : HologramCode) : HologramCode :=
  { b with
    status := .unassigned
    shopOrderItemId := none
    assignedByAdminId := none
    assignedAt := none
    vaultCodedAt := some paidAt }

/-- The end of the transaction of `pay`: the ownership ends and the request is paid. -/
def receiveBar (id barId : ℕ) (paidAt : ℤ) : OfficeStmt Unit := do
  let _ ← OfficeStmt.updateMany OfficeDb.ownershipRows
    (fun o => o.hologramCodeId == barId && o.status == .active)
    (fun o => { o with status := .transferred, ownershipEndAt := some paidAt }) (fun _ => rfl)
  HologramTransferService.cancelPendingForCode barId "بازخرید شمش توسط آرکان گلد"
  OfficeStmt.update OfficeDb.barRows barId (bought paidAt)
  updateRequest id fun r => { r with status := .paid }

/-- The transaction of `pay`. -/
def payRequest (adminId id : ℕ) (dto : PayBuybackDto) (bankReference : String) (paidAt : ℤ)
    (threshold : ℚ) : OfficeStmt Unit := do
  let row ← lockRequest id [.approved]
  let net : ℚ := row.offerNetRial.getD 0
  Block.check (decide (0 < net)) (.conflict "مبلغ نهایی بازخرید ثبت نشده است")
  Block.check (!(requiresDualControl net threshold && row.approvedByAdminId == some adminId))
    (.forbidden
      "این مبلغ بالای سقف تأیید دونفره است؛ واریز باید توسط کارشناسی غیر از تأییدکننده‌ی نهایی ثبت شود")
  let s ← Block.get
  Block.check ((s.payoutAccounts.find? row.bankAccountId).any fun a =>
      a.statusVerified && a.isVerified)
    (.conflict "حساب بانکی مقصد دیگر تأییدشده نیست؛ درخواست را دوباره تأیید نهایی کنید")
  let s ← Block.get
  Block.check (s.findActiveIncident row.hologramCodeId).isNone
    (incidentError reportedForPayment (s.findActiveIncident row.hologramCodeId))
  Block.lock (.bar row.hologramCodeId)
  let s ← Block.get
  let code ← Block.getOrFail (s.bars.find? row.hologramCodeId) Stmt.recordNotFound
  Block.check (code.status == .buybackPending)
    (.conflict "وضعیت شمش با فرآیند بازخرید سازگار نیست")
  let grams := Numeric.ofScale gramScale (code.weightGrams.getD row.declaredWeightGrams)
  let s ← Block.get
  let sourceCode ← Block.ofExcept (AccountingService.resolveBankAccount s.books
    dto.sourceAccountCode (some "withdrawal.default_source_account"))
  OfficeStmt.postJournal
    (paymentJournal adminId row code grams net sourceCode bankReference
      (dto.paidAt.map fun _ => paidAt))
    fun journalId t => t.setBuybacks (t.buybacks.update id fun r =>
      { r with
        bankReference := some bankReference
        sourceAccountCode := some sourceCode
        journalEntryId := some journalId })
  receiveBar id code.id paidAt

/-- `pay` -/
def pay (adminId id : ℕ) (dto : PayBuybackDto) : OfficeService Unit := do
  let bankReference := AccountingService.trim dto.bankReference
  let s ← Call.transaction Block.get
  let paidAt := dto.paidAt.getD s.now
  Call.check (decide (paidAt ≤ s.now + minuteMs)) (.badRequest "تاریخ پرداخت نامعتبر است")
  let threshold := s.store.getNumber "withdrawal.dual_control_threshold" 500000000
  Call.transaction (payRequest adminId id dto bankReference paidAt threshold)

/-- `requestReturn` -/
def requestReturn (id : ℕ) (reason : String) : OfficeService Unit :=
  move id [.received, .inspectionPassed, .offered, .accepted, .approved] fun r =>
    { r with status := .returnPending, returnReason := some (AccountingService.trim reason) }

/-- `markReturned` -/
def markReturned (id : ℕ) : OfficeService Unit :=
  close id [.returnPending] none fun r => { r with status := .returned }

/-- The transaction of `expireOffers` for one request. -/
def expireOffer (id : ℕ) : OfficeStmt Unit := do
  let row ← lockRequest id [.offered]
  let s ← Block.get
  if row.offerExpiresAt.any fun t => decide (t < s.now) then
    updateRequest id fun r => { r with status := .inspectionPassed }
  else pure ()

/-- `expireOffers`: two hundred requests at most, one after the other. -/
def expireOffers : OfficeService Unit := do
  let s ← Call.transaction Block.get
  let stale := s.buybacks.rows.filter fun r =>
    r.status == .offered && r.offerExpiresAt.any fun t => decide (t < s.now)
  expireEach ((stale.map BullionBuybackRequest.id).take 200)
where
  /-- A failure is logged. -/
  expireEach : List ℕ → OfficeService Unit
    | [] => pure ()
    | id :: ids => do
      let _ ← (Call.transaction (expireOffer id)).attempt
      expireEach ids

end BuybackService

end ArkanGold
