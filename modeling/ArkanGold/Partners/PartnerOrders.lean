import ArkanGold.Store.OfficeDatabase
import ArkanGold.Market.Trading

/-!
# Orders of sales partners

`PartnerOrdersService` and the part of `PartyLedgerService` it uses.

- A PENDING order has no financial effect; `confirm` delivers gold to the customer's
  wallet or a bar from the vault, posts the sale and debits the partner; `refund` takes
  both back with a reversal; `settle` credits what the partner has paid.
- Prices, and the instants at which a transaction reads the clock again, are part of the
  request.
- Issuing an invoice runs after the transaction and reaches none of the tables here.
-/

namespace ArkanGold

namespace PartnerAccounts

/-- `CASH` -/
def CASH : String := "1010"

/-- `BULLION` -/
def BULLION : String := "1025"

/-- `PARTNER_RECEIVABLE` -/
def PARTNER_RECEIVABLE : String := "1050"

/-- `GOLD_COVERAGE` -/
def GOLD_COVERAGE : String := "1090"

/-- `USER_GOLD` -/
def USER_GOLD : String := "2020"

/-- `TAX_PAYABLE` -/
def TAX_PAYABLE : String := "2030"

/-- `TRADE_FEE` -/
def TRADE_FEE : String := "4010"

/-- `BAR_SALE` -/
def BAR_SALE : String := "4040"

/-- `BAR_PREMIUM` -/
def BAR_PREMIUM : String := "4050"

/-- `BAR_COGS` -/
def BAR_COGS : String := "5060"

/-- `PARTNER_COMMISSION` -/
def PARTNER_COMMISSION : String := "5080"

end PartnerAccounts

/-! ## The ledger of the partners -/

namespace PartyLedgerService

/-- What `post` records of a movement. -/
structure PartyLedgerInput where
  partyId : ℕ
  type : String
  debitRial : ℤ := 0
  creditRial : ℤ := 0
  referenceType : Option String
  referenceId : Option ℕ

/-- `post`, for a partner. -/
def post (input : PartyLedgerInput) : OfficeStmt ℕ := do
  Block.lock (.partner input.partyId)
  let s ← Block.get
  let party ← Block.getOrFail (s.partners.find? input.partyId) (.notFound "طرف حساب یافت نشد")
  let balanceAfter := party.balanceRial + input.debitRial - input.creditRial
  OfficeStmt.update OfficeDb.partnerRows input.partyId fun p =>
    { p with balanceRial := balanceAfter }
  OfficeStmt.create OfficeDb.partyLedgerRows fun id =>
    { id := id
      partyId := input.partyId
      type := input.type
      debitRial := input.debitRial
      creditRial := input.creditRial
      balanceAfterRial := balanceAfter
      referenceType := input.referenceType
      referenceId := input.referenceId }

end PartyLedgerService

namespace PartnerOrdersService

open PartnerAccounts

/-! ## Prices -/

/-- What `meltedQuote` returns. -/
structure MeltedQuote where
  pricePerGramRial : ℚ
  feePercent : ℚ
  taxPercent : ℚ

/-- `meltedQuote`; `market` is the current price of gold. -/
def meltedQuote (s : OfficeDb) (market : ℚ) : Except ApiError MeltedQuote :=
  if market ≤ 0 then .error (.badRequest "قیمت لحظه‌ای طلا در دسترس نیست")
  else
    let spread := s.store.getDecimal "partner.quote_spread_percent" 0
    let price := market * (1 + spread / 100)
    .ok
      { pricePerGramRial := if 0 ≤ price then (price.ceil : ℤ) else (price.floor : ℤ)
        feePercent := s.store.getDecimal "partner.fee_percent" 0
        taxPercent := s.store.getDecimal "tax.buy" 0 }

/-- `commissionOf` -/
def commissionOf (partner : SalesPartner) (total : ℚ) : ℚ :=
  Numeric.roundHalfAway
    (total * Numeric.ofScale gramScale partner.commissionPercent / 100 +
      rials partner.commissionFixedRial)

/-! ## Registering an order -/

/-- `CreateOrderInput` -/
structure CreateOrderInput where
  partnerId : ℕ
  externalRef : String
  customerPhone : String
  customerNationalCode : Option String
  productKind : PartnerProductKind
  amountGrams : Option ℚ
  amountRial : Option ℚ
  hologramCode : Option String
  pricePerGramRial : Option ℚ
  wageRial : Option ℚ
  taxRial : Option ℚ
  createdViaApi : Bool

/-- The amounts of an order. -/
structure Amounts where
  grams : ℚ
  price : ℚ
  goldValue : ℚ
  wage : ℚ
  fee : ℚ
  tax : ℚ
  hologramCodeId : Option ℕ

/-- `toDecimalPlaces(0)` -/
def whole (q : ℚ) : ℚ := Numeric.roundHalfAway q

/-- The grams of an order of melted gold. -/
def meltedGrams (input : CreateOrderInput) (q : MeltedQuote) (price : ℚ) : Except ApiError ℚ :=
  match input.amountGrams, input.amountRial with
  | some g, _ => .ok g
  | none, some r =>
    let factor := 1 + (q.feePercent + q.taxPercent) / 100
    .ok (((r / (price * factor) * 10 ^ gramScale).floor : ℤ) / 10 ^ gramScale)
  | none, none => .error (.badRequest "مقدار (گرم) یا مبلغ سفارش الزامی است")

/-- The amounts of an order of melted gold. -/
def meltedAmounts (s : OfficeDb) (market : ℚ) (input : CreateOrderInput) :
    Except ApiError Amounts := do
  let q ← meltedQuote s market
  let price := input.pricePerGramRial.getD q.pricePerGramRial
  let grams ← meltedGrams input q price
  if grams ≤ 0 ∨ ¬Numeric.Fits gramScale grams then
    .error (.badRequest "مقدار طلا نامعتبر است")
  else
    let goldValue := whole (grams * price)
    .ok
      { grams := grams
        price := price
        goldValue := goldValue
        wage := 0
        fee := whole (goldValue * q.feePercent / 100)
        tax := input.taxRial.getD (whole (goldValue * q.taxPercent / 100))
        hologramCodeId := none }

/-- A bar of the vault that can be sold. -/
def inVault (s : OfficeDb) (bar : HologramCode) : Bool :=
  bar.status == .unassigned && bar.shopOrderItemId.isNone && (s.activeOwnerships bar.id).isEmpty

/-- The amounts of an order of a bar; `barPrice` is the price of gold of its purity. -/
def barAmounts (s : OfficeDb) (barPrice : GoldPurityKarat → ℚ) (input : CreateOrderInput) :
    Except ApiError Amounts :=
  match input.hologramCode with
  | none => .error (.badRequest "کد هولوگرام شمش الزامی است")
  | some code =>
    match (s.barByCode code).filter fun b => inVault s b && b.weightGrams.any (· != 0) with
    | none => .error (.conflict
        "این شمش در موجودی کددار خزانه نیست (کد خام، فروخته‌شده یا امانی)")
    | some bar =>
      match s.partnerOrders.rows.find? fun o =>
          o.hologramCodeId == some bar.id && o.status == .pending with
      | some pending => .error (.conflict
          s!"این شمش در سفارش در انتظار {pending.orderNumber} رزرو است")
      | none =>
        let grams := Numeric.ofScale gramScale (bar.weightGrams.getD 0)
        let price := input.pricePerGramRial.getD (barPrice (bar.purityKarat.getD .k18))
        .ok
          { grams := grams
            price := price
            goldValue := whole (grams * price)
            wage := input.wageRial.getD 0
            fee := 0
            tax := input.taxRial.getD 0
            hologramCodeId := some bar.id }

/-- The prices of gold at the time of a request. -/
structure Market where
  melted : ℚ
  bar : GoldPurityKarat → ℚ

/-- `amounts` are whole and not negative. -/
def assertWhole (q : ℚ) (label : String) : Except ApiError Unit :=
  if q < 0 ∨ q.den ≠ 1 then .error (.badRequest s!"{label} نامعتبر است") else .ok ()

/-- The row of a new order, from its amounts. -/
def newOrder (partner : SalesPartner) (userId : ℕ) (input : CreateOrderInput) (a : Amounts)
    (orderNumber : String) (createdAt : ℤ) (id : ℕ) : PartnerOrder :=
  let total := a.goldValue + a.wage + a.fee + a.tax
  let commission := commissionOf partner total
  { id := id
    orderNumber := orderNumber
    partnerId := partner.id
    externalRef := input.externalRef
    userId := userId
    productKind := input.productKind
    status := .pending
    amountGrams := Numeric.toScale gramScale a.grams
    hologramCodeId := a.hologramCodeId
    pricePerGramRial := Numeric.toScale rialScale a.price
    goldValueRial := Numeric.toScale rialScale a.goldValue
    wageRial := Numeric.toScale rialScale a.wage
    feeRial := Numeric.toScale rialScale a.fee
    taxRial := Numeric.toScale rialScale a.tax
    totalRial := Numeric.toScale rialScale total
    commissionRial := Numeric.toScale rialScale commission
    netReceivableRial := Numeric.toScale rialScale (total - commission)
    dueDate := none
    settlementId := none
    confirmJournalId := none
    refundJournalId := none
    transactionId := none
    createdViaApi := input.createdViaApi
    confirmedAt := none
    cancelReason := none
    createdAt := createdAt }

/-- The checks of `create` on the amounts. -/
def assertAmounts (partner : SalesPartner) (a : Amounts) : Except ApiError Unit := do
  assertWhole a.wage "اجرت"
  assertWhole a.tax "مالیات"
  let total := a.goldValue + a.wage + a.fee + a.tax
  match partner.minOrderRial.filter (· != 0) with
  | some least =>
    if total < rials least then
      .error (.badRequest s!"حداقل مبلغ سفارش این شریک {least} ریال است")
    else .ok ()
  | none => .ok ()
  match partner.maxOrderRial.filter (· != 0) with
  | some most =>
    if rials most < total then
      .error (.badRequest s!"حداکثر مبلغ سفارش این شریک {most} ریال است")
    else .ok ()
  | none => .ok ()
  if total - commissionOf partner total ≤ 0 then
    .error (.badRequest "کارمزد شریک بیش از مبلغ سفارش است")
  else .ok ()

/-- The customer of an order. -/
def customer (s : OfficeDb) (input : CreateOrderInput) : Except ApiError ℕ :=
  match s.userByPhone input.customerPhone with
  | none => .error (.badRequest "مشتری با این شماره در آرکان گلد ثبت‌نام نکرده است")
  | some p =>
    match s.store.users.find? p.userId with
    | none => .error (.badRequest "مشتری با این شماره در آرکان گلد ثبت‌نام نکرده است")
    | some u =>
      if u.status ≠ .active then .error (.badRequest "حساب کاربری مشتری فعال نیست")
      else if u.identity ≠ some .verified then
        .error (.badRequest "احراز هویت مشتری تکمیل نشده است")
      else if input.customerNationalCode.any fun c => c != "" && p.nationalCode != some c then
        .error (.badRequest "کد ملی با صاحب شماره موبایل مطابقت ندارد")
      else .ok u.id

/-- The order with a reference of the partner. -/
def orderByRef (s : OfficeDb) (partnerId : ℕ) (ref : String) : Option PartnerOrder :=
  s.partnerOrders.rows.find? fun o => o.partnerId == partnerId && o.externalRef == ref

/-- The transaction of `create`. -/
def insertOrder (cal : Calendar) (partner : SalesPartner) (userId : ℕ) (input : CreateOrderInput)
    (a : Amounts) : OfficeStmt ℕ := do
  let orderNumber ← OfficeStmt.nextNumber cal "PTO"
  let s ← Block.get
  OfficeStmt.createUnique OfficeDb.partnerOrderRows (.externalRef partner.id input.externalRef)
    (fun s => (orderByRef s partner.id input.externalRef).isNone)
    (newOrder partner userId input a orderNumber s.now)

/-- `create`: the id of the order with this reference, new or not. -/
def create (cal : Calendar) (market : Market) (input : CreateOrderInput) : OfficeService ℕ := do
  let s ← Call.transaction Block.get
  let partner ← Call.getOrFail (s.partners.find? input.partnerId) (.notFound "شریک فروش یافت نشد")
  let s ← Call.transaction Block.get
  match orderByRef s partner.id input.externalRef with
  | some existing => pure existing.id
  | none => do
    Call.check (partner.status == .active) (.forbidden "همکاری با این شریک فعال نیست")
    Call.check (partner.contractEndAt.all fun t => decide (s.now ≤ t))
      (.forbidden "قرارداد این شریک منقضی شده است")
    Call.check (partner.allowedProducts.contains input.productKind)
      (.badRequest "فروش این نوع کالا برای این شریک مجاز نیست")
    let s ← Call.transaction Block.get
    let userId ← Call.ofExcept (customer s input)
    let s ← Call.transaction Block.get
    let a ← Call.ofExcept (match input.productKind with
      | .meltedGold => meltedAmounts s market.melted input
      | .bullion => barAmounts s market.bar input)
    Call.ofExcept (assertAmounts partner a)
    Call.transaction (insertOrder cal partner userId input a)

/-! ## Confirmation -/

/-- `lock` -/
def lock (id : ℕ) : OfficeStmt (PartnerOrder × SalesPartner) := do
  Block.lock (.partnerOrder id)
  let s ← Block.get
  let o ← Block.getOrFail (s.partnerOrders.find? id) (.notFound "سفارش شریک یافت نشد")
  let partner ← Block.getOrFail (s.partners.find? o.partnerId)
    (.internal "Foreign key constraint failed (partner_id)")
  pure (o, partner)

/-- The instants at which `confirm` reads a clock: that of the database when the ownership
is inserted, and then that of the service for the order. -/
structure Moments where
  ownedAt : ℤ
  confirmedAt : ℤ

/-- A line without grams, unless its amount is zero. -/
def lineUnlessZero (accountCode : String) (side : LedgerSide) (amountRial : ℤ) :
    List LedgerLineInput :=
  if 0 < amountRial then [{ accountCode := accountCode, side := side, amountRial := rials amountRial }]
  else []

/-- The lines of either product. -/
def commonLines (o : PartnerOrder) : List LedgerLineInput :=
  [{ accountCode := PARTNER_RECEIVABLE, side := .debit, amountRial := rials o.netReceivableRial }] ++
    lineUnlessZero PARTNER_COMMISSION .debit o.commissionRial ++
    lineUnlessZero TRADE_FEE .credit o.feeRial ++
    lineUnlessZero TAX_PAYABLE .credit o.taxRial

/-- The lines of melted gold. -/
def meltedLines (o : PartnerOrder) : List LedgerLineInput :=
  let grams := Numeric.ofScale gramScale o.amountGrams
  commonLines o ++
    [{ accountCode := USER_GOLD, side := .credit, amountRial := rials o.goldValueRial,
       amountGrams := grams },
     { accountCode := GOLD_COVERAGE, side := .debit, amountGrams := grams }]

/-- The lines of a bar that leaves the vault at `cost`. -/
def barLines (o : PartnerOrder) (cost : ℚ) : List LedgerLineInput :=
  let grams := Numeric.ofScale gramScale o.amountGrams
  commonLines o ++
    [{ accountCode := BAR_SALE, side := .credit, amountRial := rials o.goldValueRial },
     { accountCode := BAR_COGS, side := .debit, amountRial := cost, amountGrams := grams },
     { accountCode := BULLION, side := .credit, amountRial := cost, amountGrams := grams }] ++
    lineUnlessZero BAR_PREMIUM .credit o.wageRial

/-- The checks of `confirm` before anything moves. -/
def assertConfirmable (s : OfficeDb) (o : PartnerOrder) (partner : SalesPartner) :
    Except ApiError Unit :=
  if o.status ≠ .pending then .error (.conflict "فقط سفارش در انتظار قابل تأیید است")
  else if partner.status ≠ .active then .error (.forbidden "همکاری با این شریک فعال نیست")
  else if o.createdViaApi ∧
      s.store.getNumber "partner.quote_ttl_minutes" 30 * 60000 < s.now - o.createdAt then
    .error (.conflict "اعتبار قیمت این سفارش منقضی شده است؛ سفارش را لغو و دوباره ثبت کنید")
  else
    match partner.creditLimitRial.filter (· != 0) with
    | none => .ok ()
    | some limit =>
      if limit < partner.balanceRial + o.netReceivableRial then
        .error (.conflict s!"سقف اعتبار شریک ({limit} ریال) با این سفارش رد می‌شود")
      else .ok ()

/-- Gold for the wallet of the customer: the id of the transaction row. -/
def deliverMelted (o : PartnerOrder) (partner : SalesPartner) : OfficeStmt ℕ :=
  OfficeStmt.onStore do
    Stmt.lockWalletOf o.userId
    let s ← Block.get
    let wallet ← Block.getOrFail (s.walletOf o.userId) (.notFound "کیف پول مشتری یافت نشد")
    Stmt.updateWallet wallet.id fun w =>
      { w with goldBalanceGrams := w.goldBalanceGrams + o.amountGrams }
    Stmt.create Db.transactionRows fun id =>
      { id := id
        userId := o.userId
        walletId := wallet.id
        type := .installmentPurchase
        amountGrams := some o.amountGrams
        amountRial := some o.totalRial
        pricePerGram := some o.pricePerGramRial
        feeAmount := some o.feeRial
        taxAmount := some o.taxRial
        status := .completed
        description := s!"partner:{partner.code}|order:{o.orderNumber}|ref:{o.externalRef}"
        createdAt := s.now
        shopOrderId := none
        relatedTransactionId := none }

/-- A bar of the vault for the customer. -/
def deliverBar (o : PartnerOrder) (adminId : Option ℕ) (m : Moments) : OfficeStmt Unit := do
  let barId ← Block.getOrFail o.hologramCodeId (.conflict "شمش سفارش مشخص نیست")
  Block.lock (.bar barId)
  let s ← Block.get
  let bar ← Block.getOrFail ((s.bars.find? barId).filter (inVault s))
    (.conflict "این شمش دیگر در موجودی خزانه نیست")
  Block.mark (.moves [bar.id])
  let s ← Block.get
  let identity := s.profiles.find? o.userId
  let _ ← OfficeStmt.createOwnership bar.id fun id =>
    { id := id
      hologramCodeId := bar.id
      ownerUserId := o.userId
      shopOrderId := none
      fullName := AccountingService.trim
        ((identity.bind Profile.firstName).getD "" ++ " " ++
          (identity.bind Profile.lastName).getD "")
      nationalCode := (identity.bind Profile.nationalCode).getD ""
      status := .active
      transferType := .initialPurchase
      createdAt := m.ownedAt
      ownershipEndAt := none }
  OfficeStmt.update OfficeDb.barRows bar.id fun b =>
    { b with status := .assigned, assignedAt := some m.confirmedAt, assignedByAdminId := adminId }

/-- The journal of a confirmation. -/
def confirmJournal (o : PartnerOrder) (partner : SalesPartner) (adminId transactionId : Option ℕ)
    (lines : List LedgerLineInput) : JournalInput :=
  let kind := match o.productKind with
    | .meltedGold => "طلای آب‌شده"
    | .bullion => "شمش"
  { description := s!"فروش {kind} از طریق شریک — {formatDecimal (Numeric.ofScale gramScale o.amountGrams)} گرم — {o.orderNumber} — {partner.name} [{partner.code}] مرجع {o.externalRef}"
    totalRial := rials o.totalRial
    totalGrams := Numeric.ofScale gramScale o.amountGrams
    source := .partner
    referenceType := some "PARTNER_ORDER"
    referenceId := some o.id
    createdByAdminId := adminId
    transactionId := transactionId
    lines := lines }

/-- An order after its confirmation. -/
def confirmed (partner : SalesPartner) (m : Moments) (transactionId : Option ℕ)
    (o : PartnerOrder) : PartnerOrder :=
  { o with
    status := .confirmed
    confirmedAt := some m.confirmedAt
    dueDate := some (m.confirmedAt + partner.settlementDays * dayMs)
    transactionId := transactionId }

theorem id_confirmed (partner : SalesPartner) (m : Moments) (transactionId : Option ℕ)
    (o : PartnerOrder) : (confirmed partner m transactionId o).id = o.id := rfl

/-- The journal of a confirmation is posted and its id goes to the order. -/
def postConfirmation (o : PartnerOrder) (partner : SalesPartner) (adminId transactionId : Option ℕ)
    (lines : List LedgerLineInput) : OfficeStmt Unit :=
  OfficeStmt.postJournal (confirmJournal o partner adminId transactionId lines)
    fun journalId t => t.setPartnerOrders (t.partnerOrders.update o.id fun r =>
      { r with confirmJournalId := some journalId })

/-- Delivery and journal of a confirmation: the id of the transaction row, if there is
one. -/
def deliver (o : PartnerOrder) (partner : SalesPartner) (adminId : Option ℕ) (m : Moments) :
    OfficeStmt (Option ℕ) :=
  match o.productKind with
  | .meltedGold => do
    let transactionId ← deliverMelted o partner
    postConfirmation o partner adminId (some transactionId) (meltedLines o)
    pure (some transactionId)
  | .bullion => do
    deliverBar o adminId m
    let s ← Block.get
    let cost := OfficeStmt.averageCostRial s.books BULLION (Numeric.ofScale gramScale o.amountGrams)
    postConfirmation o partner adminId none (barLines o cost)
    pure none

/-- The transaction of `confirm`; tells whether the order had been confirmed before. -/
def confirmOrder (id : ℕ) (adminId : Option ℕ) (m : Moments) : OfficeStmt Bool := do
  let (o, partner) ← lock id
  if o.status = .confirmed ∨ o.status = .settled then pure true
  else do
    let s ← Block.get
    Block.ofExcept (assertConfirmable s o partner)
    let transactionId ← deliver o partner adminId m
    let _ ← PartyLedgerService.post
      { partyId := partner.id
        type := "ORDER"
        debitRial := o.netReceivableRial
        referenceType := some "PARTNER_ORDER"
        referenceId := some o.id }
    Block.mark (.confirms o.id)
    OfficeStmt.update OfficeDb.partnerOrderRows o.id (confirmed partner m transactionId)
      (id_confirmed partner m transactionId)
    pure false

/-- `confirm` -/
def confirm (id : ℕ) (adminId : Option ℕ) (m : Moments) : OfficeService Bool :=
  Call.transaction (confirmOrder id adminId m)

/-! ## Cancellation and refund -/

/-- `cancel`; tells whether the order had been cancelled before. -/
def cancel (id : ℕ) (reason : String) (adminId : Option ℕ) : OfficeService Bool :=
  Call.transaction do
    let (o, _) ← lock id
    if o.status = .cancelled ∨ o.status = .refunded then pure true
    else do
      Block.check (o.status == .pending)
        (.conflict "سفارش تأییدشده لغو نمی‌شود؛ از «استرداد» استفاده کنید")
      OfficeStmt.update OfficeDb.partnerOrderRows id fun r =>
        { r with
          status := .cancelled
          cancelReason := some (reason ++ if adminId.isSome then "" else " (اعلام شریک)") }
      pure false

/-- Gold comes back from the wallet of the customer. -/
def takeMelted (o : PartnerOrder) (partner : SalesPartner) : OfficeStmt Unit :=
  OfficeStmt.onStore do
    Stmt.lockWalletOf o.userId
    let s ← Block.get
    let wallet ← Block.getOrFail (s.walletOf o.userId) (.notFound "کیف پول مشتری یافت نشد")
    let free := wallet.goldBalanceGrams - s.heldGrams wallet.id
    Block.check (decide (o.amountGrams ≤ free)) (.conflict
      s!"موجودی آزاد طلای مشتری ({formatDecimal (Numeric.ofScale gramScale free)} گرم) برای استرداد کافی نیست")
    Stmt.updateWallet wallet.id fun w =>
      { w with goldBalanceGrams := w.goldBalanceGrams - o.amountGrams }
    let _ ← Stmt.create Db.transactionRows fun id =>
      { id := id
        userId := o.userId
        walletId := wallet.id
        type := .refund
        amountGrams := some o.amountGrams
        amountRial := some o.totalRial
        pricePerGram := none
        feeAmount := none
        taxAmount := none
        status := .completed
        description := s!"partner_refund:{partner.code}|order:{o.orderNumber}"
        createdAt := s.now
        shopOrderId := none
        relatedTransactionId := o.transactionId }
    pure ()

/-- The ownership that a refund ends: the customer's, since the confirmation. -/
def refundable (s : OfficeDb) (o : PartnerOrder) (barId : ℕ) : Option HologramOwnership :=
  ((s.bars.find? barId).filter fun b => b.status == .assigned).bind fun b =>
    ((s.activeOwnerships b.id).head?).filter fun a =>
      a.ownerUserId == o.userId && o.confirmedAt.all fun t => decide (t ≤ a.createdAt)

/-- The bar goes back to the vault. -/
def takeBar (o : PartnerOrder) : OfficeStmt Unit := do
  let barId ← Block.getOrFail o.hologramCodeId (.conflict "شمش سفارش مشخص نیست")
  Block.lock (.bar barId)
  let s ← Block.get
  let active ← Block.getOrFail (refundable s o barId) (.conflict
    "مالکیت شمش پس از فروش تغییر کرده است؛ ابتدا شمش باید به مالک اولیه برگردد")
  OfficeStmt.update OfficeDb.ownershipRows active.id fun a =>
    { a with status := .voided, ownershipEndAt := some s.now }
  OfficeStmt.update OfficeDb.barRows barId fun b =>
    { b with status := .unassigned, assignedAt := none, assignedByAdminId := none }

/-- What the customer got comes back. -/
def takeBack (o : PartnerOrder) (partner : SalesPartner) : OfficeStmt Unit :=
  match o.productKind with
  | .meltedGold => takeMelted o partner
  | .bullion => takeBar o

/-- The transaction of `refund`; tells whether the order had been refunded before. -/
def refundOrder (id : ℕ) (reason : String) (adminId : Option ℕ) : OfficeStmt Bool := do
  let (o, partner) ← lock id
  if o.status = .refunded then pure true
  else do
    Block.check (o.status == .confirmed || o.status == .settled)
      (.conflict "فقط سفارش تأییدشده قابل استرداد است")
    let confirmJournalId ← Block.getOrFail o.confirmJournalId
      (.conflict "سند تأیید سفارش یافت نشد")
    takeBack o partner
    OfficeStmt.reverseJournal confirmJournalId
      { description := some s!"استرداد سفارش شریک {o.orderNumber} ({partner.name}) — {reason}"
        createdByAdminId := adminId }
      fun journalId t => t.setPartnerOrders (t.partnerOrders.update o.id fun r =>
        { r with refundJournalId := some journalId })
    let _ ← PartyLedgerService.post
      { partyId := o.partnerId
        type := "REFUND"
        creditRial := o.netReceivableRial
        referenceType := some "PARTNER_ORDER"
        referenceId := some o.id }
    Block.mark (.refunds o.id)
    OfficeStmt.update OfficeDb.partnerOrderRows id fun r =>
      { r with status := .refunded, cancelReason := some reason }
    pure false

/-- `refund` -/
def refund (id : ℕ) (reason : String) (adminId : Option ℕ) : OfficeService Bool :=
  Call.transaction (refundOrder id reason adminId)

/-! ## Settlement -/

/-- `PartnerSettlementDto` -/
structure PartnerSettlementDto where
  partnerId : ℕ
  amountRial : ℚ
  /-- matches `/^1010\d*$/` -/
  cashAccountCode : Option { code : String // AccountingService.isBankCode code = true }
  methodLabel : String
  referenceNumber : Option String
  orderIds : List ℕ
  autoAllocate : Bool

/-- The orders that a payment covers from the front, as long as it lasts. -/
def allocate : ℚ → List PartnerOrder → List PartnerOrder
  | _, [] => []
  | left, o :: os =>
    if left < rials o.netReceivableRial then []
    else o :: allocate (left - rials o.netReceivableRial) os

/-- `dueDate`, then `confirmedAt`; a missing instant comes last. -/
def dueFirst (o o' : PartnerOrder) : Bool :=
  let le (a b : Option ℤ) : Bool :=
    match a, b with
    | some x, some y => decide (x ≤ y)
    | _, none => true
    | none, some _ => false
  if o.dueDate = o'.dueDate then le o.confirmedAt o'.confirmedAt else le o.dueDate o'.dueDate

/-- The orders a settlement is for. -/
def coveredOrders (s : OfficeDb) (partnerId : ℕ) (amount : ℚ) (dto : PartnerSettlementDto) :
    Except ApiError (List PartnerOrder) :=
  if dto.orderIds ≠ [] then
    let orders := s.partnerOrders.rows.filter fun o =>
      dto.orderIds.contains o.id && o.partnerId == partnerId
    if orders.length ≠ dto.orderIds.length then
      .error (.badRequest "برخی سفارش‌ها یافت نشد یا متعلق به این شریک نیست")
    else
      match orders.find? fun o => o.status != .confirmed with
      | some bad => .error (.badRequest
          s!"سفارش {bad.orderNumber} در وضعیت «تأییدشده‌ی تسویه‌نشده» نیست")
      | none => .ok orders
  else if dto.autoAllocate then
    .ok (allocate amount ((s.partnerOrders.rows.filter fun o =>
      o.partnerId == partnerId && o.status == .confirmed).mergeSort dueFirst))
  else .ok []

/-- An order that a settlement covers. -/
def settled (settlementId : ℕ) (o : PartnerOrder) : PartnerOrder :=
  { o with status := .settled, settlementId := some settlementId }

theorem id_settled (settlementId : ℕ) (o : PartnerOrder) :
    (settled settlementId o).id = o.id := rfl

/-- The update of the covered orders: the rows are locked, whatever has become of them,
and written. -/
def markSettled (settlementId : ℕ) (auto : Bool) (orderIds : List ℕ) : OfficeStmt Unit := do
  Block.lockAll (orderIds.map .partnerOrder)
  Block.mark (.settles settlementId auto orderIds)
  Block.write fun t => t.setPartnerOrders
    (t.partnerOrders.updateWhere (fun o => orderIds.contains o.id) (settled settlementId)
      (id_settled settlementId))

/-- The journal of a settlement. -/
def settlementJournal (amount : ℚ) (cashCode : String) (adminId : Option ℕ)
    (description : String) : JournalInput where
  description := description
  totalRial := amount
  totalGrams := 0
  source := .partner
  referenceType := some "PARTNER_SETTLEMENT"
  createdByAdminId := adminId
  lines :=
    [{ accountCode := cashCode, side := .debit, amountRial := amount },
     { accountCode := PARTNER_RECEIVABLE, side := .credit, amountRial := amount }]

/-- The transaction of `settle`. -/
def settleOrders (cal : Calendar) (adminId : Option ℕ) (dto : PartnerSettlementDto) (amount : ℤ) :
    OfficeStmt ℕ := do
  let cashCode := (dto.cashAccountCode.map Subtype.val).getD CASH
  let s ← Block.get
  let partner ← Block.getOrFail (s.partners.find? dto.partnerId) (.notFound "شریک فروش یافت نشد")
  let s ← Block.get
  Block.check ((s.books.accounts.findByCode cashCode).any Account.isActive)
    (.badRequest "حساب نقد/بانک معتبر نیست")
  let s ← Block.get
  let orders ← Block.ofExcept (coveredOrders s partner.id (rials amount) dto)
  let settlementNumber ← OfficeStmt.nextNumber cal "PTS"
  let reference := (dto.referenceNumber.map fun r => s!" — پیگیری {r}").getD ""
  let covered := if orders.isEmpty then "" else s!" — {orders.length} سفارش"
  let id ← OfficeStmt.create OfficeDb.settlementRows fun id =>
    { id := id
      settlementNumber := settlementNumber
      partnerId := partner.id
      amountRial := amount
      cashAccountCode := cashCode
      journalEntryId := none }
  OfficeStmt.postJournal
    { settlementJournal (rials amount) cashCode adminId
        s!"تسویه‌ی {partner.name} [{partner.code}] — {settlementNumber} ({dto.methodLabel}{reference}){covered}"
      with referenceId := some id }
    fun journalId t => t.setSettlements (t.settlements.update id fun r =>
      { r with journalEntryId := some journalId })
  let _ ← PartyLedgerService.post
    { partyId := partner.id
      type := "SETTLEMENT"
      creditRial := amount
      referenceType := some "PARTNER_SETTLEMENT"
      referenceId := some id }
  markSettled id (dto.orderIds.isEmpty && dto.autoAllocate) (orders.map PartnerOrder.id)
  pure id

/-- `settle`: the id of the settlement. -/
def settle (cal : Calendar) (adminId : Option ℕ) (dto : PartnerSettlementDto) :
    OfficeService ℕ := do
  Call.check (decide (0 < dto.amountRial ∧ dto.amountRial.den = 1))
    (.badRequest "مبلغ تسویه نامعتبر است")
  Call.transaction (settleOrders cal adminId dto dto.amountRial.num)

end PartnerOrdersService

end ArkanGold
