import ArkanGold.Accounting.GoldCustody
import ArkanGold.Common.Text
import ArkanGold.Store.OfficeDatabase

/-!
# Approval of the purchase orders of agents

`AgentPurchaseService.approve` hands bars of the vault over to an agent who has paid for them.

- The bars are named by their codes and matched with the items of the order by weight and karat;
  several items may have one weight and karat.
- All it writes it writes in one transaction: the bars, the movements of stock, the journal, the
  ledger of the agent, the invoice and the order. The message to the agent is sent afterwards, and
  its failure is swallowed.
- Of an invoice the columns that are the same whatever the order is (the snapshots of the company
  and of the agent, the hash, the total in words) are left out, and so is the journal of a movement.
-/

namespace ArkanGold

namespace AgentAccountingService

open AccountingService

/-- `AGENT_ACCOUNTS.VAULT_BULLION` -/
def VAULT_BULLION : String := "1025"

/-- `AGENT_ACCOUNTS.RECEIVABLE` -/
def RECEIVABLE : String := "1040"

/-- `AGENT_ACCOUNTS.BAR_SALE_INCOME` -/
def BAR_SALE_INCOME : String := "4040"

/-- `AGENT_ACCOUNTS.PREMIUM_INCOME` -/
def PREMIUM_INCOME : String := "4050"

/-- `AGENT_ACCOUNTS.BAR_COGS` -/
def BAR_COGS : String := "5050"

/-- `AGENT_ACCOUNTS.ORDER_ADVANCE` -/
def ORDER_ADVANCE : String := "2080"

/-- `agentTag` -/
def agentTag (code : String) : String := s!"[{code}]"

/-- `AgentLedgerInput`; a missing amount is zero. -/
structure AgentLedgerInput where
  agentId : ℕ
  type : String
  debitRial : ℤ := 0
  creditRial : ℤ := 0
  referenceType : Option String := none
  referenceId : Option ℕ := none

/-- `postLedger` -/
def postLedger (input : AgentLedgerInput) : OfficeStmt Unit := do
  Block.lock (.agent input.agentId)
  let s ← Block.get
  let agent ← Block.getOrFail (s.agents.find? input.agentId) (.notFound "نماینده یافت نشد")
  let balanceAfter := agent.balanceRial + input.debitRial - input.creditRial
  OfficeStmt.update OfficeDb.agentRows input.agentId fun a => { a with balanceRial := balanceAfter }
  let _ ← OfficeStmt.create OfficeDb.agentLedgerRows fun id =>
    { id := id
      agentId := input.agentId
      type := input.type
      debitRial := input.debitRial
      creditRial := input.creditRial
      balanceAfterRial := balanceAfter
      referenceType := input.referenceType
      referenceId := input.referenceId }
  pure ()

/-- What `journalPurchaseSale` is given. -/
structure PurchaseSale where
  agentTag : String
  orderNumber : String
  goldValueRial : ℚ
  premiumRial : ℚ
  totalGrams : ℚ
  credit : Bool

/-- The journal of `journalPurchaseSale`. -/
def purchaseSaleJournal (b : Books) (p : PurchaseSale) : JournalInput :=
  let total := p.goldValueRial + p.premiumRial
  let costRial := averageCostRial b VAULT_BULLION p.totalGrams
  let credited := if p.credit then " (اعتباری)" else ""
  { description := s!"فروش قطعی شمش به نماینده {p.agentTag}{credited} — سفارش {p.orderNumber}"
    totalRial := total
    totalGrams := p.totalGrams
    referenceType := some "AGENT_PURCHASE"
    lines :=
      [{ accountCode := if p.credit then RECEIVABLE else ORDER_ADVANCE, side := .debit,
         amountRial := total },
       { accountCode := BAR_SALE_INCOME, side := .credit, amountRial := p.goldValueRial }] ++
      (if 0 < p.premiumRial then
        [{ accountCode := PREMIUM_INCOME, side := .credit, amountRial := p.premiumRial }]
      else []) ++
      [{ accountCode := BAR_COGS, side := .debit, amountRial := costRial,
         amountGrams := p.totalGrams },
       { accountCode := VAULT_BULLION, side := .credit, amountRial := costRial,
         amountGrams := p.totalGrams }] }

/-- `journalPurchaseSale`, followed by a write that may use the id of the journal. -/
def journalPurchaseSale (p : PurchaseSale) (link : ℕ → OfficeDb → OfficeDb) : OfficeStmt Unit := do
  let s ← Block.get
  OfficeStmt.postJournal (purchaseSaleJournal s.books p) link

end AgentAccountingService

namespace AgentPurchaseService

open AgentAccountingService

/-- `PURCHASE_METHOD_FA` -/
def PURCHASE_METHOD_FA : AgentPurchasePaymentMethod → String
  | .wallet => "کیف پول نمایندگی"
  | .gateway => "درگاه پرداخت اینترنتی"
  | .bankTransfer => "واریز بانکی / حساب به حساب"
  | .credit => "خرید اعتباری"

/-- A weight as a decimal. -/
def gramsOf (weightGrams : ℤ) : ℚ := Numeric.ofScale gramScale weightGrams

/-! ## Bars and items -/

/-- The bar is of the weight and the karat of the item. -/
def matchesItem (it : AgentPurchaseItem) (b : HologramCode) : Bool :=
  b.purityKarat == some it.purityKarat && b.weightGrams.getD 0 == it.weightGrams

/-- The items are of one weight and karat. -/
def sameKind (it x : AgentPurchaseItem) : Bool :=
  x.purityKarat == it.purityKarat && x.weightGrams == it.weightGrams

/-- `bars`: the bars with one of the codes. -/
def barsWithCodes (s : OfficeDb) (codes : List String) : List HologramCode :=
  s.bars.rows.filter fun b => codes.contains b.code

/-- `bad`: the bar is not one that lies free in the vault. -/
def isBad (s : OfficeDb) (b : HologramCode) : Bool :=
  b.status != .unassigned || b.weightGrams.isNone || b.purityKarat.isNone ||
    b.shopOrderItemId.isSome || !(s.activeOwnerships b.id).isEmpty ||
    (s.findActiveIncident b.id).isSome

/-- `needed`: what the items of the weight and the karat of `it` ask for together. -/
def needed (items : List AgentPurchaseItem) (it : AgentPurchaseItem) : ℕ :=
  ((items.filter (sameKind it)).map (·.quantity)).sum

/-- The bars match the items. -/
def assertMatching (items : List AgentPurchaseItem) (bars : List HologramCode) :
    Except ApiError Unit :=
  match items.find? fun it => (bars.filter (matchesItem it)).length != needed items it with
  | none => .ok ()
  | some it =>
    let karat := match it.purityKarat with
      | .k24 => "۲۴"
      | .k18 => "۱۸"
    let matching := (bars.filter (matchesItem it)).length
    .error (.badRequest s!"برای «{it.title}» باید {localeFa (needed items it)} شمش {formatDecimal (gramsOf it.weightGrams)} گرمی عیار {karat} تخصیص داده شود (تخصیص فعلی: {localeFa matching})")

/-- `totalQty` -/
def totalQty (items : List AgentPurchaseItem) : ℕ := (items.map (·.quantity)).sum

/-! ## The invoice -/

/-- A row of the invoice with the codes that it uses. -/
def invoiceRow (idx : ℕ) (it : AgentPurchaseItem) (used : List HologramCode) : AgentInvoiceItem :=
  let karat := match it.purityKarat with
    | .k24 => "۲۴ (۹۹۹٫۹)"
    | .k18 => "۱۸ (۷۵۰)"
  let title := s!"{it.title} — وزن {toPersianDigits (formatDecimal (gramsOf it.weightGrams))} گرم، عیار {karat}"
  { rowNo := idx + 1
    title := if used.isEmpty then title
      else title ++ " — کدهای هولوگرام: " ++
        String.intercalate "، " (used.map fun b => toPersianDigits b.code)
    purityKarat := it.purityKarat
    quantity := it.quantity
    weightGrams := gramsOf it.weightGrams * it.quantity
    unitPriceRial := it.unitGoldValueRial
    makingRial := it.unitPremiumRial * it.quantity
    totalRial := it.lineTotalRial }

/-- The bars of the pool that a row uses. -/
def usedBars (pool : List HologramCode) (it : AgentPurchaseItem) : List HologramCode :=
  (pool.filter (matchesItem it)).take it.quantity

/-- The rows of the invoice: a bar that was used leaves the pool. -/
def invoiceRows (idx : ℕ) (pool : List HologramCode) :
    List AgentPurchaseItem → List AgentInvoiceItem
  | [] => []
  | it :: rest =>
    let used := usedBars pool it
    invoiceRow idx it used ::
      invoiceRows (idx + 1) (used.foldl (fun p b => p.eraseP (·.code == b.code)) pool) rest

/-- `buildCompanySnapshot`: the names of what is missing. -/
def missingCompanyTexts (s : OfficeDb) : List String :=
  (if s.getText "company.legal_name" = "" then ["نام حقوقی"] else []) ++
    (if s.getText "company.national_id" = "" then ["شناسه ملی"] else []) ++
    (if s.getText "company.registration_number" = "" then ["شماره ثبت"] else []) ++
    (if s.getText "company.address" = "" then ["نشانی"] else [])

/-- `issue` for an order; an invoice that exists is not issued again. -/
def issue (cal : Calendar) (order : AgentPurchaseOrder) (items : List AgentInvoiceItem)
    (paymentLabel : String) : OfficeStmt ℕ := do
  Block.check (!items.isEmpty) (.badRequest "سند بدون قلم قابل صدور نیست")
  let s ← Block.get
  match s.agentInvoices.rows.find? fun i => i.orderId == order.id with
  | some existing => pure existing.id
  | none => do
    let missing := missingCompanyTexts s
    Block.check missing.isEmpty (.badRequest
      ("صدور سند ممکن نیست. اطلاعات شرکت در تنظیمات سیستم کامل نشده است: " ++
        String.intercalate "، " missing))
    let s ← Block.get
    let _ ← Block.getOrFail (s.agents.find? order.agentId) (.notFound "نماینده یافت نشد")
    let invoiceNumber ← OfficeStmt.nextNumber cal "INV"
    OfficeStmt.create OfficeDb.agentInvoiceRows fun id =>
      { id := id
        invoiceNumber := invoiceNumber
        status := if order.paymentMethod = .credit then .issued else .paid
        orderId := order.id
        agentId := order.agentId
        paymentMethod := paymentLabel
        items := items
        subtotalRial := (items.map fun i => i.unitPriceRial * (i.quantity : ℤ) + i.makingRial).sum
        totalRial := (items.map (·.totalRial)).sum }

/-- `issueAgentPurchaseInvoice`: the id of the invoice. -/
def issueAgentPurchaseInvoice (cal : Calendar) (orderId : ℕ) (bars : List HologramCode)
    (paymentLabel : String) : OfficeStmt ℕ := do
  let s ← Block.get
  let order ← Block.getOrFail (s.agentPurchases.find? orderId) (.notFound "سفارش خرید یافت نشد")
  issue cal order (invoiceRows 0 bars order.items) paymentLabel

/-! ## The approval -/

/-- `ApprovePurchaseOrderDto` -/
structure ApprovePurchaseOrderDto where
  codes : List String
  adminNote : Option String

/-- `dup`: the first code that stands in the list before, unless it is empty. -/
def dup (codes : List String) : Option String :=
  ((codes.zipIdx.find? fun x => codes.idxOf x.1 != x.2).map Prod.fst).filter (· != "")

/-- The order with its agent. -/
def lockOrder (orderId : ℕ) : OfficeStmt (AgentPurchaseOrder × Agent) := do
  Block.lock (.agentPurchase orderId)
  let s ← Block.get
  let order ← Block.getOrFail (s.agentPurchases.find? orderId) (.notFound "سفارش خرید یافت نشد")
  -- the agent of an order is a foreign key
  let agent ← Block.getOrFail (s.agents.find? order.agentId) Stmt.recordNotFound
  Block.check (order.status == .paid)
    (.conflict "فقط سفارش پرداخت‌شده (یا اعتباری ثبت‌شده) قابل تأیید است")
  pure (order, agent)

/-- The bars with the codes, checked against the items of the order. -/
def takeBars (items : List AgentPurchaseItem) (codes : List String) :
    OfficeStmt (List HologramCode) := do
  Block.check (codes.length == totalQty items) (.badRequest s!"تعداد کدها ({localeFa codes.length}) با تعداد شمش سفارش ({localeFa (totalQty items)}) برابر نیست")
  OfficeStmt.lockBarsByCode codes
  let s ← Block.get
  let bars := barsWithCodes s codes
  let missing := codes.filter fun c => !bars.any fun b => b.code == c
  Block.check missing.isEmpty
    (.notFound ("کد(های) یافت نشد: " ++ String.intercalate "، " missing))
  let bad := bars.filter (isBad s)
  Block.check bad.isEmpty (.conflict
    ("این کدها شمش کددار آزاد خزانه نیستند (کدگذاری‌نشده، فروخته‌شده، امانی یا گزارش‌شده): " ++
      String.intercalate "، " (bad.map (·.code))))
  Block.ofExcept (assertMatching items bars)
  pure bars

/-- The bars of the weight and the karat of an item go to the agent, those that are still free. -/
def allocateItem (agentId : ℕ) (now : ℤ) (bars : List HologramCode) (it : AgentPurchaseItem) :
    OfficeStmt Unit :=
  let ids := (bars.filter (matchesItem it)).map (·.id)
  OfficeDb.barRows.updateMany (fun b => ids.contains b.id && b.status == .unassigned) fun b =>
    { b with
      status := .agentOwned
      agentId := some agentId
      agentAllocatedAt := some now
      agentPremiumRial := some it.unitPremiumRial }

/-- The bars go to the agent; all of them have to. -/
def allocate (order : AgentPurchaseOrder) (now : ℤ) (bars : List HologramCode) :
    OfficeStmt Unit := do
  Block.forEach (allocateItem order.agentId now bars) order.items
  let s ← Block.get
  let changed := s.bars.rows.filter fun b =>
    (bars.map (·.id)).contains b.id && b.status == .agentOwned && b.agentId == some order.agentId
  Block.check (changed.length == bars.length)
    (.conflict "وضعیت برخی شمش‌ها هم‌زمان تغییر کرد؛ دوباره تلاش کنید")

/-- The movement of a bar. -/
def moveBar (order : AgentPurchaseOrder) (voucherNumber : String) (adminId : ℕ) (b : HologramCode) :
    OfficeStmt Unit := do
  let _ ← OfficeStmt.create OfficeDb.agentMovementRows fun id =>
    { id := id
      voucherNumber := voucherNumber
      agentId := order.agentId
      hologramCodeId := b.id
      type := .purchase
      weightGrams := b.weightGrams.getD 0
      note := some s!"فروش قطعی به نماینده — سفارش {order.orderNumber}"
      referenceId := some order.id
      performedByAdminId := some adminId }
  pure ()

/-- `paymentLabel` -/
def paymentLabel (order : AgentPurchaseOrder) (agent : Agent) : String :=
  if order.paymentMethod = .credit then
    s!"خرید اعتباری — سررسید پرداخت {agent.creditDays.getD 0} روز پس از تحویل"
  else
    let reference := match order.paymentReference.filter (· != "") with
      | some r => s!" (مرجع {r})"
      | none => ""
    s!"{PURCHASE_METHOD_FA order.paymentMethod} — پرداخت کامل پیش از تحویل{reference}"

/-- What `journalPurchaseSale` is given for an order. -/
def saleOf (order : AgentPurchaseOrder) (agent : Agent) (bars : List HologramCode) :
    PurchaseSale where
  agentTag := agentTag agent.code
  orderNumber := order.orderNumber
  goldValueRial := order.goldValueRial
  premiumRial := order.premiumRial
  totalGrams := (bars.map fun b => gramsOf (b.weightGrams.getD 0)).sum
  credit := order.paymentMethod = .credit

/-- The debt of an order on credit enters the ledger of the agent. -/
def billCredit (order : AgentPurchaseOrder) : OfficeStmt Unit :=
  if order.paymentMethod = .credit then
    postLedger
      { agentId := order.agentId
        type := "PURCHASE"
        debitRial := order.totalRial
        referenceType := some "AGENT_PURCHASE"
        referenceId := some order.id }
  else pure ()

/-- The proforma of an order is consumed. -/
def consumeProforma (order : AgentPurchaseOrder) : OfficeStmt Unit :=
  match order.proformaInvoiceId with
  | some proformaId =>
    OfficeDb.invoiceRows.updateMany (fun i => i.id == proformaId && i.status == .issued)
      fun i => { i with status := .consumed }
  | none => pure ()

/-- The order as approved. -/
def approved (agent : Agent) (now : ℤ) (adminId : ℕ) (adminNote : Option String)
    (voucherNumber : String) (invoiceId : ℕ) (o : AgentPurchaseOrder) : AgentPurchaseOrder :=
  { o with
    status := .approved
    approvedAt := some now
    approvedById := some adminId
    voucherNumber := some voucherNumber
    invoiceId := some invoiceId
    adminNote := adminNote.or o.adminNote
    creditDueAt :=
      if o.paymentMethod = .credit then some (now + agent.creditDays.getD 0 * dayMs) else none }

/-- The journal of the sale, whose id goes to the order. -/
def bookSale (order : AgentPurchaseOrder) (agent : Agent) (bars : List HologramCode) :
    OfficeStmt Unit :=
  journalPurchaseSale (saleOf order agent bars) fun journalId t =>
    t.setAgentPurchases (t.agentPurchases.update order.id fun o =>
      { o with saleJournalId := some journalId })

/-- The transaction of `approve`. -/
def approveOrder (cal : Calendar) (orderId adminId : ℕ) (adminNote : Option String)
    (codes : List String) : OfficeStmt Unit := do
  let (order, agent) ← lockOrder orderId
  let bars ← takeBars order.items codes
  let s ← Block.get
  let now := s.now
  let voucherNumber ← OfficeStmt.nextNumber cal "AGV"
  allocate order now bars
  bookSale order agent bars
  Block.forEach (moveBar order voucherNumber adminId) bars
  billCredit order
  let invoiceId ← issueAgentPurchaseInvoice cal order.id bars (paymentLabel order agent)
  consumeProforma order
  OfficeStmt.update OfficeDb.agentPurchaseRows order.id
    (approved agent now adminId adminNote voucherNumber invoiceId)

/-- The bars of the movements of a voucher. -/
def barsOfVoucher (s : OfficeDb) (voucherNumber : String) : List HologramCode :=
  (s.agentMovements.rows.filter fun m =>
    m.voucherNumber == voucherNumber && m.type == .purchase).filterMap fun m =>
      s.bars.find? m.hologramCodeId

/-- `getOrder`: the order and the bars of its voucher. -/
def getOrder (orderId : ℕ) : OfficeService (AgentPurchaseOrder × List HologramCode) := do
  let s ← Call.transaction Block.get
  let order ← Call.getOrFail (s.agentPurchases.find? orderId) (.notFound "سفارش خرید یافت نشد")
  let s ← Call.transaction Block.get
  pure (order, ((order.voucherNumber.filter (· != "")).map (barsOfVoucher s)).getD [])

/-- `approve` -/
def approve (cal : Calendar) (orderId adminId : ℕ) (dto : ApprovePurchaseOrderDto) :
    OfficeService (AgentPurchaseOrder × List HologramCode) := do
  let codes := dto.codes.map trimText
  Call.check (dup codes).isNone (.badRequest ("کد " ++ (dup codes).getD "" ++ " تکراری است"))
  Call.transaction (approveOrder cal orderId adminId dto.adminNote codes)
  getOrder orderId

end AgentPurchaseService

end ArkanGold
