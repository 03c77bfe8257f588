import ArkanGold.Accounting.GoldCustody
import ArkanGold.Lib.Lots

/-!
# Cover for the users' gold

`TreasuryService.coverageReport` compares the gold that the users hold with the gold in the vault,
at the bank and on the way, and recommends how much to buy; `createPurchaseRequest` turns the
recommendation into a draft order.

- `Position` and `Policy` are what the report reads, `coverageReport` is its arithmetic, with the
  twenty significant digits of `Decimal`.
- `Treasury` is the tables: the position is read from them, and `createOrder` writes a draft.
- Confirming a draft purchase moves its weight from the drafts to what is on the way; the journal
  of the confirmation is on other accounts than those of the report.
-/

namespace ArkanGold

/-- `TreasurySide` -/
inductive TreasurySide where
  | buy
  | sell
  deriving DecidableEq

/-- `TreasuryAssetType` -/
inductive TreasuryAssetType where
  | meltedGold
  | bullion
  deriving DecidableEq

/-- `TreasuryOrderStatus` -/
inductive TreasuryOrderStatus where
  | draft
  | confirmed
  | received
  | cancelled
  deriving DecidableEq

/-- A row of `suppliers`. -/
structure Supplier where
  id : ℕ
  isActive : Bool
  deriving DecidableEq

/-- A row of `treasury_orders`. -/
structure TreasuryOrder where
  orderNumber : ℕ
  side : TreasurySide
  assetType : TreasuryAssetType
  status : TreasuryOrderStatus
  supplierId : ℕ
  grossWeightGrams : ℤ
  purityMillesimal : ℕ
  fineGrams : ℤ
  pricePerGramRial : ℤ
  goldValueRial : ℤ
  wageRial : ℤ
  feeRial : ℤ
  taxRial : ℤ
  totalRial : ℤ
  requestedGrams : Option ℤ
  note : Option String
  createdByAdminId : ℕ
  deriving DecidableEq

/-- `TreasuryOrderDto` -/
structure TreasuryOrderDto where
  side : TreasurySide
  assetType : TreasuryAssetType
  supplierId : ℕ
  grossWeightGrams : ℚ
  purityMillesimal : ℕ
  pricePerGramRial : ℚ
  wageRial : Option ℚ := none
  feeRial : Option ℚ := none
  taxRial : Option ℚ := none
  requestedGrams : Option ℚ := none
  note : Option String := none

/-- `PurchaseRequestDto` -/
structure PurchaseRequestDto where
  supplierId : ℕ
  grams : Option ℚ := none
  pricePerGramRial : Option ℚ := none
  note : Option String := none

namespace TreasuryService

open AccountingService Decimal

/-! ## The report -/

/-- The grams that the report reads. -/
structure Position where
  liability : ℚ
  vault : ℚ
  atBank : ℚ
  inTransit : ℚ
  drafts : ℚ

/-- The settings that the report reads. -/
structure Policy where
  targetPercent : ℚ
  bufferGrams : ℚ
  lotGrams : ℚ
  alertPercent : ℚ
  includeBankGold : String

/-- `includeBankGold.trim() !== 'false'` -/
def Policy.bankCounts (y : Policy) : Bool := trim y.includeBankGold != "false"

/-- The state of the cover. -/
inductive CoverageStatus where
  | covered
  | critical
  | shortfall
  deriving DecidableEq

/-- The figures of `coverageReport`. -/
structure CoverageReport where
  coveredGrams : ℚ
  requiredGrams : ℚ
  shortfallGrams : ℚ
  surplusGrams : ℚ
  coveragePercent : ℚ
  status : CoverageStatus
  recommendedPurchaseGrams : ℚ
  estimatedPurchaseCostRial : ℚ

/-- `covered` -/
def covered (y : Policy) (p : Position) : ℚ :=
  plus precision (plus precision p.vault p.inTransit) (if y.bankCounts then p.atBank else 0)

/-- `required` -/
def required (y : Policy) (p : Position) : ℚ :=
  toDecimalPlaces 4 .up (plus precision
    (dividedBy precision (times precision p.liability y.targetPercent) 100) y.bufferGrams)

/-- `shortfall`, which may be negative. -/
def shortfall (y : Policy) (p : Position) : ℚ := minus precision (required y p) (covered y p)

/-- `recommended` -/
def recommended (y : Policy) (p : Position) : ℚ :=
  let recommended := max 0 (minus precision (shortfall y p) p.drafts)
  if 0 < recommended ∧ 0 < y.lotGrams then
    times precision ⌈dividedBy precision recommended y.lotGrams⌉ y.lotGrams
  else recommended

/-- `coverageReport` -/
def coverageReport (price : ℚ) (y : Policy) (p : Position) : CoverageReport :=
  let shortfall := shortfall y p
  let coveragePercent := if 0 < p.liability then
      toDecimalPlaces 2 .halfUp
        (times precision (dividedBy precision (covered y p) p.liability) 100)
    else 100
  { coveredGrams := covered y p
    requiredGrams := required y p
    shortfallGrams := max 0 shortfall
    surplusGrams := max 0 (-shortfall)
    coveragePercent := coveragePercent
    status := if shortfall ≤ 0 then .covered
      else if coveragePercent < y.alertPercent then .critical else .shortfall
    recommendedPurchaseGrams := recommended y p
    estimatedPurchaseCostRial :=
      toDecimalPlaces 0 .halfUp (times precision (recommended y p) price) }

/-! ## Orders -/

/-- What `computeAmounts` returns. -/
structure Amounts where
  gross : ℚ
  fine : ℚ
  price : ℚ
  goldValue : ℚ
  wage : ℚ
  fee : ℚ
  tax : ℚ
  total : ℚ

/-- The check of one of the amounts beside the value of the gold. -/
def wholeRials (label : String) (v : ℚ) : Except ApiError Unit :=
  if v < 0 ∨ v.den ≠ 1 then
    .error (.badRequest s!"{label} باید عدد صحیح نامنفی (ریال) باشد")
  else .ok ()

/-- The weights of an order: on the scales and in gold of 750. -/
def weightsOf (dto : TreasuryOrderDto) : Except ApiError (ℚ × ℚ) := do
  let gross := dto.grossWeightGrams
  if gross ≤ 0 then throw (.badRequest "وزن باید بیشتر از صفر باشد")
  if 4 < decimalPlaces gross then throw (.badRequest "دقت وزن حداکثر ۴ رقم اعشار است")
  if dto.pricePerGramRial ≤ 0 then throw (.badRequest "قیمت نامعتبر است")
  if dto.assetType = .meltedGold ∧ 1000 < dto.purityMillesimal then
    throw (.badRequest "عیار نامعتبر است")
  match dto.assetType with
  | .meltedGold => pure (gross, toDecimalPlaces 4 .down
      (dividedBy precision (times precision gross dto.purityMillesimal) 750))
  | .bullion => pure (gross, gross)

/-- `computeAmounts` -/
def computeAmounts (dto : TreasuryOrderDto) : Except ApiError Amounts := do
  let (gross, fine) ← weightsOf dto
  let price := dto.pricePerGramRial
  let wage := dto.wageRial.getD 0
  let fee := dto.feeRial.getD 0
  let tax := dto.taxRial.getD 0
  wholeRials "اجرت" wage
  wholeRials "کارمزد" fee
  wholeRials "مالیات" tax
  let goldValue := toDecimalPlaces 0 .halfUp (times precision fine price)
  let total := match dto.side with
    | .buy => plus precision (plus precision (plus precision goldValue wage) fee) tax
    | .sell => minus precision (plus precision (plus precision goldValue wage) tax) fee
  if total ≤ 0 then throw (.badRequest "مبلغ کل نامعتبر است")
  pure { gross, fine, price, goldValue, wage, fee, tax, total }

/-- The tables. -/
structure Treasury where
  /-- the gold of the wallets, in units of `0.0001` g -/
  wallets : List ℤ
  books : Books
  orders : List TreasuryOrder
  suppliers : List Supplier
  pricePerGramRial : ℚ
  policy : Policy
  nextNumber : TreasurySide → ℕ

variable {t t' : Treasury}

/-- The sum of the weights of the purchases of melted gold in a status. -/
def purchases (status : TreasuryOrderStatus) (orders : List TreasuryOrder) : ℤ :=
  ((orders.filter fun o =>
    o.side = .buy ∧ o.assetType = .meltedGold ∧ o.status = status).map
      TreasuryOrder.fineGrams).sum

/-- What the report reads of the tables. -/
def Treasury.position (t : Treasury) : Position where
  liability := Numeric.ofScale gramScale t.wallets.sum
  vault := Numeric.ofScale gramScale (balanceOf .grams t.books ACC.GOLD_VAULT)
  atBank := Numeric.ofScale gramScale (balanceOf .grams t.books ACC.GOLD_AT_BANK)
  inTransit := Numeric.ofScale gramScale (purchases .confirmed t.orders)
  drafts := Numeric.ofScale gramScale (purchases .draft t.orders)

/-- The report on the tables. -/
def Treasury.report (t : Treasury) : CoverageReport :=
  coverageReport t.pricePerGramRial t.policy t.position

/-- The row of a draft. -/
def draftOf (adminId orderNumber : ℕ) (dto : TreasuryOrderDto) (a : Amounts) : TreasuryOrder where
  orderNumber := orderNumber
  side := dto.side
  assetType := dto.assetType
  status := .draft
  supplierId := dto.supplierId
  grossWeightGrams := Numeric.toScale gramScale a.gross
  purityMillesimal := dto.purityMillesimal
  fineGrams := Numeric.toScale gramScale a.fine
  pricePerGramRial := Numeric.toScale rialScale a.price
  goldValueRial := Numeric.toScale rialScale a.goldValue
  wageRial := Numeric.toScale rialScale a.wage
  feeRial := Numeric.toScale rialScale a.fee
  taxRial := Numeric.toScale rialScale a.tax
  totalRial := Numeric.toScale rialScale a.total
  requestedGrams := dto.requestedGrams.map (Numeric.toScale gramScale)
  note := dto.note
  createdByAdminId := adminId

/-- `createOrder` -/
def createOrder (adminId : ℕ) (dto : TreasuryOrderDto) (t : Treasury) :
    Except ApiError Treasury := do
  match t.suppliers.find? (·.id = dto.supplierId) with
  | none => throw (.notFound "تأمین‌کننده یافت نشد")
  | some sup =>
    if !sup.isActive then throw (.badRequest "تأمین‌کننده غیرفعال است")
    let a ← computeAmounts dto
    let n := t.nextNumber dto.side
    pure { t with
      orders := t.orders ++ [draftOf adminId n dto a]
      nextNumber := Function.update t.nextNumber dto.side (n + 1) }

/-- `createPurchaseRequest` -/
def createPurchaseRequest (adminId : ℕ) (dto : PurchaseRequestDto) (t : Treasury) :
    Except ApiError Treasury := do
  let report := t.report
  let grams := dto.grams.getD report.recommendedPurchaseGrams
  if grams ≤ 0 then
    throw (.badRequest "طبق گزارش پوشش نیازی به خرید نیست؛ مقدار را دستی وارد کنید")
  let price := dto.pricePerGramRial.getD t.pricePerGramRial
  createOrder adminId
    { side := .buy
      assetType := .meltedGold
      supplierId := dto.supplierId
      grossWeightGrams := grams
      purityMillesimal := 750
      pricePerGramRial := toDecimalPlaces 0 .halfUp price
      requestedGrams := some report.recommendedPurchaseGrams
      note := some (dto.note.getD
        ("درخواست خرید از گزارش پوشش — پوشش " ++ formatDecimal report.coveragePercent ++
          "٪، کسری " ++ formatDecimal report.shortfallGrams ++ " گرم")) } t

/-! ## Confirmed purchases -/

/-- A draft purchase of melted gold after its confirmation. -/
def confirmDraft (o : TreasuryOrder) : TreasuryOrder :=
  if o.side = .buy ∧ o.assetType = .meltedGold ∧ o.status = .draft then
    { o with status := .confirmed } else o

/-- The tables after all draft purchases of melted gold are confirmed. -/
def Treasury.allConfirmed (t : Treasury) : Treasury :=
  { t with orders := t.orders.map confirmDraft }

/-- The position after the drafts and a purchase of so many grams are confirmed. -/
def Position.purchased (grams : ℚ) (p : Position) : Position :=
  { p with inTransit := p.inTransit + (p.drafts + grams), drafts := 0 }

theorem purchases_append (status : TreasuryOrderStatus) (l l' : List TreasuryOrder) :
    purchases status (l ++ l') = purchases status l + purchases status l' := by
  simp [purchases]

theorem purchases_cons (status : TreasuryOrderStatus) (o : TreasuryOrder)
    (l : List TreasuryOrder) :
    purchases status (o :: l) = purchases status [o] + purchases status l :=
  purchases_append status [o] l

/-- One confirmation. -/
theorem purchases_confirm (o : TreasuryOrder) :
    purchases .confirmed [confirmDraft o] = purchases .confirmed [o] + purchases .draft [o] ∧
      purchases .draft [confirmDraft o] = 0 := by
  unfold confirmDraft
  split
  · rename_i h
    obtain ⟨hside, hasset, hstatus⟩ := h
    simp [purchases, hside, hasset, hstatus]
  · rename_i h
    have hdraft : purchases .draft [o] = 0 := by simp [purchases, h]
    exact ⟨by rw [hdraft, add_zero], hdraft⟩

/-- Confirming the drafts moves their weight. -/
theorem purchases_map_confirm (l : List TreasuryOrder) :
    purchases .confirmed (l.map confirmDraft) =
        purchases .confirmed l + purchases .draft l ∧
      purchases .draft (l.map confirmDraft) = 0 := by
  induction l with
  | nil => simp [purchases]
  | cons o l ih =>
    obtain ⟨hconfirmed, hdraft⟩ := ih
    obtain ⟨hone, hzero⟩ := purchases_confirm o
    rw [List.map_cons, purchases_cons .confirmed (confirmDraft o), hone, hconfirmed,
      purchases_cons .draft (confirmDraft o), hzero, hdraft, purchases_cons .confirmed o l,
      purchases_cons .draft o l]
    exact ⟨by ring, rfl⟩

theorem position_allConfirmed (t : Treasury) :
    t.allConfirmed.position = t.position.purchased 0 := by
  obtain ⟨hconfirmed, hdraft⟩ := purchases_map_confirm t.orders
  simp [Treasury.position, Treasury.allConfirmed, Position.purchased, hconfirmed, hdraft,
    Numeric.ofScale_add]

end TreasuryService

end ArkanGold
