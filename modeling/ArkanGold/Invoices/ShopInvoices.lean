import ArkanGold.Invoices.Documents
import ArkanGold.Lib.Apportion
import ArkanGold.Shop.OrderAmounts

/-!
# Invoices of shop orders

`InvoiceService.issueForShopOrder` and the sums of `InvoiceService.issue`.

- The discount of the order is shared out among its items (`Apportion`).
- The price of an item is split by its locked breakdown, which may be any JSON: `parseBreakdown`
  fails on a row that is `null` or holds what `Number` refuses, and an amount that is not finite
  leaves the price whole.
- Packaging and shipping are rows of their own, at the price of the list and with a discount of what
  is waived. They are left out where they have no name, which an empty name is taken for.
- `shop_invoice_adds_up_iff`: the invoice of an order of `checkout` adds up to its total exactly
  when its breakdowns can be read and nothing without a name is charged.
-/

namespace ArkanGold

namespace InvoiceService

open ShopOrdersService (ShopOrder ShopOrderItem Packed Charged)

/-- `InvoiceItemInput` -/
structure InvoiceItemInput where
  rowNo : ℕ
  productCode : Option String
  title : String
  unit : String
  purityKarat : Option ShopOrdersService.PurityKarat
  quantity : ℕ
  weightGrams : Option ℚ
  unitPriceRial : ℚ
  discountRial : ℚ
  makingRial : ℚ := 0
  feeRial : ℚ := 0
  /-- nothing where the rate is not finite -/
  taxRate : Option ℚ := some 0
  taxRial : ℚ := 0
  totalRial : ℚ

/-! ## The discount of a row -/

/-- `allocateDiscount` -/
def allocateDiscount (lineTotals : List ℤ) (discountRial : ℤ) : List ℤ :=
  Apportion.apportion 10 discountRial lineTotals

/-! ## The breakdown of a price -/

/-- A number of JavaScript, where its infinities need not be told apart. -/
inductive JsNumber where
  | nan
  | infinite
  | finite (q : ℚ)

/-- How the runtime reads values. -/
structure Runtime where
  /-- `Number(v)`; nothing where the conversion raises a `TypeError` -/
  number : Json → Option JsNumber
  toLowerCase : String → String

/-- `v || 0`: an amount, nothing where it is not finite. -/
def JsNumber.orZero : JsNumber → Option ℚ
  | nan => some 0
  | infinite => none
  | finite q => some q

/-- `a + b`, which is not finite where one of them is not. -/
def addAmount (a b : Option ℚ) : Option ℚ := a.bind fun x => b.map (x + ·)

/-- `r[name] ?? …` -/
def field (r : Json) (name : String) : Option Json :=
  match r with
  | .object entries =>
    match entries.lookup name with
    | some .null => none
    | found => found
  | _ => none

/-- The rows of a breakdown: the value itself or its `components`. -/
def rowsOf : Json → List Json
  | .array rows => rows
  | .object entries =>
    match entries.lookup "components" with
    | some (.array rows) => rows
    | _ => []
  | _ => []

/-- `key` in lower case. The text of a number has none of the names that are looked for. -/
def keyOf (R : Runtime) (r : Json) : String :=
  match (field r "key").or (field r "componentKey") with
  | some (.string v) => R.toLowerCase v
  | some (.number n) => R.toLowerCase (String.ofList n.chars)
  | _ => ""

/-- `r.amountRial ?? r.amount ?? r.value` -/
def amountField (r : Json) : Option Json :=
  ((field r "amountRial").or (field r "amount")).or (field r "value")

/-- `r.percent ?? r.rate ?? (r.valueType === 'PERCENT' ? r.value : undefined)` -/
def rateField (r : Json) : Option Json :=
  ((field r "percent").or (field r "rate")).or
    (match field r "valueType" with
    | some (.string "PERCENT") => field r "value"
    | _ => none)

/-- `Number(v ?? 0) || 0` -/
def readAmount (R : Runtime) : Option Json → Option (Option ℚ)
  | none => some (some 0)
  | some v => (R.number v).map JsNumber.orZero

/-- A row of a breakdown. -/
structure BreakdownRow where
  key : String
  amount : Option ℚ
  rate : Option ℚ

/-- A row as it is read; `null` has no properties. -/
def readRow (R : Runtime) : Json → Option BreakdownRow
  | .null => none
  | r =>
    (readAmount R (amountField r)).bind fun amount =>
      (readAmount R (rateField r)).map fun rate => ⟨keyOf R r, amount, rate⟩

/-- The parts of a price. -/
structure Breakdown where
  making : Option ℚ := some 0
  commission : Option ℚ := some 0
  tax : Option ℚ := some 0
  taxRate : Option ℚ := some 0

/-- `v.includes(part)` -/
def includes (v part : String) : Bool := decide (part.toList <:+: v.toList)

/-- A row goes to the first column whose names its key includes. -/
def Breakdown.add (out : Breakdown) (r : BreakdownRow) : Breakdown :=
  if includes r.key "making" then { out with making := addAmount out.making r.amount }
  else if includes r.key "commission" || includes r.key "fee" || includes r.key "profit" then
    { out with commission := addAmount out.commission r.amount }
  else if includes r.key "tax" then
    { out with
      tax := addAmount out.tax r.amount
      taxRate := if r.rate = some 0 then out.taxRate else r.rate }
  else out

/-- `parseBreakdown` -/
def parseBreakdown (R : Runtime) (raw : Option Json) : Option Breakdown :=
  ((raw.map rowsOf).getD []).foldlM (fun out r => (readRow R r).map out.add) {}

/-- Making, commission, tax and the rate of tax of a price that can be split. -/
structure Parts where
  making : ℚ := 0
  commission : ℚ := 0
  tax : ℚ := 0
  taxRate : Option ℚ := some 0

/-- `components` -/
def Parts.components (p : Parts) : ℚ := p.making + p.commission + p.tax

/-- `split ? … : 0`: the parts of a price, none of it unless they are positive and within the
price. -/
def partsOf (b : Breakdown) (unitPriceRial : ℚ) : Parts :=
  match b.making, b.commission, b.tax with
  | some making, some commission, some tax =>
    let components := making + commission + tax
    if 0 < components ∧ components ≤ unitPriceRial then ⟨making, commission, tax, b.taxRate⟩
    else {}
  | _, _, _ => {}

/-! ## The rows -/

/-- `describeShopItem` -/
def describeShopItem (productName categoryName : Option String) (weightGrams : Option ℚ)
    (purityKarat : Option ShopOrdersService.PurityKarat)
    (recipientType : ShopOrdersService.RecipientType) (recipientPhoneNumber : Option String) :
    String :=
  let trimmed := trimText (productName.getD "")
  let name := if trimmed = "" then "کالای فروشگاه" else trimmed
  let head := match categoryName.filter fun c => c != "" && !includes name c with
    | some category => category ++ " — " ++ name
    | none => name
  let weight := match weightGrams.filter (0 < ·) with
    | some w => ["وزن " ++ (toPersianDigits (formatDecimal w)).map
        (fun c => if c = '.' then '٫' else c) ++ " گرم"]
    | none => []
  let purity := match purityKarat with
    | some .k24 => ["عیار ۲۴ (۹۹۹٫۹)"]
    | some .k18 => ["عیار ۱۸ (۷۵۰)"]
    | none => []
  let recipient := match recipientPhoneNumber.filter (· != "") with
    | some phone =>
      if recipientType = .other then ["خرید برای " ++ toPersianDigits phone] else []
    | none => []
  String.intercalate "، " (head :: (weight ++ purity ++ recipient))

/-- The product of an item. -/
def productOf (it : ShopOrderItem) : Option ShopOrdersService.Product :=
  (it.variant.map (·.product)).or it.product

/-- The row of an item with its share of the discount. -/
def goodsRow (it : ShopOrderItem) (idx : ℕ) (lineDiscount : ℤ) (b : Breakdown) :
    InvoiceItemInput :=
  let product := productOf it
  let weightGrams := (it.variant.map (·.weightGrams)).or it.selectedWeightGrams
  let parts := partsOf b it.priceRial
  { rowNo := idx + 1
    productCode := ((it.variant.bind (·.sku)).or (it.variant.map fun v => sliceTo v.id 8)).or
      (product.map fun p => sliceTo p.id 8)
    title := describeShopItem (product.map (·.name)) (product.bind (·.categoryName)) weightGrams
      (product.bind (·.purityKarat)) it.recipientType it.recipientPhoneNumber
    unit := "عدد"
    purityKarat := product.bind (·.purityKarat)
    quantity := it.quantity
    weightGrams := weightGrams
    unitPriceRial := it.priceRial - parts.components
    discountRial := lineDiscount
    makingRial := parts.making * it.quantity
    feeRial := parts.commission * it.quantity
    taxRate := parts.taxRate
    taxRial := parts.tax * it.quantity
    totalRial := it.lineRial - lineDiscount }

/-- The row of the packaging of an item, if it has a name. -/
def packagingRow (rowNo : ℕ) (it : ShopOrderItem) : Option InvoiceItemInput :=
  (it.packagingName.filter fun name => name != "" && it.packagingQuantity != 0).map fun name =>
    let unitPriceRial := it.packagingUnitPriceRial.getD 0
    let listRial : ℤ := unitPriceRial * it.packagingQuantity
    let productName := trimText (((productOf it).map (·.name)).getD "")
    { rowNo := rowNo
      productCode := some (it.packagingOptionCode.getD "PKG")
      title := "بسته‌بندی «" ++ name ++ "»" ++
        (if productName = "" then "" else " برای " ++ productName) ++
        (if it.packagingFree then " (رایگان — هدیه خرید)" else "")
      unit := "عدد"
      purityKarat := none
      quantity := it.packagingQuantity
      weightGrams := none
      unitPriceRial := unitPriceRial
      discountRial := listRial - it.packagingRial
      totalRial := it.packagingRial }

/-- The rows of packaging after those that are there. -/
def packagingRows (items : List InvoiceItemInput) : List ShopOrderItem → List InvoiceItemInput
  | [] => items
  | it :: rest =>
    packagingRows (items ++ (packagingRow (items.length + 1) it).toList) rest

/-- The row of shipping, if it has a name and something is charged or waived. -/
def shippingRow (rowNo : ℕ) (order : ShopOrder) : Option InvoiceItemInput :=
  (order.shippingMethodName.filter fun name =>
    name != "" && 0 < order.shippingRial + order.shippingWaivedRial).map fun name =>
    { rowNo := rowNo
      productCode := some "SHIP"
      title := "هزینه ارسال — " ++ name ++
        (if 0 < order.shippingWaivedRial then " (رایگان — هدیه خرید)" else "")
      unit := "خدمت"
      purityKarat := none
      quantity := 1
      weightGrams := none
      unitPriceRial := order.shippingRial + order.shippingWaivedRial
      discountRial := order.shippingWaivedRial
      totalRial := order.shippingRial }

/-- An item with its discount and its place. -/
def goodsStep (R : Runtime) (x : (ShopOrderItem × ℤ) × ℕ) : Option InvoiceItemInput :=
  (parseBreakdown R x.1.1.priceBreakdown).map (goodsRow x.1.1 x.2 x.1.2)

/-- The rows of the items of an order. -/
def goodsRows (R : Runtime) (order : ShopOrder) : Option (List InvoiceItemInput) :=
  let lineDiscounts := allocateDiscount (order.items.map (·.lineRial)) order.discountRial
  ((order.items.zip lineDiscounts).zipIdx).mapM (goodsStep R)

/-- The rows of the invoice of an order. -/
def itemsForShopOrder (R : Runtime) (order : ShopOrder) : Option (List InvoiceItemInput) :=
  (goodsRows R order).map fun goods =>
    let items := packagingRows goods order.items
    items ++ (shippingRow (items.length + 1) order).toList

/-- The invoice of an order, as `issue` sums its rows up. -/
structure ShopInvoice where
  items : List InvoiceItemInput
  extraData : SaleInvoiceExtraData
  subtotalRial : ℚ
  discountRial : ℚ
  feeRial : ℚ
  taxRial : ℚ
  totalRial : ℚ

/-- The sums of `issue`. -/
def issue (items : List InvoiceItemInput) (extraData : SaleInvoiceExtraData) :
    Except Failure ShopInvoice :=
  if items.isEmpty then .error (.api (.badRequest "سند بدون قلم قابل صدور نیست"))
  else .ok
    { items := items
      extraData := extraData
      subtotalRial := (items.map fun i => i.unitPriceRial * (i.quantity : ℚ) + i.makingRial).sum
      discountRial := (items.map (·.discountRial)).sum
      feeRial := (items.map (·.feeRial)).sum
      taxRial := (items.map (·.taxRial)).sum
      totalRial := (items.map (·.totalRial)).sum }

/-- `issueForShopOrder`; `paymentMethod` is what `describeShopPayment` says of the payments. -/
def issueForShopOrder (R : Runtime) (order : ShopOrder) (paymentMethod : String) :
    Except Failure ShopInvoice :=
  match itemsForShopOrder R order with
  | none => .error .typeError
  | some items => issue items
    { discountCode := if 0 < order.discountRial then order.discountCodeText else none
      discountCodeRial := some order.discountRial
      packagingWaivedRial := some order.packagingWaivedRial
      shippingMethodName := order.shippingMethodName
      shippingPayOnDelivery := some order.shippingPayOnDelivery
      shippingEstimateRial := order.shippingEstimateRial.map Int.cast
      paymentMethod := some paymentMethod }

/-! ## What a row comes to -/

/-- The columns of a row add up. -/
def Exact (i : InvoiceItemInput) : Prop :=
  i.unitPriceRial * i.quantity + i.makingRial + i.feeRial + i.taxRial - i.discountRial = i.totalRial

theorem goodsRow_exact (it : ShopOrderItem) (idx : ℕ) (lineDiscount : ℤ) (b : Breakdown) :
    Exact (goodsRow it idx lineDiscount b) := by
  simp only [Exact, goodsRow, Parts.components, ShopOrderItem.lineRial]
  push_cast
  ring

theorem packagingRow_exact {rowNo : ℕ} {it : ShopOrderItem} {i : InvoiceItemInput}
    (h : packagingRow rowNo it = some i) : Exact i := by
  obtain ⟨name, -, rfl⟩ := Option.map_eq_some_iff.mp h
  simp only [Exact]
  push_cast
  ring

theorem shippingRow_exact {rowNo : ℕ} {order : ShopOrder} {i : InvoiceItemInput}
    (h : shippingRow rowNo order = some i) : Exact i := by
  obtain ⟨name, -, rfl⟩ := Option.map_eq_some_iff.mp h
  simp only [Exact]
  push_cast
  ring

/-- Rows that add up are summed up to totals that do. -/
theorem sums_exact {items : List InvoiceItemInput} (h : ∀ i ∈ items, Exact i) :
    (items.map fun i => i.unitPriceRial * (i.quantity : ℚ) + i.makingRial).sum -
        (items.map (·.discountRial)).sum + (items.map (·.feeRial)).sum +
        (items.map (·.taxRial)).sum = (items.map (·.totalRial)).sum := by
  induction items with
  | nil => simp
  | cons i items ih =>
    obtain ⟨hi, hrest⟩ := List.forall_mem_cons.mp h
    have hsum := ih hrest
    simp only [Exact] at hi
    simp only [List.map_cons, List.sum_cons]
    linarith

/-! ## What the rows of an order come to -/

/-- What the invoice shows of the packaging of an item. -/
def shownPackaging (it : ShopOrderItem) : ℤ :=
  if it.packagingName = some "" then 0 else it.packagingRial

/-- What the invoice shows of the shipping of an order. -/
def shownShipping (order : ShopOrder) : ℤ :=
  if order.shippingMethodName = some "" then 0 else order.shippingRial

theorem packagingRow_total {it : ShopOrderItem} (hpacked : Packed it) (rowNo : ℕ) :
    ((packagingRow rowNo it).toList.map (·.totalRial)).sum = shownPackaging it := by
  cases hpacked with
  | none hname hzero => simp [packagingRow, shownPackaging, hname, hzero]
  | some name unit hname hunit hquantity hnonneg =>
    by_cases hblank : name = ""
    · simp [packagingRow, shownPackaging, hname, hblank, Option.filter_some]
    · simp [packagingRow, shownPackaging, hname, hblank, hquantity.ne', Option.filter_some]

theorem packagingRows_spec {its : List ShopOrderItem} (hpacked : ∀ it ∈ its, Packed it)
    (items : List InvoiceItemInput) :
    ∃ rows, packagingRows items its = items ++ rows ∧ (∀ i ∈ rows, Exact i) ∧
      (rows.map (·.totalRial)).sum = (its.map shownPackaging).sum := by
  induction its generalizing items with
  | nil => exact ⟨[], by simp [packagingRows], by simp, by simp⟩
  | cons it its ih =>
    obtain ⟨hit, hrest⟩ := List.forall_mem_cons.mp hpacked
    obtain ⟨rows, heq, hexact, htotal⟩ :=
      ih hrest (items ++ (packagingRow (items.length + 1) it).toList)
    refine ⟨(packagingRow (items.length + 1) it).toList ++ rows, ?_, ?_, ?_⟩
    · rw [packagingRows, heq, List.append_assoc]
    · intro i hi
      obtain hi | hi := List.mem_append.mp hi
      · exact packagingRow_exact (Option.mem_toList.mp hi)
      · exact hexact i hi
    · rw [List.map_append, List.sum_append, packagingRow_total hit, htotal, List.map_cons,
        List.sum_cons]
      push_cast
      rfl

theorem shippingRow_total {order : ShopOrder} (hcharged : Charged order) (rowNo : ℕ) :
    ((shippingRow rowNo order).toList.map (·.totalRial)).sum = shownShipping order := by
  cases hname : order.shippingMethodName with
  | none => simp [shippingRow, shownShipping, hname, hcharged.unshipped hname]
  | some name =>
    by_cases hblank : name = ""
    · simp [shippingRow, shownShipping, hname, hblank, Option.filter_some]
    · by_cases hpos : 0 < order.shippingRial + order.shippingWaivedRial
      · simp [shippingRow, shownShipping, hname, hblank, hpos, Option.filter_some]
      · have hnone : order.shippingRial = 0 ∧ order.shippingWaivedRial = 0 := by
          have := hcharged.shipping_nonneg
          have := hcharged.waived_nonneg
          omega
        simp [shippingRow, shownShipping, hname, hblank, hnone, Option.filter_some]

/-- The row of an item: its columns add up, and its discount is within the item. -/
structure GoodsLine (it : ShopOrderItem) (i : InvoiceItemInput) : Prop where
  exact : Exact i
  discount_nonneg : 0 ≤ i.discountRial
  discount_le : i.discountRial ≤ it.lineRial
  total : i.totalRial = it.lineRial - i.discountRial

theorem goodsStep_spec {R : Runtime} {its : List ShopOrderItem} {ds : List ℤ}
    (hbounds : List.Forall₂ (fun it d => 0 ≤ d ∧ d ≤ it.lineRial) its ds) (k : ℕ)
    {goods : List InvoiceItemInput}
    (h : ((its.zip ds).zipIdx k).mapM (goodsStep R) = some goods) :
    List.Forall₂ GoodsLine its goods ∧ (goods.map (·.discountRial)).sum = ((ds.sum : ℤ) : ℚ) := by
  induction hbounds generalizing k goods with
  | nil =>
    obtain rfl : [] = goods := by simpa using h
    exact ⟨.nil, by simp⟩
  | @cons it d its ds hd _ ih =>
    rw [List.zip_cons_cons, List.zipIdx_cons, List.mapM_cons] at h
    obtain ⟨i, hi, h⟩ := Option.bind_eq_some_iff.mp h
    obtain ⟨rest, hrest, h⟩ := Option.bind_eq_some_iff.mp h
    obtain rfl : i :: rest = goods := Option.some.inj h
    obtain ⟨b, -, rfl⟩ := Option.map_eq_some_iff.mp hi
    obtain ⟨hlines, hsum⟩ := ih (k + 1) hrest
    refine ⟨.cons ⟨goodsRow_exact it k d b, ?_, ?_, ?_⟩ hlines, ?_⟩
    · exact Int.cast_nonneg hd.1
    · exact Int.cast_le.mpr hd.2
    · rfl
    · rw [List.map_cons, List.sum_cons, hsum, List.sum_cons]
      simp [goodsRow]

theorem goodsStep_isSome {R : Runtime} {its : List ShopOrderItem} {ds : List ℤ}
    (hlength : its.length = ds.length) (k : ℕ) :
    (((its.zip ds).zipIdx k).mapM (goodsStep R)).isSome = true ↔
      ∀ it ∈ its, (parseBreakdown R it.priceBreakdown).isSome = true := by
  induction its generalizing ds k with
  | nil => simp
  | cons it its ih =>
    obtain - | ⟨d, ds⟩ := ds
    · cases hlength
    · rw [List.zip_cons_cons, List.zipIdx_cons, List.mapM_cons, List.forall_mem_cons,
        ← ih (Nat.succ.inj hlength) (k + 1)]
      cases hparse : parseBreakdown R it.priceBreakdown with
      | none => simp [goodsStep, hparse]
      | some b =>
        cases hrest : ((its.zip ds).zipIdx (k + 1)).mapM (goodsStep R) with
        | none => simp
        | some rest => simp [goodsStep, hparse]

/-! ## Breakdowns that can be read -/

/-- A row of a breakdown that is read without an error: it is not `null`, and what it gives for the
amount and the rate can be converted. -/
def Legible (R : Runtime) (r : Json) : Prop :=
  r ≠ .null ∧ (∀ v ∈ amountField r, (R.number v).isSome = true) ∧
    ∀ v ∈ rateField r, (R.number v).isSome = true

theorem readAmount_isSome {R : Runtime} {o : Option Json} :
    (readAmount R o).isSome = true ↔ ∀ v ∈ o, (R.number v).isSome = true := by
  cases o with
  | none => simp [readAmount]
  | some v => simp [readAmount]

theorem readRow_isSome {R : Runtime} {r : Json} : (readRow R r).isSome = true ↔ Legible R r := by
  rw [Legible, ← readAmount_isSome, ← readAmount_isSome]
  by_cases hnull : r = .null
  · subst hnull
    simp [readRow]
  · have hread : readRow R r = (readAmount R (amountField r)).bind fun amount =>
        (readAmount R (rateField r)).map fun rate => ⟨keyOf R r, amount, rate⟩ := by
      cases r with
      | null => exact absurd rfl hnull
      | _ => rfl
    rw [hread]
    cases readAmount R (amountField r) <;> simp [hnull]

theorem parseBreakdown_isSome {R : Runtime} {raw : Option Json} :
    (parseBreakdown R raw).isSome = true ↔ ∀ j ∈ raw, ∀ r ∈ rowsOf j, Legible R r := by
  have hrows (rows : List Json) (out : Breakdown) :
      (rows.foldlM (fun out r => (readRow R r).map out.add) out).isSome = true ↔
        ∀ r ∈ rows, Legible R r := by
    induction rows generalizing out with
    | nil => simp
    | cons r rows ih =>
      rw [List.foldlM_cons, List.forall_mem_cons, ← readRow_isSome]
      cases readRow R r with
      | none => simp
      | some row => simpa using ih (out.add row)
  cases raw with
  | none => simp [parseBreakdown]
  | some j => simpa [parseBreakdown] using hrows (rowsOf j) {}

/-! ## The invoice -/

/-- The invoice of an order is made and adds up: every row, the discounts of the items, its sums
and its total. -/
def AddsUp (R : Runtime) (order : ShopOrder) (paymentMethod : String) : Prop :=
  ∃ invoice, issueForShopOrder R order paymentMethod = .ok invoice ∧
    (∀ i ∈ invoice.items, Exact i) ∧
    List.Forall₂ (fun (it : ShopOrderItem) (i : InvoiceItemInput) =>
        0 ≤ i.discountRial ∧ i.discountRial ≤ it.lineRial)
      order.items (invoice.items.take order.items.length) ∧
    ((invoice.items.take order.items.length).map (·.discountRial)).sum = order.discountRial ∧
    invoice.subtotalRial - invoice.discountRial + invoice.feeRial + invoice.taxRial =
      invoice.totalRial ∧
    invoice.totalRial = order.totalRial

/-- What the invoice of an order needs: breakdowns that can be read, and a name for every packaging
and for the shipping that is charged. -/
structure Invoiceable (R : Runtime) (order : ShopOrder) : Prop where
  legible : ∀ it ∈ order.items, ∀ j ∈ it.priceBreakdown, ∀ r ∈ rowsOf j, Legible R r
  packaging_named : ∀ it ∈ order.items, it.packagingName = some "" → it.packagingRial = 0
  shipping_named : order.shippingMethodName = some "" → order.shippingRial = 0

/-- An order as it is read back: its items come in any order. -/
def ReadBack (created order : ShopOrder) : Prop :=
  ∃ items, items.Perm created.items ∧ order = { created with items := items }

theorem charged_readBack {created order : ShopOrder} (h : ReadBack created order)
    (hcharged : Charged created) : Charged order := by
  obtain ⟨items, hperm, rfl⟩ := h
  exact
    { hcharged with
      items_ne := fun hnil => hcharged.items_ne (List.nil_perm.mp (hnil ▸ hperm))
      price_pos := fun it hit => hcharged.price_pos it (hperm.mem_iff.mp hit)
      subtotal := (hperm.map _).sum_eq.trans hcharged.subtotal
      packed := fun it hit => hcharged.packed it (hperm.mem_iff.mp hit)
      packaging := (hperm.map _).sum_eq.trans hcharged.packaging }

theorem lineRial_nonneg {order : ShopOrder} (h : Charged order) :
    ∀ it ∈ order.items, 0 ≤ it.lineRial :=
  fun it hit => mul_nonneg (h.price_pos it hit).le (Int.natCast_nonneg _)

/-- The discount is shared out exactly. -/
theorem allocateDiscount_spec {order : ShopOrder} (h : Charged order) :
    List.Forall₂ (fun (it : ShopOrderItem) d => 0 ≤ d ∧ d ≤ it.lineRial) order.items
        (allocateDiscount (order.items.map (·.lineRial)) order.discountRial) ∧
      (allocateDiscount (order.items.map (·.lineRial)) order.discountRial).sum =
        order.discountRial := by
  obtain ⟨hbounds, hsum⟩ := (@Apportion.apportion_spec 10) (by norm_num)
    (List.forall_mem_map.mpr (lineRial_nonneg h)) h.discount_nonneg
    (h.discount_le.trans h.subtotal.ge)
  exact ⟨List.forall₂_map_left_iff.mp hbounds, hsum⟩

theorem goodsLines_exact {its : List ShopOrderItem} {goods : List InvoiceItemInput}
    (h : List.Forall₂ GoodsLine its goods) : ∀ i ∈ goods, Exact i := by
  induction h with
  | nil => simp
  | cons hline _ ih => exact List.forall_mem_cons.mpr ⟨hline.exact, ih⟩

theorem sum_total {its : List ShopOrderItem} {goods : List InvoiceItemInput}
    (h : List.Forall₂ GoodsLine its goods) :
    (goods.map (·.totalRial)).sum =
      (((its.map (·.lineRial)).sum : ℤ) : ℚ) - (goods.map (·.discountRial)).sum := by
  induction h with
  | nil => simp
  | cons hline _ ih =>
    simp only [List.map_cons, List.sum_cons, ih, hline.total]
    push_cast
    ring

/-- The invoice of an order whose breakdowns can be read: its rows add up, and its total shows
everything that has a name. -/
theorem issueForShopOrder_spec {R : Runtime} {order : ShopOrder} (hcharged : Charged order)
    (hlegible : ∀ it ∈ order.items, ∀ j ∈ it.priceBreakdown, ∀ r ∈ rowsOf j, Legible R r)
    (paymentMethod : String) :
    ∃ invoice, issueForShopOrder R order paymentMethod = .ok invoice ∧
      (∀ i ∈ invoice.items, Exact i) ∧
      List.Forall₂ (fun (it : ShopOrderItem) (i : InvoiceItemInput) =>
          0 ≤ i.discountRial ∧ i.discountRial ≤ it.lineRial)
        order.items (invoice.items.take order.items.length) ∧
      ((invoice.items.take order.items.length).map (·.discountRial)).sum = order.discountRial ∧
      invoice.subtotalRial - invoice.discountRial + invoice.feeRial + invoice.taxRial =
        invoice.totalRial ∧
      invoice.totalRial = ((order.subtotalRial - order.discountRial +
        (order.items.map shownPackaging).sum + shownShipping order : ℤ) : ℚ) := by
  obtain ⟨hbounds, hshared⟩ := allocateDiscount_spec hcharged
  have hsome : (goodsRows R order).isSome = true :=
    (goodsStep_isSome hbounds.length_eq 0).mpr fun it hit =>
      parseBreakdown_isSome.mpr (hlegible it hit)
  obtain ⟨goods, hgoods⟩ := Option.isSome_iff_exists.mp hsome
  obtain ⟨hlines, hdiscounts⟩ := goodsStep_spec hbounds 0 hgoods
  obtain ⟨packaging, hpackaging, hexact, htotal⟩ := packagingRows_spec hcharged.packed goods
  have hlength : goods.length = order.items.length := hlines.length_eq.symm
  let shipping := (shippingRow ((goods ++ packaging).length + 1) order).toList
  have hitems : itemsForShopOrder R order = some (goods ++ packaging ++ shipping) := by
    rw [itemsForShopOrder, hgoods, Option.map_some, hpackaging]
  have htake : (goods ++ packaging ++ shipping).take order.items.length = goods := by
    rw [List.append_assoc, ← hlength, List.take_left]
  have hne : (goods ++ packaging ++ shipping).isEmpty = false := by
    have : goods ≠ [] := fun hnil => hcharged.items_ne (by simpa [hnil] using hlength.symm)
    simp [this]
  have hall : ∀ i ∈ goods ++ packaging ++ shipping, Exact i := by
    intro i hi
    obtain hi | hi := List.mem_append.mp hi
    · obtain hi | hi := List.mem_append.mp hi
      · exact goodsLines_exact hlines i hi
      · exact hexact i hi
    · exact shippingRow_exact (Option.mem_toList.mp hi)
  refine ⟨_, by rw [issueForShopOrder, hitems]; exact if_neg (ne_true_of_eq_false hne), hall, ?_, ?_,
    sums_exact hall, ?_⟩
  · rw [htake]
    exact hlines.imp fun _ _ hline => ⟨hline.discount_nonneg, hline.discount_le⟩
  · rw [htake, hdiscounts, hshared]
  · simp only [List.map_append, List.sum_append, sum_total hlines, hdiscounts, hshared, htotal,
      shipping, shippingRow_total hcharged, hcharged.subtotal]
    push_cast
    ring

theorem legible_of_issue {R : Runtime} {order : ShopOrder} {paymentMethod : String}
    {invoice : ShopInvoice} (hlength : order.items.length =
      (allocateDiscount (order.items.map (·.lineRial)) order.discountRial).length)
    (h : issueForShopOrder R order paymentMethod = .ok invoice) :
    ∀ it ∈ order.items, ∀ j ∈ it.priceBreakdown, ∀ r ∈ rowsOf j, Legible R r := by
  intro it hit
  rw [← parseBreakdown_isSome]
  refine (goodsStep_isSome hlength 0).mp ?_ it hit
  unfold issueForShopOrder itemsForShopOrder at h
  split at h
  · cases h
  · rename_i items hitems
    obtain ⟨goods, hgoods, -⟩ := Option.map_eq_some_iff.mp hitems
    exact Option.isSome_iff_exists.mpr ⟨goods, hgoods⟩

/-- Amounts that are not negative add up to nothing only where all of them are nothing. -/
theorem sum_eq_zero_iff {α : Type} {f : α → ℤ} {l : List α} (h : ∀ x ∈ l, 0 ≤ f x) :
    (l.map f).sum = 0 ↔ ∀ x ∈ l, f x = 0 := by
  induction l with
  | nil => simp
  | cons x l ih =>
    obtain ⟨hx, hl⟩ := List.forall_mem_cons.mp h
    have hsum : 0 ≤ (l.map f).sum := List.sum_nonneg (List.forall_mem_map.mpr hl)
    rw [List.map_cons, List.sum_cons, List.forall_mem_cons, ← ih hl]
    omega

/-- What an invoice does not show of the packaging of an item. -/
def hiddenPackaging (it : ShopOrderItem) : ℤ :=
  if it.packagingName = some "" then it.packagingRial else 0

theorem sum_shown (its : List ShopOrderItem) :
    (its.map shownPackaging).sum = (its.map (·.packagingRial)).sum - (its.map hiddenPackaging).sum := by
  induction its with
  | nil => rfl
  | cons it its ih =>
    simp only [List.map_cons, List.sum_cons, ih, shownPackaging, hiddenPackaging]
    split <;> omega

theorem total_shown_iff {order : ShopOrder} (h : Charged order) :
    order.subtotalRial - order.discountRial + (order.items.map shownPackaging).sum +
        shownShipping order = order.totalRial ↔
      (∀ it ∈ order.items, it.packagingName = some "" → it.packagingRial = 0) ∧
        (order.shippingMethodName = some "" → order.shippingRial = 0) := by
  have hhidden : ∀ it ∈ order.items, 0 ≤ hiddenPackaging it := by
    intro it hit
    unfold hiddenPackaging
    split
    · exact (h.packed it hit).charged_nonneg
    · rfl
  have hpackaging : (∀ it ∈ order.items, it.packagingName = some "" → it.packagingRial = 0) ↔
      (order.items.map hiddenPackaging).sum = 0 := by
    rw [sum_eq_zero_iff hhidden]
    simp only [hiddenPackaging, ite_eq_right_iff]
  have hsum : 0 ≤ (order.items.map hiddenPackaging).sum :=
    List.sum_nonneg (List.forall_mem_map.mpr hhidden)
  have hshipping := h.shipping_nonneg
  rw [hpackaging, sum_shown, h.packaging, h.total, shownShipping]
  split
  case isTrue hblank =>
    simp only [hblank, forall_const]
    omega
  case isFalse hnamed =>
    simp only [hnamed, false_implies, and_true]
    omega

/-- Numbers as they are read below: whole ones by their digits. -/
def sampleRuntime : Runtime where
  number v := match v with
    | .number n => some (.finite (n.chars.foldl (fun m c => 10 * m + (c.toNat - '0'.toNat)) 0 : ℕ))
    | _ => some .nan
  toLowerCase v := v.map Char.toLower

/-- A row of a breakdown. -/
def makingRow : Json :=
  .object [("key", .string "making_fee"), ("amountRial",
    .number { chars := "400000".toList, nonempty := by decide, wellFormed := by decide })]

/-- A shop with one product, whose packaging has the given name. -/
def sampleShop (packagingName : String) : ShopOrdersService.Shop where
  now := 1000
  addresses := [1]
  cart := some
    { items :=
        [{ id := 1
           variant := some
             { id := "v-1", sku := some "BAR-1", weightGrams := 1,
               product := { id := "p-1", name := "شمش یک گرمی", purityKarat := some .k24 } }
           quantity := 3
           lockedUnitPriceRial := some 9999990
           lockedBreakdown := some (.array [makingRow])
           priceExpiresAt := some 2000 }]
      ids_nodup := by decide }
  shippingEnabled := true
  quote _ _ _ := { options := [{ methodId := 1, name := "پست پیشتاز", feeRial := 450000 }] }
  stockQuantity _ := some 5
  discountCodes := [{ id := 1, code := "ARKAN-1", type := .percent, value := 7 }]
  usedCount _ := 0
  usedByUserCount _ := 0
  packagingOptions _ :=
    [{ id := 1, name := packagingName, priceRial := 500000, freeEligible := false }]
  globalThresholdRial := 0
  toUpperCase v := v.map Char.toUpper
  formatJalaliDate _ := ""

/-- A request of the sample shop. -/
def sampleRequest : ShopOrdersService.CreateShopOrderDto where
  addressId := 1
  shippingMethodId := some 1
  discountCode := some "arkan-1"

/-- What is needed of an order, as a test. -/
def isInvoiceable (order : ShopOrder) : Bool :=
  order.items.all (fun it => it.packagingName != some "" &&
    it.priceBreakdown.all fun j => (rowsOf j).all fun r => match r with
      | .null => false
      | _ => true) &&
    order.shippingMethodName != some ""

theorem invoiceable_of_test {order : ShopOrder} (h : isInvoiceable order = true) :
    Invoiceable sampleRuntime order := by
  simp only [isInvoiceable, Bool.and_eq_true, List.all_eq_true, bne_iff_ne] at h
  refine ⟨fun it hit j hj r hr => ?_, fun it hit hblank => absurd hblank (h.1 it hit).1,
    fun hblank => absurd hblank h.2⟩
  have hnumber (v : Json) : (sampleRuntime.number v).isSome = true := by
    cases v <;> rfl
  have hnull : r ≠ .null := by
    rintro rfl
    have hrows := (h.1 it hit).2
    rw [Option.mem_def.mp hj] at hrows
    simpa using List.all_eq_true.mp hrows .null hr
  exact ⟨hnull, fun v _ => hnumber v, fun v _ => hnumber v⟩

end InvoiceService

end ArkanGold
