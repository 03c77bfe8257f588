import ArkanGold.Common.Basics
import ArkanGold.Common.Format
import ArkanGold.Common.Text
import ArkanGold.Lib.Decimal
import ArkanGold.Lib.Json

/-!
# Checkout of the shop

`ShopOrdersService.checkoutInternal` and what it asks the discount, packaging and shipping services,
as a function from what it reads to the order it creates.

- Prices of the columns `numeric(18, 0)` are whole rials; a fee of shipping need not be, and is
  rounded when the order is stored.
- The options of shipping for an address are taken as they are quoted: whatever they are,
  `resolveShippingCharge` makes charges of them that are not negative.
-/

namespace ArkanGold

namespace ShopOrdersService

open Numeric

/-! ## What a checkout reads -/

/-- `PurityKarat` -/
inductive PurityKarat where
  | k18
  | k24
  deriving DecidableEq

/-- A row of `products` with its category. -/
structure Product where
  id : String
  name : String
  isActive : Bool := true
  categoryName : Option String := none
  categoryIsActive : Bool := true
  purityKarat : Option PurityKarat := none

/-- A row of `product_variants` with its product. -/
structure Variant where
  id : String
  sku : Option String := none
  weightGrams : ℚ
  product : Product

/-- A row of `cart_items`. -/
structure CartItem where
  id : ℕ
  variant : Option Variant := none
  product : Option Product := none
  selectedWeightGrams : Option ℚ := none
  quantity : ℕ
  lockedUnitPriceRial : Option ℤ
  lockedBreakdown : Option Json := none
  priceExpiresAt : Option ℤ
  packagingOptionId : Option ℕ := none

/-- The product that a row of a cart is about. -/
def CartItem.productOf (item : CartItem) : Option Product :=
  (item.variant.map (·.product)).or item.product

/-- A cart: its rows have different identifiers. -/
structure Cart where
  items : List CartItem
  ids_nodup : (items.map (·.id)).Nodup

/-- `ResolvedPackaging` -/
structure PackagingOption where
  id : ℕ
  name : String
  code : Option String := none
  priceRial : ℕ
  perUnit : Bool := true
  freeEligible : Bool := true
  freeThresholdRial : Option ℤ := none
  isDefault : Bool := false

/-- `FeePayment` -/
inductive FeePayment where
  | prepaid
  | onDelivery
  | customerChoice
  deriving DecidableEq

/-- `ShippingOption`, what a checkout reads of it. -/
structure ShippingOption where
  methodId : ℕ
  name : String
  available : Bool := true
  unavailableReason : Option String := none
  feeRial : ℚ
  free : Bool := false
  feePayment : FeePayment := .prepaid

/-- `quoteForAddress` -/
structure ShippingQuote where
  options : List ShippingOption
  provinceMissing : Bool := false

/-- `DiscountType` -/
inductive DiscountType where
  | percent
  | fixed
  deriving DecidableEq

/-- A row of `discount_codes`. -/
structure DiscountCode where
  id : ℕ
  code : String
  type : DiscountType
  value : ℚ
  maxDiscountRial : Option ℤ := none
  minOrderRial : Option ℤ := none
  startsAt : Option ℤ := none
  expiresAt : Option ℤ := none
  usageLimit : Option ℕ := none
  perUserLimit : Option ℕ := none
  isActive : Bool := true
  userId : Option String := none

/-- `ShopOrderItemRecipientType` -/
inductive RecipientType where
  | self
  | other
  deriving DecidableEq

/-- A recipient of the request. -/
structure Recipient where
  cartItemId : ℕ
  recipientType : RecipientType
  recipientPhoneNumber : Option String := none

/-- `CreateShopOrderDto` -/
structure CreateShopOrderDto where
  addressId : ℕ
  shippingMethodId : Option ℕ := none
  /-- the customer wants to pay the shipping on delivery -/
  feeOnDelivery : Bool := false
  discountCode : Option String := none
  recipients : List Recipient := []

/-- What a checkout reads of the database, the settings and the runtime. -/
structure Shop where
  now : ℤ
  /-- the addresses of the customer -/
  addresses : List ℕ
  cart : Option Cart
  shippingEnabled : Bool
  /-- `quoteForAddress`, by address, weight and value -/
  quote : ℕ → ℚ → ℤ → ShippingQuote
  /-- the stock of a variant, once its row is locked -/
  stockQuantity : String → Option ℤ
  discountCodes : List DiscountCode
  /-- orders with a code that are not cancelled, of anyone and of the customer -/
  usedCount : ℕ → ℕ
  usedByUserCount : ℕ → ℕ
  /-- `resolveOptionsForProducts` -/
  packagingOptions : String → List PackagingOption
  globalThresholdRial : ℤ
  toUpperCase : String → String
  formatJalaliDate : ℤ → String

/-! ## The order -/

/-- A row of `shop_order_items`. -/
structure ShopOrderItem where
  variant : Option Variant
  product : Option Product
  selectedWeightGrams : Option ℚ
  quantity : ℕ
  priceRial : ℤ
  priceBreakdown : Option Json
  recipientType : RecipientType
  recipientPhoneNumber : Option String
  packagingOptionCode : Option String
  packagingName : Option String
  packagingUnitPriceRial : Option ℤ
  packagingQuantity : ℕ
  packagingRial : ℤ
  packagingFree : Bool

/-- A row of `shop_orders` with its items. -/
structure ShopOrder where
  userId : String
  subtotalRial : ℤ
  discountRial : ℤ
  discountCodeText : Option String
  packagingRial : ℤ
  packagingWaivedRial : ℤ
  shippingMethodName : Option String
  shippingRial : ℤ
  shippingWaivedRial : ℤ
  shippingPayOnDelivery : Bool
  shippingEstimateRial : Option ℤ
  totalRial : ℤ
  items : List ShopOrderItem

/-- What the items come to. -/
def ShopOrderItem.lineRial (it : ShopOrderItem) : ℤ := it.priceRial * it.quantity

/-! ## Discount codes -/

namespace DiscountService

/-- The digits of a `Decimal`. -/
def precision : ℕ := 20

/-- `normalizeCode` -/
def normalizeCode (shop : Shop) (raw : String) : String :=
  let latin := raw.map fun c => latinDigit arabicZero (latinDigit persianZero c)
  shop.toUpperCase (String.ofList ((trimText latin).toList.filter (!isSpace ·)))

/-- The discount of a code before it is rounded. -/
def uncappedDiscount (code : DiscountCode) (subtotal : ℚ) : ℚ :=
  match code.type with
  | .fixed => code.value
  | .percent =>
    let share := Decimal.dividedBy precision (Decimal.times precision subtotal code.value) 100
    match code.maxDiscountRial with
    | some m => min share m
    | none => share

/-- `computeDiscountRial` -/
def computeDiscountRial (code : DiscountCode) (subtotalRial : ℤ) : ℚ :=
  let discount := min (uncappedDiscount code subtotalRial) subtotalRial
  let tomans := ⌊Decimal.dividedBy precision discount 10⌋
  max 0 (Decimal.times precision tomans 10)

/-- The conditions of a code: its dates, its customer, the least purchase and its quotas. -/
def checkConditions (shop : Shop) (userId : String) (code : DiscountCode) (subtotalRial : ℤ) :
    Except ApiError Unit := do
  if !code.isActive then throw (.badRequest "این کد تخفیف غیرفعال است")
  if let some startsAt := code.startsAt then
    if shop.now < startsAt then
      throw (.badRequest
        ("این کد تخفیف از " ++ shop.formatJalaliDate startsAt ++ " قابل استفاده است"))
  if let some expiresAt := code.expiresAt then
    if expiresAt ≤ shop.now then
      throw (.badRequest "مهلت استفاده از این کد تخفیف تمام شده است")
  if let some owner := code.userId then
    if owner ≠ userId then throw (.badRequest "این کد تخفیف برای حساب شما معتبر نیست")
  if let some minOrderRial := code.minOrderRial then
    if subtotalRial < minOrderRial then
      throw (.badRequest ("حداقل مبلغ خرید برای استفاده از این کد " ++
        localeFa (minOrderRial / 10) ++ " تومان است"))
  if let some limit := code.usageLimit then
    if limit ≤ shop.usedCount code.id then
      throw (.badRequest "ظرفیت استفاده از این کد تخفیف تکمیل شده است")
  if let some limit := code.perUserLimit then
    if limit ≤ shop.usedByUserCount code.id then
      throw (.badRequest (if limit = 1 then "شما قبلاً از این کد تخفیف استفاده کرده‌اید"
        else "سقف استفاده شما از این کد تخفیف (" ++ localeFa limit ++ " بار) تکمیل شده است"))

/-- The row of a code. -/
def findCode (shop : Shop) (raw : String) : Except ApiError DiscountCode :=
  let text := normalizeCode shop raw
  if text = "" then .error (.badRequest "کد تخفیف را وارد کنید")
  else
    match shop.discountCodes.find? fun c => c.code == text with
    | some code => .ok code
    | none => .error (.badRequest "کد تخفیف نامعتبر است")

/-- `evaluate` -/
def evaluate (shop : Shop) (userId raw : String) (subtotalRial : ℤ) :
    Except ApiError (DiscountCode × ℚ) := do
  let code ← findCode shop raw
  checkConditions shop userId code subtotalRial
  let discountRial := computeDiscountRial code subtotalRial
  if discountRial ≤ 0 then
    .error (.badRequest "این کد تخفیف برای مبلغ سبد خرید شما تخفیفی ایجاد نمی‌کند")
  else .ok (code, discountRial)

end DiscountService

/-! ## Packaging -/

namespace PackagingService

/-- `pick` -/
def pick (options : List PackagingOption) (selectedId : Option ℕ) : Option PackagingOption :=
  ((selectedId.bind fun id => options.find? fun o => o.id == id).or
    (options.find? (·.isDefault))).or options.head?

/-- `effectiveThreshold` -/
def effectiveThreshold (option : PackagingOption) (globalThresholdRial : ℤ) : Option ℤ :=
  if !option.freeEligible then none
  else
    match option.freeThresholdRial.filter (0 < ·) with
    | some threshold => some threshold
    | none => if 0 < globalThresholdRial then some globalThresholdRial else none

/-- `PackagingCharge` -/
structure PackagingCharge where
  option : PackagingOption
  packagingQuantity : ℕ
  unitPriceRial : ℤ
  listRial : ℤ
  chargedRial : ℤ
  free : Bool
  effectiveThresholdRial : Option ℤ

/-- The charge of one row. -/
def chargeOf (itemsSubtotalRial globalThresholdRial : ℤ) (option : PackagingOption)
    (quantity : ℕ) : PackagingCharge :=
  let packagingQuantity := if option.perUnit then max 1 quantity else 1
  let listRial : ℤ := option.priceRial * packagingQuantity
  let threshold := effectiveThreshold option globalThresholdRial
  let free := 0 < listRial && threshold.any (· ≤ itemsSubtotalRial)
  { option := option
    packagingQuantity := packagingQuantity
    unitPriceRial := option.priceRial
    listRial := listRial
    chargedRial := if free then 0 else listRial
    free := free
    effectiveThresholdRial := threshold }

/-- `PackagingSummary` -/
structure PackagingSummary where
  lines : List (ℕ × PackagingCharge)
  listRial : ℤ
  chargedRial : ℤ
  waivedRial : ℤ
  nextFreeThresholdRial : Option ℤ

/-- `computeCharges` on rows with their options. -/
def computeCharges (inputs : List (ℕ × Option PackagingOption × ℕ))
    (itemsSubtotalRial globalThresholdRial : ℤ) : PackagingSummary :=
  let lines := inputs.filterMap fun (key, option, quantity) =>
    option.map fun o => (key, chargeOf itemsSubtotalRial globalThresholdRial o quantity)
  let listRial := (lines.map fun l => l.2.listRial).sum
  let chargedRial := (lines.map fun l => l.2.chargedRial).sum
  let ahead := lines.filterMap fun l =>
    if !l.2.free && 0 < l.2.listRial then l.2.effectiveThresholdRial else none
  { lines := lines
    listRial := listRial
    chargedRial := chargedRial
    waivedRial := listRial - chargedRial
    nextFreeThresholdRial := ahead.min? }

end PackagingService

/-! ## Shipping -/

namespace ShippingService

/-- `ShippingCharge` -/
structure ShippingCharge where
  shippingRial : ℚ
  waivedRial : ℚ
  payOnDelivery : Bool
  estimateRial : ℚ

/-- `resolveShippingCharge` -/
def resolveShippingCharge (option : ShippingOption) (wantsPayOnDelivery : Bool) :
    ShippingCharge :=
  if option.feeRial ≤ 0 then ⟨0, 0, false, 0⟩
  else if option.free then ⟨0, option.feeRial, false, option.feeRial⟩
  else
    let payOnDelivery := option.feePayment == .onDelivery ||
      (option.feePayment == .customerChoice && wantsPayOnDelivery)
    ⟨if payOnDelivery then 0 else option.feeRial, 0, payOnDelivery, option.feeRial⟩

/-- `parcelOf`: the weight and the value of the items. -/
def parcelOf (items : List CartItem) : ℚ × ℤ :=
  ((items.map fun it =>
      ((it.variant.map (·.weightGrams)).or it.selectedWeightGrams).getD 0 * (it.quantity : ℚ)).sum,
    (items.map fun it => it.lockedUnitPriceRial.getD 0 * (it.quantity : ℤ)).sum)

/-- `resolveForCheckout`: the name of the method and what it costs, where shipping is chosen with
the order. -/
def resolveForCheckout (shop : Shop) (dto : CreateShopOrderDto) (items : List CartItem) :
    Except ApiError (Option (String × ShippingCharge)) := do
  if !shop.shippingEnabled then return none
  let (weight, value) := parcelOf items
  let quote := shop.quote dto.addressId weight value
  if quote.provinceMissing then
    throw (.badRequest
      "استان این آدرس مشخص نیست؛ آدرس را ویرایش و استان را از فهرست انتخاب کنید")
  let some methodId := dto.shippingMethodId
    | throw (.badRequest (if quote.options.any (·.available)
        then "روش ارسال سفارش را انتخاب کنید"
        else "برای این آدرس روش ارسالی تعریف نشده است؛ آدرس دیگری انتخاب کنید یا با پشتیبانی " ++
          "تماس بگیرید"))
  let some option := quote.options.find? fun o => o.methodId == methodId
    | throw (.badRequest
        "روش ارسال انتخاب‌شده برای این آدرس در دسترس نیست؛ لطفاً دوباره انتخاب کنید")
  if !option.available then
    throw (.badRequest (option.unavailableReason.getD "این روش ارسال در دسترس نیست"))
  if dto.feeOnDelivery && option.feePayment == .prepaid && !option.free && 0 < option.feeRial then
    throw (.badRequest
      "پرداخت هزینه ارسال هنگام تحویل (پس‌کرایه) برای این روش فعال نیست")
  return some (option.name, resolveShippingCharge option dto.feeOnDelivery)

end ShippingService

/-! ## The checkout -/

/-- The name of a product in a message. -/
def nameOf (product : Option Product) : String := (product.map (·.name)).getD "undefined"

/-- A product that cannot be bought any more. -/
def isUnavailable (item : CartItem) : Bool :=
  match item.productOf with
  | some p => !p.isActive || !p.categoryIsActive
  | none => true

/-- What of a variant is wanted in all rows of the cart. -/
def requestedOf (items : List CartItem) (variantId : String) : ℕ :=
  ((items.filter fun it => it.variant.any (·.id == variantId)).map (·.quantity)).sum

/-- The row of the order for a row of the cart, before its packaging. -/
def orderItemData (shop : Shop) (dto : CreateShopOrderDto) (items : List CartItem)
    (item : CartItem) : Except ApiError ShopOrderItem := do
  let unitPriceRial := item.lockedUnitPriceRial.getD 0
  let recipient := dto.recipients.reverse.find? fun r => r.cartItemId == item.id
  let recipientType := (recipient.map (·.recipientType)).getD .self
  if unitPriceRial ≤ 0 then
    throw (.badRequest
      "قیمت قفل‌شدهٔ یکی از آیتم‌های سبد نامعتبر است، لطفاً دوباره امتحان کنید")
  let row : ShopOrderItem :=
    { variant := none
      product := none
      selectedWeightGrams := none
      quantity := item.quantity
      priceRial := unitPriceRial
      priceBreakdown := item.lockedBreakdown
      recipientType := recipientType
      recipientPhoneNumber :=
        if recipientType = .other then recipient.bind (·.recipientPhoneNumber) else none
      packagingOptionCode := none
      packagingName := none
      packagingUnitPriceRial := none
      packagingQuantity := 0
      packagingRial := 0
      packagingFree := false }
  match item.variant with
  | some variant =>
    let some stock := shop.stockQuantity variant.id | throw (.notFound "تنوع محصول یافت نشد")
    if stock < requestedOf items variant.id then
      throw (.badRequest ("موجودی «" ++ variant.product.name ++ "» کافی نیست (موجودی: " ++
        toString stock ++ ")"))
    return { row with variant := some variant }
  | none =>
    let some product := item.product | throw (.notFound "محصول یافت نشد")
    return { row with
      product := some product
      selectedWeightGrams := some (item.selectedWeightGrams.getD 0) }

/-- The packaging options of a row of the cart. -/
def optionsFor (shop : Shop) (item : CartItem) : List PackagingOption :=
  shop.packagingOptions ((item.productOf.map (·.id)).getD "")

/-- The packaging of a row of the cart. -/
def packagingInput (shop : Shop) (item : CartItem) :
    Except ApiError (ℕ × Option PackagingOption × ℕ) := do
  let options := optionsFor shop item
  if item.packagingOptionId.any (fun id => !options.isEmpty && !options.any (·.id == id)) then
    throw (.badRequest ("بسته‌بندی انتخاب‌شده برای «" ++ (item.productOf.map (·.name)).getD "" ++
      "» دیگر در دسترس نیست؛ لطفاً سبد خرید را بررسی و بسته‌بندی دیگری انتخاب کنید"))
  return (item.id, PackagingService.pick options item.packagingOptionId, item.quantity)

/-- A row of the order with the packaging that it is charged for. -/
def withPackaging (row : ShopOrderItem) (charge : Option PackagingService.PackagingCharge) :
    ShopOrderItem :=
  { row with
    packagingOptionCode := charge.bind (·.option.code)
    packagingName := charge.map (·.option.name)
    packagingUnitPriceRial := charge.map (·.unitPriceRial)
    packagingQuantity := (charge.map (·.packagingQuantity)).getD 0
    packagingRial := (charge.map (·.chargedRial)).getD 0
    packagingFree := (charge.map (·.free)).getD false }

/-- A column `numeric(18, 0)`. -/
def column (q : ℚ) : Except ApiError ℤ :=
  if |roundHalfAway q| < 10 ^ 18 then .ok (roundHalfAway q)
  else .error (.internal "numeric field overflow")

/-- The discount of an order: the code that is given, and its amount. -/
def discountFor (shop : Shop) (userId : String) (dto : CreateShopOrderDto) (subtotalRial : ℤ) :
    Except ApiError (Option String × ℚ) :=
  match dto.discountCode.filter fun c => trimText c != "" with
  | some raw => do
    let evaluation ← DiscountService.evaluate shop userId raw subtotalRial
    return (some evaluation.1.code, evaluation.2)
  | none => return (none, 0)

/-- The charge of the shipping that is chosen with the order, nothing where none is. -/
def shippingChargeOf (shipping : Option (String × ShippingService.ShippingCharge)) :
    ShippingService.ShippingCharge :=
  (shipping.map (·.2)).getD ⟨0, 0, false, 0⟩

/-- The row of the order and the rows of its items, as they are stored. -/
def createOrder (userId : String) (shipping : Option (String × ShippingService.ShippingCharge))
    (subtotalRial : ℤ) (discount : Option String × ℚ)
    (packaging : PackagingService.PackagingSummary) (rows : List (CartItem × ShopOrderItem)) :
    Except ApiError ShopOrder := do
  let charge := shippingChargeOf shipping
  return {
    userId := userId
    subtotalRial := ← column subtotalRial
    discountRial := ← column discount.2
    discountCodeText := discount.1
    packagingRial := ← column packaging.chargedRial
    packagingWaivedRial := ← column packaging.waivedRial
    shippingMethodName := shipping.map (·.1)
    shippingRial := ← column charge.shippingRial
    shippingWaivedRial := ← column charge.waivedRial
    shippingPayOnDelivery := charge.payOnDelivery
    shippingEstimateRial := ← (shipping.map (·.2.estimateRial)).mapM column
    totalRial :=
      ← column (subtotalRial - discount.2 + packaging.chargedRial + charge.shippingRial)
    items := rows.map fun r => withPackaging r.2 (packaging.lines.lookup r.1.id) }

/-- `checkoutInternal` -/
def checkout (shop : Shop) (userId : String) (dto : CreateShopOrderDto) :
    Except ApiError ShopOrder := do
  if dto.addressId ∉ shop.addresses then throw (.notFound "آدرس یافت نشد")
  let some cart := shop.cart.filter fun c => !c.items.isEmpty
    | throw (.badRequest "سبد خرید شما خالی است")
  if cart.items.any fun it => it.priceExpiresAt.all (· < shop.now) then
    throw (.badRequest
      "قیمت قفل‌شدهٔ برخی آیتم‌های سبد منقضی شده است. لطفاً سبد را دوباره بررسی کنید")
  if let some item := cart.items.find? isUnavailable then
    throw (.badRequest ("محصول «" ++ nameOf item.productOf ++ "» دیگر در دسترس نیست"))
  let shipping ← ShippingService.resolveForCheckout shop dto cart.items
  let rows ← cart.items.mapM (orderItemData shop dto cart.items)
  let subtotalRial := (rows.map (·.lineRial)).sum
  let discount ← discountFor shop userId dto subtotalRial
  let packagingInputs ← cart.items.mapM (packagingInput shop)
  let packaging :=
    PackagingService.computeCharges packagingInputs subtotalRial shop.globalThresholdRial
  createOrder userId shipping subtotalRial discount packaging (cart.items.zip rows)

end ShopOrdersService

end ArkanGold
