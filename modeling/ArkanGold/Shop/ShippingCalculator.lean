import ArkanGold.Common.Format
import ArkanGold.Lib.FirstChoice
import ArkanGold.Shop.Checkout

/-!
# The shipping calculator

`shipping-calculator`, `iran-provinces` and the part of `ShippingService` that quotes: the options of
shipping for an address, what they cost, what the customer is shown of them, and the check of a rate
that is saved.

- Zones are tried from the most specific to the most general, then in the order of `sortOrder`;
  the first that has a rate for a method decides on it. The sort is stable.
- Amounts are exact numbers. What is rounded is what the code rounds: steps of weight and the fee
  are rounded up, the weight to hundredths and what is shown to whole rials.
- `toLowerCase` is the one of the platform.
-/

namespace ArkanGold

namespace ShopOrdersService

/-! ## Provinces and cities -/

namespace IranProvinces

variable (toLowerCase : String → String)

/-- The letters that are replaced, and those that are dropped. -/
def normalLetter (c : Char) : List Char :=
  if c = 'ي' then ['ی']
  else if c = 'ك' then ['ک']
  else if c = 'آ' ∨ c = 'أ' ∨ c = 'إ' then ['ا']
  else if c = 'ة' then ['ه']
  else if c = 'ـ' then []
  else if 0x064B ≤ c.toNat ∧ c.toNat ≤ 0x0652 then []
  else [c]

/-- `/^\s*(استان|شهرستان|شهر)\s+/` -/
def stripKind (cs : List Char) : List Char :=
  let rest := cs.dropWhile isSpace
  let words := ["استان", "شهرستان", "شهر"].map String.toList
  match words.find? fun w => w.isPrefixOf rest && (rest[w.length]?.map isSpace).getD false with
  | some w => (rest.drop w.length).dropWhile isSpace
  | none => cs

/-- What is taken out between the letters: white space, joiners, marks and dashes. -/
def isGap (c : Char) : Bool :=
  isSpace c || c.toNat == 0x200C || c.toNat == 0x200F || c.toNat == 0x200E || c == '-'

/-- `normalizeFa` -/
def normalizeFa (value : Option String) : String :=
  let letters := (value.getD "").toList.flatMap normalLetter
  toLowerCase (String.ofList ((stripKind letters).filter (!isGap ·)))

/-- `IRAN_PROVINCES`, their codes and names. -/
def IRAN_PROVINCES : List (String × String) :=
  [("TEHRAN", "تهران"), ("ALBORZ", "البرز"), ("ESFAHAN", "اصفهان"), ("FARS", "فارس"),
    ("KHORASAN_RAZAVI", "خراسان رضوی"), ("AZARBAYJAN_SHARGHI", "آذربایجان شرقی"),
    ("AZARBAYJAN_GHARBI", "آذربایجان غربی"), ("ARDABIL", "اردبیل"), ("ILAM", "ایلام"),
    ("BUSHEHR", "بوشهر"), ("CHAHARMAHAL_BAKHTIARI", "چهارمحال و بختیاری"),
    ("KHORASAN_JONUBI", "خراسان جنوبی"), ("KHORASAN_SHOMALI", "خراسان شمالی"),
    ("KHUZESTAN", "خوزستان"), ("ZANJAN", "زنجان"), ("SEMNAN", "سمنان"),
    ("SISTAN_BALUCHESTAN", "سیستان و بلوچستان"), ("QAZVIN", "قزوین"), ("QOM", "قم"),
    ("KORDESTAN", "کردستان"), ("KERMAN", "کرمان"), ("KERMANSHAH", "کرمانشاه"),
    ("KOHGILUYEH_BOYERAHMAD", "کهگیلویه و بویراحمد"), ("GOLESTAN", "گلستان"),
    ("GILAN", "گیلان"), ("LORESTAN", "لرستان"), ("MAZANDARAN", "مازندران"),
    ("MARKAZI", "مرکزی"), ("HORMOZGAN", "هرمزگان"), ("HAMEDAN", "همدان"), ("YAZD", "یزد")]

/-- `ALIASES` -/
def ALIASES : List (String × String) :=
  [("tehran", "TEHRAN"), ("karaj", "ALBORZ"), ("کرج", "ALBORZ"), ("خراسان", "KHORASAN_RAZAVI"),
    ("مشهد", "KHORASAN_RAZAVI"), ("چهارمحال", "CHAHARMAHAL_BAKHTIARI"),
    ("چهارمحالبختیاری", "CHAHARMAHAL_BAKHTIARI"), ("کهگیلویه", "KOHGILUYEH_BOYERAHMAD"),
    ("سیستان", "SISTAN_BALUCHESTAN"), ("سیستانبلوچستان", "SISTAN_BALUCHESTAN"),
    ("اذربایجانشرقی", "AZARBAYJAN_SHARGHI"), ("اذربایجانغربی", "AZARBAYJAN_GHARBI"),
    ("تبریز", "AZARBAYJAN_SHARGHI"), ("ارومیه", "AZARBAYJAN_GHARBI"), ("شیراز", "FARS"),
    ("اهواز", "KHUZESTAN")]

/-- `BY_NAME`, a later entry before an earlier one. -/
def BY_NAME : List (String × String) :=
  ((IRAN_PROVINCES.map fun p => (normalizeFa toLowerCase (some p.2), p.1)) ++
    ALIASES.map fun a => (normalizeFa toLowerCase (some a.1), a.2)).reverse

/-- `isProvinceCode` -/
def isProvinceCode (code : Option String) : Bool :=
  match code with
  | none => false
  | some code => IRAN_PROVINCES.any (·.1 == code)

/-- `resolveProvinceCode` -/
def resolveProvinceCode (provinceCode province : Option String) : Option String :=
  if isProvinceCode provinceCode then provinceCode
  else
    let key := normalizeFa toLowerCase province
    if key = "" then none else ((BY_NAME toLowerCase).find? (·.1 == key)).map (·.2)

end IranProvinces

/-! ## Rates -/

namespace ShippingCalculator

open FirstChoice IranProvinces

variable (toLowerCase : String → String)

/-- `MethodType` -/
inductive MethodType where
  | post
  | courier
  | express
  | pickup
  deriving DecidableEq

/-- `CalcZone` -/
structure CalcZone where
  id : ℕ
  name : String
  provinceCodes : List String
  cities : List String
  sortOrder : ℤ

/-- `CalcRate` -/
structure CalcRate where
  id : ℕ
  methodId : ℕ
  zoneId : ℕ
  baseRial : ℤ
  baseWeightGrams : ℤ := 1000
  stepRial : ℤ := 0
  stepWeightGrams : ℤ := 1000
  valuePercent : ℚ := 0
  minRial : Option ℤ := none
  maxRial : Option ℤ := none
  freeAboveRial : Option ℤ := none
  maxWeightGrams : Option ℤ := none
  maxOrderRial : Option ℤ := none
  feePayment : FeePayment := .prepaid
  etaMinDays : Option ℤ := none
  etaMaxDays : Option ℤ := none
  isActive : Bool := true

/-- `CalcMethod` -/
structure CalcMethod where
  id : ℕ
  code : String
  name : String
  type : MethodType
  description : Option String := none
  carrierName : Option String := none
  sortOrder : ℤ := 0
  requiresPostalCode : Bool := false
  estimatedDays : Option ℤ := none
  pickupAddress : Option String := none
  pickupHours : Option String := none

/-- `CalcDestination` -/
structure CalcDestination where
  provinceCode : Option String
  city : Option String
  postalCode : Option String

/-- `CalcParcel` -/
structure CalcParcel where
  weightGrams : ℚ
  valueRial : ℚ

/-- `ShippingOption` -/
structure QuotedOption where
  methodId : ℕ
  code : String
  name : String
  type : MethodType
  description : Option String
  carrierName : Option String
  zoneId : ℕ
  zoneName : String
  rateId : ℕ
  available : Bool
  unavailableReason : Option String
  feeRial : ℚ
  free : Bool
  freeAboveRial : Option ℤ
  feePayment : FeePayment
  etaMinDays : Option ℤ
  etaMaxDays : Option ℤ
  pickupAddress : Option String
  pickupHours : Option String

/-- The tables: zones and methods have an id of their own, and a method has one rate in a zone. -/
structure CalcData where
  zones : List CalcZone
  rates : List CalcRate
  methods : List CalcMethod
  zones_nodup : (zones.map CalcZone.id).Nodup
  rates_nodup : (rates.map fun r => (r.methodId, r.zoneId)).Nodup
  methods_nodup : (methods.map CalcMethod.id).Nodup

/-- `zoneSpecificity` -/
def zoneSpecificity (zone : CalcZone) (dest : CalcDestination) : ℤ :=
  let cities := (zone.cities.map fun c => normalizeFa toLowerCase (some c)).filter (· ≠ "")
  let inProvince := match dest.provinceCode with
    | none => false
    | some code => code ≠ "" ∧ code ∈ zone.provinceCodes
  if zone.provinceCodes ≠ [] ∧ !inProvince then -1
  else if cities ≠ [] then
    let city := normalizeFa toLowerCase dest.city
    if city ≠ "" ∧ city ∈ cities then 3 else -1
  else if zone.provinceCodes ≠ [] then 2 else 1

/-- `b.score - a.score || a.zone.sortOrder - b.zone.sortOrder` is not positive. -/
def comesBefore (dest : CalcDestination) (a b : CalcZone) : Prop :=
  zoneSpecificity toLowerCase b dest < zoneSpecificity toLowerCase a dest ∨
    zoneSpecificity toLowerCase b dest = zoneSpecificity toLowerCase a dest ∧
      a.sortOrder ≤ b.sortOrder

instance (dest : CalcDestination) : DecidableRel (comesBefore toLowerCase dest) :=
  fun _ _ => inferInstanceAs (Decidable (_ ∨ _))

instance (dest : CalcDestination) : Std.Total (comesBefore toLowerCase dest) :=
  ⟨fun a b => by unfold comesBefore; omega⟩

instance (dest : CalcDestination) : IsTrans CalcZone (comesBefore toLowerCase dest) :=
  ⟨fun a b c => by unfold comesBefore; omega⟩

/-- The zones that match, before they are sorted. -/
def matchingZones (zones : List CalcZone) (dest : CalcDestination) : List CalcZone :=
  zones.filter fun z => 0 < zoneSpecificity toLowerCase z dest

/-- `matchZones` -/
def matchZones (zones : List CalcZone) (dest : CalcDestination) : List CalcZone :=
  (matchingZones toLowerCase zones dest).insertionSort (comesBefore toLowerCase dest)

/-- `roundUp` -/
def roundUp (value step : ℚ) : ℚ :=
  if step ≤ 1 then ⌈value⌉ else ⌈value / step⌉ * step

/-- The fee of a rate before it is limited. -/
def rawFee (rate : CalcRate) (parcel : CalcParcel) : ℚ :=
  let extraGrams := max 0 (parcel.weightGrams - (max 0 rate.baseWeightGrams : ℤ))
  let steps : ℤ := if 0 < extraGrams ∧ 0 < rate.stepRial then
      ⌈extraGrams / (max 1 rate.stepWeightGrams : ℤ)⌉ else 0
  rate.baseRial + steps * rate.stepRial +
    max 0 parcel.valueRial * max 0 rate.valuePercent / 100

/-- The limits of a rate. -/
def limitFee (rate : CalcRate) (fee : ℚ) : ℚ :=
  let fee := match rate.minRial with
    | some minRial => max fee minRial
    | none => fee
  match rate.maxRial with
  | some maxRial => if 0 < maxRial then min fee maxRial else fee
  | none => fee

/-- `computeRateFee` -/
def computeRateFee (rate : CalcRate) (parcel : CalcParcel) (roundUpRial : ℚ) : ℚ :=
  let fee := max 0 (limitFee rate (rawFee rate parcel))
  if 0 < fee then roundUp fee roundUpRial else 0

/-- `faNum` -/
def faNum (n : ℚ) : String := localeFa ⌊n + 1 / 2⌋

/-- `/^\d{10}$/` -/
def isPostalCode (v : String) : Bool := v.toList.length == 10 && v.toList.all Char.isDigit

/-- `input.rates.find(r => r.methodId === method.id && r.zoneId === z.id)`, with the zone. -/
def rateIn (rates : List CalcRate) (methodId : ℕ) (z : CalcZone) : Option (CalcZone × CalcRate) :=
  (rates.find? fun r => r.methodId = methodId ∧ r.zoneId = z.id).map fun r => (z, r)

/-- The zone and the rate that decide on a method. -/
def decidingRate (zones : List CalcZone) (rates : List CalcRate) (dest : CalcDestination)
    (methodId : ℕ) : Option (CalcZone × CalcRate) :=
  (matchZones toLowerCase zones dest).findSome? (rateIn rates methodId)

/-- Why the method is not available. -/
def unavailableReason (method : CalcMethod) (rate : CalcRate) (dest : CalcDestination)
    (parcel : CalcParcel) : Option String :=
  if ∃ w ∈ rate.maxWeightGrams, (w : ℚ) < parcel.weightGrams then
    some s!"وزن مرسوله از سقف این روش ({faNum (rate.maxWeightGrams.getD 0)} گرم) بیشتر است"
  else if ∃ v ∈ rate.maxOrderRial, (v : ℚ) < parcel.valueRial then
    some s!"ارزش سفارش از سقف این روش ({faNum (rate.maxOrderRial.getD 0 / 10)} تومان) بیشتر است"
  else if method.requiresPostalCode ∧ !isPostalCode (dest.postalCode.getD "") then
    some "برای این روش، کد پستی ۱۰ رقمی آدرس را تکمیل کنید"
  else none

/-- The option of a method with the zone and the rate that decide on it. -/
def optionOf (method : CalcMethod) (zone : CalcZone) (rate : CalcRate) (dest : CalcDestination)
    (parcel : CalcParcel) (roundUpRial : ℚ) : QuotedOption :=
  let reason := unavailableReason method rate dest parcel
  { methodId := method.id
    code := method.code
    name := method.name
    type := method.type
    description := method.description
    carrierName := method.carrierName
    zoneId := zone.id
    zoneName := zone.name
    rateId := rate.id
    available := reason.isNone
    unavailableReason := reason
    feeRial := computeRateFee rate parcel roundUpRial
    free := ∃ v ∈ rate.freeAboveRial, 0 < v ∧ (v : ℚ) ≤ parcel.valueRial
    freeAboveRial := rate.freeAboveRial
    feePayment := rate.feePayment
    etaMinDays := rate.etaMinDays.or method.estimatedDays
    etaMaxDays := (rate.etaMaxDays.or rate.etaMinDays).or method.estimatedDays
    pickupAddress := method.pickupAddress
    pickupHours := method.pickupHours }

/-- The option of a method. -/
def quoteMethod (data : CalcData) (dest : CalcDestination) (parcel : CalcParcel)
    (roundUpRial : ℚ) (method : CalcMethod) : Option QuotedOption :=
  match decidingRate toLowerCase data.zones data.rates dest method.id with
  | none => none
  | some (zone, rate) =>
    if rate.isActive then some (optionOf method zone rate dest parcel roundUpRial) else none

/-- `quoteShippingOptions` -/
def quoteShippingOptions (data : CalcData) (dest : CalcDestination) (parcel : CalcParcel)
    (roundUpRial : ℚ) : List QuotedOption :=
  (data.methods.insertionSort fun a b => a.sortOrder ≤ b.sortOrder).filterMap
    (quoteMethod toLowerCase data dest parcel roundUpRial)

end ShippingCalculator

/-! ## The service -/

namespace ShippingService

open ShippingCalculator IranProvinces

variable (toLowerCase : String → String)

/-- A field of a partial update: left out, or a value. -/
abbrev Patch (α : Type) := Option α

/-- The limits of `ShippingRateDto`. -/
structure RateLimitsDto where
  minRial : Patch (Option ℤ) := none
  maxRial : Patch (Option ℤ) := none

/-- `v === undefined ? undefined : v === null || v === 0 ? null : v` -/
def nullable (v : Patch (Option ℤ)) : Patch (Option ℤ) := v.map fun v => v.filter (· ≠ 0)

/-- `cleanRate`, what it does to the limits. -/
def cleanRate (dto : RateLimitsDto) (current : Option CalcRate) : Except ApiError RateLimitsDto :=
  let pick (field : Patch (Option ℤ)) (of : CalcRate → Option ℤ) : Option ℤ :=
    field.getD (current.bind of)
  match pick dto.minRial CalcRate.minRial, pick dto.maxRial CalcRate.maxRial with
  | some min, some max =>
    if 0 < max ∧ max < min then
      .error (.badRequest "حداقل هزینه نمی‌تواند از حداکثر بیشتر باشد")
    else .ok ⟨nullable dto.minRial, nullable dto.maxRial⟩
  | _, _ => .ok ⟨nullable dto.minRial, nullable dto.maxRial⟩

/-- The limits of a rate after it is saved. -/
def saveLimits (data : RateLimitsDto) (rate : CalcRate) : CalcRate :=
  { rate with
    minRial := data.minRial.getD rate.minRial
    maxRial := data.maxRial.getD rate.maxRial }

/-- What of an address is read. -/
structure AddressLike where
  provinceCode : Option String
  province : Option String
  city : Option String
  postalCode : Option String

/-- The settings. -/
structure ShippingSettings where
  enabled : Bool
  tareGrams : ℚ
  roundUpRial : ℚ

/-- `quoteForAddress`: the weight and the options, none where the province is missing. -/
def quoteForAddress (settings : ShippingSettings) (data : CalcData) (address : AddressLike)
    (itemsWeightGrams : ℚ) (valueRial : ℤ) : ℚ × Option (List QuotedOption) :=
  let weightGrams : ℚ :=
    ⌊(max 0 itemsWeightGrams + max 0 settings.tareGrams) * 100 + 1 / 2⌋ / 100
  match resolveProvinceCode toLowerCase address.provinceCode address.province with
  | none => (weightGrams, none)
  | some provinceCode =>
    (weightGrams, some (quoteShippingOptions toLowerCase data
      { provinceCode := some provinceCode, city := address.city, postalCode := address.postalCode }
      { weightGrams, valueRial } (max 0 settings.roundUpRial)))

/-- What a checkout reads of an option. -/
def checkoutOption (o : QuotedOption) : ShippingOption where
  methodId := o.methodId
  name := o.name
  available := o.available
  unavailableReason := o.unavailableReason
  feeRial := o.feeRial
  free := o.free
  feePayment := o.feePayment

/-- What a checkout reads of the options for an address. -/
def checkoutQuote (settings : ShippingSettings) (data : CalcData) (address : AddressLike)
    (itemsWeightGrams : ℚ) (valueRial : ℤ) : ShippingQuote :=
  match (quoteForAddress toLowerCase settings data address itemsWeightGrams valueRial).2 with
  | none => { options := [], provinceMissing := true }
  | some options => { options := options.map checkoutOption }

/-- `toToman` -/
def toToman (rial : ℚ) : String := formatDecimal (⌊rial + 1 / 2⌋ / 10)

/-- `UserShippingOption` -/
structure UserShippingOption where
  methodId : ℕ
  code : String
  name : String
  type : MethodType
  description : Option String
  carrierName : Option String
  zoneName : String
  available : Bool
  unavailableReason : Option String
  feeToman : String
  free : Bool
  freeAboveToman : Option String
  feePayment : FeePayment
  prepaidChargeToman : String
  etaMinDays : Option ℤ
  etaMaxDays : Option ℤ
  pickupAddress : Option String
  pickupHours : Option String

/-- `toUserOption` -/
def toUserOption (o : QuotedOption) : UserShippingOption :=
  let prepaid := resolveShippingCharge (checkoutOption o) false
  { methodId := o.methodId
    code := o.code
    name := o.name
    type := o.type
    description := o.description
    carrierName := o.carrierName
    zoneName := o.zoneName
    available := o.available
    unavailableReason := o.unavailableReason
    feeToman := toToman o.feeRial
    free := o.free
    freeAboveToman := o.freeAboveRial.map fun v => toToman v
    feePayment := o.feePayment
    prepaidChargeToman := toToman (if o.feePayment = .onDelivery then 0 else prepaid.shippingRial)
    etaMinDays := o.etaMinDays
    etaMaxDays := o.etaMaxDays
    pickupAddress := o.pickupAddress
    pickupHours := o.pickupHours }

/-- `optionsForCart`: the options that the customer is shown. -/
def optionsForCart (settings : ShippingSettings) (data : CalcData) (address : AddressLike)
    (items : List CartItem) : List UserShippingOption :=
  if settings.enabled then
    let (itemsWeightGrams, valueRial) := parcelOf items
    ((quoteForAddress toLowerCase settings data address itemsWeightGrams valueRial).2.getD []).map
      toUserOption
  else []

end ShippingService

end ShopOrdersService

end ArkanGold
