import ArkanGold.Common.Format
import ArkanGold.Common.IsoText
import ArkanGold.Common.Text

/-!
# Invoices and how they are shown

The rows of `invoices` and `invoice_items`, and `InvoiceService.getDocument`. A row is split in two:
its `InvoiceHead` is what the public verification of an invoice reads, its `InvoiceBody` everything
else that a document shows.
-/

namespace ArkanGold

namespace InvoiceService

/-- `InvoiceKind` -/
inductive InvoiceKind where
  | invoice
  | proforma
  deriving DecidableEq

/-- `InvoiceStatus` -/
inductive InvoiceStatus where
  | issued
  | paid
  | consumed
  | expired
  | cancelled
  deriving DecidableEq

/-- `CompanySnapshot` -/
structure CompanySnapshot where
  legalName : Option String
  brandName : String := ""
  companyType : String := ""
  nationalId : String := ""
  registrationNumber : String := ""
  economicCode : String := ""
  address : String := ""
  postalCode : String := ""
  phone : String := ""
  website : String := ""
  logoPath : String := ""
  sealImagePath : String := ""
  signatureImagePath : Option String := none
  deriving DecidableEq

/-- `CustomerSnapshot` -/
structure CustomerSnapshot where
  displayName : String
  isLegal : Bool
  nationalId : Option String
  economicCode : Option String
  registrationNumber : Option String
  phone : String
  address : Option String
  postalCode : Option String
  deriving DecidableEq

/-- `ProformaExtraData['destination']` -/
structure Destination where
  owner : String
  bank : String
  accountNumber : String
  sheba : String
  deriving DecidableEq

/-- `ProformaExtraData` -/
structure ProformaExtraData where
  depositTrackingId : String
  destination : Destination
  subject : String
  legalClauses : List String
  depositRequestId : String
  requestNumber : String
  deriving DecidableEq

/-- `SaleInvoiceExtraData`, what a document shows of it. -/
structure SaleInvoiceExtraData where
  discountCode : Option String
  paymentMethod : Option String := none
  discountCodeRial : Option ℚ := none
  packagingWaivedRial : Option ℚ := none
  shippingMethodName : Option String := none
  shippingPayOnDelivery : Option Bool := none
  shippingEstimateRial : Option ℚ := none
  deriving DecidableEq

/-- The column `extra_data`. -/
inductive ExtraData where
  | sale (data : SaleInvoiceExtraData)
  | proforma (data : ProformaExtraData)
  deriving DecidableEq

/-- A row of `invoice_items`. -/
structure InvoiceItem where
  rowNo : ℤ
  productCode : Option String
  title : String
  unit : String
  purityKarat : Option String
  quantity : ℚ
  weightGrams : Option ℚ
  unitPriceRial : ℚ
  discountRial : ℚ
  makingRial : ℚ
  feeRial : ℚ
  taxRate : ℚ
  taxRial : ℚ
  totalRial : ℚ
  deriving DecidableEq

/-- What `verifyPublic` reads of a row of `invoices`. -/
structure InvoiceHead where
  id : String
  invoiceNumber : String
  kind : InvoiceKind
  status : InvoiceStatus
  issuedAt : ℤ
  expiresAt : Option ℤ
  cancelledAt : Option ℤ
  contentHash : String
  /-- the stored JSON, which may be `null` -/
  companySnapshot : Option CompanySnapshot
  deriving DecidableEq

/-- Amounts, items, customer data and extra data of a row of `invoices`. -/
structure InvoiceBody where
  userId : Option String
  customerSnapshot : CustomerSnapshot
  extraData : Option ExtraData
  items : List InvoiceItem
  subtotalRial : ℚ
  discountRial : ℚ
  feeRial : ℚ
  taxRial : ℚ
  totalRial : ℚ
  totalInWords : String
  cancelReason : Option String
  deriving DecidableEq

/-- A row of `invoices` with its items, in the order of `rowNo`. -/
structure InvoiceRow extends InvoiceHead, InvoiceBody

/-- What the service uses of the runtime and of its other services. -/
structure Platform where
  /-- `createHash('sha256').update(v).digest('hex')` -/
  sha256Hex : String → String
  sha256Hex_digits : ∀ v, (sha256Hex v).toList.length = 64 ∧
    ∀ c ∈ (sha256Hex v).toList, c ∈ "0123456789abcdef".toList
  toUpperCase : String → String
  toUpperCase_ascii : ∀ v, (∀ c ∈ v.toList, c.toNat < 128) →
    (toUpperCase v).toList = v.toList.map Char.toUpper
  toLowerCase : String → String
  encodeURIComponent : String → String
  formatJalaliDate : ℤ → String
  formatTime : ℤ → String
  /-- `QRCode.toDataURL` -/
  toDataURL : String → String
  /-- the settings that have a value -/
  config : String → Option String
  /-- the uploaded image of a reference as a data URI, empty where there is none -/
  uploadedImage : String → String

/-- `systemConfig.get` -/
def Platform.get (P : Platform) (key : String) (fallback : String := "") : String :=
  (P.config key).getD fallback

/-- What a request of a document can end with instead. -/
inductive Failure where
  | api (error : ApiError)
  /-- `ERR_CRYPTO_TIMING_SAFE_EQUAL_LENGTH` -/
  | rangeError
  /-- a property of `null` is read -/
  | typeError
  deriving DecidableEq

/-! ## The document -/

/-- `InvoiceDocumentDto['items']` -/
structure ItemDto where
  rowNo : ℤ
  productCode : Option String
  title : String
  unit : String
  purityKarat : Option String
  quantity : String
  weightGrams : Option String
  unitPriceRial : String
  discountRial : String
  makingRial : String
  feeRial : String
  taxRate : String
  taxRial : String
  totalRial : String
  deriving DecidableEq

/-- `InvoiceDocumentDto` -/
structure InvoiceDocumentDto where
  id : String
  kind : InvoiceKind
  invoiceNumber : String
  invoiceNumberFa : String
  status : InvoiceStatus
  orientation : String
  issuedAt : String
  issuedAtJalali : String
  expiresAt : Option String
  expiresAtJalali : Option String
  company : CompanySnapshot
  customer : CustomerSnapshot
  extra : Option ExtraData
  discountCode : Option String
  paymentMethod : Option String
  discountCodeRial : Option String
  packagingWaivedRial : Option String
  shippingMethodName : Option String
  shippingPayOnDelivery : Bool
  shippingEstimateRial : Option String
  items : List ItemDto
  subtotalRial : String
  discountRial : String
  feeRial : String
  taxRial : String
  totalRial : String
  totalInWords : String
  contentHash : String
  verifyUrl : String
  verifyQrDataUrl : String
  cancelReason : Option String
  deriving DecidableEq

/-- `verifyToken` -/
def verifyToken (P : Platform) (invoiceId contentHash : String) : String :=
  sliceTo (P.sha256Hex ("invoice-verify:" ++ invoiceId ++ ":" ++ contentHash)) 24

/-- `DEFAULT_VERIFY_BASE_URL` -/
def DEFAULT_VERIFY_BASE_URL : String := "https://app.arkan.gold/verifyInvoice"

/-- `buildVerifyUrl` -/
def buildVerifyUrl (P : Platform) (base invoiceNumber token : String) : String :=
  let root := trimText (if base = "" then DEFAULT_VERIFY_BASE_URL else base)
  let sep := if '?' ∈ root.toList then "&" else "?"
  root ++ sep ++ "n=" ++ P.encodeURIComponent invoiceNumber ++ "&t=" ++ token

/-- `toDisplay` -/
def toDisplay (documentNumber : String) : String := toPersianDigits documentNumber

/-- `formatJalaliDateTime` -/
def formatJalaliDateTime (P : Platform) (date : ℤ) : String :=
  P.formatJalaliDate date ++ " — ساعت " ++ P.formatTime date

/-- `isUploadedRef` -/
def isUploadedRef (ref : String) : Bool := "branding:".toList.isPrefixOf ref.toList

/-- `resolveDocumentImage` -/
def resolveDocumentImage (P : Platform) (configKey : String) (snapshotRef : Option String) :
    String :=
  match snapshotRef.filter isUploadedRef with
  | some ref => P.uploadedImage ref
  | none =>
    let current := P.get configKey
    if isUploadedRef current then P.uploadedImage current else ""

/-- `withDocumentImages` -/
def withDocumentImages (P : Platform) (company : CompanySnapshot) : CompanySnapshot :=
  let logo := if isUploadedRef company.logoPath then
      resolveDocumentImage P "company.logo_path" (some company.logoPath)
    else
      let uri := resolveDocumentImage P "company.logo_path" none
      if uri = "" then company.logoPath else uri
  { company with
    logoPath := logo
    sealImagePath := resolveDocumentImage P "company.seal_image_path" (some company.sealImagePath)
    signatureImagePath := some
      (resolveDocumentImage P "company.signature_image_path" company.signatureImagePath) }

/-- `optionalRial` -/
def optionalRial (value : Option ℚ) : Option String := value.map formatDecimal

/-- An item as a document shows it. -/
def itemDto (i : InvoiceItem) : ItemDto where
  rowNo := i.rowNo
  productCode := i.productCode
  title := i.title
  unit := i.unit
  purityKarat := i.purityKarat
  quantity := formatDecimal i.quantity
  weightGrams := i.weightGrams.map formatDecimal
  unitPriceRial := formatDecimal i.unitPriceRial
  discountRial := formatDecimal i.discountRial
  makingRial := formatDecimal i.makingRial
  feeRial := formatDecimal i.feeRial
  taxRate := formatDecimal i.taxRate
  taxRial := formatDecimal i.taxRial
  totalRial := formatDecimal i.totalRial

/-- The extra data of a sale, which only an invoice shows. -/
def saleData (invoice : InvoiceRow) : Option SaleInvoiceExtraData :=
  match invoice.kind, invoice.extraData with
  | .invoice, some (.sale data) => some data
  | _, _ => none

/-- `getDocument` -/
def getDocument (P : Platform) (rows : List InvoiceRow) (invoiceId : String)
    (requesterUserId : Option String) (isAdmin : Bool) : Except Failure InvoiceDocumentDto := do
  let some invoice := rows.find? fun r => r.id == invoiceId
    | throw (.api (.notFound "سند یافت نشد"))
  if !isAdmin && (invoice.userId.isNone || invoice.userId != requesterUserId) then
    throw (.api (.forbidden "دسترسی به این سند مجاز نیست"))
  let some company := invoice.companySnapshot | throw .typeError
  let orientation := match invoice.kind with
    | .proforma => P.get "document.proforma_orientation" "portrait"
    | .invoice => P.get "document.invoice_orientation" "landscape"
  let verifyUrl := buildVerifyUrl P (P.get "document.verify_base_url") invoice.invoiceNumber
    (verifyToken P invoice.id invoice.contentHash)
  let sale := saleData invoice
  return {
    id := invoice.id
    kind := invoice.kind
    invoiceNumber := invoice.invoiceNumber
    invoiceNumberFa := toDisplay invoice.invoiceNumber
    status := invoice.status
    orientation := orientation
    issuedAt := toISOString invoice.issuedAt
    issuedAtJalali := formatJalaliDateTime P invoice.issuedAt
    expiresAt := invoice.expiresAt.map toISOString
    expiresAtJalali := invoice.expiresAt.map (formatJalaliDateTime P)
    company := withDocumentImages P company
    customer := invoice.customerSnapshot
    extra := if invoice.kind = .proforma then invoice.extraData else none
    discountCode := sale.bind (·.discountCode)
    paymentMethod := sale.bind (·.paymentMethod)
    discountCodeRial := optionalRial (sale.bind (·.discountCodeRial))
    packagingWaivedRial := optionalRial (sale.bind (·.packagingWaivedRial))
    shippingMethodName := sale.bind (·.shippingMethodName)
    shippingPayOnDelivery := (sale.bind (·.shippingPayOnDelivery)).getD false
    shippingEstimateRial := optionalRial (sale.bind (·.shippingEstimateRial))
    items := invoice.items.map itemDto
    subtotalRial := formatDecimal invoice.subtotalRial
    discountRial := formatDecimal invoice.discountRial
    feeRial := formatDecimal invoice.feeRial
    taxRial := formatDecimal invoice.taxRial
    totalRial := formatDecimal invoice.totalRial
    totalInWords := invoice.totalInWords
    contentHash := invoice.contentHash
    verifyUrl := verifyUrl
    verifyQrDataUrl := P.toDataURL verifyUrl
    cancelReason := invoice.cancelReason }

end InvoiceService

end ArkanGold
