import ArkanGold.Store.Database
import ArkanGold.Lib.Confined
import ArkanGold.Common.Format

/-!
# The office database

The tables of bars, sales agents, sales partners and deposits next to the store.

- `OfficeDb.store` is the database of wallets and books; the ids come from its supply.
- Columns are as in `Db`: rials are integers, grams are in units of `0.0001` g, an
  instant is a number of milliseconds. What no modelled function reads of a row is left
  out; the items of an order are part of its row.
- Creating a row waits for the unique keys it takes: `OfficeRow` names these locks too.
-/

namespace ArkanGold

/-- `HologramCodeStatus` -/
inductive HologramCodeStatus where
  | unassigned
  | assigned
  | transferPending
  | revoked
  | atAgent
  | buybackPending
  | agentOwned
  deriving DecidableEq, Repr

/-- `GoldPurityKarat` -/
inductive GoldPurityKarat where
  | k18
  | k24
  deriving DecidableEq, Repr

/-- `HologramOwnershipStatus` -/
inductive HologramOwnershipStatus where
  | active
  | transferred
  | pendingRecipientConfirmation
  | voided
  deriving DecidableEq, Repr

/-- `HologramTransferType` -/
inductive HologramTransferType where
  | initialPurchase
  | giftTransfer
  | saleTransfer
  deriving DecidableEq, Repr

/-- `HologramTransferRequestStatus` -/
inductive HologramTransferRequestStatus where
  | pending
  | confirmed
  | rejected
  | expired
  | cancelled
  deriving DecidableEq, Repr

/-- `HologramIncidentType` -/
inductive HologramIncidentType where
  | theft
  | loss
  deriving DecidableEq, Repr

/-- `HologramIncidentStatus` -/
inductive HologramIncidentStatus where
  | open
  | confirmed
  | recovered
  | rejected
  | cancelled
  deriving DecidableEq, Repr

/-- `BullionBuybackStatus` -/
inductive BullionBuybackStatus where
  | submitted
  | awaitingDelivery
  | received
  | inspectionPassed
  | offered
  | accepted
  | approved
  | paid
  | returnPending
  | returned
  | rejected
  | cancelled
  deriving DecidableEq, Repr

/-- `BuybackDeliveryMethod` -/
inductive BuybackDeliveryMethod where
  | inPerson
  | insuredPost
  deriving DecidableEq, Repr

/-- `ShopRecipientType`: who is to own the bars of an item. -/
inductive RecipientType where
  | self
  | other
  deriving DecidableEq, Repr

/-- `AgentStatus` -/
inductive AgentStatus where
  | active
  | suspended
  | terminated
  deriving DecidableEq, Repr

/-- `AgentSaleStatus` -/
inductive AgentSaleStatus where
  | completed
  | voided
  deriving DecidableEq, Repr

/-- `AgentSaleStockSource` -/
inductive AgentSaleStockSource where
  | consignment
  | owned
  deriving DecidableEq, Repr

/-- `AgentPurchaseStatus` -/
inductive AgentPurchaseStatus where
  | pendingPayment
  | paymentReview
  | paid
  | approved
  | delivered
  | cancelled
  | expired
  deriving DecidableEq, Repr

/-- `AgentPurchasePaymentMethod` -/
inductive AgentPurchasePaymentMethod where
  | wallet
  | gateway
  | bankTransfer
  | credit
  deriving DecidableEq, Repr

/-- `AgentBuybackStatus` -/
inductive AgentBuybackStatus where
  | pendingDelivery
  | received
  | approved
  | paid
  | rejected
  | cancelled
  deriving DecidableEq, Repr

/-- `PartnerStatus` -/
inductive PartnerStatus where
  | active
  | suspended
  | terminated
  deriving DecidableEq, Repr

/-- `PartnerProductKind` -/
inductive PartnerProductKind where
  | meltedGold
  | bullion
  deriving DecidableEq, Repr

/-- `PartnerOrderStatus` -/
inductive PartnerOrderStatus where
  | pending
  | confirmed
  | settled
  | cancelled
  | refunded
  deriving DecidableEq, Repr

/-- `DepositMethod` -/
inductive DepositMethod where
  | cardToCard
  | bankTransfer
  | largeTransfer
  deriving DecidableEq, Repr

/-- `DepositStatus` -/
inductive DepositStatus where
  | pendingPayment
  | receiptUploaded
  | underReview
  | approved
  | rejected
  | cancelled
  | expired
  deriving DecidableEq, Repr

/-- `InvoiceStatus` -/
inductive InvoiceStatus where
  | issued
  | paid
  | consumed
  | expired
  | cancelled
  deriving DecidableEq, Repr

/-- A row of `users` with the names of its identity record; the status of both is in
`Db.users`. -/
structure Profile where
  userId : ℕ
  phone : String
  firstName : Option String
  lastName : Option String
  nationalCode : Option String
  deriving DecidableEq

/-- A row of `bank_accounts`, as far as a payout looks at it. -/
structure PayoutAccount where
  id : ℕ
  userId : ℕ
  isDefault : Bool
  isVerified : Bool
  /-- `status = 'VERIFIED'` -/
  statusVerified : Bool
  deriving DecidableEq

/-- A row of `hologram_codes`: a bar. -/
structure HologramCode where
  id : ℕ
  code : String
  status : HologramCodeStatus
  productId : Option ℕ
  variantId : Option ℕ
  weightGrams : Option ℤ
  purityKarat : Option GoldPurityKarat
  factorySerialNumber : Option String
  mintedAt : Option ℤ
  shopOrderItemId : Option ℕ
  assignedByAdminId : Option ℕ
  assignedAt : Option ℤ
  revokedByAdminId : Option ℕ
  revokedAt : Option ℤ
  revokeReason : Option String
  agentId : Option ℕ
  agentAllocatedAt : Option ℤ
  agentPremiumRial : Option ℤ
  vaultCodedAt : Option ℤ
  deriving DecidableEq

/-- A row of `hologram_ownerships`. -/
structure HologramOwnership where
  id : ℕ
  hologramCodeId : ℕ
  ownerUserId : ℕ
  shopOrderId : Option ℕ
  fullName : String
  nationalCode : String
  status : HologramOwnershipStatus
  transferType : HologramTransferType
  /-- also `ownership_start_at`: both default to the instant of the insertion -/
  createdAt : ℤ
  ownershipEndAt : Option ℤ
  deriving DecidableEq

/-- A row of `ownership_transfer_requests`. -/
structure OwnershipTransferRequest where
  id : ℕ
  hologramCodeId : ℕ
  shopOrderItemId : Option ℕ
  initiatedByUserId : Option ℕ
  initiatedByAdminId : Option ℕ
  recipientPhoneNumber : String
  recipientUserId : Option ℕ
  status : HologramTransferRequestStatus
  transferType : HologramTransferType
  expiresAt : ℤ
  confirmedAt : Option ℤ
  identityVerificationRef : Option String
  rejectionReason : Option String
  deriving DecidableEq

/-- A row of `hologram_incident_reports`. -/
structure HologramIncidentReport where
  id : ℕ
  reportNumber : String
  hologramCodeId : ℕ
  type : HologramIncidentType
  status : HologramIncidentStatus
  reportedByUserId : Option ℕ
  reportedByAdminId : Option ℕ
  reviewedByAdminId : Option ℕ
  ownerFullName : Option String
  ownerNationalCode : Option String
  adminNote : Option String
  closeReason : Option String
  deriving DecidableEq

/-- A row of `bullion_buyback_requests`. -/
structure BullionBuybackRequest where
  id : ℕ
  requestNumber : String
  userId : ℕ
  hologramCodeId : ℕ
  ownershipId : ℕ
  status : BullionBuybackStatus
  declaredWeightGrams : ℤ
  purityKarat : Option GoldPurityKarat
  ownerFullName : String
  ownerNationalCode : String
  deliveryMethod : BuybackDeliveryMethod
  estimatedPriceRial : ℤ
  bankAccountId : ℕ
  inspectionPassed : Option Bool
  measuredWeightGrams : Option ℤ
  offerNetRial : Option ℤ
  offerExpiresAt : Option ℤ
  acceptedAt : Option ℤ
  approvedByAdminId : Option ℕ
  bankReference : Option String
  sourceAccountCode : Option String
  journalEntryId : Option ℕ
  returnReason : Option String
  rejectionReason : Option String
  deriving DecidableEq

/-- A row of `shop_order_items`, with what is read of its variant and product when a bar
is assigned. -/
structure CodedItem where
  id : ℕ
  orderId : ℕ
  productId : ℕ
  variantId : Option ℕ
  quantity : ℕ
  selectedWeightGrams : Option ℤ
  variantWeightGrams : Option ℤ
  purityKarat : Option GoldPurityKarat
  recipientType : RecipientType
  recipientPhoneNumber : Option String
  deriving DecidableEq

/-- A row of `agents`. -/
structure Agent where
  id : ℕ
  code : String
  name : String
  status : AgentStatus
  consignmentEnabled : Bool
  creditPurchaseEnabled : Bool
  creditLimitRial : Option ℤ
  creditDays : Option ℕ
  balanceRial : ℤ
  deriving DecidableEq

/-- A row of `agent_ledger_entries`. -/
structure AgentLedgerEntry where
  id : ℕ
  agentId : ℕ
  type : String
  debitRial : ℤ
  creditRial : ℤ
  balanceAfterRial : ℤ
  referenceType : Option String
  referenceId : Option ℕ
  deriving DecidableEq

/-- `AgentQuote`: a price that was quoted to an agent and has not expired. -/
structure AgentQuote where
  quoteId : ℕ
  agentId : ℕ
  hologramCodeId : ℕ
  code : String
  stockSource : AgentSaleStockSource
  consumerMaxPriceRial : ℤ
  weightGrams : ℤ
  purityKarat : GoldPurityKarat
  goldValueRial : ℤ
  premiumRial : ℤ
  totalRial : ℤ
  commissionRial : ℤ
  netPayableRial : ℤ
  deriving DecidableEq

/-- A row of `agent_sales`. -/
structure AgentSale where
  id : ℕ
  saleNumber : String
  agentId : ℕ
  hologramCodeId : ℕ
  buyerUserId : ℕ
  weightGrams : ℤ
  goldValueRial : ℤ
  premiumRial : ℤ
  totalRial : ℤ
  commissionRial : ℤ
  netPayableRial : ℤ
  stockSource : AgentSaleStockSource
  billedToAgent : Bool
  ownershipId : ℕ
  journalEntryId : Option ℕ
  status : AgentSaleStatus
  deriving DecidableEq

/-- A row of `agent_purchase_order_items`. -/
structure AgentPurchaseItem where
  title : String
  weightGrams : ℤ
  purityKarat : GoldPurityKarat
  quantity : ℕ
  unitGoldValueRial : ℤ
  unitPremiumRial : ℤ
  lineTotalRial : ℤ
  deriving DecidableEq

/-- A row of `agent_purchase_orders` with its items. -/
structure AgentPurchaseOrder where
  id : ℕ
  orderNumber : String
  agentId : ℕ
  status : AgentPurchaseStatus
  paymentMethod : AgentPurchasePaymentMethod
  items : List AgentPurchaseItem
  goldValueRial : ℤ
  premiumRial : ℤ
  totalRial : ℤ
  lockedUntil : ℤ
  paymentReference : Option String
  proformaInvoiceId : Option ℕ
  invoiceId : Option ℕ
  voucherNumber : Option String
  approvedAt : Option ℤ
  approvedById : Option ℕ
  adminNote : Option String
  saleJournalId : Option ℕ
  creditDueAt : Option ℤ
  deriving DecidableEq

/-- `AgentStockMovementType` -/
inductive AgentStockMovementType where
  | allocation
  | returned
  | sale
  | saleVoid
  | purchase
  | buyback
  deriving DecidableEq, Repr

/-- A row of `agent_stock_movements`. -/
structure AgentStockMovement where
  id : ℕ
  voucherNumber : String
  agentId : ℕ
  hologramCodeId : ℕ
  type : AgentStockMovementType
  weightGrams : ℤ
  note : Option String
  referenceId : Option ℕ
  performedByAdminId : Option ℕ
  deriving DecidableEq

/-- A row of `agent_buyback_items`. -/
structure AgentBuybackItem where
  hologramCodeId : ℕ
  code : String
  weightGrams : ℤ
  quotedRial : ℤ
  accepted : Bool
  finalRial : Option ℤ
  deriving DecidableEq

/-- A row of `agent_buyback_orders` with its items. -/
structure AgentBuybackOrder where
  id : ℕ
  orderNumber : String
  agentId : ℕ
  status : AgentBuybackStatus
  /-- `payoutMethod ≠ 'BANK'` -/
  toWallet : Bool
  items : List AgentBuybackItem
  agentInvoiceNumber : Option String
  deliveryDeadline : ℤ
  journalEntryId : Option ℕ
  deriving DecidableEq

/-- A row of `sales_partners`. -/
structure SalesPartner where
  id : ℕ
  code : String
  name : String
  status : PartnerStatus
  commissionPercent : ℤ
  commissionFixedRial : ℤ
  settlementDays : ℕ
  creditLimitRial : Option ℤ
  minOrderRial : Option ℤ
  maxOrderRial : Option ℤ
  allowedProducts : List PartnerProductKind
  balanceRial : ℤ
  contractEndAt : Option ℤ
  deriving DecidableEq

/-- A row of `partner_orders`. -/
structure PartnerOrder where
  id : ℕ
  orderNumber : String
  partnerId : ℕ
  externalRef : String
  userId : ℕ
  productKind : PartnerProductKind
  status : PartnerOrderStatus
  amountGrams : ℤ
  hologramCodeId : Option ℕ
  pricePerGramRial : ℤ
  goldValueRial : ℤ
  wageRial : ℤ
  feeRial : ℤ
  taxRial : ℤ
  totalRial : ℤ
  commissionRial : ℤ
  netReceivableRial : ℤ
  dueDate : Option ℤ
  settlementId : Option ℕ
  confirmJournalId : Option ℕ
  refundJournalId : Option ℕ
  transactionId : Option ℕ
  /-- `createdVia = 'API'` -/
  createdViaApi : Bool
  confirmedAt : Option ℤ
  cancelReason : Option String
  createdAt : ℤ
  deriving DecidableEq

/-- A row of `partner_settlements`. -/
structure PartnerSettlement where
  id : ℕ
  settlementNumber : String
  partnerId : ℕ
  amountRial : ℤ
  cashAccountCode : String
  journalEntryId : Option ℕ
  deriving DecidableEq

/-- A row of `party_ledger_entries` of a partner. -/
structure PartyLedgerEntry where
  id : ℕ
  partyId : ℕ
  type : String
  debitRial : ℤ
  creditRial : ℤ
  balanceAfterRial : ℤ
  referenceType : Option String
  referenceId : Option ℕ
  deriving DecidableEq

/-- A row of `deposit_requests`. -/
structure DepositRequest where
  id : ℕ
  requestNumber : String
  userId : ℕ
  walletId : ℕ
  amountRial : ℤ
  method : DepositMethod
  status : DepositStatus
  depositTrackingId : String
  proformaInvoiceId : Option ℕ
  transactionId : Option ℕ
  idempotencyKey : Option String
  expiresAt : ℤ
  reviewStartedAt : Option ℤ
  reviewedById : Option ℕ
  reviewedAt : Option ℤ
  rejectionReason : Option String
  rejectionCount : ℕ
  adminNotes : Option String
  createdAt : ℤ
  deriving DecidableEq

/-- A file in the storage. -/
structure StoredFile where
  storageKey : String
  bucket : String
  fileName : String
  mimeType : String
  fileSize : ℕ
  checksumSha256 : String
  deriving DecidableEq

/-- A row of `deposit_receipts`. -/
structure DepositReceipt where
  id : ℕ
  depositRequestId : ℕ
  file : StoredFile
  userNote : Option String
  deriving DecidableEq

/-- A row of `invoices`, as far as a deposit looks at its proforma. -/
structure Invoice where
  id : ℕ
  status : InvoiceStatus
  cancelledAt : Option ℤ
  cancelReason : Option String
  deriving DecidableEq

/-- A row of `invoice_items`, as far as it depends on the item of an agent's order. -/
structure AgentInvoiceItem where
  rowNo : ℕ
  title : String
  purityKarat : GoldPurityKarat
  quantity : ℕ
  weightGrams : ℚ
  unitPriceRial : ℤ
  makingRial : ℤ
  totalRial : ℤ
  deriving DecidableEq

/-- A row of `invoices` that bills the purchase order of an agent (`INVOICE`,
`AGENT_PURCHASE`), with its items. -/
structure AgentInvoice where
  id : ℕ
  invoiceNumber : String
  status : InvoiceStatus
  orderId : ℕ
  agentId : ℕ
  paymentMethod : String
  items : List AgentInvoiceItem
  subtotalRial : ℤ
  totalRial : ℤ
  deriving DecidableEq

/-- The names of the row locks. -/
inductive OfficeRow where
  | store (r : Row)
  | profile (id : ℕ)
  | bar (id : ℕ)
  | ownership (id : ℕ)
  | transferRequest (id : ℕ)
  | incident (id : ℕ)
  | buyback (id : ℕ)
  | item (id : ℕ)
  | agent (id : ℕ)
  | agentLedger (id : ℕ)
  | agentSale (id : ℕ)
  | agentPurchase (id : ℕ)
  | agentBuyback (id : ℕ)
  | agentMovement (id : ℕ)
  | agentInvoice (id : ℕ)
  | partner (id : ℕ)
  | partnerOrder (id : ℕ)
  | settlement (id : ℕ)
  | partyLedger (id : ℕ)
  /-- the unique key of `hologram_ownerships_one_active_per_code` -/
  | activeOwnership (hologramCodeId : ℕ)
  /-- the unique key of `ownership_transfer_requests_one_pending_per_code` -/
  | pendingTransfer (hologramCodeId : ℕ)
  /-- the unique key of `hologram_incident_reports_one_active_per_code` -/
  | activeIncident (hologramCodeId : ℕ)
  /-- the unique key of `bullion_buyback_requests_open_per_code_key` -/
  | openBuyback (hologramCodeId : ℕ)
  /-- the unique key `(partner_id, external_ref)` -/
  | externalRef (partnerId : ℕ) (ref : String)
  | deposit (id : ℕ)
  | depositReceipt (id : ℕ)
  | invoice (id : ℕ)
  /-- the advisory lock of a deposit -/
  | depositAdvisory (id : ℕ)
  /-- the unique key `deposit_tracking_id` -/
  | depositTracking (trackingId : String)
  /-- the unique key `idempotency_key` of `deposit_requests` -/
  | depositKey (key : String)
  deriving DecidableEq

/-- Statements that properties of runs speak about. -/
inductive OfficeMark where
  /-- `revokeCode` is about to revoke a bar -/
  | revokes (barId : ℕ)
  /-- a transaction is about to move bars -/
  | moves (barIds : List ℕ)
  /-- a partner order is confirmed -/
  | confirms (orderId : ℕ)
  /-- a partner order is refunded -/
  | refunds (orderId : ℕ)
  /-- a settlement is about to mark orders as settled; `auto` tells who chose them -/
  | settles (settlementId : ℕ) (auto : Bool) (orderIds : List ℕ)
  /-- the receipt of a deposit is about to be stored -/
  | uploads (depositId : ℕ)
  /-- a deposit is rejected -/
  | rejects (depositId : ℕ)
  /-- a new receipt of a deposit is asked for -/
  | asksReceipt (depositId : ℕ)
  deriving DecidableEq

/-- The database of the office. -/
structure OfficeDb where
  store : Db
  profiles : Table Profile Profile.userId
  payoutAccounts : Table PayoutAccount PayoutAccount.id
  bars : Table HologramCode HologramCode.id
  ownerships : Table HologramOwnership HologramOwnership.id
  transferRequests : Table OwnershipTransferRequest OwnershipTransferRequest.id
  incidents : Table HologramIncidentReport HologramIncidentReport.id
  buybacks : Table BullionBuybackRequest BullionBuybackRequest.id
  items : Table CodedItem CodedItem.id
  quotes : Table AgentQuote AgentQuote.quoteId
  agents : Table Agent Agent.id
  agentLedger : Table AgentLedgerEntry AgentLedgerEntry.id
  agentSales : Table AgentSale AgentSale.id
  agentPurchases : Table AgentPurchaseOrder AgentPurchaseOrder.id
  agentBuybacks : Table AgentBuybackOrder AgentBuybackOrder.id
  agentMovements : Table AgentStockMovement AgentStockMovement.id
  agentInvoices : Table AgentInvoice AgentInvoice.id
  partners : Table SalesPartner SalesPartner.id
  partnerOrders : Table PartnerOrder PartnerOrder.id
  settlements : Table PartnerSettlement PartnerSettlement.id
  partyLedger : Table PartyLedgerEntry PartyLedgerEntry.id
  deposits : Table DepositRequest DepositRequest.id
  depositReceipts : Table DepositReceipt DepositReceipt.id
  invoices : Table Invoice Invoice.id
  /-- the texts of `system_config` that are set -/
  texts : String → Option String
  /-- the marks of committed transactions; no function reads them -/
  history : List OfficeMark

namespace OfficeDb

/-- The books. -/
def books (s : OfficeDb) : Books := s.store.books

/-- The clock. -/
def now (s : OfficeDb) : ℤ := s.store.books.now

/-- Replace `store`. -/
@[simps] def setStore (t : Db) (s : OfficeDb) : OfficeDb := { s with store := t }

/-- Replace `profiles`. -/
@[simps] def setProfiles (t : Table Profile Profile.userId) (s : OfficeDb) : OfficeDb :=
  { s with profiles := t }

/-- Replace `bars`. -/
@[simps] def setBars (t : Table HologramCode HologramCode.id) (s : OfficeDb) : OfficeDb :=
  { s with bars := t }

/-- Replace `ownerships`. -/
@[simps] def setOwnerships (t : Table HologramOwnership HologramOwnership.id) (s : OfficeDb) :
    OfficeDb := { s with ownerships := t }

/-- Replace `transferRequests`. -/
@[simps] def setTransferRequests
    (t : Table OwnershipTransferRequest OwnershipTransferRequest.id) (s : OfficeDb) : OfficeDb :=
  { s with transferRequests := t }

/-- Replace `incidents`. -/
@[simps] def setIncidents (t : Table HologramIncidentReport HologramIncidentReport.id)
    (s : OfficeDb) : OfficeDb := { s with incidents := t }

/-- Replace `buybacks`. -/
@[simps] def setBuybacks (t : Table BullionBuybackRequest BullionBuybackRequest.id)
    (s : OfficeDb) : OfficeDb := { s with buybacks := t }

/-- Replace `agents`. -/
@[simps] def setAgents (t : Table Agent Agent.id) (s : OfficeDb) : OfficeDb :=
  { s with agents := t }

/-- Replace `agentLedger`. -/
@[simps] def setAgentLedger (t : Table AgentLedgerEntry AgentLedgerEntry.id) (s : OfficeDb) :
    OfficeDb := { s with agentLedger := t }

/-- Replace `agentSales`. -/
@[simps] def setAgentSales (t : Table AgentSale AgentSale.id) (s : OfficeDb) : OfficeDb :=
  { s with agentSales := t }

/-- Replace `agentPurchases`. -/
@[simps] def setAgentPurchases (t : Table AgentPurchaseOrder AgentPurchaseOrder.id)
    (s : OfficeDb) : OfficeDb := { s with agentPurchases := t }

/-- Replace `agentBuybacks`. -/
@[simps] def setAgentBuybacks (t : Table AgentBuybackOrder AgentBuybackOrder.id)
    (s : OfficeDb) : OfficeDb := { s with agentBuybacks := t }

/-- Replace `agentMovements`. -/
@[simps] def setAgentMovements (t : Table AgentStockMovement AgentStockMovement.id)
    (s : OfficeDb) : OfficeDb := { s with agentMovements := t }

/-- Replace `agentInvoices`. -/
@[simps] def setAgentInvoices (t : Table AgentInvoice AgentInvoice.id) (s : OfficeDb) :
    OfficeDb := { s with agentInvoices := t }

/-- Replace `partners`. -/
@[simps] def setPartners (t : Table SalesPartner SalesPartner.id) (s : OfficeDb) : OfficeDb :=
  { s with partners := t }

/-- Replace `partnerOrders`. -/
@[simps] def setPartnerOrders (t : Table PartnerOrder PartnerOrder.id) (s : OfficeDb) :
    OfficeDb := { s with partnerOrders := t }

/-- Replace `settlements`. -/
@[simps] def setSettlements (t : Table PartnerSettlement PartnerSettlement.id) (s : OfficeDb) :
    OfficeDb := { s with settlements := t }

/-- Replace `partyLedger`. -/
@[simps] def setPartyLedger (t : Table PartyLedgerEntry PartyLedgerEntry.id) (s : OfficeDb) :
    OfficeDb := { s with partyLedger := t }

/-- Replace `deposits`. -/
@[simps] def setDeposits (t : Table DepositRequest DepositRequest.id) (s : OfficeDb) :
    OfficeDb := { s with deposits := t }

/-- Replace `depositReceipts`. -/
@[simps] def setDepositReceipts (t : Table DepositReceipt DepositReceipt.id) (s : OfficeDb) :
    OfficeDb := { s with depositReceipts := t }

/-- Replace `invoices`. -/
@[simps] def setInvoices (t : Table Invoice Invoice.id) (s : OfficeDb) : OfficeDb :=
  { s with invoices := t }

/-- A number of the id supply is spent. -/
@[simps!] def spendId (s : OfficeDb) : OfficeDb := s.setStore s.store.spendId

/-- A mark enters the history. -/
@[simps] def note (l : OfficeMark) (s : OfficeDb) : OfficeDb :=
  { s with history := s.history ++ [l] }

instance : Supply OfficeDb := ⟨fun s => s.store.nextId, spendId⟩

instance : History OfficeMark OfficeDb := ⟨note⟩

@[simp] theorem supply_next (s : OfficeDb) : Supply.next s = s.store.nextId := rfl

@[simp] theorem supply_bump (s : OfficeDb) : Supply.bump s = s.spendId := rfl

@[simp] theorem history_record (l : OfficeMark) (s : OfficeDb) :
    History.record l s = s.note l := rfl

/-- The store as a part of the state. -/
def storePart : Part Db OfficeDb where
  get := store
  set := setStore
  get_set _ _ := rfl
  set_set _ _ _ := rfl
  set_get _ := rfl
  next_eq _ := rfl
  bump_eq _ := rfl

@[simp] theorem storePart_get (s : OfficeDb) : storePart.get s = s.store := rfl

@[simp] theorem storePart_set (t : Db) (s : OfficeDb) : storePart.set t s = s.setStore t := rfl

/-! ## Tables -/

/-- `users` with `user_identities` -/
@[simps] def profileRows : Relation OfficeRow OfficeDb Profile Profile.userId :=
  ⟨profiles, setProfiles, .profile⟩

/-- `hologram_codes` -/
@[simps] def barRows : Relation OfficeRow OfficeDb HologramCode HologramCode.id :=
  ⟨bars, setBars, .bar⟩

/-- `hologram_ownerships` -/
@[simps] def ownershipRows : Relation OfficeRow OfficeDb HologramOwnership HologramOwnership.id :=
  ⟨ownerships, setOwnerships, .ownership⟩

/-- `ownership_transfer_requests` -/
@[simps] def transferRequestRows :
    Relation OfficeRow OfficeDb OwnershipTransferRequest OwnershipTransferRequest.id :=
  ⟨transferRequests, setTransferRequests, .transferRequest⟩

/-- `hologram_incident_reports` -/
@[simps] def incidentRows :
    Relation OfficeRow OfficeDb HologramIncidentReport HologramIncidentReport.id :=
  ⟨incidents, setIncidents, .incident⟩

/-- `bullion_buyback_requests` -/
@[simps] def buybackRows :
    Relation OfficeRow OfficeDb BullionBuybackRequest BullionBuybackRequest.id :=
  ⟨buybacks, setBuybacks, .buyback⟩

/-- `agents` -/
@[simps] def agentRows : Relation OfficeRow OfficeDb Agent Agent.id :=
  ⟨agents, setAgents, .agent⟩

/-- `agent_ledger_entries` -/
@[simps] def agentLedgerRows : Relation OfficeRow OfficeDb AgentLedgerEntry AgentLedgerEntry.id :=
  ⟨agentLedger, setAgentLedger, .agentLedger⟩

/-- `agent_sales` -/
@[simps] def agentSaleRows : Relation OfficeRow OfficeDb AgentSale AgentSale.id :=
  ⟨agentSales, setAgentSales, .agentSale⟩

/-- `agent_purchase_orders` -/
@[simps] def agentPurchaseRows :
    Relation OfficeRow OfficeDb AgentPurchaseOrder AgentPurchaseOrder.id :=
  ⟨agentPurchases, setAgentPurchases, .agentPurchase⟩

/-- `agent_buyback_orders` -/
@[simps] def agentBuybackRows :
    Relation OfficeRow OfficeDb AgentBuybackOrder AgentBuybackOrder.id :=
  ⟨agentBuybacks, setAgentBuybacks, .agentBuyback⟩

/-- `agent_stock_movements` -/
@[simps] def agentMovementRows :
    Relation OfficeRow OfficeDb AgentStockMovement AgentStockMovement.id :=
  ⟨agentMovements, setAgentMovements, .agentMovement⟩

/-- `invoices`, those of the purchase orders of agents -/
@[simps] def agentInvoiceRows : Relation OfficeRow OfficeDb AgentInvoice AgentInvoice.id :=
  ⟨agentInvoices, setAgentInvoices, .agentInvoice⟩

/-- `sales_partners` -/
@[simps] def partnerRows : Relation OfficeRow OfficeDb SalesPartner SalesPartner.id :=
  ⟨partners, setPartners, .partner⟩

/-- `partner_orders` -/
@[simps] def partnerOrderRows : Relation OfficeRow OfficeDb PartnerOrder PartnerOrder.id :=
  ⟨partnerOrders, setPartnerOrders, .partnerOrder⟩

/-- `partner_settlements` -/
@[simps] def settlementRows : Relation OfficeRow OfficeDb PartnerSettlement PartnerSettlement.id :=
  ⟨settlements, setSettlements, .settlement⟩

/-- `party_ledger_entries` -/
@[simps] def partyLedgerRows : Relation OfficeRow OfficeDb PartyLedgerEntry PartyLedgerEntry.id :=
  ⟨partyLedger, setPartyLedger, .partyLedger⟩

/-- `deposit_requests` -/
@[simps] def depositRows : Relation OfficeRow OfficeDb DepositRequest DepositRequest.id :=
  ⟨deposits, setDeposits, .deposit⟩

/-- `deposit_receipts` -/
@[simps] def depositReceiptRows : Relation OfficeRow OfficeDb DepositReceipt DepositReceipt.id :=
  ⟨depositReceipts, setDepositReceipts, .depositReceipt⟩

/-- `invoices` -/
@[simps] def invoiceRows : Relation OfficeRow OfficeDb Invoice Invoice.id :=
  ⟨invoices, setInvoices, .invoice⟩

/-! ## Queries -/

/-- `systemConfig.get` -/
def getText (s : OfficeDb) (key : String) (fallback : String := "") : String :=
  (s.texts key).getD fallback

/-- The bar with the code `code`. -/
def barByCode (s : OfficeDb) (code : String) : Option HologramCode :=
  s.bars.rows.find? fun b => b.code == code

/-- The ACTIVE ownerships of a bar. -/
def activeOwnerships (s : OfficeDb) (barId : ℕ) : List HologramOwnership :=
  s.ownerships.rows.filter fun o => o.hologramCodeId == barId && o.status == .active

/-- The PENDING transfer requests of a bar. -/
def pendingTransfers (s : OfficeDb) (barId : ℕ) : List OwnershipTransferRequest :=
  s.transferRequests.rows.filter fun r => r.hologramCodeId == barId && r.status == .pending

/-- `ACTIVE_INCIDENT_STATUSES` -/
def isActiveIncident : HologramIncidentStatus → Bool
  | .open | .confirmed => true
  | .recovered | .rejected | .cancelled => false

/-- `findActiveIncident`; which of several it returns matters only to its error text. -/
def findActiveIncident (s : OfficeDb) (barId : ℕ) : Option HologramIncidentReport :=
  s.incidents.rows.find? fun i => i.hologramCodeId == barId && isActiveIncident i.status

/-- `OPEN_STATUSES`: the bar is still in the buyback. -/
def isOpenBuyback : BullionBuybackStatus → Bool
  | .submitted | .awaitingDelivery | .received | .inspectionPassed | .offered | .accepted
  | .approved | .returnPending => true
  | .paid | .returned | .rejected | .cancelled => false

/-- The open buyback requests for a bar. -/
def openBuybacks (s : OfficeDb) (barId : ℕ) : List BullionBuybackRequest :=
  s.buybacks.rows.filter fun r => r.hologramCodeId == barId && isOpenBuyback r.status

theorem mem_activeOwnerships {s : OfficeDb} {barId : ℕ} {a : HologramOwnership} :
    a ∈ s.activeOwnerships barId ↔
      a ∈ s.ownerships.rows ∧ a.hologramCodeId = barId ∧ a.status = .active := by
  simp [activeOwnerships]

/-- The ACTIVE ownerships once one was inserted. -/
theorem activeOwnerships_insert {s t : OfficeDb} {a : HologramOwnership}
    (hnew : s.ownerships.find? a.id = none) (ht : t.ownerships = s.ownerships.insert a)
    (hactive : a.status = .active) (barId : ℕ) :
    t.activeOwnerships barId =
      s.activeOwnerships barId ++ if a.hologramCodeId = barId then [a] else [] := by
  rw [activeOwnerships, ht, Table.filter_insert hnew]
  simp [activeOwnerships, hactive]

/-- The ACTIVE ownerships once one has ended. -/
theorem activeOwnerships_end {s t : OfficeDb} {k : ℕ} {f : HologramOwnership → HologramOwnership}
    {hf : ∀ a, (f a).id = a.id} (ht : t.ownerships = s.ownerships.update k f hf)
    (hended : ∀ a, (f a).status ≠ .active) (barId : ℕ) :
    t.activeOwnerships barId = (s.activeOwnerships barId).filter fun a => a.id != k := by
  rw [activeOwnerships, ht, Table.update, Table.filter_updateWhere _ fun a _ _ => by simp [hended],
    activeOwnerships, List.filter_filter]
  refine List.filter_congr fun a _ => ?_
  rw [Bool.and_comm]
  rfl

/-- An ownership that ends is the only one of its bar, and none of another bar. -/
theorem activeOwnerships_end_only {s t : OfficeDb} {barId : ℕ} {a : HologramOwnership}
    {f : HologramOwnership → HologramOwnership} {hf : ∀ a, (f a).id = a.id}
    (ht : t.ownerships = s.ownerships.update a.id f hf) (hended : ∀ a, (f a).status ≠ .active)
    (honly : s.activeOwnerships barId = [a]) (b : ℕ) :
    t.activeOwnerships b = if b = barId then [] else s.activeOwnerships b := by
  rw [activeOwnerships_end ht hended]
  split
  · rename_i hb
    rw [hb, honly]
    simp
  · rename_i hb
    have ha : a ∈ s.activeOwnerships barId := honly ▸ List.mem_singleton_self a
    obtain ⟨hmem, hcode, -⟩ := mem_activeOwnerships.mp ha
    refine List.filter_eq_self.mpr fun r hr => ?_
    obtain ⟨hrmem, hrcode, -⟩ := mem_activeOwnerships.mp hr
    rw [bne_iff_ne]
    intro hid
    rw [List.inj_on_of_nodup_map s.ownerships.nodup hrmem hmem hid] at hrcode
    exact hb (hrcode.symm.trans hcode)

/-- The user with the phone number `phone`. -/
def userByPhone (s : OfficeDb) (phone : String) : Option Profile :=
  s.profiles.rows.find? fun p => p.phone == phone

end OfficeDb

/-- No row but the accounts. -/
def OfficeDb.opening (accounts : Chart) (now : ℤ) : OfficeDb where
  store := Db.opening accounts now
  profiles := .empty
  payoutAccounts := .empty
  bars := .empty
  ownerships := .empty
  transferRequests := .empty
  incidents := .empty
  buybacks := .empty
  items := .empty
  quotes := .empty
  agents := .empty
  agentLedger := .empty
  agentSales := .empty
  agentPurchases := .empty
  agentBuybacks := .empty
  agentMovements := .empty
  agentInvoices := .empty
  partners := .empty
  partnerOrders := .empty
  settlements := .empty
  partyLedger := .empty
  deposits := .empty
  depositReceipts := .empty
  invoices := .empty
  texts := fun _ => none
  history := []

/-- A transaction on the office database. -/
abbrev OfficeStmt (α : Type) : Type := Block ApiError OfficeRow OfficeMark OfficeDb α

/-- A call of an office service. -/
abbrev OfficeService (α : Type) : Type 1 := Call ApiError OfficeRow OfficeMark OfficeDb α

namespace OfficeStmt

open Stmt (constraintError recordNotFound)

/-- A transaction on the store. -/
def onStore {α : Type} (x : Stmt α) : OfficeStmt α := x.zoom OfficeDb.storePart .store

/-- Insert a row. -/
def create {ρ : Type} {key : ρ → ℕ} (T : Relation OfficeRow OfficeDb ρ key) (mk : ℕ → ρ) :
    OfficeStmt ℕ := T.create (fun n => .store (.own n)) constraintError mk

/-- Update a row. -/
def update {ρ : Type} {key : ρ → ℕ} (T : Relation OfficeRow OfficeDb ρ key) (k : ℕ) (f : ρ → ρ)
    (hf : ∀ r, key (f r) = key r := by intro _; rfl) : OfficeStmt Unit :=
  T.update recordNotFound k f hf

/-- Update the rows that satisfy `p`; the number of rows written. -/
def updateMany {ρ : Type} {key : ρ → ℕ} (T : Relation OfficeRow OfficeDb ρ key) (p : ρ → Bool)
    (f : ρ → ρ) (hf : ∀ r, key (f r) = key r := by intro _; rfl) : OfficeStmt ℕ := do
  let s ← Block.get
  let ks := T.keysOf p s
  Block.lockAll (ks.map T.row)
  let t ← Block.get
  Block.write fun t => T.set ((T.get t).updateWhere (fun r => ks.contains (key r) && p r) f hf) t
  pure ((T.get t).rows.filter fun r => ks.contains (key r) && p r).length

/-- Insert a row with a unique key; `free` tells whether no row has it. -/
def createUnique {ρ : Type} {key : ρ → ℕ} (T : Relation OfficeRow OfficeDb ρ key)
    (name : OfficeRow) (free : OfficeDb → Bool) (mk : ℕ → ρ) : OfficeStmt ℕ := do
  Block.lock name
  let s ← Block.get
  Block.check (free s) constraintError
  create T mk

/-- Insert an ACTIVE ownership of a bar. -/
def createOwnership (barId : ℕ) (mk : ℕ → HologramOwnership) : OfficeStmt ℕ :=
  createUnique OfficeDb.ownershipRows (.activeOwnership barId)
    (fun s => (s.activeOwnerships barId).isEmpty) mk

/-- Insert a PENDING transfer request for a bar. -/
def createTransferRequest (barId : ℕ) (mk : ℕ → OwnershipTransferRequest) : OfficeStmt ℕ :=
  createUnique OfficeDb.transferRequestRows (.pendingTransfer barId)
    (fun s => (s.pendingTransfers barId).isEmpty) mk

/-- Insert an active incident report of a bar. -/
def createIncident (barId : ℕ) (mk : ℕ → HologramIncidentReport) : OfficeStmt ℕ :=
  createUnique OfficeDb.incidentRows (.activeIncident barId)
    (fun s => (s.findActiveIncident barId).isNone) mk

/-- Insert an open buyback request for a bar. -/
def createBuyback (barId : ℕ) (mk : ℕ → BullionBuybackRequest) : OfficeStmt ℕ :=
  createUnique OfficeDb.buybackRows (.openBuyback barId)
    (fun s => (s.openBuybacks barId).isEmpty) mk

/-- `documentSequence.next` -/
def nextNumber (cal : Calendar) (label : String) : OfficeStmt String := do
  let s ← Block.get
  let year := cal.currentJalaliYear s.now
  let key := s!"{label}:{year}"
  Block.lock (.store (.sequence key))
  let s ← Block.get
  let serial := s.store.documentSequences key + 1
  Block.write fun t => t.setStore (t.store.setDocumentSequences
    (Function.update t.store.documentSequences key serial))
  pure s!"AG-{year}-{label}-{padZeros 6 (toString serial)}"

/-- `accountingService.postJournal`, followed by a write that may use the id of the
journal. -/
def postJournal (params : JournalInput) (link : ℕ → OfficeDb → OfficeDb := fun _ s => s) :
    OfficeStmt Unit := do
  let s ← Block.get
  let posted ← Block.ofExcept ((AccountingService.checkJournal params).run s.books).1
  Block.lockAll (posted.map fun x => .store (.account x.account.id))
  Block.write fun t => link t.books.journals.next
    (t.setStore (t.store.setBooks (Stmt.writeJournal s.now params posted t.books)))

/-- `accountingService.reverseJournal` -/
def reverseJournal (journalId : ℕ) (opts : AccountingService.ReversalOptions)
    (link : ℕ → OfficeDb → OfficeDb := fun _ s => s) : OfficeStmt Unit := do
  let s ← Block.get
  let original ← Block.getOrFail (s.books.journals.find? journalId)
    (.notFound "سند حسابداری یافت نشد")
  Block.check (!s.books.journals.rows.any fun j => j.reversalOfId == some original.id)
    (.conflict "این سند قبلاً برگشت خورده است")
  Block.check original.reversalOfId.isNone
    (.conflict "سند برگشتی را نمی‌توان دوباره برگشت زد")
  postJournal (AccountingService.reversalOf s.books original opts) link

/-- `averageCostRial` -/
def averageCostRial (b : Books) (accountCode : String) (grams : ℚ) : ℚ :=
  if grams ≤ 0 then 0
  else
    match b.accounts.findByCode accountCode with
    | none => 0
    | some a =>
      let balG := Numeric.ofScale gramScale a.balanceGrams
      let balR := Numeric.ofScale rialScale a.balanceRial
      if balG ≤ 0 ∨ balR ≤ 0 then 0
      else min (Numeric.roundHalfAway (balR / balG * grams)) balR

/-- `SELECT 1 FROM "hologram_codes" WHERE "code" IN (…) FOR UPDATE` -/
def lockBarsByCode (codes : List String) : OfficeStmt Unit := do
  let s ← Block.get
  Block.lockAll ((OfficeDb.barRows.keysOf (fun b => codes.contains b.code) s).map .bar)

/-! ## What the statements do alone -/

variable {s s' : OfficeDb}

@[simp] theorem ok_onStore {α : Type} {x : Stmt α} {a : α} :
    (onStore x).Ok s a s' ↔ ∃ t, x.Ok s.store a t ∧ s' = s.setStore t :=
  Block.ok_zoom

@[simp] theorem ok_create {ρ : Type} {key : ρ → ℕ} {T : Relation OfficeRow OfficeDb ρ key}
    {mk : ℕ → ρ} {n : ℕ} : (create T mk).Ok s n s' ↔
      n = s.store.nextId ∧ (T.get s.spendId).find? n = none ∧
        s' = T.set ((T.get s.spendId).insert (mk n)) s.spendId :=
  T.ok_create

@[simp] theorem ok_update {ρ : Type} {key : ρ → ℕ} {T : Relation OfficeRow OfficeDb ρ key}
    {k : ℕ} {f : ρ → ρ} {hf : ∀ r, key (f r) = key r} {u : Unit} :
    (update T k f hf).Ok s u s' ↔
      (∃ r, (T.get s).find? k = some r) ∧ s' = T.set ((T.get s).update k f hf) s :=
  T.ok_update

/-- An insertion, with the row and the new contents of the table under names. -/
theorem create_ok {ρ : Type} {key : ρ → ℕ} {T : Relation OfficeRow OfficeDb ρ key} {mk : ℕ → ρ}
    {n : ℕ} (hkey : ∀ n, key (mk n) = n) (h : (create T mk).Ok s n s') :
    ∃ t r, r = mk n ∧ n = s.store.nextId ∧ (T.get s.spendId).find? (key r) = none ∧
      t = (T.get s.spendId).insert r ∧ s' = T.set t s.spendId := by
  obtain ⟨rfl, hnew, rfl⟩ := ok_create.mp h
  exact ⟨_, _, rfl, rfl, by rwa [hkey], rfl, rfl⟩

/-- An update, with the row and the new contents of the table under names. -/
theorem update_ok {ρ : Type} {key : ρ → ℕ} {T : Relation OfficeRow OfficeDb ρ key} {k : ℕ}
    {f : ρ → ρ} {hf : ∀ r, key (f r) = key r} {u : Unit} (h : (update T k f hf).Ok s u s') :
    ∃ t r, (T.get s).find? k = some r ∧ t = (T.get s).update k f hf ∧ s' = T.set t s := by
  obtain ⟨⟨r, hr⟩, rfl⟩ := ok_update.mp h
  exact ⟨_, r, hr, rfl, rfl⟩

theorem ok_createUnique {ρ : Type} {key : ρ → ℕ} {T : Relation OfficeRow OfficeDb ρ key}
    {name : OfficeRow} {free : OfficeDb → Bool} {mk : ℕ → ρ} {n : ℕ} :
    (createUnique T name free mk).Ok s n s' ↔ free s = true ∧ (create T mk).Ok s n s' := by
  simp only [createUnique, Block.ok_bind, Block.ok_lock, Block.ok_get, Block.ok_check]
  constructor
  · rintro ⟨_, _, rfl, _, _, ⟨rfl, rfl⟩, _, _, ⟨hfree, rfl⟩, h⟩
    exact ⟨hfree, h⟩
  · rintro ⟨hfree, h⟩
    exact ⟨(), s, rfl, s, s, ⟨rfl, rfl⟩, (), s, ⟨hfree, rfl⟩, h⟩

theorem ok_postJournal {params : JournalInput} {link : ℕ → OfficeDb → OfficeDb} {u : Unit} :
    (postJournal params link).Ok s u s' ↔
      ∃ posted, (AccountingService.checkJournal params).Ok s.books posted s.books ∧
        s' = link s.books.journals.next
          (s.setStore (s.store.setBooks (Stmt.writeJournal s.now params posted s.books))) := by
  have hrun : ∀ posted, ((AccountingService.checkJournal params).run s.books).1 = .ok posted ↔
      (AccountingService.checkJournal params).Ok s.books posted s.books := by
    intro posted
    refine ⟨fun h => ?_, fun h => congrArg Prod.fst h⟩
    have hok := Tx.ok_run h
    rwa [(AccountingService.checkJournal_ok hok).2] at hok
  simp only [postJournal, Block.ok_bind, Block.ok_get, Block.ok_ofExcept, Block.ok_lockAll,
    Block.ok_write]
  constructor
  · rintro ⟨_, _, ⟨rfl, rfl⟩, posted, _, ⟨h, rfl⟩, _, _, rfl, rfl⟩
    exact ⟨posted, (hrun posted).mp h, rfl⟩
  · rintro ⟨posted, h, rfl⟩
    exact ⟨s, s, ⟨rfl, rfl⟩, posted, s, ⟨(hrun posted).mpr h, rfl⟩, (), s, rfl, rfl⟩

theorem ok_reverseJournal {journalId : ℕ} {opts : AccountingService.ReversalOptions}
    {link : ℕ → OfficeDb → OfficeDb} {u : Unit} :
    (reverseJournal journalId opts link).Ok s u s' ↔
      ∃ original, s.books.journals.find? journalId = some original ∧
        original.reversalOfId = none ∧
        (postJournal (AccountingService.reversalOf s.books original opts) link).Ok s u s' := by
  simp only [reverseJournal, Block.ok_bind, Block.ok_get, Block.ok_getOrFail, Block.ok_check]
  constructor
  · rintro ⟨_, _, ⟨rfl, rfl⟩, original, _, ⟨hfind, rfl⟩, _, _, ⟨-, rfl⟩, _, _, ⟨hnone, rfl⟩, h⟩
    exact ⟨original, hfind, by simpa using hnone, h⟩
  · rintro ⟨original, hfind, hnone, h⟩
    obtain ⟨posted, hcheck, -⟩ := ok_postJournal.mp h
    have hfree := (AccountingService.checkJournal_ok hcheck).1.fresh
    refine ⟨s, s, ⟨rfl, rfl⟩, original, s, ⟨hfind, rfl⟩, (), s, ⟨?_, rfl⟩, (), s,
      ⟨by simp [hnone], rfl⟩, h⟩
    simpa [AccountingService.reversalFree, AccountingService.reversalOf] using hfree

end OfficeStmt

end ArkanGold
