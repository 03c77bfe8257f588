import ArkanGold.Accounting.Posting
import ArkanGold.Lib.Statements

/-!
# The database

The tables of wallets, trading and the shop next to the books, and the statements that
the services issue on them.

- Rial and gram columns are integers, as in `Books`: rials, and units of `0.0001` g.
- Ids are drawn from one supply. What no modelled function reads of a row is left out;
  the items of a shop order are part of its row, as nothing writes the two apart.
- `Row` names the locks. An update locks its row, `SELECT … FOR UPDATE` locks it
  without writing.
- `Mark` and `Db.history` are for statements about runs: a mark stands at a statement
  that a property speaks about, and the history lists the marks of committed
  transactions. No function reads it.
-/

namespace ArkanGold

/-- `UserStatus` -/
inductive UserStatus where
  | active
  | inactive
  | banned
  | pendingActivation
  deriving DecidableEq, Repr

/-- `IdentityStatus` -/
inductive IdentityStatus where
  | pending
  | verified
  | rejected
  | manualReview
  deriving DecidableEq, Repr

/-- `HoldType` -/
inductive HoldType where
  | order
  | withdrawal
  | physicalDelivery
  | orderGold
  deriving DecidableEq, Repr

/-- `TransactionType` -/
inductive TransactionType where
  | buyGold
  | sellGold
  | buySilver
  | sellSilver
  | transferIn
  | transferOut
  | withdrawal
  | deposit
  | fee
  | tax
  | referralReward
  | salary
  | physicalDelivery
  | shopPurchase
  | refund
  | manualAdjustment
  | installmentPurchase
  deriving DecidableEq, Repr

/-- `TransactionStatus` -/
inductive TransactionStatus where
  | pending
  | completed
  | failed
  deriving DecidableEq, Repr

/-- `WithdrawalStatus` -/
inductive WithdrawalStatus where
  | pending
  | approved
  | rejected
  | processed
  | cancelled
  | returned
  deriving DecidableEq, Repr

/-- `MetalType` -/
inductive MetalType where
  | gold
  | silver
  deriving DecidableEq, Repr

/-- `OrderSide` -/
inductive OrderSide where
  | buy
  | sell
  deriving DecidableEq, Repr

/-- `OrderStatus` -/
inductive OrderStatus where
  | pending
  | completed
  | cancelled
  deriving DecidableEq, Repr

/-- `ShopOrderStatus` -/
inductive ShopOrderStatus where
  | pendingPayment
  | paid
  | processing
  | shipped
  | delivered
  | cancelled
  deriving DecidableEq, Repr

/-- `PaymentMethod` -/
inductive PaymentMethod where
  | wallet
  | bankGateway
  deriving DecidableEq, Repr

/-- `PaymentStatus` -/
inductive PaymentStatus where
  | pending
  | success
  | failed
  deriving DecidableEq, Repr

/-- `PaymentGatewayProvider` -/
inductive PaymentGatewayProvider where
  | zarinpal
  | behpardakht
  deriving DecidableEq, Repr

/-- A row of `users` with the status of the identity record, if there is one. -/
structure User where
  id : ℕ
  status : UserStatus
  identity : Option IdentityStatus
  deriving DecidableEq

/-- A row of `bank_accounts`. -/
structure BankAccount where
  id : ℕ
  userId : ℕ
  cardNumber : String
  isVerified : Bool
  deriving DecidableEq

/-- A row of `wallets`. -/
structure Wallet where
  id : ℕ
  userId : ℕ
  cardNumber : String
  rialBalance : ℤ
  goldBalanceGrams : ℤ
  deriving DecidableEq

/-- A row of `wallet_holds`. -/
structure WalletHold where
  id : ℕ
  walletId : ℕ
  amountRial : Option ℤ
  amountGrams : Option ℤ
  holdType : HoldType
  referenceId : Option ℕ
  expiresAt : ℤ
  deriving DecidableEq

/-- A row of `transactions`. -/
structure Transaction where
  id : ℕ
  userId : ℕ
  walletId : ℕ
  type : TransactionType
  amountGrams : Option ℤ
  amountRial : Option ℤ
  pricePerGram : Option ℤ
  feeAmount : Option ℤ
  taxAmount : Option ℤ
  status : TransactionStatus
  description : String
  createdAt : ℤ
  shopOrderId : Option ℕ
  relatedTransactionId : Option ℕ
  deriving DecidableEq

/-- A row of `withdrawal_requests`. -/
structure WithdrawalRequest where
  id : ℕ
  userId : ℕ
  bankAccountId : ℕ
  requestNumber : Option String
  amountRial : ℤ
  feeRial : ℤ
  netAmountRial : Option ℤ
  holdId : Option ℕ
  transactionId : Option ℕ
  status : WithdrawalStatus
  reviewedById : Option ℕ
  sourceAccountCode : Option String
  journalEntryId : Option ℕ
  returnJournalId : Option ℕ
  deriving DecidableEq

/-- A row of `price_locks`. -/
structure PriceLock where
  id : ℕ
  userId : ℕ
  metal : MetalType
  side : OrderSide
  amountGrams : ℤ
  lockedPrice : ℤ
  feeRial : ℤ
  taxRial : ℤ
  expiresAt : ℤ
  used : Bool
  deriving DecidableEq

/-- A row of `orders`. -/
structure Order where
  id : ℕ
  userId : ℕ
  lockId : Option ℕ
  metal : MetalType
  side : OrderSide
  amountGrams : ℤ
  pricePerGram : ℤ
  totalRial : ℤ
  fee : ℤ
  tax : ℤ
  status : OrderStatus
  completedAt : Option ℤ
  deriving DecidableEq

/-- A row of `shop_order_items`, with what is read of its product. -/
structure ShopOrderItem where
  variantId : Option ℕ
  quantity : ℕ
  priceRial : ℤ
  selectedWeightGrams : Option ℤ
  /-- the product of the item has a purity, so it is bullion -/
  isBullion : Bool
  deriving DecidableEq

/-- A row of `shop_orders` with its items. -/
structure ShopOrder where
  id : ℕ
  userId : ℕ
  status : ShopOrderStatus
  subtotalRial : ℤ
  discountRial : ℤ
  discountCodeText : Option String
  packagingRial : ℤ
  shippingRial : ℤ
  totalRial : ℤ
  /-- `fundingSource = 'MELTED_GOLD'` -/
  goldFunded : Bool
  goldAppliedGrams : ℤ
  goldAppliedRial : ℤ
  createdAt : ℤ
  items : List ShopOrderItem
  deriving DecidableEq

/-- A row of `payments`. -/
structure Payment where
  id : ℕ
  userId : ℕ
  orderId : Option ℕ
  amountRial : ℤ
  method : PaymentMethod
  status : PaymentStatus
  gatewayProvider : Option PaymentGatewayProvider
  gatewayProviderRef : Option String
  paidAt : Option ℤ
  deriving DecidableEq

/-- A row of `product_variants`, with what is read of its product and category. -/
structure ProductVariant where
  id : ℕ
  stockQuantity : ℤ
  weightGrams : ℤ
  productName : String
  productActive : Bool
  categorySlug : String
  categoryActive : Bool
  deriving DecidableEq

/-- The values of `system_config` in the readings of `SystemConfigService`: a value that
does not parse is absent. -/
structure Settings where
  decimal : String → Option ℚ
  number : String → Option ℚ
  boolean : String → Option Bool

/-- The names of the row locks. `own` is the lock on rows that a transaction has inserted
and not committed. -/
inductive Row where
  | wallet (id : ℕ)
  | hold (id : ℕ)
  | transaction (id : ℕ)
  | withdrawal (id : ℕ)
  | priceLock (id : ℕ)
  | order (id : ℕ)
  | shopOrder (id : ℕ)
  | payment (id : ℕ)
  | variant (id : ℕ)
  | account (id : ℕ)
  | sequence (key : String)
  | own (id : ℕ)
  deriving DecidableEq

/-- Statements that properties of runs speak about. -/
inductive Mark where
  /-- `captureWalletOnly` debits the wallet for an order -/
  | captureDebit (walletId orderId : ℕ) (amountRial : ℚ)
  /-- `captureWalletOnly` sets the order to PAID -/
  | captureSettle (orderId : ℕ)
  /-- a gateway callback debits the wallet for the wallet leg of an order -/
  | walletLegDebit (orderId : ℕ)
  /-- the sale of an order is posted -/
  | saleJournal (orderId : ℕ)
  /-- gold moves between two wallets -/
  | transfer (amountGrams : ℚ)
  /-- an administrator has adjusted a wallet -/
  | adjusted (walletId : ℕ) (amountRial amountGrams : ℚ)
  /-- a trade of this side has moved so many rials -/
  | traded (side : OrderSide) (payableRial : ℤ)
  deriving DecidableEq

/-- The database. -/
structure Db where
  books : Books
  users : Table User User.id
  bankAccounts : Table BankAccount BankAccount.id
  wallets : Table Wallet Wallet.id
  holds : Table WalletHold WalletHold.id
  transactions : Table Transaction Transaction.id
  withdrawals : Table WithdrawalRequest WithdrawalRequest.id
  priceLocks : Table PriceLock PriceLock.id
  orders : Table Order Order.id
  shopOrders : Table ShopOrder ShopOrder.id
  payments : Table Payment Payment.id
  variants : Table ProductVariant ProductVariant.id
  settings : Settings
  /-- the last number of each document sequence -/
  documentSequences : String → ℕ
  nextId : ℕ
  history : List Mark

namespace Db

/-- The clock. -/
def now (s : Db) : ℤ := s.books.now

@[simp] theorem now_eq (s : Db) : s.now = s.books.now := rfl

/-! ## Writes

One function for each table, so that a state after many statements stays readable; the
generated lemmas say which tables a write leaves alone. -/

/-- Replace `books`. -/
@[simps] def setBooks (t : Books) (s : Db) : Db := { s with books := t }

/-- Replace `wallets`. -/
@[simps] def setWallets (t : Table Wallet Wallet.id) (s : Db) : Db := { s with wallets := t }

/-- Replace `holds`. -/
@[simps] def setHolds (t : Table WalletHold WalletHold.id) (s : Db) : Db := { s with holds := t }

/-- Replace `transactions`. -/
@[simps] def setTransactions (t : Table Transaction Transaction.id) (s : Db) : Db := { s with transactions := t }

/-- Replace `withdrawals`. -/
@[simps] def setWithdrawals (t : Table WithdrawalRequest WithdrawalRequest.id) (s : Db) : Db := { s with withdrawals := t }

/-- Replace `priceLocks`. -/
@[simps] def setPriceLocks (t : Table PriceLock PriceLock.id) (s : Db) : Db := { s with priceLocks := t }

/-- Replace `orders`. -/
@[simps] def setOrders (t : Table Order Order.id) (s : Db) : Db := { s with orders := t }

/-- Replace `shopOrders`. -/
@[simps] def setShopOrders (t : Table ShopOrder ShopOrder.id) (s : Db) : Db := { s with shopOrders := t }

/-- Replace `payments`. -/
@[simps] def setPayments (t : Table Payment Payment.id) (s : Db) : Db := { s with payments := t }

/-- Replace `variants`. -/
@[simps] def setVariants (t : Table ProductVariant ProductVariant.id) (s : Db) : Db := { s with variants := t }

/-- Replace `documentSequences`. -/
@[simps] def setDocumentSequences (t : String → ℕ) (s : Db) : Db := { s with documentSequences := t }

/-- Replace `nextId`. -/
@[simps] def setNextId (n : ℕ) (s : Db) : Db := { s with nextId := n }

/-- A number of the id supply is spent. -/
@[simps!] def spendId (s : Db) : Db := s.setNextId (s.nextId + 1)

/-- A mark enters the history. -/
@[simps] def note (l : Mark) (s : Db) : Db := { s with history := s.history ++ [l] }

instance : Supply Db := ⟨nextId, spendId⟩

instance : History Mark Db := ⟨note⟩

@[simp] theorem supply_next (s : Db) : Supply.next s = s.nextId := rfl

@[simp] theorem supply_bump (s : Db) : Supply.bump s = s.spendId := rfl

@[simp] theorem history_record (l : Mark) (s : Db) : History.record l s = s.note l := rfl

/-! ## Tables -/

/-- `wallets` -/
@[simps] def walletRows : Relation Row Db Wallet Wallet.id := ⟨wallets, setWallets, .wallet⟩

/-- `wallet_holds` -/
@[simps] def holdRows : Relation Row Db WalletHold WalletHold.id := ⟨holds, setHolds, .hold⟩

/-- `transactions` -/
@[simps] def transactionRows : Relation Row Db Transaction Transaction.id := ⟨transactions, setTransactions, .transaction⟩

/-- `withdrawal_requests` -/
@[simps] def withdrawalRows : Relation Row Db WithdrawalRequest WithdrawalRequest.id := ⟨withdrawals, setWithdrawals, .withdrawal⟩

/-- `price_locks` -/
@[simps] def priceLockRows : Relation Row Db PriceLock PriceLock.id := ⟨priceLocks, setPriceLocks, .priceLock⟩

/-- `orders` -/
@[simps] def orderRows : Relation Row Db Order Order.id := ⟨orders, setOrders, .order⟩

/-- `shop_orders` -/
@[simps] def shopOrderRows : Relation Row Db ShopOrder ShopOrder.id := ⟨shopOrders, setShopOrders, .shopOrder⟩

/-- `payments` -/
@[simps] def paymentRows : Relation Row Db Payment Payment.id := ⟨payments, setPayments, .payment⟩

/-- `product_variants` -/
@[simps] def variantRows : Relation Row Db ProductVariant ProductVariant.id := ⟨variants, setVariants, .variant⟩

/-- The wallet of a user. -/
def walletOf (s : Db) (userId : ℕ) : Option Wallet :=
  s.wallets.rows.find? fun w => w.userId == userId

/-- A statement on the wallet of a user moves the gold of that user alone. -/
theorem gold_update {s : Db} {userId : ℕ} {w : Wallet} (hw : s.walletOf userId = some w)
    {f : Wallet → Wallet} (hf : ∀ w, (f w).id = w.id) (hu : ∀ w, (f w).userId = w.userId)
    {d : ℤ} (hd : ∀ w, (f w).goldBalanceGrams = w.goldBalanceGrams + d) (u : ℕ) :
    (((s.setWallets (s.wallets.update w.id f hf)).walletOf u).map Wallet.goldBalanceGrams).getD 0 =
      ((s.walletOf u).map Wallet.goldBalanceGrams).getD 0 + if u = userId then d else 0 := by
  have hwalletOf : (s.setWallets (s.wallets.update w.id f hf)).walletOf u =
      (s.walletOf u).map fun r => if r.id == w.id then f r else r := by
    have hkey : ((fun r => Wallet.userId r == u) ∘ fun r => if r.id == w.id then f r else r) =
        fun r => Wallet.userId r == u := by
      funext r
      simp only [Function.comp_apply]
      split <;> simp [hu]
    simp only [Db.walletOf, Db.setWallets_wallets, Table.update, Table.updateWhere, List.find?_map,
      hkey]
  have huser : ∀ {v : ℕ} {r : Wallet}, s.walletOf v = some r → r.userId = v ∧ r ∈ s.wallets.rows :=
    fun h => ⟨by simpa using List.find?_some h, List.mem_of_find?_eq_some h⟩
  rw [hwalletOf]
  by_cases huu : u = userId
  · subst huu
    simp [hw, hd]
  · cases hr : s.walletOf u with
    | none => simp [huu]
    | some r =>
      have hne : r.id ≠ w.id := by
        intro hid
        have heq : r = w := List.inj_on_of_nodup_map s.wallets.nodup (huser hr).2 (huser hw).2 hid
        exact huu ((huser hr).1.symm.trans (heq ▸ (huser hw).1))
      simp [huu, hne]

/-- `systemConfig.getDecimal` -/
def getDecimal (s : Db) (key : String) (fallback : ℚ) : ℚ :=
  (s.settings.decimal key).getD fallback

/-- `systemConfig.getNumber` -/
def getNumber (s : Db) (key : String) (fallback : ℚ) : ℚ :=
  (s.settings.number key).getD fallback

/-- `systemConfig.getBoolean` -/
def getBoolean (s : Db) (key : String) (fallback : Bool) : Bool :=
  (s.settings.boolean key).getD fallback

/-! ## Holds -/

/-- The holds of a wallet that have not expired. -/
def activeHolds (s : Db) (walletId : ℕ) : List WalletHold :=
  s.holds.rows.filter fun h => h.walletId == walletId && decide (s.now < h.expiresAt)

/-- The rials of a wallet that are held. -/
def heldRial (s : Db) (walletId : ℕ) : ℤ :=
  ((s.activeHolds walletId).map fun h => h.amountRial.getD 0).sum

/-- The grams of a wallet that are held. -/
def heldGrams (s : Db) (walletId : ℕ) : ℤ :=
  ((s.activeHolds walletId).map fun h => h.amountGrams.getD 0).sum

end Db

/-- A transaction on the database. -/
abbrev Stmt (α : Type) : Type := Block ApiError Row Mark Db α

/-- A call of a service. -/
abbrev Service (α : Type) : Type 1 := Call ApiError Row Mark Db α

namespace Stmt

/-- What is left of a database error once it is translated for the user. -/
def constraintError : ApiError :=
  .badRequest "خطا در پردازش تراکنش. لطفاً با پشتیبانی تماس بگیرید"

/-- An update or delete of a row that does not exist. -/
def recordNotFound : ApiError := .internal "Record to update not found"

/-- Insert a row. -/
def create {ρ : Type} {key : ρ → ℕ} (T : Relation Row Db ρ key) (mk : ℕ → ρ) : Stmt ℕ :=
  T.create .own constraintError mk

/-- Update a row. -/
def update {ρ : Type} {key : ρ → ℕ} (T : Relation Row Db ρ key) (k : ℕ) (f : ρ → ρ)
    (hf : ∀ r, key (f r) = key r := by intro _; rfl) : Stmt Unit :=
  T.update recordNotFound k f hf

/-- `SELECT 1 FROM "wallets" WHERE "user_id" = … FOR UPDATE` -/
def lockWalletOf (userId : ℕ) : Stmt Unit := do
  let s ← Block.get
  match s.walletOf userId with
  | some w => Block.lock (.wallet w.id)
  | none => pure ()

/-- Update a wallet; the constraint `wallets_balance_non_negative` looks at the result. -/
def updateWallet (k : ℕ) (f : Wallet → Wallet)
    (hf : ∀ w, (f w).id = w.id := by intro _; rfl) : Stmt Unit := do
  Block.lock (.wallet k)
  let s ← Block.get
  let w ← Block.getOrFail (s.wallets.find? k) recordNotFound
  Block.check (decide (0 ≤ (f w).rialBalance ∧ 0 ≤ (f w).goldBalanceGrams)) constraintError
  Block.write fun s => s.setWallets (s.wallets.update k f hf)

/-- The writes of a posting, at the instant the statement was executed. -/
def writeJournal (now : ℤ) (params : JournalInput) (posted : List PostedLine) (b : Books) :
    Books :=
  AccountingService.write { params with entryDate := some (params.entryDate.getD now) } posted b

/-- `accountingService.postJournal`, followed by a write that may use the id of the
journal. -/
def postJournal (params : JournalInput) (link : ℕ → Db → Db := fun _ s => s) : Stmt Unit := do
  let s ← Block.get
  let posted ← Block.ofExcept ((AccountingService.checkJournal params).run s.books).1
  Block.lockAll (posted.map fun x => Row.account x.account.id)
  Block.write fun t =>
    link t.books.journals.next (t.setBooks (writeJournal s.now params posted t.books))

/-- `accountingService.reverseJournal` -/
def reverseJournal (journalId : ℕ) (opts : AccountingService.ReversalOptions)
    (link : ℕ → Db → Db := fun _ s => s) : Stmt Unit := do
  let s ← Block.get
  let original ← Block.getOrFail (s.books.journals.find? journalId)
    (.notFound "سند حسابداری یافت نشد")
  Block.check (!s.books.journals.rows.any fun j => j.reversalOfId == some original.id)
    (.conflict "این سند قبلاً برگشت خورده است")
  Block.check original.reversalOfId.isNone
    (.conflict "سند برگشتی را نمی‌توان دوباره برگشت زد")
  postJournal (AccountingService.reversalOf s.books original opts) link

/-! ## What the statements do alone

Each lemma names the new contents of the table, so that the state after many statements
is a chain of writes. -/

variable {s s' : Db}

theorem ok_create {ρ : Type} {key : ρ → ℕ} {T : Relation Row Db ρ key} {mk : ℕ → ρ} {n : ℕ}
    (h : (create T mk).Ok s n s') :
    ∃ t, t = (T.get s.spendId).insert (mk n) ∧ (T.get s.spendId).find? n = none ∧
      n = s.nextId ∧ s' = T.set t s.spendId := by
  obtain ⟨hn, hnew, hs'⟩ := T.ok_create.mp h
  exact ⟨_, rfl, hnew, hn, hs'⟩

theorem ok_update {ρ : Type} {key : ρ → ℕ} {T : Relation Row Db ρ key} {k : ℕ} {f : ρ → ρ}
    {hf : ∀ r, key (f r) = key r} {u : Unit} (h : (update T k f hf).Ok s u s') :
    ∃ t, t = (T.get s).update k f hf ∧ (∃ r, (T.get s).find? k = some r) ∧
      s' = T.set t s := by
  obtain ⟨hr, hs'⟩ := T.ok_update.mp h
  exact ⟨_, rfl, hr, hs'⟩

@[simp] theorem ok_lockWalletOf {userId : ℕ} {u : Unit} :
    (lockWalletOf userId).Ok s u s' ↔ s' = s := by
  simp only [lockWalletOf, Block.ok_bind, Block.ok_get]
  constructor
  · rintro ⟨_, _, ⟨rfl, rfl⟩, h⟩
    split at h
    · simpa using h
    · simpa using h
  · rintro rfl
    refine ⟨s', s', ⟨rfl, rfl⟩, ?_⟩
    split <;> simp

theorem ok_updateWallet_iff {k : ℕ} {f : Wallet → Wallet} {hf : ∀ w, (f w).id = w.id} {u : Unit} :
    (updateWallet k f hf).Ok s u s' ↔
      (∃ w, s.wallets.find? k = some w ∧ 0 ≤ (f w).rialBalance ∧ 0 ≤ (f w).goldBalanceGrams) ∧
        s' = s.setWallets (s.wallets.update k f hf) := by
  simp only [updateWallet, Block.ok_bind, Block.ok_lock, Block.ok_get, Block.ok_getOrFail,
    Block.ok_check, Block.ok_write, decide_eq_true_eq]
  constructor
  · rintro ⟨_, _, rfl, _, _, ⟨rfl, rfl⟩, w, _, ⟨hw, rfl⟩, _, _, ⟨hpos, rfl⟩, rfl⟩
    exact ⟨⟨w, hw, hpos⟩, rfl⟩
  · rintro ⟨⟨w, hw, hpos⟩, rfl⟩
    exact ⟨(), s, rfl, s, s, ⟨rfl, rfl⟩, w, s, ⟨hw, rfl⟩, (), s, ⟨hpos, rfl⟩, rfl⟩

theorem ok_updateWallet {k : ℕ} {f : Wallet → Wallet} {hf : ∀ w, (f w).id = w.id} {u : Unit}
    (h : (updateWallet k f hf).Ok s u s') :
    ∃ t w, t = s.wallets.update k f hf ∧ s.wallets.find? k = some w ∧ 0 ≤ (f w).rialBalance ∧
      0 ≤ (f w).goldBalanceGrams ∧ s' = s.setWallets t := by
  obtain ⟨⟨w, hw, h₁, h₂⟩, hs'⟩ := ok_updateWallet_iff.mp h
  exact ⟨_, w, rfl, hw, h₁, h₂, hs'⟩

/-- A posting that returns has checked its lines and written the journal, and then what
was linked to it. -/
theorem ok_postJournal {params : JournalInput} {link : ℕ → Db → Db} {u : Unit}
    (h : (postJournal params link).Ok s u s') :
    ∃ b posted, b = writeJournal s.books.now params posted s.books ∧
      AccountingService.Posting s.books params posted ∧
      s' = link s.books.journals.next (s.setBooks b) := by
  simp only [postJournal, Block.ok_bind, Block.ok_get, Block.ok_ofExcept, Block.ok_lockAll,
    Block.ok_write] at h
  obtain ⟨_, _, ⟨rfl, rfl⟩, posted, _, ⟨hrun, rfl⟩, _, _, rfl, rfl⟩ := h
  have hok := Tx.ok_run hrun
  exact ⟨_, posted, rfl, (AccountingService.checkJournal_ok hok).1, rfl⟩

/-- A reversal that returns was asked for a journal that was not reversed and is none
itself. -/
theorem ok_reverseJournal {journalId : ℕ} {opts : AccountingService.ReversalOptions}
    {link : ℕ → Db → Db} {u : Unit} (h : (reverseJournal journalId opts link).Ok s u s') :
    ∃ b original posted, s.books.journals.find? journalId = some original ∧
      b = writeJournal s.books.now (AccountingService.reversalOf s.books original opts) posted
        s.books ∧
      AccountingService.Posting s.books
        (AccountingService.reversalOf s.books original opts) posted ∧
      s' = link s.books.journals.next (s.setBooks b) := by
  simp only [reverseJournal, Block.ok_bind, Block.ok_get, Block.ok_getOrFail, Block.ok_check] at h
  obtain ⟨_, _, ⟨rfl, rfl⟩, original, _, ⟨hfind, rfl⟩, _, _, ⟨-, rfl⟩, _, _, ⟨-, rfl⟩, hpost⟩ := h
  obtain ⟨b, posted, hb, hp, hs'⟩ := ok_postJournal hpost
  exact ⟨b, original, posted, hfind, hb, hp, hs'⟩

end Stmt

/-! ## The database before the first request -/

/-- An active account without a balance. -/
def Account.opening (code : String) (id : ℕ) : Account where
  id := id
  code := code
  name := code
  type := if isDebitNature code then .asset else .liability
  balanceRial := 0
  balanceGrams := 0
  parentId := none
  isActive := true

/-- A chart of active accounts without balances. -/
def Chart.opening (codes : List String) (h : codes.Nodup := by decide) : Chart where
  table :=
    { rows := codes.zipIdx.map fun x => Account.opening x.1 x.2
      next := codes.length
      nodup := by
        have hids : (codes.zipIdx.map fun x => Account.opening x.1 x.2).map Account.id =
            codes.zipIdx.map Prod.snd := by
          rw [List.map_map]
          rfl
        rw [hids, List.zipIdx_map_snd]
        exact List.nodup_range'
      lt_next := by
        intro a ha
        obtain ⟨x, hx, rfl⟩ := List.mem_map.mp ha
        have hmem : x.2 ∈ codes.zipIdx.map Prod.snd := List.mem_map_of_mem hx
        rw [List.zipIdx_map_snd, List.mem_range'_1] at hmem
        simpa [Account.opening] using hmem.2 }
  code_nodup := by
    have hcodes : (codes.zipIdx.map fun x => Account.opening x.1 x.2).map Account.code =
        codes.zipIdx.map Prod.fst := by
      rw [List.map_map]
      rfl
    rw [hcodes, List.zipIdx_map_fst]
    exact h

/-- Books on a chart before the first journal. -/
def Books.opening (accounts : Chart) (now : ℤ) : Books where
  accounts := accounts
  journals := .empty
  nextReference := 1
  fiscalYears := .empty
  lockedUntil := none
  systemConfig _ := none
  now := now

/-- No row but the accounts, and nothing configured. -/
def Db.opening (accounts : Chart) (now : ℤ) : Db where
  books := Books.opening accounts now
  users := .empty
  bankAccounts := .empty
  wallets := .empty
  holds := .empty
  transactions := .empty
  withdrawals := .empty
  priceLocks := .empty
  orders := .empty
  shopOrders := .empty
  payments := .empty
  variants := .empty
  settings := ⟨fun _ => none, fun _ => none, fun _ => none⟩
  documentSequences _ := 0
  nextId := 100
  history := []

end ArkanGold
