import ArkanGold.Market.Trading

/-!
# The price shown is the price taken

`lockPrice` shows the amounts of a trade, `createOrder` takes the lock later, under
whatever configuration is in force then. Between the two, every call of the service keeps
the amounts stored in the lock (`Stored`).

What was shown is taken unless the lock stores neither fee nor tax: then `createOrder`
computes both again, and the order agrees with what was shown exactly when the
percentages of that time round to nothing as well.
-/

namespace ArkanGold

namespace TradingService

/-! ## What is stored -/

/-- The lock `k` holds the amounts of `lock`, whether it was used or not. -/
def Stored (k : ℕ) (lock : PriceLock) (s : Db) : Prop :=
  ∃ used, s.priceLocks.find? k = some { lock with used := used }

/-- What a call of `lockPrice` that returns has stored and shown. -/
structure Shown (userId : ℕ) (q : LockedPrice) (lock : PriceLock) : Prop where
  owner : lock.userId = userId
  id : lock.id = q.lockId
  side : lock.side = q.side
  amountGrams : lock.amountGrams = q.amountGrams
  feeRial : lock.feeRial = q.feeRial
  taxRial : lock.taxRial = q.taxRial
  total : orderTotal lock = q.totalRial
  payable : payable q.side q.totalRial q.feeRial q.taxRial = q.totalPayableRial

variable {cal : Calendar} {quote : Option GoldQuote} {supervisor : Supervisor} {userId : ℕ}
  {side : OrderSide} {amountGramsInput : ℚ} {s s' : Db}

theorem returns_lockPrice {q : LockedPrice}
    (h : (lockPrice cal quote supervisor userId side amountGramsInput).Returns s q s') :
    ∃ lock, s'.priceLocks.find? q.lockId = some lock ∧ Shown userId q lock := by
  simp only [lockPrice, Call.returns_bind, Call.returns_transaction, Call.returns_check,
    Call.returns_ofExcept, Call.returns_getOrFail, Call.returns_pure, Block.ok_get] at h
  obtain ⟨_, _, -, _, _, -, _, _, ⟨-, rfl⟩, _, _, ⟨-, rfl⟩, _, _, ⟨-, rfl⟩,
    _, _, ⟨-, rfl⟩, _, _, ⟨rfl, rfl⟩, _, _, ⟨-, rfl⟩, _, _, ⟨-, rfl⟩, _, _, -, _, _, -,
    quote', _, ⟨-, rfl⟩, _, _, ⟨rfl, rfl⟩, _, _, ⟨-, rfl⟩, _, _, ⟨-, rfl⟩, _, _, ⟨-, rfl⟩,
    _, _, ⟨-, rfl⟩, _, _, ⟨rfl, rfl⟩, id, _, hcreate, rfl, rfl⟩ := h
  obtain ⟨locks, rfl, hnew, -, rfl⟩ := Stmt.ok_create hcreate
  exact ⟨_, Table.find?_insert_self hnew, rfl, rfl, rfl, rfl, rfl, rfl, rfl, rfl⟩

/-! ## The lock between the two calls -/

variable {k : ℕ} {lock : PriceLock}

theorem stored_createOrder {lockId : Option ℕ} :
    (createOrder cal supervisor userId lockId).Keeps (Stored k lock) always := by
  refine keeps_createOrder fun k' s r s' ⟨used, hstored⟩ _ htake => ?_
  obtain ⟨lock', hlock', -, ⟨-, rfl, -⟩ | ⟨-, w, o, hfilled, -⟩⟩ := ok_takeLock htake
  · exact ⟨used, hstored⟩
  · have hid : lock'.id = k' := Table.key_of_find? hlock'
    rw [Stored, hfilled.recorded.priceLocks]
    by_cases hk : k = lock'.id
    · subst hk
      exact ⟨true, by rw [Table.find?_update_self, hstored]; rfl⟩
    · exact ⟨used, by rw [Table.find?_update_of_ne _ hk, hstored]⟩

/-- A new lock takes a new id. -/
theorem stored_lockPrice :
    (lockPrice cal quote supervisor userId side amountGramsInput).Keeps (Stored k lock)
      always := by
  unfold lockPrice
  refine Call.keeps_bind (Call.keeps_readOnly fun _ _ _ h => (ok_assertUserVerified h).2)
    fun _ => ?_
  refine Call.keeps_bind (Call.keeps_readOnly fun _ _ _ h => ok_assertServiceEnabled h)
    fun _ => ?_
  refine Call.keeps_bind (Call.keeps_check _ _) fun _ => ?_
  refine Call.keeps_bind (Call.keeps_check _ _) fun _ => ?_
  refine Call.keeps_bind (Call.keeps_ofExcept _) fun _ => ?_
  refine Call.keeps_bind (Call.keeps_check _ _) fun _ => ?_
  refine Call.keeps_bind (Call.keeps_readOnly fun _ _ _ h => (Block.ok_get.mp h).2) fun _ => ?_
  refine Call.keeps_bind (Call.keeps_check _ _) fun _ => ?_
  refine Call.keeps_bind (Call.keeps_check _ _) fun _ => ?_
  refine Call.keeps_bind (Call.keeps_readOnly fun _ _ _ h => (ok_assertWithinLimit h).2)
    fun _ => ?_
  refine Call.keeps_bind (Call.keeps_readOnly fun _ _ _ h => (ok_assertWithinLimit h).2)
    fun _ => ?_
  refine Call.keeps_bind (Call.keeps_getOrFail _ _) fun _ => ?_
  refine Call.keeps_bind (Call.keeps_readOnly fun _ _ _ h => (Block.ok_get.mp h).2) fun _ => ?_
  refine Call.keeps_bind (Call.keeps_check _ _) fun _ => ?_
  refine Call.keeps_bind (Call.keeps_check _ _) fun _ => ?_
  refine Call.keeps_bind (Call.keeps_check _ _) fun _ => ?_
  refine Call.keeps_bind (Call.keeps_check _ _) fun _ => ?_
  refine Call.keeps_bind (Call.keeps_readOnly fun _ _ _ h => (Block.ok_get.mp h).2) fun _ => ?_
  refine Call.keeps_bind (Call.keeps_transaction ?_) fun _ => Call.keeps_pure _
  rintro s n s' ⟨used, hstored⟩ - hcreate
  obtain ⟨locks, rfl, hnew, -, rfl⟩ := Stmt.ok_create hcreate
  have hstored' : s.spendId.priceLocks.find? k = some { lock with used := used } := hstored
  refine ⟨used, (Table.find?_insert_of_ne _ ?_).trans hstored'⟩
  rintro rfl
  exact absurd (hnew.symm.trans hstored') (by simp)

/-- Whatever else changes, nothing but these calls writes the locks. -/
def Surroundings (s s' : Db) : Prop := s'.priceLocks = s.priceLocks

/-- Along every run of the service the lock holds what was stored. -/
theorem stored_run {p : Pool TradingRequest ApiError Row Mark Db TradingReply}
    (hs : Stored k lock s) (hrun : Runs (Pool.Step (serve cal) Surroundings) always ⟨s, []⟩ p) :
    Stored k lock p.db := by
  have hrun' := hrun.mono fun p e _ => Pool.allowed_always p e
  refine Pool.invariant ?_ ?_ hs (by simp) hrun'
  · intro q
    cases q with
    | lockPrice quote supervisor userId side amountGrams =>
      exact Call.keeps_bind stored_lockPrice fun _ => Call.keeps_pure _
    | createOrder supervisor userId lockId =>
      exact Call.keeps_bind stored_createOrder fun _ => Call.keeps_pure _
  · rintro t t' ⟨used, hused⟩ hlocks -
    exact ⟨used, by rw [hlocks, hused]⟩

/-! ## What is taken -/

/-- The order that was made and the wallet of the user agree with what was shown. -/
structure Taken (userId : ℕ) (q : LockedPrice) (s : Db) (r : OrderResponse) (s' : Db) :
    Prop where
  order : ∃ o, s'.orders.find? r.orderId = some o ∧ o.lockId = some q.lockId ∧
    o.status = .completed ∧ o.fee = q.feeRial ∧ o.tax = q.taxRial
  wallet : ∃ w w', s.walletOf userId = some w ∧ s'.wallets.find? w.id = some w' ∧
    (q.side = .buy → w'.rialBalance = w.rialBalance - q.totalPayableRial ∧
      w'.goldBalanceGrams = w.goldBalanceGrams + q.amountGrams) ∧
    (q.side = .sell → w'.rialBalance = w.rialBalance + q.totalPayableRial ∧
      w'.goldBalanceGrams = w.goldBalanceGrams - q.amountGrams)

/-- The charges shown still stand: one of them is stored, or what the percentages in
force make of the total rounds to nothing as well. -/
def ChargesStand (q : LockedPrice) (s : Db) : Prop :=
  q.feeRial ≠ 0 ∨ q.taxRial ≠ 0 ∨
    roundRial (rials q.totalRial * feePercent s q.side / 100) = 0 ∧
      roundRial (rials q.totalRial * taxPercent s q.side / 100) = 0

theorem orderCharges_eq_iff {q : LockedPrice} (h : Shown userId q lock) :
    orderCharges s lock = (q.feeRial, q.taxRial) ↔ ChargesStand q s := by
  have htotal : roundRial (grams lock.amountGrams * rials lock.lockedPrice) = q.totalRial :=
    h.total
  unfold orderCharges ChargesStand
  rw [h.feeRial, h.taxRial, h.side]
  by_cases hzero : q.feeRial = 0 ∧ q.taxRial = 0
  · obtain ⟨hfee, htax⟩ := hzero
    simp [computeAmounts, htotal, hfee, htax]
  · have hstored : q.feeRial ≠ 0 ∨ q.taxRial ≠ 0 := not_and_or.mp hzero
    simp only [if_neg hzero, true_iff]
    tauto

theorem shown_of_stored {q : LockedPrice} {used : Bool} (h : Shown userId q lock) :
    Shown userId q { lock with used := used } := by
  cases h
  constructor <;> assumption

/-- A wallet that is found by its user is found by its id. -/
theorem find?_walletOf {w : Wallet} (h : s.walletOf userId = some w) :
    s.wallets.find? w.id = some w :=
  Table.find?_of_mem (List.mem_of_find?_eq_some h)

/-- A lock that is filled is taken as it was shown exactly when its charges stand. -/
theorem taken_iff {q : LockedPrice} {w : Wallet} {o : Order} (hshown : Shown userId q lock)
    (h : Filled s lock w o s') : Taken userId q s (buildOrderResponse o false) s' ↔
      ChargesStand q s := by
  obtain ⟨id, ho⟩ := h.recorded.order
  have horder : s'.orders.find? o.id = some o := by
    rw [h.recorded.orders.2]
    exact Table.find?_insert_self h.recorded.orders.1
  have hwallet : s.walletOf userId = some w := hshown.owner ▸ h.wallet
  rw [← orderCharges_eq_iff hshown]
  constructor
  · rintro ⟨⟨o', ho', -, -, hfee, htax⟩, -⟩
    have hsame : o = o' := Option.some.inj (horder.symm.trans ho')
    subst hsame
    rw [← hfee, ← htax, ho]
    rfl
  · intro hcharges
    rw [hcharges] at ho
    refine ⟨⟨o, horder, ?_, ?_, ?_, ?_⟩, ?_⟩
    · rw [ho, newOrder_lockId, hshown.id]
    · rw [ho, newOrder_status]
    · rw [ho, newOrder_fee]
    · rw [ho, newOrder_tax]
    · have hmoved : payable lock.side (orderTotal lock) (orderCharges s lock).1
          (orderCharges s lock).2 = q.totalPayableRial := by
        rw [hcharges, hshown.side, hshown.total, hshown.payable]
      have hfound : s'.wallets.find? w.id =
          some (tradeWallet q.side q.amountGrams q.totalPayableRial w) := by
        rw [h.recorded.wallets, Table.find?_update_self, find?_walletOf hwallet, hmoved,
          hshown.side, hshown.amountGrams]
        rfl
      refine ⟨w, _, hwallet, hfound, ?_, ?_⟩
      · intro hbuy
        rw [hbuy]
        exact ⟨rfl, rfl⟩
      · intro hsell
        rw [hsell]
        exact ⟨rfl, rfl⟩

end TradingService

open TradingService

/-- An account of the chart. -/
def tradeAccount (id : ℕ) (code : String) (type : AccountType) : Account where
  id := id
  code := code
  name := code
  type := type
  balanceRial := 0
  balanceGrams := 0
  parentId := none
  isActive := true

/-- Books with the accounts of a trade. -/
def tradeBooks : Books where
  accounts :=
    { table :=
        { rows := [tradeAccount 0 "2010" .liability, tradeAccount 1 "2020" .liability,
            tradeAccount 2 "1090" .asset, tradeAccount 3 "4010" .income,
            tradeAccount 4 "2030" .liability]
          next := 5
          nodup := by decide
          lt_next := by decide }
      code_nodup := by decide }
  journals := .empty
  nextReference := 1
  fiscalYears := .empty
  lockedUntil := none
  systemConfig _ := none
  now := 1750000000000

/-- A fee of so many percent and nothing else configured. -/
def feeSettings (percent : ℚ) : Settings where
  decimal key := if key = "fee.buy_gold" then some percent else none
  number _ := none
  boolean _ := none

/-- A verified user with ten million rials. -/
def tradeDb (percent : ℚ) : Db where
  books := tradeBooks
  users := ⟨[⟨1, .active, some .verified⟩], 2, by decide, by decide⟩
  bankAccounts := .empty
  wallets := ⟨[⟨2, 1, "", 10000000, 0⟩], 3, by decide, by decide⟩
  holds := .empty
  transactions := .empty
  withdrawals := .empty
  priceLocks := .empty
  orders := .empty
  shopOrders := .empty
  payments := .empty
  variants := .empty
  settings := feeSettings percent
  documentSequences _ := 0
  nextId := 10
  history := []

/-- One gram for a million rials. -/
def millionQuote : GoldQuote := ⟨1000000, 1750000000000, false, false⟩

/-- What `lockPrice` shows for a gram at a million rials and a fee of so many percent. -/
def shownPrice (percent : ℚ) (feeRial : ℤ) : LockedPrice where
  lockId := 10
  side := .buy
  amountGrams := 10000
  lockedPriceRial := 1000000
  totalRial := 1000000
  feeRial := feeRial
  feePercent := percent
  taxRial := 0
  totalPayableRial := 1000000 + feeRial
  expiresAt := 1750000120000
  expiresInSeconds := 120

/-- The price of a gram is locked under a fee of so many percent. -/
def lockGram : Service LockedPrice :=
  lockPrice .of1404 (some millionQuote) .off 1 .buy 1

/-- The lock is taken. -/
def takeGram : Service OrderResponse := createOrder .of1404 .off 1 (some 10)

/-- The state once the price is locked. -/
def gramLocked (percent : ℚ) : Db := (lockGram.exec (tradeDb percent)).2

/-- What taking the lock answers. -/
def gramOrdered (feeRial : ℤ) : OrderResponse where
  orderId := 11
  side := .buy
  amountGrams := 10000
  pricePerGramRial := 1000000
  totalRial := 1000000
  feeRial := feeRial
  taxRial := 0
  netRial := 1000000 + feeRial
  alreadyProcessed := false
  message := "1 گرم طلا با موفقیت خریداری شد"

theorem returns_lockGram (percent : ℚ) (feeRial : ℤ)
    (h : (lockGram.exec (tradeDb percent)).1 = .ok (shownPrice percent feeRial)) :
    lockGram.Returns (tradeDb percent) (shownPrice percent feeRial) (gramLocked percent) :=
  Call.returns_of_eq h

end ArkanGold
