import ArkanGold.Common.Format
import ArkanGold.Store.Database

/-!
# Trading melted gold

`TradingService`: a user locks a price and takes it within the time of the lock.

- `lockPrice` computes the amounts from the quote and the configuration and stores them
  in the lock.
- `createOrder` looks for a finished order of the lock, and otherwise fills the lock in
  one transaction: the lock row, then the wallet row are locked, the limits and the
  holds are checked under the wallet lock, and the order, its transactions, the wallet
  and the journal are written.

The quote comes from the price service and the report to the supervisor from
`ZarPayeshTradeService`; what they answer is an input here. Amounts are computed in
decimals; the Toman figures of the responses are the Rial figures divided by ten and are
left out.
-/

namespace ArkanGold

/-- `TradableGoldQuote` of the price service. -/
structure GoldQuote where
  priceRial : ℚ
  fetchedAt : ℤ
  disableBuy : Bool
  disableSell : Bool
  deriving DecidableEq

/-- The answers of the supervisor: whether reporting is on, whether the user can be
reported, and the outcome of reserving and of approving an order. -/
structure Supervisor where
  enabled : Bool
  userReportable : Except ApiError Unit
  reservation : Except ApiError Unit
  approval : Except ApiError Unit

/-- Reporting is off. -/
def Supervisor.off : Supervisor := ⟨false, .ok (), .ok (), .ok ()⟩

/-- `TradeConfig` -/
structure TradeConfig where
  minGrams : ℚ
  maxGrams : ℚ
  spreadPercent : ℚ
  lockDurationSec : ℚ
  feePercent : ℚ
  taxPercent : ℚ
  dailyLimit : ℚ
  monthlyLimit : ℚ
  maxPriceAgeSec : ℚ
  respectSourceDisable : Bool

/-- The result of `computeAmounts`. -/
structure Amounts where
  totalRial : ℤ
  feeRial : ℤ
  taxRial : ℤ
  totalPayable : ℤ
  deriving DecidableEq

/-- The result of `lockPrice`. -/
structure LockedPrice where
  lockId : ℕ
  side : OrderSide
  amountGrams : ℤ
  lockedPriceRial : ℤ
  totalRial : ℤ
  feeRial : ℤ
  feePercent : ℚ
  taxRial : ℤ
  totalPayableRial : ℤ
  expiresAt : ℤ
  expiresInSeconds : ℚ
  deriving DecidableEq

/-- The result of `createOrder`. -/
structure OrderResponse where
  orderId : ℕ
  side : OrderSide
  amountGrams : ℤ
  pricePerGramRial : ℤ
  totalRial : ℤ
  feeRial : ℤ
  taxRial : ℤ
  netRial : ℤ
  alreadyProcessed : Bool
  message : String
  deriving DecidableEq

/-- The decimal of a rial column. -/
def rials (n : ℤ) : ℚ := Numeric.ofScale rialScale n

/-- The decimal of a gram column. -/
def grams (n : ℤ) : ℚ := Numeric.ofScale gramScale n

namespace TradingService

/-! ## Configuration -/

/-- The key of the fee. -/
def feeKey : OrderSide → String
  | .buy => "fee.buy_gold"
  | .sell => "fee.sell_gold"

/-- The key of the tax. -/
def taxKey : OrderSide → String
  | .buy => "tax.buy"
  | .sell => "tax.sell"

/-- The key of the daily limit. -/
def dailyLimitKey : OrderSide → String
  | .buy => "trade.gold.daily_buy_limit_grams"
  | .sell => "trade.gold.daily_sell_limit_grams"

/-- The key of the monthly limit. -/
def monthlyLimitKey : OrderSide → String
  | .buy => "trade.gold.monthly_buy_limit_grams"
  | .sell => "trade.gold.monthly_sell_limit_grams"

/-- The percentage of the fee. -/
def feePercent (s : Db) (side : OrderSide) : ℚ := s.getDecimal (feeKey side) 1

/-- The percentage of the tax. -/
def taxPercent (s : Db) (side : OrderSide) : ℚ := s.getDecimal (taxKey side) 0

/-- The daily limit; zero or less is no limit. -/
def dailyLimit (s : Db) (side : OrderSide) : ℚ := s.getDecimal (dailyLimitKey side) 50

/-- The monthly limit; zero or less is no limit. -/
def monthlyLimit (s : Db) (side : OrderSide) : ℚ := s.getDecimal (monthlyLimitKey side) 500

/-- `getTradeConfig` -/
def getTradeConfig (s : Db) (side : OrderSide) : TradeConfig where
  minGrams := s.getDecimal "trade.gold.min_grams" (1 / 10)
  maxGrams := s.getDecimal "trade.gold.max_grams" 1000
  spreadPercent := s.getDecimal "trade.gold.spread_percent" 0
  lockDurationSec := min (max (s.getNumber "trade.lock_duration_seconds" 120) 30) 600
  feePercent := feePercent s side
  taxPercent := taxPercent s side
  dailyLimit := dailyLimit s side
  monthlyLimit := monthlyLimit s side
  maxPriceAgeSec := max (s.getNumber "trade.gold.max_price_age_seconds" 180) 60
  respectSourceDisable := s.getBoolean "trade.gold.respect_source_disable" true

/-! ## Amounts -/

/-- `roundRial`: half up. -/
def roundRial (v : ℚ) : ℤ := Numeric.roundHalfAway v

/-- What changes hands in rials: the buyer pays fee and tax, the seller bears them. -/
def payable (side : OrderSide) (totalRial feeRial taxRial : ℤ) : ℤ :=
  match side with
  | .buy => totalRial + feeRial + taxRial
  | .sell => totalRial - feeRial - taxRial

/-- `computeAmounts` -/
def computeAmounts (side : OrderSide) (amountGrams pricePerGram feePercent taxPercent : ℚ) :
    Amounts :=
  let totalRial := roundRial (amountGrams * pricePerGram)
  let feeRial := roundRial (rials totalRial * feePercent / 100)
  let taxRial := roundRial (rials totalRial * taxPercent / 100)
  { totalRial := totalRial
    feeRial := feeRial
    taxRial := taxRial
    totalPayable := payable side totalRial feeRial taxRial }

/-- `toDecimalPlaces(0, ROUND_UP)` -/
def roundUp (v : ℚ) : ℤ := if 0 ≤ v then ⌈v⌉ else ⌊v⌋

/-- `toDecimalPlaces(0, ROUND_DOWN)` -/
def roundDown (v : ℚ) : ℤ := if 0 ≤ v then ⌊v⌋ else ⌈v⌉

/-- The price with the spread, rounded in favour of the house. -/
def effectivePrice (side : OrderSide) (priceRial spreadPercent : ℚ) : ℤ :=
  match side with
  | .buy => roundUp (priceRial * (1 + spreadPercent / 100))
  | .sell => roundDown (priceRial * (1 - spreadPercent / 100))

/-- The amount in units of `0.0001` g, rounded down; to whole milligrams while the
supervisor is reported to. -/
def lockedGrams (supervisorOn : Bool) (amountGrams : ℚ) : ℤ :=
  if supervisorOn then roundDown (amountGrams * 1000) * 10 else roundDown (amountGrams * 10000)

/-- `fmtToman` -/
def fmtToman (rial : ℤ) : String := localeEn (roundDown (rials rial / 10))

/-! ## Checks -/

/-- `assertUserVerified` -/
def assertUserVerified (userId : ℕ) : Stmt Unit := do
  let s ← Block.get
  let user ← Block.getOrFail (s.users.find? userId) (.notFound "کاربر یافت نشد")
  Block.check (user.status == .active) (.forbidden "حساب کاربری شما فعال نیست")
  Block.check (user.identity == some .verified)
    (.forbidden "برای معامله ابتدا باید احراز هویت کنید")

/-- `assertServiceEnabled` -/
def assertServiceEnabled : Stmt Unit := do
  let s ← Block.get
  Block.check (s.getBoolean "service.melted_gold.enabled" true)
    (.forbidden "خرید و فروش طلای آب‌شده در حال حاضر غیرفعال است")

/-- The type of the main transaction of a trade. -/
def tradeType : OrderSide → TransactionType
  | .buy => .buyGold
  | .sell => .sellGold

/-- A completed trade of a user on one side since an instant. -/
def isTradeSince (userId : ℕ) (side : OrderSide) (since : ℤ) (t : Transaction) : Bool :=
  t.userId == userId && t.type == tradeType side && t.status == .completed &&
    decide (since ≤ t.createdAt)

/-- The grams of the completed trades of a user on one side since an instant. -/
def tradedGrams (s : Db) (userId : ℕ) (side : OrderSide) (since : ℤ) : ℤ :=
  ((s.transactions.rows.filter (isTradeSince userId side since)).map fun t =>
    t.amountGrams.getD 0).sum

/-- The name of a side in the messages. -/
def sideName : OrderSide → String
  | .buy => "خرید"
  | .sell => "فروش"

/-- The check of one limit: `start` gives the beginning of the period of an instant. -/
def assertWithinLimit (limit : Db → OrderSide → ℚ) (period : String) (start : ℤ → ℤ)
    (userId : ℕ) (side : OrderSide) (amountGrams : ℤ) : Stmt Unit := do
  let s ← Block.get
  if limit s side ≤ 0 then pure ()
  else do
    let t ← Block.get
    let used := grams (tradedGrams t userId side (start s.now))
    Block.check (decide (used + grams amountGrams ≤ limit s side))
      (.badRequest (s!"سقف {sideName side} {period} {formatDecimal (limit s side)} گرم است. " ++
        s!"باقیمانده: {formatDecimal (max (limit s side - used) 0)} گرم"))

/-- `assertWithinDailyLimit` -/
def assertWithinDailyLimit (cal : Calendar) : ℕ → OrderSide → ℤ → Stmt Unit :=
  assertWithinLimit dailyLimit "روزانه" cal.startOfTehranDay

/-- `assertWithinMonthlyLimit` -/
def assertWithinMonthlyLimit (cal : Calendar) : ℕ → OrderSide → ℤ → Stmt Unit :=
  assertWithinLimit monthlyLimit "ماهانه" cal.startOfJalaliMonthTehran

/-! ## Locking a price -/

/-- The source has suspended this side. -/
def sideDisabled (side : OrderSide) (quote : GoldQuote) : Bool :=
  match side with
  | .buy => quote.disableBuy
  | .sell => quote.disableSell

/-- The lock that is stored. -/
def newPriceLock (userId : ℕ) (side : OrderSide) (amountGrams lockedPrice : ℤ) (a : Amounts)
    (expiresAt : ℤ) (id : ℕ) : PriceLock where
  id := id
  userId := userId
  metal := .gold
  side := side
  amountGrams := amountGrams
  lockedPrice := lockedPrice
  feeRial := a.feeRial
  taxRial := a.taxRial
  expiresAt := expiresAt
  used := false

/-- `lockPrice` -/
def lockPrice (cal : Calendar) (quote : Option GoldQuote) (supervisor : Supervisor)
    (userId : ℕ) (side : OrderSide) (amountGramsInput : ℚ) : Service LockedPrice := do
  Call.transaction (assertUserVerified userId)
  Call.transaction assertServiceEnabled
  Call.check (decide (0 < amountGramsInput)) (.badRequest "مقدار وارد شده نامعتبر است")
  Call.check (decide (amountGramsInput ≤ 1000000))
    (.badRequest "مقدار وارد شده خارج از محدوده مجاز است")
  Call.ofExcept (if supervisor.enabled then supervisor.userReportable else .ok ())
  let amountGrams := lockedGrams supervisor.enabled amountGramsInput
  Call.check (decide (0 < amountGrams)) (.badRequest "مقدار وارد شده نامعتبر است")
  let s ← Call.transaction Block.get
  let cfg := getTradeConfig s side
  Call.check (decide (cfg.minGrams ≤ grams amountGrams))
    (.badRequest s!"حداقل مقدار معامله {formatDecimal cfg.minGrams} گرم است")
  Call.check (decide (grams amountGrams ≤ cfg.maxGrams))
    (.badRequest s!"حداکثر مقدار معامله {formatDecimal cfg.maxGrams} گرم است")
  Call.transaction (assertWithinDailyLimit cal userId side amountGrams)
  Call.transaction (assertWithinMonthlyLimit cal userId side amountGrams)
  let quote ← Call.getOrFail (quote.filter fun q => decide (0 < q.priceRial))
    (.badRequest "قیمت لحظه‌ای در دسترس نیست. لطفاً چند لحظه دیگر تلاش کنید")
  let t ← Call.transaction Block.get
  Call.check (decide (((t.now - quote.fetchedAt : ℤ) : ℚ) / 1000 ≤ cfg.maxPriceAgeSec))
    (.badRequest "قیمت بازار در حال به‌روزرسانی است. لطفاً چند لحظه دیگر تلاش کنید")
  Call.check (!(cfg.respectSourceDisable && sideDisabled side quote))
    (.badRequest s!"{sideName side} طلا در حال حاضر به دلیل بسته بودن بازار امکان‌پذیر نیست")
  let price := effectivePrice side quote.priceRial cfg.spreadPercent
  Call.check (decide (0 < price))
    (.badRequest "خطا در محاسبه قیمت. لطفاً با پشتیبانی تماس بگیرید")
  let a := computeAmounts side (grams amountGrams) (rials price) cfg.feePercent cfg.taxPercent
  Call.check (!(side == .sell && decide (a.totalPayable < 0)))
    (.badRequest "خطا در محاسبه مبلغ نهایی. لطفاً با پشتیبانی تماس بگیرید")
  let t ← Call.transaction Block.get
  let expiresAt := ⌊(t.now : ℚ) + cfg.lockDurationSec * 1000⌋
  let id ← Call.transaction (Stmt.create Db.priceLockRows
    (newPriceLock userId side amountGrams price a expiresAt))
  pure
    { lockId := id
      side := side
      amountGrams := amountGrams
      lockedPriceRial := price
      totalRial := a.totalRial
      feeRial := a.feeRial
      feePercent := cfg.feePercent
      taxRial := a.taxRial
      totalPayableRial := a.totalPayable
      expiresAt := expiresAt
      expiresInSeconds := cfg.lockDurationSec }

/-! ## Taking the price -/

/-- `buildOrderResponse` -/
def buildOrderResponse (order : Order) (alreadyExisted : Bool) : OrderResponse where
  orderId := order.id
  side := order.side
  amountGrams := order.amountGrams
  pricePerGramRial := order.pricePerGram
  totalRial := order.totalRial
  feeRial := order.fee
  taxRial := order.tax
  netRial := payable order.side order.totalRial order.fee order.tax
  alreadyProcessed := alreadyExisted
  message :=
    if alreadyExisted then "این سفارش قبلاً با موفقیت پردازش شده است"
    else
      match order.side with
      | .buy => s!"{formatDecimal (grams order.amountGrams)} گرم طلا با موفقیت خریداری شد"
      | .sell => s!"{formatDecimal (grams order.amountGrams)} گرم طلا با موفقیت فروخته شد"

/-- `translateDbError` -/
def translateDbError : ApiError → ApiError
  | .conflict _ => .internal "خطایی در پردازش سفارش رخ داد. لطفاً مجدداً تلاش کنید"
  | e => e

/-- The fee and the tax of an order: those of the lock, or for a lock without either those
of the current configuration. -/
def orderCharges (s : Db) (lock : PriceLock) : ℤ × ℤ :=
  if lock.feeRial = 0 ∧ lock.taxRial = 0 then
    let a := computeAmounts lock.side (grams lock.amountGrams) (rials lock.lockedPrice)
      (feePercent s lock.side) (taxPercent s lock.side)
    (a.feeRial, a.taxRial)
  else (lock.feeRial, lock.taxRial)

/-- The price of a lock without charges. -/
def orderTotal (lock : PriceLock) : ℤ :=
  roundRial (grams lock.amountGrams * rials lock.lockedPrice)

/-- The lines of `postDoubleEntryAccounting`. -/
def tradeLines (side : OrderSide) (totalRial amountGrams feeRial taxRial : ℤ) :
    List LedgerLineInput :=
  let trade : List LedgerLineInput :=
    match side with
    | .buy =>
      [{ accountCode := "2010", side := .debit,
         amountRial := rials (payable .buy totalRial feeRial taxRial) },
       { accountCode := "2020", side := .credit, amountRial := rials totalRial,
         amountGrams := grams amountGrams },
       { accountCode := "1090", side := .debit, amountGrams := grams amountGrams }]
    | .sell =>
      [{ accountCode := "2020", side := .debit, amountRial := rials totalRial,
         amountGrams := grams amountGrams },
       { accountCode := "2010", side := .credit,
         amountRial := rials (payable .sell totalRial feeRial taxRial) },
       { accountCode := "1090", side := .credit, amountGrams := grams amountGrams }]
  let fee : List LedgerLineInput :=
    if 0 < feeRial then
      [{ accountCode := "4010", side := .credit, amountRial := rials feeRial }] else []
  let tax : List LedgerLineInput :=
    if 0 < taxRial then
      [{ accountCode := "2030", side := .credit, amountRial := rials taxRial }] else []
  trade ++ fee ++ tax

/-- `postDoubleEntryAccounting` -/
def tradeJournal (side : OrderSide) (orderId : ℕ) (totalRial amountGrams feeRial taxRial : ℤ) :
    JournalInput where
  description := s!"{sideName side} طلا - سفارش {orderId}"
  totalRial := rials totalRial
  totalGrams := grams amountGrams
  referenceType := some "ORDER"
  referenceId := some orderId
  lines := tradeLines side totalRial amountGrams feeRial taxRial

/-- The order that fills a lock. -/
@[simps] def newOrder (lock : PriceLock) (totalRial feeRial taxRial completedAt : ℤ) (id : ℕ) : Order where
  id := id
  userId := lock.userId
  lockId := some lock.id
  metal := .gold
  side := lock.side
  amountGrams := lock.amountGrams
  pricePerGram := lock.lockedPrice
  totalRial := totalRial
  fee := feeRial
  tax := taxRial
  status := .completed
  completedAt := some completedAt

/-- The main transaction of an order. -/
def mainTransaction (lock : PriceLock) (walletId orderId : ℕ)
    (totalRial feeRial taxRial createdAt : ℤ) (id : ℕ) : Transaction where
  id := id
  userId := lock.userId
  walletId := walletId
  type := tradeType lock.side
  amountGrams := some lock.amountGrams
  amountRial := some totalRial
  pricePerGram := some lock.lockedPrice
  feeAmount := some feeRial
  taxAmount := some taxRial
  status := .completed
  description := s!"order:{orderId}"
  createdAt := createdAt
  shopOrderId := none
  relatedTransactionId := none

/-- The transaction of a fee or a tax. -/
def chargeTransaction (type : TransactionType) (label : String) (lock : PriceLock)
    (walletId orderId mainId : ℕ) (amountRial createdAt : ℤ) (id : ℕ) : Transaction where
  id := id
  userId := lock.userId
  walletId := walletId
  type := type
  amountGrams := none
  amountRial := some amountRial
  pricePerGram := none
  feeAmount := none
  taxAmount := none
  status := .completed
  description := s!"{label}:{orderId}"
  createdAt := createdAt
  shopOrderId := none
  relatedTransactionId := some mainId

/-- What a trade does to the wallet. -/
def tradeWallet (side : OrderSide) (amountGrams totalPayable : ℤ) (w : Wallet) : Wallet :=
  match side with
  | .buy =>
    { w with
      rialBalance := w.rialBalance - totalPayable
      goldBalanceGrams := w.goldBalanceGrams + amountGrams }
  | .sell =>
    { w with
      rialBalance := w.rialBalance + totalPayable
      goldBalanceGrams := w.goldBalanceGrams - amountGrams }

@[simp] theorem tradeWallet_id (side : OrderSide) (amountGrams totalPayable : ℤ) (w : Wallet) :
    (tradeWallet side amountGrams totalPayable w).id = w.id := by
  cases side <;> rfl

/-- The unheld balance covers the trade. -/
def assertAvailable (side : OrderSide) (amountGrams totalPayable : ℤ) (wallet : Wallet) :
    Stmt Unit := do
  let s ← Block.get
  let availableRial := wallet.rialBalance - s.heldRial wallet.id
  let availableGrams := wallet.goldBalanceGrams - s.heldGrams wallet.id
  match side with
  | .buy =>
    Block.check (decide (totalPayable ≤ availableRial))
      (.badRequest (s!"موجودی قابل استفاده کافی نیست. مبلغ لازم: {fmtToman totalPayable} تومان، " ++
        s!"موجودی قابل استفاده: {fmtToman (max availableRial 0)} تومان"))
  | .sell =>
    Block.check (decide (amountGrams ≤ availableGrams))
      (.badRequest (s!"موجودی طلای قابل استفاده کافی نیست. موجودی قابل استفاده: " ++
        s!"{formatDecimal (grams (max availableGrams 0))} گرم"))

/-- The transaction of a charge, unless it is zero. -/
def recordCharge (type : TransactionType) (label : String) (lock : PriceLock)
    (walletId orderId mainId : ℕ) (amountRial : ℤ) : Stmt Unit := do
  if 0 < amountRial then do
    let s ← Block.get
    let _ ← Stmt.create Db.transactionRows
      (chargeTransaction type label lock walletId orderId mainId amountRial s.now)
    pure ()
  else pure ()

/-- The writes of an order: the order itself, the main transaction, the wallet, the lock,
the charges and the journal. -/
def recordOrder (lock : PriceLock) (wallet : Wallet) (totalRial feeRial taxRial : ℤ) :
    Stmt Order := do
  let totalPayable := payable lock.side totalRial feeRial taxRial
  let s ← Block.get
  -- the unique constraint on `lock_id`
  Block.check (!s.orders.rows.any fun o => o.lockId == some lock.id) Stmt.constraintError
  let orderId ← Stmt.create Db.orderRows (newOrder lock totalRial feeRial taxRial s.now)
  let t ← Block.get
  let mainId ← Stmt.create Db.transactionRows
    (mainTransaction lock wallet.id orderId totalRial feeRial taxRial t.now)
  Stmt.updateWallet wallet.id (tradeWallet lock.side lock.amountGrams totalPayable)
    (tradeWallet_id _ _ _)
  Block.mark (.traded lock.side totalPayable)
  Stmt.update Db.priceLockRows lock.id fun l => { l with used := true }
  recordCharge .fee "fee" lock wallet.id orderId mainId feeRial
  recordCharge .tax "tax" lock wallet.id orderId mainId taxRial
  Stmt.postJournal (tradeJournal lock.side orderId totalRial lock.amountGrams feeRial taxRial)
  pure (newOrder lock totalRial feeRial taxRial s.now orderId)

/-- A lock that is still to be taken. -/
def fillLock (cal : Calendar) (supervisor : Supervisor) (lock : PriceLock) :
    Stmt OrderResponse := do
  Block.check (lock.metal == .gold) (.badRequest "این قفل قیمت مربوط به طلا نیست")
  let s ← Block.get
  Block.check (decide (s.now < lock.expiresAt))
    (.badRequest "زمان قفل قیمت منقضی شده است. لطفاً مجدداً تلاش کنید")
  let t ← Block.get
  let (feeRial, taxRial) := orderCharges t lock
  let totalRial := orderTotal lock
  Stmt.lockWalletOf lock.userId
  let u ← Block.get
  let wallet ← Block.getOrFail (u.walletOf lock.userId) (.notFound "کیف پول یافت نشد")
  assertWithinDailyLimit cal lock.userId lock.side lock.amountGrams
  assertWithinMonthlyLimit cal lock.userId lock.side lock.amountGrams
  assertAvailable lock.side lock.amountGrams (payable lock.side totalRial feeRial taxRial) wallet
  let order ← recordOrder lock wallet totalRial feeRial taxRial
  Block.ofExcept (if supervisor.enabled then supervisor.approval else .ok ())
  pure (buildOrderResponse order false)

/-- A lock that was taken before: its order is returned again. -/
def replayOrder (lock : PriceLock) : Stmt OrderResponse := do
  let s ← Block.get
  let replayed : ApiError :=
    .badRequest "این قفل قیمت قبلاً پردازش شده است. لطفاً مجدداً قیمت را قفل کنید"
  let order ← Block.getOrFail
    (s.orders.rows.find? fun o => o.lockId == some lock.id && o.userId == lock.userId) replayed
  Block.check (order.status == .completed) replayed
  pure (buildOrderResponse order true)

/-- The transaction of `createOrder`. -/
def takeLock (cal : Calendar) (supervisor : Supervisor) (userId lockId : ℕ) :
    Stmt OrderResponse := do
  Block.lock (.priceLock lockId)
  let s ← Block.get
  let lock ← Block.getOrFail (s.priceLocks.find? lockId) (.notFound "قفل قیمت یافت نشد")
  Block.check (lock.userId == userId) (.forbidden "این قفل قیمت متعلق به شما نیست")
  if lock.used then replayOrder lock else fillLock cal supervisor lock

/-- The completed order of a lock. -/
def completedOrder (s : Db) (userId lockId : ℕ) : Option Order :=
  s.orders.rows.find? fun o =>
    o.lockId == some lockId && o.userId == userId && o.status == .completed

/-- `createOrder`; no id stands for a text that is no UUID. -/
def createOrder (cal : Calendar) (supervisor : Supervisor) (userId : ℕ) (lockId : Option ℕ) :
    Service OrderResponse := do
  Call.transaction (assertUserVerified userId)
  let lockId ← Call.getOrFail lockId (.badRequest "شناسه قفل قیمت نامعتبر است")
  let s ← Call.transaction Block.get
  match completedOrder s userId lockId with
  | some order => pure (buildOrderResponse order true)
  | none => do
    Call.transaction assertServiceEnabled
    Call.ofExcept (if supervisor.enabled then supervisor.reservation else .ok ())
    Call.transaction (takeLock cal supervisor userId lockId) translateDbError

end TradingService

/-- The requests of traders, with what the price service and the supervisor answer. -/
inductive TradingRequest where
  | lockPrice (quote : Option GoldQuote) (supervisor : Supervisor) (userId : ℕ)
      (side : OrderSide) (amountGrams : ℚ)
  | createOrder (supervisor : Supervisor) (userId : ℕ) (lockId : Option ℕ)

/-- What a request returns. -/
inductive TradingReply where
  | locked (q : LockedPrice)
  | ordered (r : OrderResponse)

namespace TradingService

/-- The service. -/
def serve (cal : Calendar) : TradingRequest → Service TradingReply
  | .lockPrice quote supervisor userId side amountGrams => do
    let q ← lockPrice cal quote supervisor userId side amountGrams
    pure (.locked q)
  | .createOrder supervisor userId lockId => do
    let r ← createOrder cal supervisor userId lockId
    pure (.ordered r)

/-! ## What taking a lock does alone -/

variable {s s' : Db}

/-- The user that may trade is active and identified. -/
theorem ok_assertUserVerified {userId : ℕ} {u : Unit}
    (h : (assertUserVerified userId).Ok s u s') :
    (∃ user, s.users.find? userId = some user ∧ user.status = .active ∧
      user.identity = some .verified) ∧ s' = s := by
  simp only [assertUserVerified, Block.ok_bind, Block.ok_get, Block.ok_getOrFail, Block.ok_check,
    beq_iff_eq] at h
  obtain ⟨_, _, ⟨rfl, rfl⟩, user, _, ⟨huser, rfl⟩, _, _, ⟨hactive, rfl⟩, hverified, rfl⟩ := h
  exact ⟨⟨user, huser, hactive, hverified⟩, rfl⟩

theorem ok_assertServiceEnabled {u : Unit} (h : assertServiceEnabled.Ok s u s') : s' = s := by
  simp only [assertServiceEnabled, Block.ok_bind, Block.ok_get, Block.ok_check] at h
  obtain ⟨_, _, ⟨rfl, rfl⟩, -, rfl⟩ := h
  rfl

theorem ok_assertWithinLimit {limit : Db → OrderSide → ℚ} {period : String} {start : ℤ → ℤ}
    {userId : ℕ} {side : OrderSide} {amountGrams : ℤ} {u : Unit}
    (h : (assertWithinLimit limit period start userId side amountGrams).Ok s u s') :
    (0 < limit s side →
      grams (tradedGrams s userId side (start s.now)) + grams amountGrams ≤ limit s side) ∧
    s' = s := by
  simp only [assertWithinLimit, Block.ok_bind, Block.ok_get, Block.ok_ite, Block.ok_pure,
    Block.ok_check, decide_eq_true_eq] at h
  obtain ⟨_, _, ⟨rfl, rfl⟩, h⟩ := h
  split at h
  · rename_i hle
    exact ⟨fun hlt => absurd hle (not_le.mpr hlt), h.2⟩
  · obtain ⟨_, _, ⟨rfl, rfl⟩, hle, rfl⟩ := h
    exact ⟨fun _ => hle, rfl⟩

theorem ok_assertAvailable {side : OrderSide} {amountGrams totalPayable : ℤ} {wallet : Wallet}
    {u : Unit} (h : (assertAvailable side amountGrams totalPayable wallet).Ok s u s') :
    (side = .buy → totalPayable ≤ wallet.rialBalance - s.heldRial wallet.id) ∧
    (side = .sell → amountGrams ≤ wallet.goldBalanceGrams - s.heldGrams wallet.id) ∧
    s' = s := by
  simp only [assertAvailable, Block.ok_bind, Block.ok_get] at h
  obtain ⟨_, _, ⟨rfl, rfl⟩, h⟩ := h
  cases side with
  | buy => simpa using h
  | sell => simpa using h

theorem ok_recordCharge {type : TransactionType} {label : String} {lock : PriceLock}
    {walletId orderId mainId : ℕ} {amountRial : ℤ} {u : Unit}
    (h : (recordCharge type label lock walletId orderId mainId amountRial).Ok s u s') :
    ∃ t n, s' = (s.setNextId n).setTransactions t := by
  simp only [recordCharge, Block.ok_ite] at h
  split at h
  · simp only [Block.ok_bind, Block.ok_get, Block.ok_pure] at h
    obtain ⟨_, _, ⟨rfl, rfl⟩, _, _, h, -, rfl⟩ := h
    obtain ⟨t, -, -, -, rfl⟩ := Stmt.ok_create h
    exact ⟨t, _, rfl⟩
  · simp only [Block.ok_pure] at h
    exact ⟨s.transactions, s.nextId, h.2⟩

/-- What recording an order changes: `o` is the order and `w` the wallet. -/
structure Recorded (s : Db) (lock : PriceLock) (w : Wallet) (totalRial feeRial taxRial : ℤ)
    (o : Order) (s' : Db) : Prop where
  order : ∃ id, o = newOrder lock totalRial feeRial taxRial s.books.now id
  orders : s.orders.find? o.id = none ∧ s'.orders = s.orders.insert o
  wallets : s'.wallets = s.wallets.update w.id (tradeWallet lock.side lock.amountGrams
    (payable lock.side totalRial feeRial taxRial)) (tradeWallet_id _ _ _)
  books : ∃ posted, AccountingService.Posting s.books
      (tradeJournal lock.side o.id totalRial lock.amountGrams feeRial taxRial) posted ∧
    s'.books = Stmt.writeJournal s.books.now
      (tradeJournal lock.side o.id totalRial lock.amountGrams feeRial taxRial) posted s.books
  priceLocks : s'.priceLocks = s.priceLocks.update lock.id fun l => { l with used := true }
  holds : s'.holds = s.holds
  withdrawals : s'.withdrawals = s.withdrawals

theorem ok_recordOrder {lock : PriceLock} {w : Wallet} {totalRial feeRial taxRial : ℤ}
    {o : Order} (h : (recordOrder lock w totalRial feeRial taxRial).Ok s o s') :
    Recorded s lock w totalRial feeRial taxRial o s' := by
  simp only [recordOrder, Block.ok_bind, Block.ok_get, Block.ok_check, Block.ok_mark,
    Db.history_record, Block.ok_pure] at h
  obtain ⟨_, s, ⟨rfl, rfl⟩, _, _, ⟨-, rfl⟩, orderId, _, horder, _, _, ⟨rfl, rfl⟩, mainId,
    _, hmain, _, _, hwallet, _, _, rfl, _, _, hlock, _, _, hfee, _, _, htax,
    _, _, hpost, rfl, rfl⟩ := h
  obtain ⟨orders, horders, hnew, -, rfl⟩ := Stmt.ok_create horder
  obtain ⟨transactions, -, -, -, rfl⟩ := Stmt.ok_create hmain
  obtain ⟨wallets, -, hwallets, -, -, -, rfl⟩ := Stmt.ok_updateWallet hwallet
  obtain ⟨locks, hlocks, -, rfl⟩ := Stmt.ok_update hlock
  obtain ⟨_, _, rfl⟩ := ok_recordCharge hfee
  obtain ⟨_, _, rfl⟩ := ok_recordCharge htax
  obtain ⟨books, posted, hbooks, hposting, rfl⟩ := Stmt.ok_postJournal hpost
  simp only [Db.now_eq] at horders hwallets hposting hbooks
  exact
    { order := ⟨orderId, by simp⟩
      orders := ⟨hnew, by simpa using horders⟩
      wallets := by simpa using hwallets
      books := ⟨posted, by simpa using hposting, by simpa using hbooks⟩
      priceLocks := by simpa using hlocks
      holds := by simp
      withdrawals := by simp }

/-- What a lock moves in rials when it is filled. -/
def orderPayable (s : Db) (lock : PriceLock) : ℤ :=
  payable lock.side (orderTotal lock) (orderCharges s lock).1 (orderCharges s lock).2

/-- A lock that is filled: the unheld balance of the wallet covers the order that is
recorded. -/
structure Filled (s : Db) (lock : PriceLock) (w : Wallet) (o : Order) (s' : Db) : Prop where
  wallet : s.walletOf lock.userId = some w
  rial : lock.side = .buy → orderPayable s lock ≤ w.rialBalance - s.heldRial w.id
  gold : lock.side = .sell → lock.amountGrams ≤ w.goldBalanceGrams - s.heldGrams w.id
  recorded : Recorded s lock w (orderTotal lock) (orderCharges s lock).1 (orderCharges s lock).2
    o s'

theorem ok_fillLock {cal : Calendar} {supervisor : Supervisor} {lock : PriceLock}
    {r : OrderResponse} (h : (fillLock cal supervisor lock).Ok s r s') :
    ∃ w o, Filled s lock w o s' ∧ r = buildOrderResponse o false := by
  simp only [fillLock, Block.ok_bind, Block.ok_check, Block.ok_get, Stmt.ok_lockWalletOf,
    Block.ok_getOrFail, Block.ok_ofExcept, Block.ok_pure] at h
  obtain ⟨_, _, ⟨-, rfl⟩, _, _, ⟨rfl, rfl⟩, _, _, ⟨-, rfl⟩, _, _, ⟨rfl, rfl⟩, _, _, rfl,
    _, _, ⟨rfl, rfl⟩, w, _, ⟨hw, rfl⟩, _, _, hday, _, _, hmonth, _, _, havail, o, _, hrec,
    _, _, ⟨-, rfl⟩, rfl, rfl⟩ := h
  obtain ⟨-, rfl⟩ := ok_assertWithinLimit hday
  obtain ⟨-, rfl⟩ := ok_assertWithinLimit hmonth
  obtain ⟨hrial, hgold, rfl⟩ := ok_assertAvailable havail
  exact ⟨w, o, ⟨hw, hrial, hgold, ok_recordOrder hrec⟩, rfl⟩

/-- Taking a lock fills it, or returns the order of a used one. -/
theorem ok_takeLock {cal : Calendar} {supervisor : Supervisor} {userId lockId : ℕ}
    {r : OrderResponse} (h : (takeLock cal supervisor userId lockId).Ok s r s') :
    ∃ lock, s.priceLocks.find? lockId = some lock ∧ lock.userId = userId ∧
      ((lock.used = true ∧ s' = s ∧ r.alreadyProcessed = true) ∨
        lock.used = false ∧ ∃ w o, Filled s lock w o s' ∧ r = buildOrderResponse o false) := by
  simp only [takeLock, Block.ok_bind, Block.ok_lock, Block.ok_get, Block.ok_getOrFail,
    Block.ok_check, Block.ok_ite, beq_iff_eq] at h
  obtain ⟨_, _, rfl, _, _, ⟨rfl, rfl⟩, lock, _, ⟨hlock, rfl⟩, _, _, ⟨hown, rfl⟩, h⟩ := h
  refine ⟨lock, hlock, hown, ?_⟩
  split at h
  · rename_i hused
    simp only [replayOrder, Block.ok_bind, Block.ok_get, Block.ok_getOrFail, Block.ok_check,
      Block.ok_pure] at h
    obtain ⟨_, _, ⟨rfl, rfl⟩, _, _, ⟨-, rfl⟩, _, _, ⟨-, rfl⟩, rfl, rfl⟩ := h
    exact .inl ⟨hused, rfl, rfl⟩
  · rename_i hused
    exact .inr ⟨Bool.eq_false_of_not_eq_true hused, ok_fillLock h⟩

/-! ## Calls of the service -/

/-- The one transaction of `createOrder` that writes is `takeLock`. -/
theorem keeps_createOrder {I : Db → Prop} {cond : Mark → Db → Prop} {cal : Calendar}
    {supervisor : Supervisor} {userId : ℕ} {lockId : Option ℕ}
    (htake : ∀ k s r s', I s → (takeLock cal supervisor userId k).Meets cond s →
      (takeLock cal supervisor userId k).Ok s r s' → I s') :
    (createOrder cal supervisor userId lockId).Keeps I cond := by
  unfold createOrder
  refine Call.keeps_bind (Call.keeps_readOnly fun _ _ _ h => (ok_assertUserVerified h).2)
    fun _ => ?_
  refine Call.keeps_bind (Call.keeps_getOrFail _ _) fun k => ?_
  refine Call.keeps_bind (Call.keeps_readOnly fun _ _ _ h => (Block.ok_get.mp h).2) fun t => ?_
  cases completedOrder t userId k with
  | some order => exact Call.keeps_pure _
  | none =>
    refine Call.keeps_bind (Call.keeps_readOnly fun _ _ _ h => ok_assertServiceEnabled h)
      fun _ => ?_
    refine Call.keeps_bind (Call.keeps_ofExcept _) fun _ => ?_
    exact Call.keeps_transaction fun s r s' hs hmeets hok => htake k s r s' hs hmeets hok

/-- A call of `createOrder` that returns a new order has filled its lock. -/
theorem returns_createOrder {cal : Calendar} {supervisor : Supervisor} {userId k : ℕ}
    {r : OrderResponse} (h : (createOrder cal supervisor userId (some k)).Returns s r s')
    (hnew : r.alreadyProcessed = false) :
    ∃ lock w o, s.priceLocks.find? k = some lock ∧ lock.userId = userId ∧
      Filled s lock w o s' ∧ r = buildOrderResponse o false := by
  simp only [createOrder, Call.returns_bind, Call.returns_transaction, Call.returns_getOrFail,
    Block.ok_get] at h
  obtain ⟨_, _, hverified, _, _, ⟨hk, rfl⟩, _, s, ⟨rfl, rfl⟩, h⟩ := h
  cases hk
  obtain ⟨-, rfl⟩ := ok_assertUserVerified hverified
  cases horder : completedOrder s userId k with
  | some order =>
    simp only [horder, Call.returns_pure] at h
    obtain ⟨rfl, -⟩ := h
    cases hnew
  | none =>
    simp only [horder, Call.returns_bind, Call.returns_transaction, Call.returns_ofExcept] at h
    obtain ⟨_, _, henabled, _, _, ⟨-, rfl⟩, htake⟩ := h
    have hsame := ok_assertServiceEnabled henabled
    subst hsame
    obtain ⟨lock, hlock, hown, ⟨-, -, hold⟩ | ⟨-, w, o, hfilled, hr⟩⟩ := ok_takeLock htake
    · rw [hold] at hnew
      cases hnew
    · exact ⟨lock, w, o, hlock, hown, hfilled, hr⟩

end TradingService

end ArkanGold
