import ArkanGold.Lib.Runs
import ArkanGold.Lib.Numeric
import ArkanGold.Market.Trading

/-!
# The price of gold

`PriceService`: the price is fetched every 30 seconds, checked against the one accepted before,
stored and cached.

- A price that jumps too far is rejected until it was fetched three times in a row. The jump
  that is waiting for this is in the memory of the server; the flag that suspends trading
  meanwhile is in Redis and has a lifetime of its own.
- The cached payload has the flags of the source. A reader that finds the cache empty builds
  one from the row in the database, which has no flags.
- Every operation is a step. `isFetching` keeps a second fetch from starting before the first
  has ended, so it does not show at this level. A fault of Redis lasts for the operation.
-/

namespace ArkanGold

/-- `TalaseaQuote`, a response whose price was found to be valid. -/
structure TalaseaQuote where
  price : ℚ
  change24h : ℚ
  disableBuy : Bool
  disableSell : Bool
  price_pos : 0 < price

/-- `CachedPricePayload` -/
structure CachedPricePayload where
  pricePerGramRial : ℤ
  pricePerGramToman : ℚ
  change24h : ℚ
  source : String
  fetchedAt : ℤ
  disableBuy : Bool
  disableSell : Bool
  deriving DecidableEq

/-- The row of `market_prices` for gold. -/
structure MarketPrice where
  pricePerGramRial : ℤ
  source : String
  fetchedAt : ℤ
  deriving DecidableEq

/-- `pendingJump` -/
structure PendingJump where
  price : ℤ
  count : ℕ
  deriving DecidableEq

/-- A price that was accepted, with the flags that came with it. -/
structure AcceptedPrice where
  priceRial : ℤ
  fetchedAt : ℤ
  disableBuy : Bool
  disableSell : Bool
  deriving DecidableEq

/-- What properties of runs speak about. -/
inductive PriceMark where
  /-- a fetched price is rejected -/
  | rejected (priceRial : ℤ) (time : ℤ)
  /-- a fetched price has passed the check and could not be stored -/
  | dropped (priceRial : ℤ)
  /-- a fetched price is accepted under this limit -/
  | accepted (a : AcceptedPrice) (maxJumpPercent : ℚ)
  /-- a quote is offered for trading -/
  | offered (quote : GoldQuote)
  deriving DecidableEq

/-- The database, Redis with the end of each entry, the memory of the server, and the clock. -/
structure PriceState where
  record : Option MarketPrice
  /-- `trade.gold.max_price_jump_percent`, if it is configured -/
  maxJump : Option ℚ
  cache : Option (CachedPricePayload × ℤ)
  suspect : Option ℤ
  pendingJump : Option PendingJump
  consecutiveFailures : ℕ
  circuitOpenedAt : Option ℤ
  now : ℤ
  history : List PriceMark

namespace PriceService

/-- `SUSPECT_FLAG_TTL_SECONDS`, in milliseconds -/
def SUSPECT_FLAG_TTL : ℤ := 120 * 1000

/-- `DEFAULT_MAX_JUMP_PERCENT` -/
def DEFAULT_MAX_JUMP_PERCENT : ℚ := 5

/-- `JUMP_CONFIRMATIONS` -/
def JUMP_CONFIRMATIONS : ℕ := 3

/-- `JUMP_CONFIRM_TOLERANCE` -/
def JUMP_CONFIRM_TOLERANCE : ℚ := 1 / 100

/-- `REFERENCE_MAX_AGE_MS` -/
def REFERENCE_MAX_AGE_MS : ℤ := 30 * 60 * 1000

/-- `REDIS_TTL_SECONDS`, in milliseconds -/
def REDIS_TTL : ℤ := 35 * 1000

/-- `TALASEA_SOURCE` -/
def TALASEA_SOURCE : String := "talasea.ir"

/-- `TALASEA_TO_RIAL_FACTOR` -/
def TALASEA_TO_RIAL_FACTOR : ℚ := 10000

/-- `RIAL_TO_TOMAN_DIVISOR` -/
def RIAL_TO_TOMAN_DIVISOR : ℚ := 10

/-- `MAX_FAILURES_BEFORE_BACKOFF` -/
def MAX_FAILURES_BEFORE_BACKOFF : ℕ := 5

/-- `BACKOFF_MS` -/
def BACKOFF_MS : ℤ := 5 * 60 * 1000

/-! ## The circuit breaker -/

/-- `isCircuitOpen`, with the state that it leaves behind. -/
def isCircuitOpen (s : PriceState) : Bool × PriceState :=
  match s.circuitOpenedAt with
  | none => (false, s)
  | some t =>
    if BACKOFF_MS ≤ s.now - t then
      (false, { s with circuitOpenedAt := none, consecutiveFailures := 0 })
    else (true, s)

/-- `registerFailure` -/
def registerFailure (s : PriceState) : PriceState :=
  let failures := s.consecutiveFailures + 1
  { s with
    consecutiveFailures := failures
    circuitOpenedAt :=
      if MAX_FAILURES_BEFORE_BACKOFF ≤ failures ∧ s.circuitOpenedAt = none then some s.now
      else s.circuitOpenedAt }

/-! ## The check -/

/-- The limit in force. -/
def maxJumpPercent (s : PriceState) : ℚ := s.maxJump.getD DEFAULT_MAX_JUMP_PERCENT

/-- The jump from the reference, in percent of it. -/
def jumpPercent (priceRial referencePrice : ℤ) : ℚ :=
  |(priceRial - referencePrice : ℚ)| / referencePrice * 100

/-- A price that is no jump: the check is switched off, there is no recent price to compare
with, or the price is near enough to it. -/
def isUsual (s : PriceState) (priceRial : ℤ) : Bool :=
  match s.record with
  | none => true
  | some reference =>
    decide (maxJumpPercent s ≤ 0) || decide (REFERENCE_MAX_AGE_MS < s.now - reference.fetchedAt) ||
      decide (reference.pricePerGramRial ≤ 0) ||
      decide (jumpPercent priceRial reference.pricePerGramRial ≤ maxJumpPercent s)

/-- The comparison with the pending jump; a quotient by zero is within no tolerance. -/
def confirms (pending : PendingJump) (priceRial : ℤ) : Bool :=
  decide (pending.price ≠ 0) &&
    decide (|(priceRial - pending.price : ℚ)| / pending.price ≤ JUMP_CONFIRM_TOLERANCE)

/-- The pending jump with this price counted. -/
def countJump (s : PriceState) (priceRial : ℤ) : PendingJump :=
  match s.pendingJump with
  | none => ⟨priceRial, 1⟩
  | some pending =>
    if confirms pending priceRial then { pending with count := pending.count + 1 }
    else ⟨priceRial, 1⟩

/-- Whether `passesDeviationCheck` lets the price pass. -/
def passes (s : PriceState) (priceRial : ℤ) : Bool :=
  isUsual s priceRial || decide (JUMP_CONFIRMATIONS ≤ (countJump s priceRial).count)

/-- `accept` -/
def accept (s : PriceState) (redisDown : Bool) : PriceState :=
  { s with pendingJump := none, suspect := if redisDown then s.suspect else none }

/-- A jump that is not confirmed suspends trading. -/
def reject (s : PriceState) (priceRial : ℤ) (redisDown : Bool) : PriceState :=
  { s with
    pendingJump := some (countJump s priceRial)
    suspect := if redisDown then s.suspect else some (s.now + SUSPECT_FLAG_TTL)
    history := s.history ++ [.rejected priceRial s.now] }

/-- `passesDeviationCheck`, with the state that it leaves behind. -/
def passesDeviationCheck (s : PriceState) (priceRial : ℤ) (redisDown : Bool) : Bool × PriceState :=
  if passes s priceRial then (true, accept s redisDown) else (false, reject s priceRial redisDown)

/-! ## Fetching -/

/-- What fails during a fetch besides the source. -/
structure FetchFaults where
  /-- the reference or the limit cannot be read -/
  check : Bool := false
  /-- the price cannot be stored -/
  upsert : Bool := false
  redisDown : Bool := false

/-- The fetched price in rials. -/
def priceRialOf (quote : TalaseaQuote) : ℤ :=
  Numeric.roundHalfAway (quote.price * TALASEA_TO_RIAL_FACTOR)

/-- The payload that is cached for a fetched price. -/
def payloadOf (quote : TalaseaQuote) (fetchedAt : ℤ) : CachedPricePayload where
  pricePerGramRial := priceRialOf quote
  pricePerGramToman := priceRialOf quote / RIAL_TO_TOMAN_DIVISOR
  change24h := quote.change24h
  source := TALASEA_SOURCE
  fetchedAt := fetchedAt
  disableBuy := quote.disableBuy
  disableSell := quote.disableSell

/-- A price that has passed the check is stored and cached. -/
def storePrice (s : PriceState) (quote : TalaseaQuote) (redisDown : Bool) : PriceState :=
  { s with
    record := some ⟨priceRialOf quote, TALASEA_SOURCE, s.now⟩
    cache := if redisDown then s.cache else some (payloadOf quote s.now, s.now + REDIS_TTL)
    history := s.history ++
      [.accepted ⟨priceRialOf quote, s.now, quote.disableBuy, quote.disableSell⟩ (maxJumpPercent s)] }

/-- `fetchAndStorePrice`, from a response of the source on. -/
def storeFetched (s : PriceState) (quote : TalaseaQuote) (faults : FetchFaults) : PriceState :=
  let s := { s with consecutiveFailures := 0, circuitOpenedAt := none }
  if faults.check then s
  else
    match passesDeviationCheck s (priceRialOf quote) faults.redisDown with
    | (false, s) => s
    | (true, s) =>
      if faults.upsert then { s with history := s.history ++ [.dropped (priceRialOf quote)] }
      else storePrice s quote faults.redisDown

/-- `fetchAndStorePrice`; without a response the source has failed. -/
def fetchAndStorePrice (s : PriceState) (response : Option TalaseaQuote) (faults : FetchFaults) :
    PriceState :=
  match isCircuitOpen s with
  | (true, s) => s
  | (false, s) =>
    match response with
    | none => registerFailure s
    | some quote => storeFetched s quote faults

/-! ## Readers -/

/-- An entry of Redis that has not expired. -/
def live {α : Type} (s : PriceState) (entry : Option (α × ℤ)) : Option α :=
  (entry.filter fun x => s.now < x.2).map Prod.fst

/-- The payload built from the row. -/
def fallbackPayload (r : MarketPrice) : CachedPricePayload where
  pricePerGramRial := r.pricePerGramRial
  pricePerGramToman := r.pricePerGramRial / RIAL_TO_TOMAN_DIVISOR
  change24h := 0
  source := r.source
  fetchedAt := r.fetchedAt
  disableBuy := false
  disableSell := false

/-- `getCurrentGoldPriceDecimal`: the price and the state that is left behind. -/
def getCurrentGoldPriceDecimal (s : PriceState) (redisDown : Bool) : Option ℤ × PriceState :=
  match (if redisDown then none else live s s.cache) with
  | some payload => (some payload.pricePerGramRial, s)
  | none =>
    match s.record with
    | none => (none, s)
    | some r =>
      (some r.pricePerGramRial,
        { s with cache := if redisDown then s.cache else some (fallbackPayload r, s.now + REDIS_TTL) })

/-- `getGoldPriceResponse`, while Redis answers. -/
def getGoldPriceResponse (s : PriceState) : Option CachedPricePayload :=
  (live s s.cache).or (s.record.map fallbackPayload)

/-- `getTradableGoldQuote` -/
def getTradableGoldQuote (s : PriceState) (redisDown : Bool) : Option GoldQuote :=
  if redisDown || (live s (s.suspect.map fun t => ((), t))).isSome then none
  else (getGoldPriceResponse s).map fun res =>
    { priceRial := res.pricePerGramRial
      fetchedAt := res.fetchedAt
      disableBuy := res.disableBuy
      disableSell := res.disableSell }

/-! ## Steps -/

/-- What can happen. -/
inductive PriceEvent where
  | fetch (response : Option TalaseaQuote) (faults : FetchFaults)
  | read (redisDown : Bool)
  | quote (redisDown : Bool)
  | wait (ms : ℕ)
  | configure (maxJump : Option ℚ)
  | restart

/-- The state after an event. -/
def next (s : PriceState) : PriceEvent → PriceState
  | .fetch response faults => fetchAndStorePrice s response faults
  | .read redisDown => (getCurrentGoldPriceDecimal s redisDown).2
  | .quote redisDown =>
    match getTradableGoldQuote s redisDown with
    | none => s
    | some quote => { s with history := s.history ++ [.offered quote] }
  | .wait ms => { s with now := s.now + ms }
  | .configure maxJump => { s with maxJump := maxJump }
  | .restart => { s with pendingJump := none, consecutiveFailures := 0, circuitOpenedAt := none }

/-- One step. -/
def Step (s : PriceState) (e : PriceEvent) (s' : PriceState) : Prop := next s e = s'

end PriceService

end ArkanGold
