import ArkanGold.Lib.Chronicle
import ArkanGold.Market.PriceService

/-!
# Guarded prices

Every price that becomes tradable was checked, and every quote is the latest one.

- `Admissible` says when a price may be accepted, `Fine` what every entry of the history has to
  satisfy after the entries before it.
- `Tracks` ties the state to the history: the row is the price accepted last, the pending jump
  counts the fetches that were rejected last, and the cache has the price of the row.
- Three things are left to the circumstances (`Careful`). A third price is compared with the
  first of the pending ones alone; the flag that suspends trading ends by itself; and a payload
  built from the row has lost the flags of the source. `unguarded_prices` are runs that go
  wrong for each of them.
-/

namespace ArkanGold

namespace PriceService

variable {s s' : PriceState}

/-! ## What the history says -/

/-- A price that went through the check, and when it was rejected, if it was. -/
structure Check where
  priceRial : ℤ
  rejectedAt : Option ℤ

/-- The check that an entry tells of. -/
def checkOf : PriceMark → Option Check
  | .rejected priceRial time => some ⟨priceRial, some time⟩
  | .dropped priceRial => some ⟨priceRial, none⟩
  | .accepted a _ => some ⟨a.priceRial, none⟩
  | .offered _ => none

/-- The successful fetches, the latest at the end. -/
def checks (history : List PriceMark) : List Check := history.filterMap checkOf

/-- The price that an entry accepts. -/
def acceptedBy : PriceMark → Option AcceptedPrice
  | .accepted a _ => some a
  | _ => none

/-- The price accepted last. -/
def lastAccepted (history : List PriceMark) : Option AcceptedPrice :=
  (history.filterMap acceptedBy).getLast?

/-- The quote of an accepted price. -/
def quoteOf (a : AcceptedPrice) : GoldQuote where
  priceRial := a.priceRial
  fetchedAt := a.fetchedAt
  disableBuy := a.disableBuy
  disableSell := a.disableSell

/-- The second price is within 1 percent of the first one. -/
def Near (a b : ℤ) : Prop := 100 * |b - a| ≤ a

instance (a b : ℤ) : Decidable (Near a b) := inferInstanceAs (Decidable (_ ≤ _))

/-- The price is the last of three successful fetches in a row within 1 percent of one
another. -/
def Confirmed (before : List PriceMark) (priceRial : ℤ) : Prop :=
  ∃ older c₁ c₂, checks before = older ++ [c₁, c₂] ∧ Near c₁.priceRial c₂.priceRial ∧
    Near c₁.priceRial priceRial ∧ Near c₂.priceRial priceRial

/-- A price that may be accepted: the check is off, there is no recent price to compare with, or
the price is near enough to that one or was confirmed. -/
def Admissible (before : List PriceMark) (a : AcceptedPrice) (maxJumpPercent : ℚ) : Prop :=
  maxJumpPercent ≤ 0 ∨ ∀ r, lastAccepted before = some r →
    30 * 60 * 1000 < a.fetchedAt - r.fetchedAt ∨
      |(a.priceRial - r.priceRial : ℚ)| * 100 ≤ maxJumpPercent * r.priceRial ∨
      Confirmed before a.priceRial

/-- What an entry has to satisfy after the entries before it. -/
def Fine (before : List PriceMark) : PriceMark → Prop
  | .accepted a maxJumpPercent => Admissible before a maxJumpPercent
  | .offered quote =>
    (∀ c, (checks before).getLast? = some c → c.rejectedAt = none) ∧
      ∃ a, lastAccepted before = some a ∧ quote = quoteOf a
  | _ => True

/-! ## The condition -/

/-- The circumstances in which the check is sound. -/
def Careful (s : PriceState) : PriceEvent → Prop
  | .fetch (some quote) faults =>
    0 < priceRialOf quote ∧ faults.redisDown = false ∧
      ∀ pending, s.pendingJump = some pending → confirms pending (priceRialOf quote) = true →
        ∀ c, (checks s.history).getLast? = some c → Near c.priceRial (priceRialOf quote)
  | .quote _ =>
    (∀ c t, (checks s.history).getLast? = some c → c.rejectedAt = some t →
        s.now < t + SUSPECT_FLAG_TTL) ∧
      ∀ a, lastAccepted s.history = some a →
        (a.disableBuy = false ∧ a.disableSell = false) ∨ s.now < a.fetchedAt + REDIS_TTL
  | _ => True

/-! ## Histories -/

theorem checks_append (h : List PriceMark) (l : PriceMark) :
    checks (h ++ [l]) = checks h ++ (checkOf l).toList := by
  rw [checks, List.filterMap_append, List.filterMap_cons]
  cases checkOf l <;> rfl

theorem lastAccepted_append (h : List PriceMark) (l : PriceMark) :
    lastAccepted (h ++ [l]) = (acceptedBy l).or (lastAccepted h) := by
  rw [lastAccepted, List.filterMap_append, List.filterMap_cons]
  cases acceptedBy l with
  | none => simp [lastAccepted]
  | some a => simp

/-! ## The invariant -/

/-- The fetches rejected last are those that the pending jump counts. -/
inductive Pending (h : List PriceMark) : PendingJump → Prop where
  | once {older : List Check} {c : Check} (hchecks : checks h = older ++ [c]) :
    Pending h ⟨c.priceRial, 1⟩
  | twice {older : List Check} {c₁ c₂ : Check} (hchecks : checks h = older ++ [c₁, c₂])
    (hnear : Near c₁.priceRial c₂.priceRial) : Pending h ⟨c₁.priceRial, 2⟩

theorem Pending.of_checks_eq {h h' : List PriceMark} {pending : PendingJump}
    (hpending : Pending h pending) (heq : checks h' = checks h) : Pending h' pending := by
  cases hpending with
  | once hchecks => exact .once (heq.trans hchecks)
  | twice hchecks hnear => exact .twice (heq.trans hchecks) hnear

/-- The payload has the price of `a`, and its flags or none. -/
def PayloadOf (a : AcceptedPrice) (payload : CachedPricePayload) : Prop :=
  payload.pricePerGramRial = a.priceRial ∧ payload.fetchedAt = a.fetchedAt ∧
    ((payload.disableBuy = a.disableBuy ∧ payload.disableSell = a.disableSell) ∨
      (payload.disableBuy = false ∧ payload.disableSell = false))

/-- The state agrees with the history. -/
structure Tracks (s : PriceState) : Prop where
  chronicle : Chronicle Fine s.history
  record : s.record.map (fun r => (r.pricePerGramRial, r.fetchedAt)) =
    (lastAccepted s.history).map fun a => (a.priceRial, a.fetchedAt)
  positive : ∀ a, lastAccepted s.history = some a → 0 < a.priceRial
  pending : ∀ pending, s.pendingJump = some pending → 0 < pending.price ∧ Pending s.history pending
  suspect : ∀ c t, (checks s.history).getLast? = some c → c.rejectedAt = some t →
    s.suspect = some (t + SUSPECT_FLAG_TTL)
  cached : ∀ payload e, s.cache = some (payload, e) →
    ∃ a, lastAccepted s.history = some a ∧ PayloadOf a payload
  recent : ∀ a, lastAccepted s.history = some a → s.now < a.fetchedAt + REDIS_TTL →
    ∃ payload, s.cache = some (payload, a.fetchedAt + REDIS_TTL) ∧
      payload.disableBuy = a.disableBuy ∧ payload.disableSell = a.disableSell

/-- Nothing was fetched yet. -/
structure Unfetched (s : PriceState) : Prop where
  record : s.record = none
  cache : s.cache = none
  pendingJump : s.pendingJump = none
  history : s.history = []

theorem Unfetched.tracks (h : Unfetched s) : Tracks s := by
  constructor
  · exact h.history ▸ chronicle_nil Fine
  · simp [h.record, h.history, lastAccepted]
  · simp [h.history, lastAccepted]
  · simp [h.pendingJump]
  · simp [h.history, checks]
  · simp [h.cache]
  · simp [h.history, lastAccepted]

/-- Steps that fetch nothing and offer nothing. -/
theorem Tracks.quiet (h : Tracks s) (hhistory : s'.history = s.history)
    (hrecord : s'.record = s.record) (hcache : s'.cache = s.cache) (hsuspect : s'.suspect = s.suspect)
    (hpending : ∀ pending, s'.pendingJump = some pending → s.pendingJump = some pending)
    (hnow : s.now ≤ s'.now) : Tracks s' := by
  constructor
  · exact hhistory ▸ h.chronicle
  · rw [hrecord, hhistory]
    exact h.record
  · exact hhistory ▸ h.positive
  · exact fun pending hp => hhistory ▸ h.pending pending (hpending pending hp)
  · rw [hsuspect, hhistory]
    exact h.suspect
  · rw [hcache, hhistory]
    exact h.cached
  · rw [hcache, hhistory]
    exact fun a ha hlt => h.recent a ha (hnow.trans_lt hlt)

/-! ## The check -/

theorem near_of_confirms {pending : PendingJump} {priceRial : ℤ} (hpos : 0 < pending.price)
    (h : confirms pending priceRial = true) : Near pending.price priceRial := by
  rw [confirms, Bool.and_eq_true] at h
  have hle := of_decide_eq_true h.2
  have hpos' : (0 : ℚ) < pending.price := by exact_mod_cast hpos
  rw [div_le_iff₀ hpos', JUMP_CONFIRM_TOLERANCE] at hle
  have hcast : (100 * |(priceRial - pending.price : ℤ)| : ℚ) ≤ pending.price := by
    push_cast
    linarith
  exact_mod_cast hcast

/-- A price that is no jump may be accepted. -/
theorem admissible_of_usual (h : Tracks s) {a : AcceptedPrice} (htime : a.fetchedAt = s.now)
    (husual : isUsual s a.priceRial = true) : Admissible s.history a (maxJumpPercent s) := by
  unfold isUsual at husual
  cases hrecord : s.record with
  | none =>
    have hlast := h.record
    rw [hrecord, Option.map_none, eq_comm, Option.map_eq_none_iff] at hlast
    refine .inr fun r hr => ?_
    rw [hlast] at hr
    cases hr
  | some reference =>
    rw [hrecord] at husual
    simp only [Bool.or_eq_true, decide_eq_true_eq] at husual
    have hlast := h.record
    rw [hrecord, Option.map_some] at hlast
    obtain ⟨r', hr', heq⟩ := Option.map_eq_some_iff.mp hlast.symm
    obtain ⟨hprice, hfetched⟩ := Prod.mk.inj heq
    have hpos : 0 < reference.pricePerGramRial := hprice ▸ h.positive r' hr'
    rcases husual with ((hoff | hold) | hzero) | hjump
    · exact .inl hoff
    · refine .inr fun r hr => .inl ?_
      obtain rfl : r' = r := Option.some.inj (hr'.symm.trans hr)
      rw [htime, hfetched]
      exact hold
    · exact absurd hpos (not_lt.mpr hzero)
    · refine .inr fun r hr => .inr (.inl ?_)
      obtain rfl : r' = r := Option.some.inj (hr'.symm.trans hr)
      have hpos' : (0 : ℚ) < reference.pricePerGramRial := by exact_mod_cast hpos
      rw [jumpPercent, div_mul_eq_mul_div, div_le_iff₀ hpos'] at hjump
      rw [hprice]
      exact hjump

/-- A jump that was counted three times was confirmed. -/
theorem confirmed_of_count (h : Tracks s) {priceRial : ℤ}
    (hnear : ∀ pending, s.pendingJump = some pending → confirms pending priceRial = true →
      ∀ c, (checks s.history).getLast? = some c → Near c.priceRial priceRial)
    (hcount : JUMP_CONFIRMATIONS ≤ (countJump s priceRial).count) :
    Confirmed s.history priceRial := by
  unfold countJump at hcount
  cases hpending : s.pendingJump with
  | none =>
    rw [hpending] at hcount
    exact absurd hcount (show ¬3 ≤ 1 by decide)
  | some pending =>
    rw [hpending] at hcount
    obtain ⟨hpos, hp⟩ := h.pending pending hpending
    by_cases hconfirms : confirms pending priceRial = true
    · simp only [if_pos hconfirms] at hcount
      cases hp with
      | once hchecks => exact absurd hcount (show ¬3 ≤ 2 by decide)
      | @twice older c₁ c₂ hchecks hnear₁₂ =>
        refine ⟨older, c₁, c₂, hchecks, hnear₁₂, near_of_confirms hpos hconfirms, ?_⟩
        exact hnear _ hpending hconfirms c₂ (by simp [hchecks])
    · simp only [if_neg hconfirms] at hcount
      exact absurd hcount (show ¬3 ≤ 1 by decide)

/-- A price that passes may be accepted. -/
theorem admissible_of_passes (h : Tracks s) {a : AcceptedPrice} (htime : a.fetchedAt = s.now)
    (hnear : ∀ pending, s.pendingJump = some pending → confirms pending a.priceRial = true →
      ∀ c, (checks s.history).getLast? = some c → Near c.priceRial a.priceRial)
    (hpasses : passes s a.priceRial = true) : Admissible s.history a (maxJumpPercent s) := by
  rw [passes, Bool.or_eq_true, decide_eq_true_eq] at hpasses
  rcases hpasses with husual | hcount
  · exact admissible_of_usual h htime husual
  · exact .inr fun _ _ => .inr (.inr (confirmed_of_count h hnear hcount))

/-- A rejected price is counted. -/
theorem Tracks.pending_reject (h : Tracks s) {priceRial : ℤ} (hpos : 0 < priceRial)
    (hpasses : passes s priceRial = false) :
    0 < (countJump s priceRial).price ∧
      Pending (s.history ++ [.rejected priceRial s.now]) (countJump s priceRial) := by
  have hchecks := checks_append s.history (.rejected priceRial s.now)
  have honce : Pending (s.history ++ [.rejected priceRial s.now]) ⟨priceRial, 1⟩ := .once hchecks
  rw [passes, Bool.or_eq_false_iff, decide_eq_false_iff_not] at hpasses
  have hcount := hpasses.2
  unfold countJump at hcount ⊢
  cases hpending : s.pendingJump with
  | none => exact ⟨hpos, honce⟩
  | some pending =>
    rw [hpending] at hcount
    obtain ⟨hpos', hp⟩ := h.pending pending hpending
    by_cases hconfirms : confirms pending priceRial = true
    · simp only [if_pos hconfirms] at hcount ⊢
      refine ⟨hpos', ?_⟩
      have hnear := near_of_confirms hpos' hconfirms
      cases hp with
      | @once older c hbefore =>
        refine @Pending.twice _ older c ⟨priceRial, some s.now⟩ ?_ hnear
        rw [hchecks, hbefore, List.append_assoc]
        rfl
      | twice hbefore _ => exact absurd (show 3 ≤ 3 from le_rfl) hcount
    · simp only [if_neg hconfirms]
      exact ⟨hpos, honce⟩

/-! ## Fetches -/

theorem Tracks.reject (h : Tracks s) {priceRial : ℤ} (hpos : 0 < priceRial)
    (hpasses : passes s priceRial = false) : Tracks (reject s priceRial false) := by
  have hlast : lastAccepted (s.history ++ [.rejected priceRial s.now]) = lastAccepted s.history :=
    lastAccepted_append _ _
  constructor
  · exact chronicle_snoc.mpr ⟨h.chronicle, trivial⟩
  · exact hlast ▸ h.record
  · exact hlast ▸ h.positive
  · intro pending hp
    cases hp
    exact h.pending_reject hpos hpasses
  · intro c t hc ht
    have hchecks := checks_append s.history (.rejected priceRial s.now)
    rw [PriceService.reject, hchecks, checkOf, Option.toList_some, List.getLast?_concat] at hc
    cases hc
    cases ht
    rfl
  · exact hlast ▸ h.cached
  · exact hlast ▸ h.recent

theorem Tracks.dropped (h : Tracks s) (priceRial : ℤ) :
    Tracks { accept s false with history := (accept s false).history ++ [.dropped priceRial] } := by
  have hlast : lastAccepted (s.history ++ [.dropped priceRial]) = lastAccepted s.history :=
    lastAccepted_append _ _
  constructor
  · exact chronicle_snoc.mpr ⟨h.chronicle, trivial⟩
  · exact hlast ▸ h.record
  · exact hlast ▸ h.positive
  · nofun
  · intro c t hc ht
    have hchecks := checks_append s.history (.dropped priceRial)
    simp only [accept, hchecks, checkOf, Option.toList_some, List.getLast?_concat] at hc
    cases hc
    cases ht
  · exact hlast ▸ h.cached
  · exact hlast ▸ h.recent

theorem Tracks.stored (h : Tracks s) (quote : TalaseaQuote) (hpos : 0 < priceRialOf quote)
    (hadmissible : Admissible s.history ⟨priceRialOf quote, s.now, quote.disableBuy, quote.disableSell⟩
      (maxJumpPercent s)) : Tracks (storePrice (accept s false) quote false) := by
  have hlast := lastAccepted_append s.history (.accepted
    ⟨priceRialOf quote, s.now, quote.disableBuy, quote.disableSell⟩ (maxJumpPercent s))
  have hlast' : ∀ a, lastAccepted (storePrice (accept s false) quote false).history = some a →
      a = ⟨priceRialOf quote, s.now, quote.disableBuy, quote.disableSell⟩ := fun a ha =>
    (Option.some.inj (hlast.symm.trans ha)).symm
  constructor
  · exact chronicle_snoc.mpr ⟨h.chronicle, hadmissible⟩
  · exact (congrArg (Option.map fun a => (a.priceRial, a.fetchedAt)) hlast).symm
  · intro a ha
    rw [hlast' a ha]
    exact hpos
  · nofun
  · intro c t hc ht
    have hchecks := checks_append s.history (.accepted
      ⟨priceRialOf quote, s.now, quote.disableBuy, quote.disableSell⟩ (maxJumpPercent s))
    have hc : (checks s.history ++ [(⟨priceRialOf quote, none⟩ : Check)]).getLast? = some c := hchecks ▸ hc
    rw [List.getLast?_concat] at hc
    cases hc
    cases ht
  · intro payload e he
    cases he
    refine ⟨⟨priceRialOf quote, s.now, quote.disableBuy, quote.disableSell⟩, hlast, rfl, rfl, ?_⟩
    exact .inl ⟨rfl, rfl⟩
  · intro a ha _
    rw [hlast' a ha]
    exact ⟨_, rfl, rfl, rfl⟩

theorem Tracks.storeFetched (h : Tracks s) {quote : TalaseaQuote} {faults : FetchFaults}
    (hpos : 0 < priceRialOf quote) (hredis : faults.redisDown = false)
    (hnear : ∀ pending, s.pendingJump = some pending →
      confirms pending (priceRialOf quote) = true →
        ∀ c, (checks s.history).getLast? = some c → Near c.priceRial (priceRialOf quote)) :
    Tracks (storeFetched s quote faults) := by
  have hclosed : Tracks { s with consecutiveFailures := 0, circuitOpenedAt := none } :=
    h.quiet rfl rfl rfl rfl (fun _ hp => hp) le_rfl
  unfold PriceService.storeFetched passesDeviationCheck
  dsimp only
  rw [hredis]
  split
  · exact hclosed
  · cases hpasses : passes { s with consecutiveFailures := 0, circuitOpenedAt := none }
      (priceRialOf quote) with
    | false => exact hclosed.reject hpos hpasses
    | true =>
      rw [if_pos rfl]
      dsimp only
      split
      · exact hclosed.dropped _
      · exact hclosed.stored quote hpos (admissible_of_passes hclosed rfl hnear hpasses)

/-- The circuit breaker keeps what the check looks at. -/
theorem isCircuitOpen_eq {b : Bool} {t : PriceState} (h : isCircuitOpen s = (b, t)) :
    ∃ failures opened, t = { s with consecutiveFailures := failures, circuitOpenedAt := opened } := by
  unfold isCircuitOpen at h
  split at h
  · cases h
    exact ⟨_, _, rfl⟩
  · split at h
    · cases h
      exact ⟨_, _, rfl⟩
    · cases h
      exact ⟨_, _, rfl⟩

theorem Tracks.fetch (h : Tracks s) {response : Option TalaseaQuote} {faults : FetchFaults}
    (hcareful : Careful s (.fetch response faults)) :
    Tracks (fetchAndStorePrice s response faults) := by
  unfold fetchAndStorePrice
  rcases hcircuit : isCircuitOpen s with ⟨b, t⟩
  obtain ⟨failures, opened, rfl⟩ := isCircuitOpen_eq hcircuit
  have ht : Tracks { s with consecutiveFailures := failures, circuitOpenedAt := opened } :=
    h.quiet rfl rfl rfl rfl (fun _ hp => hp) le_rfl
  cases b with
  | true => exact ht
  | false =>
    cases response with
    | none => exact ht.quiet rfl rfl rfl rfl (fun _ hp => hp) le_rfl
    | some quote => exact ht.storeFetched hcareful.1 hcareful.2.1 hcareful.2.2

/-! ## Readers -/

theorem live_of_lt {α : Type} {a : α} {e : ℤ} (h : s.now < e) : live s (some (a, e)) = some a := by
  simp [live, h]

theorem mem_of_live {α : Type} {a : α} {entry : Option (α × ℤ)} (h : live s entry = some a) :
    ∃ e, entry = some (a, e) ∧ s.now < e := by
  obtain ⟨x, hx, rfl⟩ := Option.map_eq_some_iff.mp h
  obtain ⟨hx, hlt⟩ := Option.filter_eq_some_iff.mp hx
  exact ⟨x.2, hx, of_decide_eq_true hlt⟩

/-- The payload built from the row has the price accepted last. -/
theorem payloadOf_fallback (h : Tracks s) {r : MarketPrice} (hr : s.record = some r) :
    ∃ a, lastAccepted s.history = some a ∧ PayloadOf a (fallbackPayload r) := by
  have hlast := h.record
  rw [hr, Option.map_some] at hlast
  obtain ⟨a, ha, heq⟩ := Option.map_eq_some_iff.mp hlast.symm
  obtain ⟨hprice, hfetched⟩ := Prod.mk.inj heq
  exact ⟨a, ha, hprice.symm, hfetched.symm, .inr ⟨rfl, rfl⟩⟩

/-- What a reader leaves behind. -/
theorem read_cases (s : PriceState) (redisDown : Bool) :
    (getCurrentGoldPriceDecimal s redisDown).2 = s ∨
      ∃ r, s.record = some r ∧ live s s.cache = none ∧
        (getCurrentGoldPriceDecimal s redisDown).2 =
          { s with cache := some (fallbackPayload r, s.now + REDIS_TTL) } := by
  unfold getCurrentGoldPriceDecimal
  cases redisDown with
  | true =>
    left
    cases hr : s.record with
    | none => rfl
    | some r =>
      simp only [if_true]
      rw [← hr]
  | false =>
    simp only [Bool.false_eq_true, if_false]
    cases hlive : live s s.cache with
    | some payload => exact .inl rfl
    | none =>
      cases hr : s.record with
      | none => exact .inl rfl
      | some r => exact .inr ⟨r, rfl, rfl, rfl⟩

/-- A reader caches a payload only where the one of the fetch has expired. -/
theorem Tracks.read (h : Tracks s) (redisDown : Bool) :
    Tracks (getCurrentGoldPriceDecimal s redisDown).2 := by
  rcases read_cases s redisDown with heq | ⟨r, hr, hlive, heq⟩
  · rw [heq]
    exact h
  · rw [heq]
    obtain ⟨a, ha, hpayload⟩ := payloadOf_fallback h hr
    refine ⟨h.chronicle, h.record, h.positive, h.pending, h.suspect, ?_, ?_⟩
    · intro payload e he
      cases he
      exact ⟨a, ha, hpayload⟩
    · intro a' ha' hlt
      obtain ⟨payload, hcache, -⟩ := h.recent a' ha' hlt
      have hlt : s.now < a'.fetchedAt + REDIS_TTL := hlt
      rw [hcache, live_of_lt hlt] at hlive
      cases hlive

/-- A response has the price accepted last, and its flags as well if no payload without flags
can have taken their place. -/
theorem response_quote (h : Tracks s) {res : CachedPricePayload}
    (hres : getGoldPriceResponse s = some res)
    (hflags : ∀ a, lastAccepted s.history = some a →
      (a.disableBuy = false ∧ a.disableSell = false) ∨ s.now < a.fetchedAt + REDIS_TTL) :
    ∃ a, lastAccepted s.history = some a ∧ res.pricePerGramRial = a.priceRial ∧
      res.fetchedAt = a.fetchedAt ∧ res.disableBuy = a.disableBuy ∧
      res.disableSell = a.disableSell := by
  have hpayload : ∃ a, lastAccepted s.history = some a ∧ PayloadOf a res ∧
      (s.now < a.fetchedAt + REDIS_TTL →
        res.disableBuy = a.disableBuy ∧ res.disableSell = a.disableSell) := by
    rcases Option.or_eq_some_iff.mp hres with hlive | ⟨hlive, hrecord⟩
    · obtain ⟨e, hcache, -⟩ := mem_of_live hlive
      obtain ⟨a, ha, hpayload⟩ := h.cached res e hcache
      refine ⟨a, ha, hpayload, fun hlt => ?_⟩
      obtain ⟨payload, hcache', hsame⟩ := h.recent a ha hlt
      rw [hcache] at hcache'
      cases hcache'
      exact hsame
    · obtain ⟨r, hr, rfl⟩ := Option.map_eq_some_iff.mp hrecord
      obtain ⟨a, ha, hpayload⟩ := payloadOf_fallback h hr
      refine ⟨a, ha, hpayload, fun hlt => ?_⟩
      obtain ⟨payload, hcache, -⟩ := h.recent a ha hlt
      rw [hcache, live_of_lt hlt] at hlive
      cases hlive
  obtain ⟨a, ha, ⟨hprice, hfetched, hsame⟩, hrecent⟩ := hpayload
  refine ⟨a, ha, hprice, hfetched, ?_⟩
  rcases hflags a ha with ⟨hbuy, hsell⟩ | hlt
  · rw [hbuy, hsell] at hsame ⊢
    exact hsame.elim id id
  · exact hrecent hlt

theorem Tracks.quote (h : Tracks s) {redisDown : Bool} {quote : GoldQuote}
    (hcareful : Careful s (.quote redisDown))
    (hquote : getTradableGoldQuote s redisDown = some quote) :
    Tracks { s with history := s.history ++ [.offered quote] } := by
  have hlast : lastAccepted (s.history ++ [.offered quote]) = lastAccepted s.history :=
    lastAccepted_append _ _
  have hchecks : checks (s.history ++ [.offered quote]) = checks s.history :=
    (checks_append _ _).trans (List.append_nil _)
  obtain ⟨hrunning, hflags⟩ := hcareful
  have hfine : Fine s.history (.offered quote) := by
    unfold getTradableGoldQuote at hquote
    split at hquote
    · cases hquote
    · rename_i hgo
      obtain ⟨res, hres, rfl⟩ := Option.map_eq_some_iff.mp hquote
      refine ⟨fun c hc => ?_, ?_⟩
      · cases ht : c.rejectedAt with
        | none => rfl
        | some t =>
          have hsuspect := h.suspect c t hc ht
          rw [hsuspect, Option.map_some, live_of_lt (hrunning c t hc ht)] at hgo
          simp at hgo
      · obtain ⟨a, ha, hprice, hfetched, hbuy, hsell⟩ := response_quote h hres hflags
        refine ⟨a, ha, ?_⟩
        rw [hprice, hfetched, hbuy, hsell]
        rfl
  refine ⟨chronicle_snoc.mpr ⟨h.chronicle, hfine⟩, ?_, ?_, ?_, ?_, ?_, ?_⟩
  · exact hlast ▸ h.record
  · exact hlast ▸ h.positive
  · intro pending hp
    obtain ⟨hpos, hpending⟩ := h.pending pending hp
    exact ⟨hpos, hpending.of_checks_eq hchecks⟩
  · exact hchecks ▸ h.suspect
  · exact hlast ▸ h.cached
  · exact hlast ▸ h.recent

/-! ## Runs -/

/-- One step. -/
theorem Tracks.step (h : Tracks s) {e : PriceEvent} (hcareful : Careful s e) (hstep : Step s e s') :
    Tracks s' := by
  cases hstep
  cases e with
  | fetch response faults => exact h.fetch hcareful
  | read redisDown => exact h.read redisDown
  | quote redisDown =>
    cases hquote : getTradableGoldQuote s redisDown with
    | none => simpa only [next, hquote] using h
    | some quote => simpa only [next, hquote] using h.quote hcareful hquote
  | wait ms => exact h.quiet rfl rfl rfl rfl (fun _ hp => hp) (by simp [next])
  | configure maxJump => exact h.quiet rfl rfl rfl rfl (fun _ hp => hp) le_rfl
  | restart => exact h.quiet rfl rfl rfl rfl nofun le_rfl

/-- The state before the first fetch. -/
def noPrice : PriceState where
  record := none
  maxJump := none
  cache := none
  suspect := none
  pendingJump := none
  consecutiveFailures := 0
  circuitOpenedAt := none
  now := 0
  history := []

/-- A fetch of a price in thousands of tomans. -/
def fetched (price : ℕ) (disableBuy : Bool) (hpos : 0 < price := by decide) : PriceEvent :=
  .fetch (some ⟨price, 0, disableBuy, false, Nat.cast_pos.mpr hpos⟩) {}

/-- `Careful` as a test. -/
def careful (s : PriceState) : PriceEvent → Bool
  | .fetch (some quote) faults =>
    decide (0 < priceRialOf quote) && (!faults.redisDown && s.pendingJump.all fun pending =>
      !confirms pending (priceRialOf quote) ||
        (checks s.history).getLast?.all fun c => decide (Near c.priceRial (priceRialOf quote)))
  | .quote _ =>
    (checks s.history).getLast?.all
        (fun c => c.rejectedAt.all fun t => decide (s.now < t + SUSPECT_FLAG_TTL)) &&
      (lastAccepted s.history).all fun a =>
        (!a.disableBuy && !a.disableSell) || decide (s.now < a.fetchedAt + REDIS_TTL)
  | _ => true

theorem careful_sound {e : PriceEvent} (h : careful s e = true) : Careful s e := by
  cases e with
  | fetch response faults =>
    cases response with
    | none => trivial
    | some quote =>
      simp only [careful, Bool.and_eq_true, decide_eq_true_eq, Bool.not_eq_true',
        Option.all_eq_true, Bool.or_eq_true] at h
      refine ⟨h.1, h.2.1, fun pending hp hconfirms c hc => ?_⟩
      rcases h.2.2 pending hp with hno | hnear
      · rw [hconfirms] at hno
        cases hno
      · exact hnear c hc
  | quote redisDown =>
    simp only [careful, Bool.and_eq_true, decide_eq_true_eq, Bool.not_eq_true',
      Option.all_eq_true, Bool.or_eq_true] at h
    exact ⟨fun c t hc ht => h.1 c hc t ht, h.2⟩
  | read redisDown => trivial
  | wait ms => trivial
  | configure maxJump => trivial
  | restart => trivial

/-- The state after the events, as long as they pass the test. -/
def played (test : PriceState → PriceEvent → Bool) (s : PriceState) :
    List PriceEvent → Option PriceState
  | [] => some s
  | e :: es => if test s e then played test (next s e) es else none

theorem runs_of_played {test : PriceState → PriceEvent → Bool} {ok : PriceState → PriceEvent → Prop}
    (htest : ∀ s e, test s e = true → ok s e) {es : List PriceEvent}
    (h : played test s es = some s') : Runs Step ok s s' := by
  induction es generalizing s with
  | nil =>
    cases h
    exact Runs.refl
  | cons e es ih =>
    rw [played] at h
    split at h
    · rename_i htrue
      exact (Runs.single (htest s e htrue) rfl).trans (ih h)
    · cases h

/-- The third price is 2 percent below the second one. -/
def drifting : List PriceEvent :=
  [fetched 26257 false, fetched 28358 false, fetched 28640 false, fetched 28080 false]

/-- The source fails for two minutes after a price was rejected. -/
def outlasting : List PriceEvent :=
  [fetched 26257 false, fetched 28358 false, .wait 120000, .quote false]

/-- The source has suspended buying, and the cached payload has expired. -/
def forgetting : List PriceEvent := [fetched 26257 true, .wait 35000, .quote false]

end PriceService

end ArkanGold
