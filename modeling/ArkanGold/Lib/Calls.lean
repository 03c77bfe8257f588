import ArkanGold.Lib.Block
import ArkanGold.Lib.Runs

/-!
# Calls of a service

A call runs transactions one after the other and decides between them: a `Call` is a
transaction together with what follows on either outcome. What a call has read in one
transaction may be out of date in the next.

- `Call.exec`: the call run to completion, with the rules `runs_*`.
- `Pool`: any number of calls in progress. In one step a call runs its next
  transaction, as a whole; a new call starts; or the surroundings change the state.
- `Call.Keeps` and `Pool.invariant`: what every transaction of every call keeps holds
  in every state that a pool reaches.
-/

namespace ArkanGold

/-- A call: finished, or a transaction and what follows. -/
inductive Call (ε R L σ α : Type) : Type 1 where
  | done (r : Except ε α)
  | tx {β : Type} (b : Block ε R L σ β) (k : Except ε β → Call ε R L σ α)

namespace Call

variable {ε R L σ α β : Type}

/-- Run `c`, then what its value selects; an exception ends both. -/
def bind : Call ε R L σ α → (α → Call ε R L σ β) → Call ε R L σ β
  | done (.ok a), f => f a
  | done (.error e), _ => done (.error e)
  | tx b k, f => tx b fun r => (k r).bind f

instance : Monad (Call ε R L σ) where
  pure a := done (.ok a)
  bind := bind

theorem bind_assoc {γ : Type} (c : Call ε R L σ α) (f : α → Call ε R L σ β)
    (g : β → Call ε R L σ γ) : (c >>= f) >>= g = c >>= fun a => f a >>= g := by
  show (c.bind f).bind g = c.bind fun a => (f a).bind g
  induction c with
  | done r =>
    cases r with
    | ok a => rfl
    | error e => rfl
  | tx b k ih => exact congrArg (tx b) (funext fun r => ih r)

/-- A transaction, with its exceptions translated; a single statement outside any is a
transaction as well. -/
def transaction (b : Block ε R L σ α) (translate : ε → ε := id) : Call ε R L σ α :=
  tx b fun r => done (r.mapError translate)

/-- Throw an exception. -/
def fail (e : ε) : Call ε R L σ α := done (.error e)

/-- Throw unless `c` holds. -/
def check (c : Bool) (e : ε) : Call ε R L σ Unit := if c then pure () else fail e

/-- The value of an optional result, or the exception `e`. -/
def getOrFail (o : Option α) (e : ε) : Call ε R L σ α :=
  match o with
  | some a => pure a
  | none => fail e

/-- The value of a pure computation that may throw. -/
def ofExcept (r : Except ε α) : Call ε R L σ α := done r

/-- Run a call for every element of a list. -/
def forEach (f : α → Call ε R L σ Unit) : List α → Call ε R L σ Unit
  | [] => done (.ok ())
  | a :: as => (f a).bind fun _ => forEach f as

/-- The outcome of a call as a value. -/
def attempt : Call ε R L σ α → Call ε R L σ (Except ε α)
  | done r => done (.ok r)
  | tx b k => tx b fun r => (k r).attempt

/-! ## Running to completion -/

section Alone

variable [Supply σ] [History L σ]

/-- The call without anything happening in between. -/
def exec : Call ε R L σ α → σ → Except ε α × σ
  | done r, s => (r, s)
  | tx b k, s => (k (b.exec.atomic s).1).exec (b.exec.atomic s).2

/-- The call started in `s`, alone, ends with `r` in the state `s'`. -/
def Ends (c : Call ε R L σ α) (s : σ) (r : Except ε α) (s' : σ) : Prop := c.exec s = (r, s')

variable {s s' : σ}

theorem ends_pure {a : α} {r : Except ε α} :
    (pure a : Call ε R L σ α).Ends s r s' ↔ r = .ok a ∧ s' = s := by
  show ((.ok a, s) : Except ε α × σ) = (r, s') ↔ _
  rw [Prod.mk.injEq, eq_comm, eq_comm (a := s)]

theorem ends_fail {e : ε} {r : Except ε α} :
    (fail e : Call ε R L σ α).Ends s r s' ↔ r = .error e ∧ s' = s := by
  show ((.error e, s) : Except ε α × σ) = (r, s') ↔ _
  rw [Prod.mk.injEq, eq_comm, eq_comm (a := s)]

theorem ends_check {c : Bool} {e : ε} {r : Except ε Unit} :
    (check c e : Call ε R L σ Unit).Ends s r s' ↔
      r = (if c then .ok () else .error e) ∧ s' = s := by
  cases c with
  | false => exact ends_fail
  | true => exact ends_pure

theorem ends_getOrFail {o : Option α} {e : ε} {r : Except ε α} :
    (getOrFail o e : Call ε R L σ α).Ends s r s' ↔
      r = (match o with | some a => .ok a | none => .error e) ∧ s' = s := by
  cases o with
  | none => exact ends_fail
  | some a => exact ends_pure

/-- A transaction commits, or throws and leaves the state alone. -/
theorem ends_transaction {b : Block ε R L σ α} {f : ε → ε} {r : Except ε α} :
    (transaction b f).Ends s r s' ↔
      (∃ a, r = .ok a ∧ b.Ok s a s') ∨
        (∃ e, r = .error (f e) ∧ s' = s ∧ (b.exec s).1 = .error e) := by
  show ((b.exec.atomic s).1.mapError f, (b.exec.atomic s).2) = (r, s') ↔ _
  simp only [Tx.atomic, Block.Ok, Tx.Ok, Tx.run]
  rcases b.exec s with ⟨x, t⟩
  cases x with
  | ok a =>
    constructor
    · intro h
      cases h
      exact .inl ⟨a, rfl, rfl⟩
    · rintro (⟨a', rfl, h⟩ | ⟨e, -, -, h⟩)
      · cases h
        rfl
      · cases h
  | error e =>
    constructor
    · intro h
      cases h
      exact .inr ⟨e, rfl, rfl, rfl⟩
    · rintro (⟨a', rfl, h⟩ | ⟨e', rfl, rfl, h⟩)
      · cases h
      · cases h
        rfl

/-- The rule for sequencing: what follows runs where the first part ended, unless that
threw. -/
theorem ends_bind {c : Call ε R L σ α} {f : α → Call ε R L σ β} {r : Except ε β} :
    (c >>= f).Ends s r s' ↔
      (∃ a t, c.Ends s (.ok a) t ∧ (f a).Ends t r s') ∨
        (∃ e, c.Ends s (.error e) s' ∧ r = .error e) := by
  show (c.bind f).Ends s r s' ↔ _
  induction c generalizing s with
  | done x =>
    cases x with
    | ok a =>
      constructor
      · exact fun h => .inl ⟨a, s, rfl, h⟩
      · rintro (⟨a', t, h, h'⟩ | ⟨e, h, -⟩)
        · cases h
          exact h'
        · cases h
    | error e =>
      constructor
      · intro h
        cases h
        exact .inr ⟨e, rfl, rfl⟩
      · rintro (⟨a', t, h, -⟩ | ⟨e', h, rfl⟩)
        · cases h
        · cases h
          rfl
  | tx b k ih => exact ih (b.exec.atomic s).1 (s := (b.exec.atomic s).2)

/-- The outcome of an attempt is the outcome of the call. -/
theorem ends_attempt {c : Call ε R L σ α} {r : Except ε (Except ε α)} :
    c.attempt.Ends s r s' ↔ ∃ x, r = .ok x ∧ c.Ends s x s' := by
  induction c generalizing s with
  | done x =>
    constructor
    · intro h
      cases h
      exact ⟨x, rfl, rfl⟩
    · rintro ⟨y, rfl, h⟩
      cases h
      rfl
  | tx b k ih => exact ih (b.exec.atomic s).1 (s := (b.exec.atomic s).2)

/-! ## Calls that return -/

/-- The call started in `s`, alone, returns `a` in the state `s'`. -/
def Returns (c : Call ε R L σ α) (s : σ) (a : α) (s' : σ) : Prop := c.Ends s (.ok a) s'

@[simp] theorem returns_pure {a b : α} :
    (pure a : Call ε R L σ α).Returns s b s' ↔ b = a ∧ s' = s := by
  rw [Returns, ends_pure, Except.ok.injEq]

@[simp] theorem returns_fail {e : ε} {a : α} :
    (fail e : Call ε R L σ α).Returns s a s' ↔ False := by
  rw [Returns, ends_fail]
  simp

@[simp] theorem returns_bind {c : Call ε R L σ α} {f : α → Call ε R L σ β} {b : β} :
    (c >>= f).Returns s b s' ↔ ∃ a t, c.Returns s a t ∧ (f a).Returns t b s' := by
  rw [Returns, ends_bind]
  constructor
  · rintro (h | ⟨e, -, h⟩)
    · exact h
    · cases h
  · exact .inl

@[simp] theorem returns_transaction {b : Block ε R L σ α} {f : ε → ε} {a : α} :
    (transaction b f).Returns s a s' ↔ b.Ok s a s' := by
  rw [Returns, ends_transaction]
  constructor
  · rintro (⟨a', h, hok⟩ | ⟨e, h, -⟩)
    · cases h
      exact hok
    · cases h
  · exact fun h => .inl ⟨a, rfl, h⟩

@[simp] theorem returns_check {c : Bool} {e : ε} {u : Unit} :
    (check c e : Call ε R L σ Unit).Returns s u s' ↔ c = true ∧ s' = s := by
  cases c with
  | false => simp [check]
  | true => simp [check]

@[simp] theorem returns_getOrFail {o : Option α} {e : ε} {a : α} :
    (getOrFail o e : Call ε R L σ α).Returns s a s' ↔ o = some a ∧ s' = s := by
  cases o with
  | none => simp [getOrFail]
  | some b => simp [getOrFail, eq_comm (a := a)]

@[simp] theorem returns_ofExcept {r : Except ε α} {a : α} :
    (ofExcept r : Call ε R L σ α).Returns s a s' ↔ r = .ok a ∧ s' = s := by
  show ((r, s) : Except ε α × σ) = (.ok a, s') ↔ _
  rw [Prod.mk.injEq, eq_comm (a := s)]

/-- A call whose outcome was computed. -/
theorem returns_of_eq {c : Call ε R L σ α} {a : α} (h : (c.exec s).1 = .ok a) :
    c.Returns s a (c.exec s).2 := Prod.ext h rfl

/-- A call that was computed to return does so. -/
theorem exists_returns {c : Call ε R L σ α} (h : (c.exec s).1.isOk = true) :
    ∃ a, c.Returns s a (c.exec s).2 := by
  cases hr : (c.exec s).1 with
  | error e => simp [hr, Except.isOk, Except.toBool] at h
  | ok a => exact ⟨a, Prod.ext hr rfl⟩

/-! ## Calls whose transactions keep an invariant -/

/-- Every transaction the call can come to keeps `I`, as long as the marks it passes meet
the condition. -/
def Keeps (I : σ → Prop) (cond : L → σ → Prop) : Call ε R L σ α → Prop
  | done _ => True
  | tx b k => ∀ s, I s → (b.Meets cond s → I (b.exec.atomic s).2) ∧
      (k (b.exec.atomic s).1).Keeps I cond

variable {I : σ → Prop} {cond : L → σ → Prop}

theorem keeps_pure (a : α) : (pure a : Call ε R L σ α).Keeps I cond := trivial

theorem keeps_fail (e : ε) : (fail e : Call ε R L σ α).Keeps I cond := trivial

theorem keeps_check (c : Bool) (e : ε) : (check c e : Call ε R L σ Unit).Keeps I cond := by
  cases c <;> trivial

theorem keeps_getOrFail (o : Option α) (e : ε) :
    (getOrFail o e : Call ε R L σ α).Keeps I cond := by
  cases o <;> trivial

theorem keeps_ofExcept (r : Except ε α) : (ofExcept r : Call ε R L σ α).Keeps I cond := trivial

theorem keeps_bind {c : Call ε R L σ α} {f : α → Call ε R L σ β} (hc : c.Keeps I cond)
    (hf : ∀ a, (f a).Keeps I cond) : (c >>= f).Keeps I cond := by
  show (c.bind f).Keeps I cond
  induction c with
  | done r =>
    cases r with
    | ok a => exact hf a
    | error e => trivial
  | tx b k ih => exact fun s hs => ⟨(hc s hs).1, ih _ (hc s hs).2⟩

/-- A transaction keeps what it keeps when it succeeds. -/
theorem keeps_transaction {b : Block ε R L σ α} {g : ε → ε}
    (h : ∀ s a s', I s → b.Meets cond s → b.Ok s a s' → I s') :
    (transaction b g).Keeps I cond := by
  intro s hs
  refine ⟨fun hmeets => ?_, trivial⟩
  have hok := fun a s' => h s a s' hs hmeets
  simp only [Block.Ok, Tx.Ok, Tx.run] at hok
  simp only [Tx.atomic]
  rcases hrun : b.exec s with ⟨x, t⟩
  cases x with
  | ok a => exact hok a t hrun
  | error e => exact hs

theorem keeps_readOnly {b : Block ε R L σ α} {g : ε → ε}
    (h : ∀ s a s', b.Ok s a s' → s' = s) : (transaction b g).Keeps I cond :=
  keeps_transaction fun s a s' hs _ hok => h s a s' hok ▸ hs

/-- A call that binds the result of a transaction: what follows may rely on what the
transaction has seen in some earlier state. -/
theorem keeps_transaction_bind {b : Block ε R L σ α} {g : ε → ε} {f : α → Call ε R L σ β}
    (h : ∀ s a s', I s → b.Meets cond s → b.Ok s a s' → I s')
    (hf : ∀ s a s', I s → b.Ok s a s' → (f a).Keeps I cond) :
    (transaction b g >>= f).Keeps I cond := by
  intro s hs
  refine ⟨(keeps_transaction (g := g) h s hs).1, ?_⟩
  have hok := fun a s' => hf s a s' hs
  simp only [Block.Ok, Tx.Ok, Tx.run] at hok
  simp only [Tx.atomic]
  rcases hrun : b.exec s with ⟨x, t⟩
  cases x with
  | ok a => exact hok a t hrun
  | error e => exact keeps_fail (g e)

/-- A call that handles the failure of a transaction. -/
theorem keeps_attempt_bind {b : Block ε R L σ α} {g : ε → ε} {f : Except ε α → Call ε R L σ β}
    (h : ∀ s a s', I s → b.Meets cond s → b.Ok s a s' → I s')
    (hok : ∀ s a s', I s → b.Ok s a s' → (f (.ok a)).Keeps I cond)
    (herror : ∀ e, (f (.error e)).Keeps I cond) :
    ((transaction b g).attempt >>= f).Keeps I cond := by
  intro s hs
  refine ⟨(keeps_transaction (g := g) h s hs).1, ?_⟩
  have hok := fun a s' => hok s a s' hs
  simp only [Block.Ok, Tx.Ok, Tx.run] at hok
  simp only [Tx.atomic]
  rcases hrun : b.exec s with ⟨x, t⟩
  cases x with
  | ok a => exact hok a t hrun
  | error e => exact herror (g e)

theorem keeps_getOrFail_bind {o : Option α} {e : ε} {f : α → Call ε R L σ β}
    (hf : ∀ a, o = some a → (f a).Keeps I cond) : (getOrFail o e >>= f).Keeps I cond := by
  cases o with
  | none => exact keeps_fail e
  | some a => exact hf a rfl

theorem keeps_check_bind {c : Bool} {e : ε} {f : Unit → Call ε R L σ β}
    (hf : c = true → (f ()).Keeps I cond) : (check c e >>= f).Keeps I cond := by
  cases c with
  | false => exact keeps_fail e
  | true => exact hf rfl

end Alone

end Call

/-! ## Calls in progress -/

/-- The state of the database and the calls that have started, each with its request. -/
structure Pool (Q ε R L σ α : Type) : Type 1 where
  db : σ
  calls : List (Q × Call ε R L σ α)

/-- What can happen to a pool. -/
inductive PoolEvent (Q σ : Type) where
  /-- a request arrives -/
  | start (q : Q)
  /-- a call runs its next transaction -/
  | advance (i : ℕ)
  /-- the surroundings change the state -/
  | outside (s : σ)

namespace Pool

variable {Q ε R L σ α : Type} [Supply σ] [History L σ]

/-- The pool after an event; `serve` is the service. -/
def next (serve : Q → Call ε R L σ α) (p : Pool Q ε R L σ α) :
    PoolEvent Q σ → Option (Pool Q ε R L σ α)
  | .start q => some { p with calls := p.calls ++ [(q, serve q)] }
  | .advance i =>
    match p.calls[i]? with
    | some (q, .tx b k) =>
      some
        { db := (b.exec.atomic p.db).2
          calls := p.calls.set i (q, k (b.exec.atomic p.db).1) }
    | _ => none
  | .outside s => some { p with db := s }

/-- One step: an event, with the surroundings restricted to `env`. -/
def Step (serve : Q → Call ε R L σ α) (env : σ → σ → Prop) (p : Pool Q ε R L σ α)
    (e : PoolEvent Q σ) (p' : Pool Q ε R L σ α) : Prop :=
  p.next serve e = some p' ∧ ∀ s, e = .outside s → env p.db s

/-- The marks that the transaction run in this step passes meet the condition, and so
does a change of the surroundings. -/
def Allowed (cond : L → σ → Prop) (quiet : σ → σ → Prop) (p : Pool Q ε R L σ α) :
    PoolEvent Q σ → Prop
  | .start _ => True
  | .advance i =>
    match p.calls[i]? with
    | some (_, .tx b _) => b.Meets cond p.db
    | _ => True
  | .outside s => quiet p.db s

/-- Without conditions every event is allowed. -/
theorem allowed_always (p : Pool Q ε R L σ α) (e : PoolEvent Q σ) :
    p.Allowed (fun _ _ => True) (fun _ _ => True) e := by
  unfold Allowed
  split
  · trivial
  · split
    · exact Block.meets_always _ _
    · trivial
  · trivial

variable {serve : Q → Call ε R L σ α} {env quiet : σ → σ → Prop} {cond : L → σ → Prop}
  {I : σ → Prop}

/-- What every transaction and the surroundings keep holds in every state reached. -/
theorem invariant {p p' : Pool Q ε R L σ α} (hserve : ∀ q, (serve q).Keeps I cond)
    (henv : ∀ s s', I s → env s s' → quiet s s' → I s') (hp : I p.db)
    (hcalls : ∀ c ∈ p.calls, c.2.Keeps I cond)
    (hrun : Runs (Step serve env) (Allowed cond quiet) p p') : I p'.db := by
  have hinv : I p'.db ∧ ∀ c ∈ p'.calls, c.2.Keeps I cond := by
    refine hrun.invariant (I := fun p => I p.db ∧ ∀ c ∈ p.calls, c.2.Keeps I cond)
      ⟨hp, hcalls⟩ ?_
    rintro p e p' ⟨hI, hk⟩ hallowed ⟨hnext, hout⟩
    cases e with
    | start q =>
      cases hnext
      refine ⟨hI, fun c hc => ?_⟩
      rcases List.mem_append.mp hc with hc | hc
      · exact hk c hc
      · rw [List.mem_singleton] at hc
        subst hc
        exact hserve q
    | outside s =>
      cases hnext
      exact ⟨henv _ _ hI (hout s rfl) hallowed, hk⟩
    | advance i =>
      simp only [next] at hnext
      simp only [Allowed] at hallowed
      cases hi : p.calls[i]? with
      | none =>
        rw [hi] at hnext
        cases hnext
      | some qc =>
        obtain ⟨q, c⟩ := qc
        cases c with
        | done r =>
          rw [hi] at hnext
          cases hnext
        | tx b k =>
          rw [hi] at hnext hallowed
          cases hnext
          have hkeep := hk _ (List.mem_of_getElem? hi) p.db hI
          refine ⟨hkeep.1 hallowed, fun c hc => ?_⟩
          rcases List.mem_or_eq_of_mem_set hc with hc | rfl
          · exact hk c hc
          · exact hkeep.2
  exact hinv.1

/-- Play a list of events. -/
def play (serve : Q → Call ε R L σ α) (p : Pool Q ε R L σ α) :
    List (PoolEvent Q σ) → Option (Pool Q ε R L σ α)
  | [] => some p
  | e :: es => (p.next serve e).bind fun p' => p'.play serve es

/-- The transaction that runs with this event passes marks that meet a condition which can be
computed, and the surroundings take no part. -/
def allows (test : L → σ → Bool) (p : Pool Q ε R L σ α) : PoolEvent Q σ → Bool
  | .start _ => true
  | .advance i =>
    match p.calls[i]? with
    | some (_, .tx b _) => b.meets test p.db
    | _ => true
  | .outside _ => false

theorem allowed_of_allows {test : L → σ → Bool} (htest : ∀ l s, test l s = true → cond l s)
    {p : Pool Q ε R L σ α} {e : PoolEvent Q σ} (h : p.allows test e = true) :
    p.Allowed cond quiet e ∧ ∀ s, e ≠ .outside s := by
  cases e with
  | start q => exact ⟨trivial, nofun⟩
  | outside s => cases h
  | advance i =>
    refine ⟨?_, nofun⟩
    simp only [allows] at h
    simp only [Allowed]
    split
    · rename_i hi
      rw [hi] at h
      exact Block.meets_of_test htest h
    · trivial

/-- Play a list of events as long as the marks passed meet the condition. -/
def playAllowed (serve : Q → Call ε R L σ α) (test : L → σ → Bool) (p : Pool Q ε R L σ α) :
    List (PoolEvent Q σ) → Option (Pool Q ε R L σ α)
  | [] => some p
  | e :: es =>
    if p.allows test e then (p.next serve e).bind fun p' => p'.playAllowed serve test es else none

/-- What was played is a run. -/
theorem runs_of_playAllowed {test : L → σ → Bool} (htest : ∀ l s, test l s = true → cond l s)
    {es : List (PoolEvent Q σ)} {p p' : Pool Q ε R L σ α}
    (h : p.playAllowed serve test es = some p') : Runs (Step serve env) (Allowed cond quiet) p p' := by
  induction es generalizing p with
  | nil =>
    cases h
    exact Runs.refl
  | cons e es ih =>
    rw [playAllowed] at h
    split at h
    · rename_i hallows
      obtain ⟨v, hv, hrest⟩ := Option.bind_eq_some_iff.mp h
      obtain ⟨hallowed, hinside⟩ : p.Allowed cond quiet e ∧ ∀ s, e ≠ .outside s :=
        allowed_of_allows htest hallows
      have hstep : Step serve env p e v := ⟨hv, fun s hs => absurd hs (hinside s)⟩
      exact (Runs.single hallowed hstep).trans (ih hrest)
    · cases h

end Pool

end ArkanGold
