import Mathlib

/-!
# Transactional computations

A statement of a database transaction either returns a value or throws, and it
may have written to the state before it throws. `Tx ε σ α` keeps both facts: the
state reached so far survives an exception, and only `Tx.atomic` (the
transaction block of the client library) takes the writes back.

- `Tx.Ok x s a s'`: `x` started in `s` returns `a` and leaves `s'`. The
  `ok_*` lemmas invert success of a block statement by statement, so that no
  later proof unfolds the monad.
- `Tx.ReadOnly`, `Tx.Total` and `Tx.FailsClean`: a computation that checks
  everything before its first write leaves the state alone when it throws, with
  or without a surrounding transaction.
- `Tx.zoom`: run a computation on one component of a larger state.
-/

namespace ArkanGold

/-- A computation over the state `σ` that may throw `ε`; the state at the moment
of the exception is kept. -/
def Tx (ε σ α : Type) : Type := σ → Except ε α × σ

namespace Tx

variable {ε σ τ α β : Type}

/-- Run a computation from a state. -/
def run (x : Tx ε σ α) (s : σ) : Except ε α × σ := x s

instance : Monad (Tx ε σ) where
  pure a := fun s => (.ok a, s)
  bind x f := fun s =>
    match x s with
    | (.ok a, s') => f a s'
    | (.error e, s') => (.error e, s')

/-- Throw an exception. -/
def fail (e : ε) : Tx ε σ α := fun s => (.error e, s)

/-- The current state. -/
def get : Tx ε σ σ := fun s => (.ok s, s)

/-- Overwrite the state. -/
def modify (f : σ → σ) : Tx ε σ Unit := fun s => (.ok (), f s)

/-- Throw `e` unless `c` holds. -/
def check (c : Bool) (e : ε) : Tx ε σ Unit := if c then pure () else fail e

/-- The value of an optional result, or the exception `e`. -/
def getOrFail (o : Option α) (e : ε) : Tx ε σ α :=
  match o with
  | some a => pure a
  | none => fail e

/-- The value of a pure computation that may throw. -/
def ofExcept (r : Except ε α) : Tx ε σ α := fun s => (r, s)

/-- A transaction block: on an exception the state is the one before the block. -/
def atomic (x : Tx ε σ α) : Tx ε σ α := fun s =>
  match x s with
  | (.ok a, s') => (.ok a, s')
  | (.error e, _) => (.error e, s)

/-- Run a computation on the component `get` of the state. -/
def zoom (get : σ → τ) (set : τ → σ → σ) (x : Tx ε τ α) : Tx ε σ α := fun s =>
  match x (get s) with
  | (r, t) => (r, set t s)

/-- `x` started in `s` returns `a` in the state `s'`. -/
def Ok (x : Tx ε σ α) (s : σ) (a : α) (s' : σ) : Prop := x.run s = (.ok a, s')

/-- `x` started in `s` throws `e` in the state `s'`. -/
def Throws (x : Tx ε σ α) (s : σ) (e : ε) (s' : σ) : Prop := x.run s = (.error e, s')

/-! ## Inverting success -/

@[simp] theorem ok_pure {a b : α} {s s' : σ} :
    (pure a : Tx ε σ α).Ok s b s' ↔ b = a ∧ s' = s := by
  show ((Except.ok a : Except ε α), s) = (.ok b, s') ↔ _
  rw [Prod.mk.injEq, Except.ok.injEq, eq_comm (a := a), eq_comm (a := s)]

@[simp] theorem ok_bind {x : Tx ε σ α} {f : α → Tx ε σ β} {s s'' : σ} {b : β} :
    (x >>= f).Ok s b s'' ↔ ∃ a s', x.Ok s a s' ∧ (f a).Ok s' b s'' := by
  show (match x s with
    | (.ok a, s') => f a s'
    | (.error e, s') => (.error e, s')) = (.ok b, s'') ↔ _
  simp only [Ok, run]
  rcases x s with ⟨r, t⟩
  cases r with
  | ok a => simp
  | error e => simp

@[simp] theorem ok_fail {e : ε} {a : α} {s s' : σ} :
    (fail e : Tx ε σ α).Ok s a s' ↔ False := by
  simp [Ok, run, fail]

@[simp] theorem ok_get {s t s' : σ} : (get : Tx ε σ σ).Ok s t s' ↔ t = s ∧ s' = s := by
  simp only [Ok, run, get, Prod.mk.injEq, Except.ok.injEq, eq_comm]

@[simp] theorem ok_modify {f : σ → σ} {s s' : σ} {u : Unit} :
    (modify f : Tx ε σ Unit).Ok s u s' ↔ s' = f s := by
  simp only [Ok, run, modify, Prod.mk.injEq, true_and]
  exact eq_comm

@[simp] theorem ok_check {c : Bool} {e : ε} {s s' : σ} {u : Unit} :
    (check c e : Tx ε σ Unit).Ok s u s' ↔ c = true ∧ s' = s := by
  cases c with
  | false => simp [check]
  | true => simp [check]

@[simp] theorem ok_getOrFail {o : Option α} {e : ε} {a : α} {s s' : σ} :
    (getOrFail o e : Tx ε σ α).Ok s a s' ↔ o = some a ∧ s' = s := by
  cases o with
  | none => simp [getOrFail]
  | some b => simp [getOrFail, eq_comm (a := a)]

@[simp] theorem ok_ofExcept {r : Except ε α} {a : α} {s s' : σ} :
    (ofExcept r : Tx ε σ α).Ok s a s' ↔ r = .ok a ∧ s' = s := by
  simp only [Ok, run, ofExcept, Prod.mk.injEq, eq_comm (a := s)]

@[simp] theorem ok_atomic {x : Tx ε σ α} {s s' : σ} {a : α} :
    (atomic x).Ok s a s' ↔ x.Ok s a s' := by
  simp only [Ok, run, atomic]
  rcases x s with ⟨r, t⟩
  cases r <;> simp

@[simp] theorem ok_zoom {get : σ → τ} {set : τ → σ → σ} {x : Tx ε τ α} {s s' : σ} {a : α} :
    (zoom get set x).Ok s a s' ↔ ∃ t, x.Ok (get s) a t ∧ s' = set t s := by
  simp only [Ok, run, zoom]
  rcases x (get s) with ⟨r, t⟩
  cases r with
  | error e => simp
  | ok b => simp [eq_comm, and_comm]

/-- A run that returned ends in the state it left. -/
theorem ok_run {x : Tx ε σ α} {s : σ} {a : α} (h : (x.run s).1 = .ok a) :
    x.Ok s a (x.run s).2 := Prod.ext h rfl

theorem exists_ok_run {x : Tx ε σ α} {s : σ} (h : (x.run s).1.isOk = true) :
    ∃ a, x.Ok s a (x.run s).2 := by
  cases hr : (x.run s).1 with
  | error e => simp [hr, Except.isOk, Except.toBool] at h
  | ok a => exact ⟨a, ok_run hr⟩

/-- A computation has at most one outcome. -/
theorem Ok.det {x : Tx ε σ α} {s s₁ s₂ : σ} {a₁ a₂ : α} (h₁ : x.Ok s a₁ s₁)
    (h₂ : x.Ok s a₂ s₂) : a₁ = a₂ ∧ s₁ = s₂ := by
  have h := h₁.symm.trans h₂
  rw [Prod.mk.injEq, Except.ok.injEq] at h
  exact h

/-! ## Where an exception can leave the state -/

/-- `x` never writes. -/
def ReadOnly (x : Tx ε σ α) : Prop := ∀ s, (x.run s).2 = s

/-- `x` never throws. -/
def Total (x : Tx ε σ α) : Prop := ∀ s, ∃ a s', x.Ok s a s'

/-- When `x` throws, the state is the one it started from. -/
def FailsClean (x : Tx ε σ α) : Prop := ∀ s e s', x.Throws s e s' → s' = s

theorem readOnly_pure (a : α) : ReadOnly (pure a : Tx ε σ α) := fun _ => rfl

theorem readOnly_fail (e : ε) : ReadOnly (fail e : Tx ε σ α) := fun _ => rfl

theorem readOnly_get : ReadOnly (get : Tx ε σ σ) := fun _ => rfl

theorem readOnly_check (c : Bool) (e : ε) : ReadOnly (check c e : Tx ε σ Unit) := by
  intro s
  cases c <;> rfl

theorem readOnly_getOrFail (o : Option α) (e : ε) :
    ReadOnly (getOrFail o e : Tx ε σ α) := by
  intro s
  cases o <;> rfl

theorem readOnly_ofExcept (r : Except ε α) : ReadOnly (ofExcept r : Tx ε σ α) :=
  fun _ => rfl

theorem readOnly_bind {x : Tx ε σ α} {f : α → Tx ε σ β} (hx : x.ReadOnly)
    (hf : ∀ a, (f a).ReadOnly) : (x >>= f).ReadOnly := by
  intro s
  have hxs := hx s
  show (match x s with
    | (.ok a, s') => f a s'
    | (.error e, s') => (.error e, s')).2 = s
  simp only [run] at hxs
  rcases hr : x s with ⟨r, t⟩
  rw [hr] at hxs
  subst hxs
  cases r with
  | ok a => exact hf a t
  | error e => rfl

theorem ReadOnly.ok_state {x : Tx ε σ α} (h : x.ReadOnly) {s s' : σ} {a : α}
    (hx : x.Ok s a s') : s' = s := by
  have := h s
  rw [hx] at this
  exact this

theorem ReadOnly.failsClean {x : Tx ε σ α} (h : x.ReadOnly) : x.FailsClean := by
  intro s e s' hx
  have := h s
  rw [hx] at this
  exact this

theorem Total.failsClean {x : Tx ε σ α} (h : x.Total) : x.FailsClean := by
  intro s e s' hx
  obtain ⟨a, t, ha⟩ := h s
  rw [Throws, ha] at hx
  cases hx

theorem total_pure (a : α) : Total (pure a : Tx ε σ α) := fun s => ⟨a, s, rfl⟩

theorem total_modify (f : σ → σ) : Total (modify f : Tx ε σ Unit) :=
  fun s => ⟨(), f s, rfl⟩

theorem total_get : Total (get : Tx ε σ σ) := fun s => ⟨s, s, rfl⟩

theorem total_bind {x : Tx ε σ α} {f : α → Tx ε σ β} (hx : x.Total)
    (hf : ∀ a, (f a).Total) : (x >>= f).Total := by
  intro s
  obtain ⟨a, s', ha⟩ := hx s
  obtain ⟨b, s'', hb⟩ := hf a s'
  exact ⟨b, s'', ok_bind.mpr ⟨a, s', ha, hb⟩⟩

/-- Checks first, writes last: a block whose first statement only reads fails
cleanly when the rest does. -/
theorem failsClean_bind {x : Tx ε σ α} {f : α → Tx ε σ β} (hx : x.ReadOnly)
    (hf : ∀ a, (f a).FailsClean) : (x >>= f).FailsClean := by
  intro s e s' h
  have hxs := hx s
  simp only [Throws, run] at h hxs
  change (match x s with
    | (.ok a, s') => f a s'
    | (.error e, s') => (.error e, s')) = (.error e, s') at h
  rcases hr : x s with ⟨r, t⟩
  rw [hr] at hxs h
  subst hxs
  cases r with
  | ok a => exact hf a t e s' h
  | error e' =>
    rw [Prod.mk.injEq] at h
    exact h.2.symm

/-- A transaction block returns what its body returns, or it leaves the state alone. -/
theorem atomic_run (x : Tx ε σ α) (s : σ) :
    (∃ a s', x.Ok s a s' ∧ (atomic x).run s = (.ok a, s')) ∨
      ∃ e, (atomic x).run s = (.error e, s) := by
  simp only [Ok, run, atomic]
  rcases x s with ⟨r, t⟩
  cases r with
  | ok a => exact .inl ⟨a, t, rfl, rfl⟩
  | error e => exact .inr ⟨e, rfl⟩

/-- A transaction block always fails cleanly. -/
theorem failsClean_atomic (x : Tx ε σ α) : (atomic x).FailsClean := by
  intro s e s' h
  simp only [Throws, run, atomic] at h
  rcases hr : x s with ⟨r, t⟩
  rw [hr] at h
  cases r with
  | ok a => cases h
  | error e' =>
    rw [Prod.mk.injEq] at h
    exact h.2.symm

end Tx

end ArkanGold
