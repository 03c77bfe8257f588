import ArkanGold.Lib.Tx

/-!
# Transactions as trees of statements

`Tx` says what a transaction does when it runs alone. To say what it does among
others, its statements have to be told apart: a `Block` is the tree of the
statements of one transaction over the database state `σ`. Rows are locked by
names `R`; a mark `L` names a point of the program and leaves an entry in the
history.

- `Block.exec`: the block run alone, as a `Tx`. `Block.Ok` and the `ok_*` lemmas
  invert a run that succeeds statement by statement.
- `Block.Meets`: the marks passed by that run satisfy a condition on the state.

How blocks of several sessions interleave is the subject of
`ArkanGold.Lib.Interleaving`.
-/

namespace ArkanGold

/-- A state that hands out row ids. The counter is no part of any row: a number once
given is not taken back. -/
class Supply (σ : Type) where
  next : σ → ℕ
  bump : σ → σ

/-- A state that keeps the marks passed, for statements about runs. -/
class History (L σ : Type) where
  record : L → σ → σ

/-- The statements of one transaction. -/
inductive Block (ε R L σ α : Type) : Type where
  /-- the transaction is ready to commit -/
  | done (a : α)
  /-- the transaction throws -/
  | fail (e : ε)
  /-- wait for the row and lock it until the end of the transaction -/
  | lockThen (r : R) (k : Block ε R L σ α)
  /-- read the committed state together with the own writes -/
  | readThen (k : σ → Block ε R L σ α)
  /-- write -/
  | writeThen (g : σ → σ) (k : Block ε R L σ α)
  /-- draw a new row id -/
  | freshThen (k : ℕ → Block ε R L σ α)
  /-- pass a mark -/
  | markThen (l : L) (k : Block ε R L σ α)

namespace Block

variable {ε R L σ α β : Type}

/-- Run `x`, then what its value selects. -/
def bind : Block ε R L σ α → (α → Block ε R L σ β) → Block ε R L σ β
  | done a, f => f a
  | fail e, _ => fail e
  | lockThen r k, f => lockThen r (k.bind f)
  | readThen k, f => readThen fun s => (k s).bind f
  | writeThen g k, f => writeThen g (k.bind f)
  | freshThen k, f => freshThen fun n => (k n).bind f
  | markThen l k, f => markThen l (k.bind f)

instance : Monad (Block ε R L σ) where
  pure := done
  bind := bind

/-- Lock a row. -/
def lock (r : R) : Block ε R L σ Unit := lockThen r (done ())

/-- The state as a statement sees it. -/
def get : Block ε R L σ σ := readThen done

/-- Write. -/
def write (g : σ → σ) : Block ε R L σ Unit := writeThen g (done ())

/-- A new row id. -/
def fresh : Block ε R L σ ℕ := freshThen done

/-- Pass a mark. -/
def mark (l : L) : Block ε R L σ Unit := markThen l (done ())

/-- Throw unless `c` holds. -/
def check (c : Bool) (e : ε) : Block ε R L σ Unit := if c then pure () else fail e

/-- The value of an optional result, or the exception `e`. -/
def getOrFail (o : Option α) (e : ε) : Block ε R L σ α :=
  match o with
  | some a => pure a
  | none => fail e

/-- The value of a pure computation that may throw. -/
def ofExcept (r : Except ε α) : Block ε R L σ α :=
  match r with
  | .ok a => pure a
  | .error e => fail e

/-- Lock rows one after the other. -/
def lockAll : List R → Block ε R L σ Unit
  | [] => pure ()
  | r :: rs => do
    lock r
    lockAll rs

/-- Run a block for every element of a list. -/
def forEach (f : α → Block ε R L σ Unit) : List α → Block ε R L σ Unit
  | [] => pure ()
  | a :: as => do
    f a
    forEach f as

/-! ## Running alone -/

section Alone

variable [Supply σ] [History L σ]

/-- The block without anything happening in between. -/
def exec : Block ε R L σ α → Tx ε σ α
  | done a => pure a
  | fail e => Tx.fail e
  | lockThen _ k => k.exec
  | readThen k => fun s => (k s).exec s
  | writeThen g k => fun s => k.exec (g s)
  | freshThen k => fun s => (k (Supply.next s)).exec (Supply.bump s)
  | markThen l k => fun s => k.exec (History.record l s)

theorem exec_bind (x : Block ε R L σ α) (f : α → Block ε R L σ β) :
    (x >>= f).exec = x.exec >>= fun a => (f a).exec := by
  show (x.bind f).exec = _
  induction x with
  | done a => rfl
  | fail e => rfl
  | lockThen r k ih => exact ih
  | readThen k ih => exact funext fun s => congrFun (ih s) s
  | writeThen g k ih => exact funext fun s => congrFun ih (g s)
  | freshThen k ih =>
    exact funext fun s => congrFun (ih (Supply.next s)) (Supply.bump s)
  | markThen l k ih => exact funext fun s => congrFun ih (History.record l s)

/-- The block started in `s`, alone, returns `a` in the state `s'`. -/
def Ok (x : Block ε R L σ α) (s : σ) (a : α) (s' : σ) : Prop := x.exec.Ok s a s'

variable {s s' : σ}

@[simp] theorem ok_pure {a b : α} : (pure a : Block ε R L σ α).Ok s b s' ↔ b = a ∧ s' = s :=
  Tx.ok_pure

@[simp] theorem ok_bind {x : Block ε R L σ α} {f : α → Block ε R L σ β} {b : β} :
    (x >>= f).Ok s b s' ↔ ∃ a t, x.Ok s a t ∧ (f a).Ok t b s' := by
  rw [Ok, exec_bind]
  exact Tx.ok_bind

@[simp] theorem ok_fail {e : ε} {a : α} : (fail e : Block ε R L σ α).Ok s a s' ↔ False :=
  Tx.ok_fail

@[simp] theorem ok_lock {r : R} {u : Unit} :
    (lock r : Block ε R L σ Unit).Ok s u s' ↔ s' = s := by
  refine Tx.ok_pure.trans ⟨And.right, fun h => ⟨rfl, h⟩⟩

@[simp] theorem ok_get {t : σ} : (get : Block ε R L σ σ).Ok s t s' ↔ t = s ∧ s' = s :=
  Tx.ok_get

@[simp] theorem ok_write {g : σ → σ} {u : Unit} :
    (write g : Block ε R L σ Unit).Ok s u s' ↔ s' = g s :=
  Tx.ok_modify

@[simp] theorem ok_fresh {n : ℕ} :
    (fresh : Block ε R L σ ℕ).Ok s n s' ↔ n = Supply.next s ∧ s' = Supply.bump s := by
  show ((Except.ok (Supply.next s) : Except ε ℕ), Supply.bump s) = (.ok n, s') ↔ _
  rw [Prod.mk.injEq, Except.ok.injEq, eq_comm (a := Supply.next s), eq_comm (b := s')]

@[simp] theorem ok_mark {l : L} {u : Unit} :
    (mark l : Block ε R L σ Unit).Ok s u s' ↔ s' = History.record l s :=
  Tx.ok_modify

@[simp] theorem ok_check {c : Bool} {e : ε} {u : Unit} :
    (check c e : Block ε R L σ Unit).Ok s u s' ↔ c = true ∧ s' = s := by
  cases c with
  | false => simp [check]
  | true => simp [check]

@[simp] theorem ok_getOrFail {o : Option α} {e : ε} {a : α} :
    (getOrFail o e : Block ε R L σ α).Ok s a s' ↔ o = some a ∧ s' = s := by
  cases o with
  | none => simp [getOrFail]
  | some b => simp [getOrFail, eq_comm (a := a)]

@[simp] theorem ok_ofExcept {r : Except ε α} {a : α} :
    (ofExcept r : Block ε R L σ α).Ok s a s' ↔ r = .ok a ∧ s' = s := by
  cases r with
  | error e => simp [ofExcept]
  | ok b => simp [ofExcept, eq_comm (a := a)]

@[simp] theorem ok_lockAll {rs : List R} {u : Unit} :
    (lockAll rs : Block ε R L σ Unit).Ok s u s' ↔ s' = s := by
  induction rs with
  | nil => simp [lockAll]
  | cons r rs ih => simp [lockAll, ih]

theorem ok_ite {c : Prop} [Decidable c] {x y : Block ε R L σ α} {a : α} :
    (if c then x else y).Ok s a s' ↔ if c then x.Ok s a s' else y.Ok s a s' := by
  split <;> rfl

theorem exists_ok_run {x : Block ε R L σ α} (h : (x.exec.run s).1.isOk = true) :
    ∃ a, x.Ok s a (x.exec.run s).2 := Tx.exists_ok_run h

/-! ## Conditions on the marks passed -/

/-- Every mark that the block passes when it runs alone from `s` meets the condition. -/
def Meets (cond : L → σ → Prop) : Block ε R L σ α → σ → Prop
  | done _, _ => True
  | fail _, _ => True
  | lockThen _ k, s => k.Meets cond s
  | readThen k, s => (k s).Meets cond s
  | writeThen g k, s => k.Meets cond (g s)
  | freshThen k, s => (k (Supply.next s)).Meets cond (Supply.bump s)
  | markThen l k, s => cond l s ∧ k.Meets cond (History.record l s)

theorem meets_always (x : Block ε R L σ α) (s : σ) : x.Meets (fun _ _ => True) s := by
  induction x generalizing s with
  | done a => trivial
  | fail e => trivial
  | lockThen r k ih => exact ih s
  | readThen k ih => exact ih s s
  | writeThen g k ih => exact ih (g s)
  | freshThen k ih => exact ih (Supply.next s) (Supply.bump s)
  | markThen l k ih => exact ⟨trivial, ih (History.record l s)⟩

/-- `Meets` for a condition that can be computed. -/
def meets (test : L → σ → Bool) : Block ε R L σ α → σ → Bool
  | done _, _ => true
  | fail _, _ => true
  | lockThen _ k, s => k.meets test s
  | readThen k, s => (k s).meets test s
  | writeThen g k, s => k.meets test (g s)
  | freshThen k, s => (k (Supply.next s)).meets test (Supply.bump s)
  | markThen l k, s => test l s && k.meets test (History.record l s)

theorem meets_of_test {cond : L → σ → Prop} {test : L → σ → Bool}
    (htest : ∀ l s, test l s = true → cond l s) {x : Block ε R L σ α} {s : σ}
    (h : x.meets test s = true) : x.Meets cond s := by
  induction x generalizing s with
  | done a => trivial
  | fail e => trivial
  | lockThen r k ih => exact ih h
  | readThen k ih => exact ih s h
  | writeThen g k ih => exact ih h
  | freshThen k ih => exact ih (Supply.next s) h
  | markThen l k ih =>
    obtain ⟨hl, hk⟩ := Bool.and_eq_true_iff.mp h
    exact ⟨htest l s hl, ih hk⟩

theorem meets_bind {cond : L → σ → Prop} {x : Block ε R L σ α} {f : α → Block ε R L σ β} :
    (x >>= f).Meets cond s ↔
      x.Meets cond s ∧ ∀ a t, x.Ok s a t → (f a).Meets cond t := by
  show (x.bind f).Meets cond s ↔ _
  induction x generalizing s with
  | done a =>
    constructor
    · intro h
      refine ⟨trivial, fun b t hok => ?_⟩
      obtain ⟨rfl, rfl⟩ := ok_pure.mp hok
      exact h
    · exact fun h => h.2 a s (ok_pure.mpr ⟨rfl, rfl⟩)
  | fail e =>
    exact ⟨fun _ => ⟨trivial, fun _ _ hok => (ok_fail.mp hok).elim⟩, fun _ => trivial⟩
  | lockThen r k ih => exact ih
  | readThen k ih => exact ih s
  | writeThen g k ih => exact ih
  | freshThen k ih => exact ih (Supply.next s)
  | markThen l k ih =>
    constructor
    · rintro ⟨hl, hk⟩
      obtain ⟨h₁, h₂⟩ := ih.mp hk
      exact ⟨⟨hl, h₁⟩, h₂⟩
    · rintro ⟨⟨hl, h₁⟩, h₂⟩
      exact ⟨hl, ih.mpr ⟨h₁, h₂⟩⟩

end Alone

end Block

end ArkanGold
