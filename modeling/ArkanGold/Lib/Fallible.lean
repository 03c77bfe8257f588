import Mathlib

/-!
# Code that may throw

Rules for `Except`: what has been run when a sequence returns, and which errors it throws.

- `bind_eq_ok`, `mapM_eq_ok`, `rejectIf_eq_ok`: a sequence, a loop and a check that return.
- `Throws P x`: every error that `x` throws satisfies `P`.
-/

namespace ArkanGold

namespace Fallible

variable {ε α β : Type} {P : ε → Prop}

theorem bind_eq_ok {x : Except ε α} {f : α → Except ε β} {b : β} :
    x >>= f = .ok b ↔ ∃ a, x = .ok a ∧ f a = .ok b := by
  cases x with
  | error e => simp [bind, Except.bind]
  | ok a => simp [bind, Except.bind]

/-- What `mapM` returns, element by element. -/
theorem mapM_eq_ok {f : α → Except ε β} {l : List α} {bs : List β} (h : l.mapM f = .ok bs) :
    List.Forall₂ (fun a b => f a = .ok b) l bs := by
  induction l generalizing bs with
  | nil =>
    obtain rfl : [] = bs := by simpa [pure, Except.pure] using h
    exact .nil
  | cons a l ih =>
    rw [List.mapM_cons] at h
    obtain ⟨b, hb, h⟩ := bind_eq_ok.mp h
    obtain ⟨rest, hrest, h⟩ := bind_eq_ok.mp h
    obtain rfl : b :: rest = bs := Except.ok.inj h
    exact .cons hb (ih hrest)

/-- `if (c) throw e` -/
def rejectIf (c : Prop) [Decidable c] (e : ε) : Except ε Unit := if c then .error e else .ok ()

theorem rejectIf_eq_ok {c : Prop} [Decidable c] {e : ε} {u : Unit} :
    rejectIf c e = .ok u ↔ ¬c := by
  unfold rejectIf
  split <;> simp_all

/-- Every error satisfies `P`. -/
def Throws (P : ε → Prop) (x : Except ε α) : Prop := ∀ e, x = .error e → P e

theorem throws_ok (a : α) : Throws P (.ok a : Except ε α) := fun _ h => nomatch h

theorem throws_rejectIf {c : Prop} [Decidable c] {e : ε} (h : P e) : Throws P (rejectIf c e) := by
  intro e' he
  unfold rejectIf at he
  split at he
  · obtain rfl := Except.error.inj he
    exact h
  · cases he

theorem throws_bind {x : Except ε α} {f : α → Except ε β} (hx : Throws P x)
    (hf : ∀ a, x = .ok a → Throws P (f a)) : Throws P (x >>= f) := by
  intro e he
  cases hrun : x with
  | error e' =>
    rw [hrun] at he
    obtain rfl : e' = e := Except.error.inj he
    exact hx e' hrun
  | ok a =>
    rw [hrun] at he
    exact hf a hrun e he

end Fallible

end ArkanGold
