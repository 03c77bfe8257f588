import Mathlib

/-!
# Runs of a transition system

A system is given by a labelled step relation `step s e s'`. A run may be
restricted by a condition `ok s e` on the label of a step and the state before
it: `Runs step ok` relates a state to every state reached by steps that all meet
the condition, `Runs step (fun _ _ => True)` to every state reached at all.
-/

namespace ArkanGold

variable {σ ε : Type*}

/-- One step that meets the condition. -/
def Guarded (step : σ → ε → σ → Prop) (ok : σ → ε → Prop) (s s' : σ) : Prop :=
  ∃ e, ok s e ∧ step s e s'

/-- The states reached from the first one by steps that all meet the condition. -/
def Runs (step : σ → ε → σ → Prop) (ok : σ → ε → Prop) : σ → σ → Prop :=
  Relation.ReflTransGen (Guarded step ok)

/-- No restriction on the steps. -/
def always (_ : σ) (_ : ε) : Prop := True

namespace Runs

variable {step : σ → ε → σ → Prop} {ok : σ → ε → Prop} {s s' s'' : σ}

theorem refl : Runs step ok s s := Relation.ReflTransGen.refl

theorem tail {e : ε} (h : Runs step ok s s') (hok : ok s' e) (hs : step s' e s'') :
    Runs step ok s s'' := Relation.ReflTransGen.tail h ⟨e, hok, hs⟩

theorem single {e : ε} (hok : ok s e) (hs : step s e s') : Runs step ok s s' :=
  refl.tail hok hs

theorem trans (h₁ : Runs step ok s s') (h₂ : Runs step ok s' s'') : Runs step ok s s'' :=
  Relation.ReflTransGen.trans h₁ h₂

/-- The run lemma: what every step that meets the condition preserves holds in
every state reached. -/
theorem invariant {I : σ → Prop} (h : Runs step ok s s') (hs : I s)
    (hstep : ∀ s e s', I s → ok s e → step s e s' → I s') : I s' := by
  induction h with
  | refl => exact hs
  | tail _ hlast ih =>
    obtain ⟨e, hok, hst⟩ := hlast
    exact hstep _ e _ ih hok hst

/-- A weaker condition admits at least the same runs. -/
theorem mono {ok' : σ → ε → Prop} (h : Runs step ok s s') (himp : ∀ s e, ok s e → ok' s e) :
    Runs step ok' s s' :=
  Relation.ReflTransGen.mono (fun _ _ ⟨e, he, hst⟩ => ⟨e, himp _ e he, hst⟩) _ _ h

end Runs

end ArkanGold
