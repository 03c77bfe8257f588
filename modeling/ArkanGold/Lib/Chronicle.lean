import Mathlib.Data.List.Basic

/-!
# Chronicles

A list of entries, the oldest first, in which every entry is in order after the entries before
it. What it takes for an entry to be in order is a relation between a past and an entry.

- `chronicle_snoc`: an entry is added if it is in order.
-/

namespace ArkanGold

variable {ε : Type*}

/-- Every entry is in order after those before it. -/
def Chronicle (fine : List ε → ε → Prop) (entries : List ε) : Prop :=
  ∀ before e after, entries = before ++ e :: after → fine before e

theorem chronicle_nil (fine : List ε → ε → Prop) : Chronicle fine [] := by
  intro before e after h
  simp at h

/-- The rule for adding an entry. -/
theorem chronicle_snoc {fine : List ε → ε → Prop} {entries : List ε} {e : ε} :
    Chronicle fine (entries ++ [e]) ↔ Chronicle fine entries ∧ fine entries e := by
  constructor
  · intro h
    refine ⟨fun before e' after heq => ?_, h entries e [] rfl⟩
    exact h before e' (after ++ [e]) (by rw [heq, List.append_assoc, List.cons_append])
  · rintro ⟨h, he⟩ before e' after heq
    rcases List.eq_nil_or_concat after with rfl | ⟨rest, last, rfl⟩
    · obtain ⟨rfl, hlast⟩ := List.append_inj' heq rfl
      rw [List.cons.injEq] at hlast
      exact hlast.1 ▸ he
    · rw [List.concat_eq_append, ← List.cons_append, ← List.append_assoc] at heq
      exact h before e' rest (List.append_inj' heq rfl).1

end ArkanGold
