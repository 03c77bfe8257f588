import Mathlib.Data.Set.Basic
import Mathlib.Logic.Relation
import ArkanGold.Lib.Calls

/-!
# Rights of calls

Between two transactions a call holds no lock. What it alone may still do is a right: one of
its transactions is given the right, no other call is ever given it, and what the right
protects is left alone by the others until the call has ended.

- `Rights`: what a transaction may do, and what it leaves alone as long as another call holds
  a right to it.
- `Call.Owns`: the call keeps to its rights, from a state and with the rights it holds.
- `Pool.shares_run`: in every pool that is reached the rights are shared out among the calls,
  and each of them meets its outcome.
-/

namespace ArkanGold

/-- What calls may do, with or without rights `T`. -/
structure Rights (T L σ : Type) where
  /-- what a transaction may do to the state -/
  step : σ → σ → Prop
  /-- what is left alone by those who do not hold the right -/
  keeps : T → σ → σ → Prop
  /-- the right was given to a call -/
  given : T → σ → Prop
  /-- the condition on the marks -/
  cond : L → σ → Prop
  step_refl : ∀ s, step s s
  keeps_refl : ∀ t s, keeps t s s
  keeps_trans : ∀ {t s s' s''}, keeps t s s' → keeps t s' s'' → keeps t s s''
  given_step : ∀ {t s s'}, step s s' → given t s → given t s'

namespace Rights

variable {T L σ : Type} {D : Rights T L σ} {ts ts' : Set T} {t : T} {s s' s'' : σ}

/-- What the others do while a call holds the rights `ts`. -/
def Others (D : Rights T L σ) (ts : Set T) : σ → σ → Prop :=
  Relation.ReflTransGen fun s s' => D.step s s' ∧ ∀ t ∈ ts, D.keeps t s s'

theorem others_refl : D.Others ts s s := .refl

theorem others_trans (h : D.Others ts s s') (h' : D.Others ts s' s'') : D.Others ts s s'' :=
  Relation.ReflTransGen.trans h h'

theorem others_single (h : D.step s s') (hkeeps : ∀ t ∈ ts, D.keeps t s s') : D.Others ts s s' :=
  .single ⟨h, hkeeps⟩

theorem others_mono (h : D.Others ts s s') (hsub : ts' ⊆ ts) : D.Others ts' s s' :=
  Relation.ReflTransGen.mono (fun _ _ h => ⟨h.1, fun t ht => h.2 t (hsub ht)⟩) _ _ h

/-- What others do is a sequence of steps. -/
theorem others_steps (h : D.Others ts s s') : Relation.ReflTransGen D.step s s' :=
  Relation.ReflTransGen.mono (fun _ _ h => h.1) _ _ h

/-- Others leave alone what a right protects. -/
theorem others_keeps (h : D.Others ts s s') (ht : t ∈ ts) : D.keeps t s s' := by
  induction h with
  | refl => exact D.keeps_refl t s
  | tail _ hlast ih => exact D.keeps_trans ih (hlast.2 t ht)

/-- A transaction turns the rights `ts` into `ts'`: what it takes was given to nobody before. -/
structure Turns (D : Rights T L σ) (ts ts' : Set T) (s s' : σ) : Prop where
  step : D.step s s'
  others : ∀ t ∉ ts, D.given t s → D.keeps t s s'
  gained : ∀ t ∈ ts', t ∈ ts ∨ ¬D.given t s ∧ D.given t s'

/-- Nothing is written. -/
theorem turns_refl : D.Turns ts ts s s :=
  ⟨D.step_refl s, fun t _ _ => D.keeps_refl t s, fun _ ht => .inl ht⟩

end Rights

/-! ## Calls that keep to their rights -/

namespace Call

variable {T ε R L σ α β : Type} [Supply σ] [History L σ] {D : Rights T L σ} {ts : Set T}
  {P Q : Set T → Except ε α → σ → Prop} {s s' : σ}

/-- A call with the rights `ts` keeps to them whatever the others do, and it ends with `P`. -/
def Owns (D : Rights T L σ) (P : Set T → Except ε α → σ → Prop) :
    Set T → Call ε R L σ α → σ → Prop
  | ts, done r, s => ∀ s', D.Others ts s s' → P ts r s'
  | ts, tx b k, s => ∀ s', D.Others ts s s' → b.Meets D.cond s' →
      ∃ ts', D.Turns ts ts' s' (b.exec.atomic s').2 ∧
        (k (b.exec.atomic s').1).Owns D P ts' (b.exec.atomic s').2

/-- What the others do does not hurt. -/
theorem owns_stable {c : Call ε R L σ α} (h : c.Owns D P ts s) (hothers : D.Others ts s s') :
    c.Owns D P ts s' := by
  cases c with
  | done r => exact fun t ht => h t (Rights.others_trans hothers ht)
  | tx b k => exact fun t ht => h t (Rights.others_trans hothers ht)

theorem owns_mono {c : Call ε R L σ α} (hPQ : ∀ ts r s, P ts r s → Q ts r s)
    (h : c.Owns D P ts s) : c.Owns D Q ts s := by
  induction c generalizing ts s with
  | done r => exact fun t ht => hPQ ts r t (h t ht)
  | tx b k ih =>
    intro t ht hmeets
    obtain ⟨ts', hturns, hrest⟩ := h t ht hmeets
    exact ⟨ts', hturns, ih _ hrest⟩

/-- A call ends in a state that the one it has started in leads to. -/
theorem owns_steps {c : Call ε R L σ α} {s₀ : σ} (h : c.Owns D P ts s)
    (hs : Relation.ReflTransGen D.step s₀ s) :
    c.Owns D (fun ts r s' => P ts r s' ∧ Relation.ReflTransGen D.step s₀ s') ts s := by
  induction c generalizing ts s with
  | done r => exact fun t ht => ⟨h t ht, hs.trans (Rights.others_steps ht)⟩
  | tx b k ih =>
    intro t ht hmeets
    obtain ⟨ts', hturns, hrest⟩ := h t ht hmeets
    exact ⟨ts', hturns, ih _ hrest ((hs.trans (Rights.others_steps ht)).tail hturns.step)⟩

theorem owns_pure {a : α} (h : ∀ s', D.Others ts s s' → P ts (.ok a) s') :
    (pure a : Call ε R L σ α).Owns D P ts s := h

theorem owns_fail {e : ε} (h : ∀ s', D.Others ts s s' → P ts (.error e) s') :
    (fail e : Call ε R L σ α).Owns D P ts s := h

/-- The rule for sequencing: what follows has the rights that are left. -/
theorem owns_bind {c : Call ε R L σ β} {f : β → Call ε R L σ α}
    (h : c.Owns D (fun ts r s => match r with
      | .ok a => (f a).Owns D P ts s
      | .error e => P ts (.error e) s) ts s) : (c >>= f).Owns D P ts s := by
  show (c.bind f).Owns D P ts s
  induction c generalizing ts s with
  | done r =>
    cases r with
    | ok a => exact h s Rights.others_refl
    | error e => exact fun t ht => h t ht
  | tx b k ih =>
    intro t ht hmeets
    obtain ⟨ts', hturns, hrest⟩ := h t ht hmeets
    exact ⟨ts', hturns, ih _ hrest⟩

theorem owns_check_bind {c : Bool} {e : ε} {f : Unit → Call ε R L σ α}
    (hfail : ∀ s', D.Others ts s s' → P ts (.error e) s')
    (h : c = true → (f ()).Owns D P ts s) : (check c e >>= f).Owns D P ts s := by
  cases c with
  | false => exact owns_fail hfail
  | true => exact h rfl

theorem owns_getOrFail_bind {o : Option β} {e : ε} {f : β → Call ε R L σ α}
    (hfail : ∀ s', D.Others ts s s' → P ts (.error e) s')
    (h : ∀ b, o = some b → (f b).Owns D P ts s) : (getOrFail o e >>= f).Owns D P ts s := by
  cases o with
  | none => exact owns_fail hfail
  | some b => exact h b rfl

theorem owns_ofExcept_bind {r : Except ε β} {f : β → Call ε R L σ α}
    (hfail : ∀ e s', D.Others ts s s' → P ts (.error e) s')
    (h : ∀ b, r = .ok b → (f b).Owns D P ts s) : (ofExcept r >>= f).Owns D P ts s := by
  cases r with
  | error e => exact owns_fail (hfail e)
  | ok b => exact h b rfl

/-- The rule for a transaction. It turns the rights of the call when it commits, and leaves
everything alone when it throws. -/
theorem owns_transaction_bind {b : Block ε R L σ β} {g : ε → ε} {f : β → Call ε R L σ α}
    (hfail : ∀ e s', D.Others ts s s' → P ts (.error e) s')
    (h : ∀ s' a s'', D.Others ts s s' → b.Meets D.cond s' → b.Ok s' a s'' →
      ∃ ts', D.Turns ts ts' s' s'' ∧ (f a).Owns D P ts' s'') :
    (transaction b g >>= f).Owns D P ts s := by
  intro s' hs' hmeets
  have hok := fun a s'' => h s' a s'' hs' hmeets
  simp only [Block.Ok, Tx.Ok, Tx.run] at hok
  simp only [Tx.atomic]
  rcases hrun : b.exec s' with ⟨x, t⟩
  cases x with
  | ok a => exact hok a t hrun
  | error e =>
    exact ⟨ts, Rights.turns_refl, owns_fail fun s'' hs'' =>
      hfail (g e) s'' (Rights.others_trans hs' hs'')⟩

/-- A transaction at the end of a call. -/
theorem owns_transaction {b : Block ε R L σ α} {g : ε → ε}
    (hfail : ∀ e s', D.Others ts s s' → P ts (.error e) s')
    (h : ∀ s' a s'', D.Others ts s s' → b.Meets D.cond s' → b.Ok s' a s'' →
      ∃ ts', D.Turns ts ts' s' s'' ∧ ∀ t, D.Others ts' s'' t → P ts' (.ok a) t) :
    (transaction b g).Owns D P ts s := by
  intro s' hs' hmeets
  have hok := fun a s'' => h s' a s'' hs' hmeets
  simp only [Block.Ok, Tx.Ok, Tx.run] at hok
  simp only [Tx.atomic]
  rcases hrun : b.exec s' with ⟨x, t⟩
  cases x with
  | ok a => exact hok a t hrun
  | error e =>
    exact ⟨ts, Rights.turns_refl, fun s'' hs'' => hfail (g e) s'' (Rights.others_trans hs' hs'')⟩

/-- A read: what follows starts in the state that was read. -/
theorem owns_get_bind {g : ε → ε} {f : σ → Call ε R L σ α}
    (h : ∀ s', D.Others ts s s' → (f s').Owns D P ts s') :
    (transaction Block.get g >>= f).Owns D P ts s :=
  fun s' hs' _ => ⟨ts, Rights.turns_refl, h s' hs'⟩

/-- The outcome of a call as a value. -/
theorem owns_attempt {P : Set T → Except ε (Except ε α) → σ → Prop} {c : Call ε R L σ α}
    (h : c.Owns D (fun ts r s => P ts (.ok r) s) ts s) : c.attempt.Owns D P ts s := by
  induction c generalizing ts s with
  | done r => exact h
  | tx b k ih =>
    intro t ht hmeets
    obtain ⟨ts', hturns, hrest⟩ := h t ht hmeets
    exact ⟨ts', hturns, ih _ hrest⟩

end Call

/-! ## Sharing out the rights -/

namespace Pool

variable {T Q ε R L σ α : Type} [Supply σ] [History L σ] {D : Rights T L σ}
  {serve : Q → Call ε R L σ α} {env quiet : σ → σ → Prop}
  {outcome : ℕ → Q → Except ε α → σ → Prop}

/-- The rights `own` of the calls are disjoint, and every call keeps to its own. -/
structure Shares (D : Rights T L σ) (outcome : ℕ → Q → Except ε α → σ → Prop)
    (own : ℕ → Set T) (p : Pool Q ε R L σ α) : Prop where
  disjoint : ∀ i j t, t ∈ own i → t ∈ own j → i = j
  given : ∀ i t, t ∈ own i → D.given t p.db
  owns : ∀ i q (c : Call ε R L σ α), p.calls[i]? = some (q, c) →
    c.Owns D (fun _ => outcome i q) (own i) p.db

/-- Before the first call. -/
theorem shares_nil {s : σ} :
    (⟨s, []⟩ : Pool Q ε R L σ α).Shares D outcome fun _ => ∅ :=
  ⟨fun _ _ _ ht _ => ht.elim, fun _ _ ht => ht.elim, fun i q c hc => by simp at hc⟩

/-- The calls other than those that do a step keep to their rights. -/
theorem Shares.owns_others {p : Pool Q ε R L σ α} {own : ℕ → Set T} {s' : σ}
    (h : p.Shares D outcome own) (hstep : D.step p.db s') {j : ℕ} {q : Q} {c : Call ε R L σ α}
    (hc : p.calls[j]? = some (q, c))
    (hkeeps : ∀ t ∈ own j, D.given t p.db → D.keeps t p.db s') :
    c.Owns D (fun _ => outcome j q) (own j) s' :=
  Call.owns_stable (h.owns j q c hc)
    (Rights.others_single hstep fun t ht => hkeeps t ht (h.given j t ht))

/-- One step of a pool is a step of the state, and the rights are shared out afterwards. -/
theorem Shares.next {p p' : Pool Q ε R L σ α} {e : PoolEvent Q σ} {own : ℕ → Set T}
    (hserve : ∀ i q, (serve q).Owns D (fun _ => outcome i q) ∅ p.db)
    (henv : ∀ s s', env s s' → quiet s s' →
      D.step s s' ∧ ∀ t, D.given t s → D.keeps t s s')
    (h : p.Shares D outcome own) (hallowed : p.Allowed D.cond quiet e)
    (hstep : p.Step serve env e p') :
    D.step p.db p'.db ∧ ∃ own', p'.Shares D outcome own' := by
  obtain ⟨hnext, hout⟩ := hstep
  cases e with
  | start q =>
    cases hnext
    refine ⟨D.step_refl _, Function.update own p.calls.length ∅, ?_, ?_, ?_⟩
    · intro i j t hi hj
      by_cases hin : i = p.calls.length
      · subst hin
        simp at hi
      · by_cases hjn : j = p.calls.length
        · subst hjn
          simp at hj
        · rw [Function.update_of_ne hin] at hi
          rw [Function.update_of_ne hjn] at hj
          exact h.disjoint i j t hi hj
    · intro i t hi
      by_cases hin : i = p.calls.length
      · subst hin
        simp at hi
      · rw [Function.update_of_ne hin] at hi
        exact h.given i t hi
    · intro i q' c hc
      rw [List.getElem?_append] at hc
      split at hc
      · rename_i hlt
        rw [Function.update_of_ne (Nat.ne_of_lt hlt)]
        exact h.owns i q' c hc
      · rename_i hge
        obtain ⟨hi, heq⟩ : i = p.calls.length ∧ (q, serve q) = (q', c) := by
          rw [List.getElem?_singleton] at hc
          split at hc
          · rename_i hzero
            exact ⟨by omega, Option.some.inj hc⟩
          · cases hc
        cases heq
        subst hi
        rw [Function.update_self]
        exact hserve _ q
  | outside s =>
    cases hnext
    obtain ⟨hstep, hkeeps⟩ := henv _ _ (hout s rfl) hallowed
    refine ⟨hstep, own, h.disjoint, fun i t ht => D.given_step hstep (h.given i t ht), ?_⟩
    intro i q c hc
    exact h.owns_others hstep hc fun t _ ht => hkeeps t ht
  | advance i =>
    simp only [Pool.next] at hnext
    simp only [Allowed] at hallowed
    cases hi : p.calls[i]? with
    | none =>
      rw [hi] at hnext
      cases hnext
    | some qc =>
      obtain ⟨q, c⟩ := qc
      cases c with
      | done r =>
        rw [hi] at hnext
        cases hnext
      | tx b k =>
        rw [hi] at hnext hallowed
        cases hnext
        obtain ⟨ts', hturns, hrest⟩ := h.owns i q _ hi p.db Rights.others_refl hallowed
        have hfresh : ∀ j t, j ≠ i → t ∈ own j → t ∉ ts' := by
          intro j t hj ht ht'
          rcases hturns.gained t ht' with hmine | ⟨hnot, -⟩
          · exact hj (h.disjoint j i t ht hmine)
          · exact hnot (h.given j t ht)
        refine ⟨hturns.step, Function.update own i ts', ?_, ?_, ?_⟩
        · intro j j' t hj hj'
          by_cases hji : j = i
          · by_cases hji' : j' = i
            · rw [hji, hji']
            · rw [hji, Function.update_self] at hj
              rw [Function.update_of_ne hji'] at hj'
              exact absurd hj (hfresh j' t hji' hj')
          · rw [Function.update_of_ne hji] at hj
            by_cases hji' : j' = i
            · rw [hji', Function.update_self] at hj'
              exact absurd hj' (hfresh j t hji hj)
            · rw [Function.update_of_ne hji'] at hj'
              exact h.disjoint j j' t hj hj'
        · intro j t hj
          by_cases hji : j = i
          · rw [hji, Function.update_self] at hj
            rcases hturns.gained t hj with hmine | ⟨-, hgiven⟩
            · exact D.given_step hturns.step (h.given i t hmine)
            · exact hgiven
          · rw [Function.update_of_ne hji] at hj
            exact D.given_step hturns.step (h.given j t hj)
        · intro j q' c' hc
          by_cases hji : j = i
          · subst hji
            have hlt : j < p.calls.length := (List.getElem?_eq_some_iff.mp hi).1
            rw [List.getElem?_set_self hlt] at hc
            cases hc
            rw [Function.update_self]
            exact hrest
          · rw [List.getElem?_set_ne (Ne.symm hji)] at hc
            rw [Function.update_of_ne hji]
            refine h.owns_others hturns.step hc fun t ht hgiven => ?_
            exact hturns.others t (fun hmine => hji (h.disjoint j i t ht hmine)) hgiven

/-- In every pool that is reached the rights are shared out. -/
theorem shares_run {p p' : Pool Q ε R L σ α} {own : ℕ → Set T} (h : p.Shares D outcome own)
    (hrun : Runs (Step serve env) (Allowed D.cond quiet) p p')
    (henv : ∀ s s', env s s' → quiet s s' →
      D.step s s' ∧ ∀ t, D.given t s → D.keeps t s s')
    (hserve : ∀ i q s, Relation.ReflTransGen D.step p.db s →
      (serve q).Owns D (fun _ => outcome i q) ∅ s) :
    Relation.ReflTransGen D.step p.db p'.db ∧ ∃ own', p'.Shares D outcome own' := by
  refine hrun.invariant (I := fun p' => Relation.ReflTransGen D.step p.db p'.db ∧
    ∃ own', p'.Shares D outcome own') ⟨.refl, own, h⟩ ?_
  rintro p₁ e p₂ ⟨hreach, own₁, h₁⟩ hallowed hstep
  obtain ⟨hstep₁, hshares⟩ := h₁.next (fun i q => hserve i q _ hreach) henv hallowed hstep
  exact ⟨hreach.tail hstep₁, hshares⟩

/-- A call that has ended meets its outcome. -/
theorem Shares.ended {p : Pool Q ε R L σ α} {own : ℕ → Set T} (h : p.Shares D outcome own)
    {i : ℕ} {q : Q} {r : Except ε α} (hdone : p.calls[i]? = some (q, .done r)) :
    outcome i q r p.db := h.owns i q _ hdone p.db Rights.others_refl

end Pool

end ArkanGold
