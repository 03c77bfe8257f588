import ArkanGold.Lib.Calls

/-!
# What a call may rely on between its transactions

A call that has read something acts on it in a later transaction. What is left of the reading
by then depends on what the other calls can do: a `Guarantee` is an invariant together with
the steps that every transaction promises to take, and a call may rely on the steps of all
others in between.

- `Call.Honors`: every transaction the call can come to keeps the guarantee, and the value it
  returns is one that the postcondition admits in the state it has last seen. The rules
  `honors_*` follow the program.
- `Pool.honored_run`, `Pool.guaranteed`: what every call honors holds in every state that a pool
  reaches, and what calls return meets their outcome.

With steps that allow anything, `Honors` says what `Call.Keeps` says.
-/

namespace ArkanGold

/-- An invariant and the steps that keep what calls rely on; the marks that a transaction
passes meet `cond`. -/
structure Guarantee (L σ : Type) where
  inv : σ → Prop
  step : σ → σ → Prop
  cond : L → σ → Prop
  refl : ∀ s, step s s
  trans : ∀ s s' s'', step s s' → step s' s'' → step s s''

namespace Guarantee

variable {L σ : Type}

/-- A state that comes to hold the invariant by a step. -/
def Allows (G : Guarantee L σ) (s s' : σ) : Prop := G.inv s' ∧ G.step s s'

theorem allows_self {G : Guarantee L σ} {s : σ} (h : G.inv s) : G.Allows s s := ⟨h, G.refl s⟩

theorem Allows.trans {G : Guarantee L σ} {s s' s'' : σ} (h : G.Allows s s')
    (h' : G.Allows s' s'') : G.Allows s s'' := ⟨h'.1, G.trans _ _ _ h.2 h'.2⟩

end Guarantee

namespace Call

variable {ε R L σ α β : Type} [Supply σ] [History L σ]

/-- The call, having last seen the state `s`, keeps the guarantee with every transaction and
returns what `post` admits. -/
def Honors (G : Guarantee L σ) (post : α → σ → Prop) : Call ε R L σ α → σ → Prop
  | done (.ok a), s => post a s
  | done (.error _), _ => True
  | tx b k, s => ∀ t, G.step s t → G.inv t → b.Meets G.cond t →
      G.Allows t (b.exec.atomic t).2 ∧ (k (b.exec.atomic t).1).Honors G post (b.exec.atomic t).2

variable {G : Guarantee L σ} {post : α → σ → Prop} {s : σ}

theorem honors_pure {a : α} (h : post a s) : (pure a : Call ε R L σ α).Honors G post s := h

theorem honors_fail (e : ε) : (fail e : Call ε R L σ α).Honors G post s := trivial

/-- The rule of consequence. -/
theorem honors_mono {c : Call ε R L σ α} {post' : α → σ → Prop}
    (himp : ∀ a s, post a s → post' a s) (h : c.Honors G post s) : c.Honors G post' s := by
  induction c generalizing s with
  | done r =>
    cases r with
    | ok a => exact himp a s h
    | error e => trivial
  | tx b k ih => exact fun t hst ht hm => ⟨(h t hst ht hm).1, ih _ (h t hst ht hm).2⟩

/-- The rule for sequencing. -/
theorem honors_bind {c : Call ε R L σ α} {f : α → Call ε R L σ β} {post : β → σ → Prop}
    (h : c.Honors G (fun a t => (f a).Honors G post t) s) : (c >>= f).Honors G post s := by
  show (c.bind f).Honors G post s
  induction c generalizing s with
  | done r =>
    cases r with
    | ok a => exact h
    | error e => trivial
  | tx b k ih => exact fun t hst ht hm => ⟨(h t hst ht hm).1, ih _ (h t hst ht hm).2⟩

/-- What follows may rely on what the first part returns. -/
theorem honors_seq {c : Call ε R L σ α} {f : α → Call ε R L σ β} {mid : α → σ → Prop}
    {post : β → σ → Prop} (h : c.Honors G mid s)
    (hf : ∀ a t, mid a t → (f a).Honors G post t) : (c >>= f).Honors G post s :=
  honors_bind (honors_mono hf h)

theorem honors_check {c : Bool} {e : ε} {post : Unit → σ → Prop} (h : c = true → post () s) :
    (check c e : Call ε R L σ Unit).Honors G post s := by
  cases c with
  | false => exact honors_fail e
  | true => exact h rfl

/-- A check throws, or what follows may rely on it. -/
theorem honors_check_bind {c : Bool} {e : ε} {f : Unit → Call ε R L σ α}
    (hf : c = true → (f ()).Honors G post s) : (check c e >>= f).Honors G post s := by
  cases c with
  | false => exact honors_fail e
  | true => exact hf rfl

theorem honors_getOrFail_bind {o : Option β} {e : ε} {f : β → Call ε R L σ α}
    (hf : ∀ b, o = some b → (f b).Honors G post s) :
    (getOrFail o e >>= f).Honors G post s := by
  cases o with
  | none => exact honors_fail e
  | some b => exact hf b rfl

theorem honors_ofExcept_bind {r : Except ε β} {f : β → Call ε R L σ α}
    (hf : ∀ b, r = .ok b → (f b).Honors G post s) : (ofExcept r >>= f).Honors G post s := by
  cases r with
  | error e => exact honors_fail e
  | ok b => exact hf b rfl

/-- A transaction keeps the guarantee when it succeeds; otherwise it leaves the state alone. -/
theorem honors_transaction {b : Block ε R L σ α} {g : ε → ε}
    (h : ∀ t a t', G.step s t → G.inv t → b.Meets G.cond t → b.Ok t a t' →
      G.Allows t t' ∧ post a t') : (transaction b g).Honors G post s := by
  intro t hst ht hm
  have hok := fun a t' => h t a t' hst ht hm
  simp only [Block.Ok, Tx.Ok, Tx.run] at hok
  simp only [Tx.atomic]
  rcases hrun : b.exec t with ⟨x, t'⟩
  cases x with
  | ok a => exact hok a t' hrun
  | error e => exact ⟨Guarantee.allows_self ht, trivial⟩

theorem honors_transaction_bind {b : Block ε R L σ β} {g : ε → ε} {f : β → Call ε R L σ α}
    (h : ∀ t a t', G.step s t → G.inv t → b.Meets G.cond t → b.Ok t a t' →
      G.Allows t t' ∧ (f a).Honors G post t') : (transaction b g >>= f).Honors G post s :=
  honors_seq (honors_transaction h) fun _ _ h => h

/-- What a statement of its own has read is the state that follows on it. -/
theorem honors_get_bind {f : σ → Call ε R L σ α}
    (h : ∀ t, G.step s t → G.inv t → (f t).Honors G post t) :
    (transaction Block.get >>= f).Honors G post s := by
  refine honors_transaction_bind fun t a t' hst ht _ hok => ?_
  obtain ⟨rfl, rfl⟩ := Block.ok_get.mp hok
  exact ⟨Guarantee.allows_self ht, h _ hst ht⟩

end Call

namespace Pool

variable {Q ε R L σ α : Type} [Supply σ] [History L σ] {G : Guarantee L σ}
  {serve : Q → Call ε R L σ α} {env quiet : σ → σ → Prop} {outcome : Q → α → σ → Prop}

/-- The guarantee holds, and every call honors it from a state that the present one follows; the
value it returns is one that the outcome of its request admits. -/
def Honored (G : Guarantee L σ) (outcome : Q → α → σ → Prop) (s₀ : σ) (p : Pool Q ε R L σ α) :
    Prop :=
  G.Allows s₀ p.db ∧ ∀ c ∈ p.calls, ∃ s, G.step s p.db ∧ c.2.Honors G (outcome c.1) s

/-- When the state takes a step of the guarantee, the other calls rely on it. -/
theorem Honored.step {s₀ s' : σ} {p : Pool Q ε R L σ α} (h : p.Honored G outcome s₀)
    (hstep : G.Allows p.db s') : Honored G outcome s₀ { p with db := s' } := by
  refine ⟨h.1.trans hstep, fun c hc => ?_⟩
  obtain ⟨s, hs, hc⟩ := h.2 c hc
  exact ⟨s, G.trans _ _ _ hs hstep.2, hc⟩

theorem Honored.next {s₀ : σ} {p p' : Pool Q ε R L σ α} {e : PoolEvent Q σ}
    (hserve : ∀ q s, G.inv s → (serve q).Honors G (outcome q) s)
    (henv : ∀ s s', G.inv s → env s s' → quiet s s' → G.Allows s s')
    (h : p.Honored G outcome s₀) (hallowed : p.Allowed G.cond quiet e)
    (hstep : p.Step serve env e p') : p'.Honored G outcome s₀ := by
  obtain ⟨hnext, hout⟩ := hstep
  cases e with
  | start q =>
    cases hnext
    refine ⟨h.1, fun c hc => ?_⟩
    rcases List.mem_append.mp hc with hc | hc
    · exact h.2 c hc
    · rw [List.mem_singleton] at hc
      subst hc
      exact ⟨p.db, G.refl _, hserve q p.db h.1.1⟩
  | outside s =>
    cases hnext
    exact h.step (henv _ _ h.1.1 (hout s rfl) hallowed)
  | advance i =>
    simp only [Pool.next] at hnext
    simp only [Allowed] at hallowed
    cases hi : p.calls[i]? with
    | none =>
      rw [hi] at hnext
      cases hnext
    | some qc =>
      obtain ⟨q, c⟩ := qc
      cases c with
      | done r =>
        rw [hi] at hnext
        cases hnext
      | tx b k =>
        rw [hi] at hnext hallowed
        cases hnext
        obtain ⟨s, hs, hhonors⟩ := h.2 _ (List.mem_of_getElem? hi)
        obtain ⟨hstep, hrest⟩ := hhonors p.db hs h.1.1 hallowed
        refine ⟨h.1.trans hstep, fun c hc => ?_⟩
        rcases List.mem_or_eq_of_mem_set hc with hc | rfl
        · exact (h.step hstep).2 c hc
        · exact ⟨_, G.refl _, hrest⟩

/-- What every call honors and the surroundings keep is honored in every pool reached. -/
theorem honored_run {p p' : Pool Q ε R L σ α}
    (hserve : ∀ q s, G.inv s → (serve q).Honors G (outcome q) s)
    (henv : ∀ s s', G.inv s → env s s' → quiet s s' → G.Allows s s') (hp : G.inv p.db)
    (hcalls : p.calls = []) (hrun : Runs (Step serve env) (Allowed G.cond quiet) p p') :
    p'.Honored G outcome p.db := by
  have hstart : p.Honored G outcome p.db :=
    ⟨Guarantee.allows_self hp, fun c hc => absurd (hcalls ▸ hc) List.not_mem_nil⟩
  exact hrun.invariant (I := Honored G outcome p.db) hstart
    fun _ _ _ h hallowed hstep => h.next hserve henv hallowed hstep

/-- What was returned met its outcome at the time. -/
theorem Honored.returned {s₀ : σ} {p : Pool Q ε R L σ α} {q : Q} {a : α}
    (h : p.Honored G outcome s₀) (hmem : (q, Call.done (.ok a)) ∈ p.calls) :
    ∃ s, G.step s p.db ∧ outcome q a s := h.2 _ hmem

/-- The same for calls whose values do not matter. -/
theorem guaranteed {p p' : Pool Q ε R L σ α}
    (hserve : ∀ q s, G.inv s → (serve q).Honors G (fun _ _ => True) s)
    (henv : ∀ s s', G.inv s → env s s' → quiet s s' → G.Allows s s') (hp : G.inv p.db)
    (hcalls : p.calls = []) (hrun : Runs (Step serve env) (Allowed G.cond quiet) p p') :
    G.Allows p.db p'.db :=
  (honored_run hserve henv hp hcalls hrun : p'.Honored G (fun _ _ _ => True) p.db).1

end Pool

end ArkanGold
