import ArkanGold.Lib.Runs

/-!
# The circuit breaker

`CircuitBreaker.execute` with the calls in flight: a call is started in one state of the circuit
and completed in another.

- `Breaker` has the fields of the class, `Running` the calls in flight, and the history says when
  calls have reached the service, and when the circuit has opened and closed.
- `openSince` is the circuit that the history describes: it opens with every counted failure that
  opens it, and only the success of a probe closes it. `Sound` says that the field `openedAt` is
  that circuit.
- A call of an earlier period that succeeds late closes whatever is open: `SucceedsInTime` rules
  that out, and `closed_by_a_late_success` is what happens then.
-/

namespace ArkanGold

namespace CircuitBreaker

/-- `CircuitBreakerOptions`, with the defaults of the constructor. -/
structure Options where
  failureThreshold : ℕ := 5
  cooldownMs : ℤ := 30000

/-- `CircuitState` -/
inductive CircuitState where
  | closed
  | opened
  | halfOpen
  deriving DecidableEq

/-- The fields of the class. -/
structure Breaker where
  failures : ℕ
  openedAt : Option ℤ
  probing : Bool
  deriving DecidableEq

/-- How the protected function ends; `isFailure` tells the failures apart. -/
inductive Outcome where
  | success
  | counted
  | uncounted
  deriving DecidableEq

variable (opts : Options)

/-- `state` -/
def Breaker.state (now : ℤ) (b : Breaker) : CircuitState :=
  match b.openedAt with
  | none => .closed
  | some t => if opts.cooldownMs ≤ now - t then .halfOpen else .opened

/-- `execute` up to the call of `fn`: whether it is a probe, and nothing for a `CircuitOpenError`. -/
def Breaker.enter (now : ℤ) (b : Breaker) : Option (Bool × Breaker) :=
  match b.state opts now with
  | .opened => none
  | .closed => some (false, b)
  | .halfOpen => if b.probing then none else some (true, { b with probing := true })

/-- `onSuccess` -/
def Breaker.onSuccess (b : Breaker) : Breaker := { b with failures := 0, openedAt := none }

/-- Whether a counted failure opens the circuit. -/
def Breaker.opens (b : Breaker) (probe : Bool) : Bool :=
  probe || decide (opts.failureThreshold ≤ b.failures + 1)

/-- `onFailure` -/
def Breaker.onFailure (now : ℤ) (probe : Bool) (b : Breaker) : Breaker :=
  { b with
    failures := b.failures + 1
    openedAt := if b.opens opts probe then some now else b.openedAt }

/-- The `finally` of `execute`. -/
def Breaker.leave (probe : Bool) (b : Breaker) : Breaker :=
  if probe then { b with probing := false } else b

/-- `execute` from the end of `fn`. -/
def Breaker.settle (now : ℤ) (probe : Bool) (o : Outcome) (b : Breaker) : Breaker :=
  match o with
  | .success => b.onSuccess.leave probe
  | .counted => (b.onFailure opts now probe).leave probe
  | .uncounted => b.leave probe

/-! ## Calls in flight -/

/-- A call that has reached the service. -/
structure Running where
  probe : Bool
  deriving DecidableEq

/-- What properties of runs say about the circuit. -/
inductive Mark where
  /-- a call reaches the service -/
  | reaches (time : ℤ) (probe : Bool)
  /-- a counted failure opens the circuit, or keeps it open from now -/
  | opens (time : ℤ)
  /-- the success of a call closes the circuit -/
  | closes (probe : Bool)
  deriving DecidableEq

/-- The breaker, the clock and the calls in flight. -/
structure World where
  breaker : Breaker
  now : ℤ
  calls : List Running
  history : List Mark

/-- What can happen. -/
inductive Event where
  /-- `execute` is called -/
  | start
  /-- the function of a call in flight ends -/
  | complete (i : ℕ) (o : Outcome)
  /-- time passes -/
  | pass (ms : ℕ)
  deriving DecidableEq

/-- The mark that a completion leaves, if it moves the circuit. -/
def World.markOf (s : World) (probe : Bool) : Outcome → List Mark
  | .success => if s.breaker.openedAt.isSome then [.closes probe] else []
  | .counted => if s.breaker.opens opts probe then [.opens s.now] else []
  | .uncounted => []

/-- The world after an event; a call that is refused changes nothing. -/
def World.next (s : World) : Event → Option World
  | .start =>
    match s.breaker.enter opts s.now with
    | none => some s
    | some (probe, b) =>
      some
        { s with
          breaker := b
          calls := s.calls ++ [⟨probe⟩]
          history := s.history ++ [.reaches s.now probe] }
  | .complete i o =>
    match s.calls[i]? with
    | none => none
    | some c =>
      some
        { s with
          breaker := s.breaker.settle opts s.now c.probe o
          calls := s.calls.eraseIdx i
          history := s.history ++ s.markOf opts c.probe o }
  | .pass ms => some { s with now := s.now + ms }

/-- One step. -/
def World.Step (s : World) (e : Event) (s' : World) : Prop := s.next opts e = some s'

/-- A new breaker. -/
def start (now : ℤ) : World := ⟨⟨0, none, false⟩, now, [], []⟩

/-! ## The circuit -/

/-- The circuit after a mark. -/
def openStep : Option ℤ → Mark → Option ℤ
  | _, .opens t => some t
  | _, .closes true => none
  | since, _ => since

/-- Since when the circuit is open: the last opening, unless a probe has succeeded after it. -/
def openSince (h : List Mark) : Option ℤ := h.foldl openStep none

@[simp] theorem openSince_snoc (h : List Mark) (l : Mark) :
    openSince (h ++ [l]) = openStep (openSince h) l := by
  simp [openSince]

/-- The number of probes in flight. -/
def probes (s : World) : ℕ := s.calls.countP Running.probe

/-- The property. -/
structure Safe (s : World) : Prop where
  /-- no call reaches the service within the cooldown of an open circuit -/
  refuses : ∀ h t probe, (h ++ [.reaches t probe]) <+: s.history →
    ∀ t₀, openSince h = some t₀ → opts.cooldownMs ≤ t - t₀
  oneProbe : probes s ≤ 1
  closes : ∀ probe, .closes probe ∈ s.history → probe = true
  /-- without a probe in flight, a call that comes a cooldown later is let through -/
  recovers : probes s = 0 → ∀ t, s.now + opts.cooldownMs ≤ t → (s.breaker.enter opts t).isSome

variable {opts} {s s' : World} {b b' : Breaker} {h : List Mark} {l : Mark} {now : ℤ} {probe : Bool}

/-! ## One call -/

/-- A call gets through a closed circuit, or as the only probe after the cooldown. -/
theorem enter_eq_some (h : b.enter opts now = some (probe, b')) :
    (probe = false ∧ b.openedAt = none ∧ b' = b) ∨
      (probe = true ∧ b.probing = false ∧ b' = { b with probing := true } ∧
        ∃ t, b.openedAt = some t ∧ opts.cooldownMs ≤ now - t) := by
  unfold Breaker.enter Breaker.state at h
  cases ht : b.openedAt with
  | none =>
    simp only [ht, Option.some.injEq, Prod.mk.injEq] at h
    exact .inl ⟨h.1.symm, rfl, h.2.symm⟩
  | some t =>
    by_cases hcool : opts.cooldownMs ≤ now - t
    · cases hprobing : b.probing with
      | true => simp [ht, hcool, hprobing] at h
      | false =>
        simp only [ht, if_pos hcool, hprobing, Bool.false_eq_true, if_false, Option.some.injEq,
          Prod.mk.injEq] at h
        exact .inr ⟨h.1.symm, rfl, h.2.symm, t, rfl, hcool⟩
    · simp [ht, hcool] at h

/-- Nothing is refused after the cooldown but for a probe. -/
theorem enter_isSome (hprobing : b.probing = false)
    (hcool : ∀ t, b.openedAt = some t → opts.cooldownMs ≤ now - t) :
    (b.enter opts now).isSome = true := by
  unfold Breaker.enter Breaker.state
  cases ht : b.openedAt with
  | none => rfl
  | some t => simp [hcool t ht, hprobing]

@[simp] theorem probing_settle (o : Outcome) :
    (b.settle opts now probe o).probing = (b.probing && !probe) := by
  cases o <;> cases probe <;> simp [Breaker.settle, Breaker.leave, Breaker.onSuccess,
    Breaker.onFailure]

theorem openedAt_leave : (b.leave probe).openedAt = b.openedAt := by
  cases probe <;> rfl

/-- What a completion does to the circuit. -/
theorem openedAt_settle (o : Outcome) : (b.settle opts now probe o).openedAt =
    match o with
    | .success => none
    | .counted => if b.opens opts probe then some now else b.openedAt
    | .uncounted => b.openedAt := by
  cases o with
  | success => exact openedAt_leave
  | counted => exact openedAt_leave
  | uncounted => exact openedAt_leave

/-! ## Probes -/

/-- The flag says that a probe is in flight, and nothing was opened in the future. -/
structure Tracked (s : World) : Prop where
  flag : probes s = if s.breaker.probing then 1 else 0
  past : ∀ t, s.breaker.openedAt = some t → t ≤ s.now

/-- A call is taken out of those in flight. -/
theorem probes_erase {calls : List Running} {i : ℕ} {c : Running} (hc : calls[i]? = some c) :
    calls.countP Running.probe =
      (calls.eraseIdx i).countP Running.probe + if c.probe then 1 else 0 := by
  obtain ⟨hlt, rfl⟩ := List.getElem?_eq_some_iff.mp hc
  rw [← (List.getElem_cons_eraseIdx_perm hlt).countP_eq, List.countP_cons]

/-- The step lemma of the flag: every event keeps it, however late. -/
theorem Tracked.step {e : Event} (hs : Tracked s) (hstep : World.Step opts s e s') :
    Tracked s' := by
  cases e with
  | pass ms =>
    cases hstep
    exact ⟨hs.flag, fun t ht => (hs.past t ht).trans (by simp)⟩
  | start =>
    simp only [World.Step, World.next] at hstep
    split at hstep
    case h_1 =>
      cases hstep
      exact hs
    case h_2 probe b henter =>
      cases hstep
      rcases enter_eq_some henter with ⟨rfl, -, rfl⟩ | ⟨rfl, hprobing, rfl, -⟩
      · refine ⟨?_, hs.past⟩
        simpa [probes] using hs.flag
      · refine ⟨?_, hs.past⟩
        have hnone : s.calls.countP Running.probe = 0 := by simpa [probes, hprobing] using hs.flag
        simp [probes, hnone]
  | complete i o =>
    simp only [World.Step, World.next] at hstep
    split at hstep
    case h_1 => cases hstep
    case h_2 c hc =>
      cases hstep
      have hcount := probes_erase hc
      have hflag := hs.flag
      simp only [probes] at hflag
      constructor
      · simp only [probes, probing_settle]
        generalize s.calls.countP Running.probe = n at hcount hflag
        generalize (s.calls.eraseIdx i).countP Running.probe = m at hcount ⊢
        subst hcount
        cases hprobe : c.probe <;> cases hprobing : s.breaker.probing <;>
          simp [hprobe, hprobing] at hflag ⊢ <;> omega
      · intro t ht
        rw [openedAt_settle] at ht
        cases o with
        | success => cases ht
        | uncounted => exact hs.past t ht
        | counted =>
          dsimp only at ht
          split at ht
          · cases ht
            exact le_rfl
          · exact hs.past t ht

/-! ## The circuit that the history describes -/

/-- The breaker has the circuit of the history, and what was asked of the history so far. -/
structure Sound (opts : Options) (s : World) : Prop where
  since : s.breaker.openedAt = openSince s.history
  refuses : ∀ h t probe, (h ++ [.reaches t probe]) <+: s.history →
    ∀ t₀, openSince h = some t₀ → opts.cooldownMs ≤ t - t₀
  closes : ∀ probe, .closes probe ∈ s.history → probe = true

/-- A mark other than a call that reaches the service. -/
theorem Sound.refuses_snoc (hs : Sound opts s) (hl : ∀ t probe, l ≠ .reaches t probe) {t : ℤ}
    (hbegins : (h ++ [.reaches t probe]) <+: s.history ++ [l]) {t₀ : ℤ}
    (ht₀ : openSince h = some t₀) : opts.cooldownMs ≤ t - t₀ := by
  rcases List.prefix_concat_iff.mp hbegins with heq | hbegins
  · exact absurd (List.append_inj' heq rfl).2 (by simpa using fun heq => hl _ _ heq.symm)
  · exact hs.refuses h t probe hbegins t₀ ht₀

/-- A call of an earlier period does not succeed any more once the circuit has opened. -/
def SucceedsInTime (s : World) : Event → Prop
  | .complete i .success => ∀ c, s.calls[i]? = some c → c.probe = false →
      s.breaker.openedAt = none
  | _ => True

/-- The step lemma of the circuit. -/
theorem Sound.step {e : Event} (hs : Sound opts s) (hok : SucceedsInTime s e)
    (hstep : World.Step opts s e s') : Sound opts s' := by
  cases e with
  | pass ms =>
    cases hstep
    exact ⟨hs.since, hs.refuses, hs.closes⟩
  | start =>
    simp only [World.Step, World.next] at hstep
    split at hstep
    case h_1 =>
      cases hstep
      exact hs
    case h_2 probe b henter =>
      cases hstep
      have hopenedAt : b.openedAt = s.breaker.openedAt ∧
          ∀ t, s.breaker.openedAt = some t → opts.cooldownMs ≤ s.now - t := by
        rcases enter_eq_some henter with ⟨-, hnone, rfl⟩ | ⟨-, -, rfl, t, ht, hcool⟩
        · exact ⟨rfl, fun t ht => by simp [hnone] at ht⟩
        · exact ⟨rfl, fun t' ht' => by
            cases ht.symm.trans ht'
            exact hcool⟩
      refine ⟨?_, fun h t probe' hbegins t₀ ht₀ => ?_, fun probe' hmem => ?_⟩
      · show b.openedAt = openSince (s.history ++ [.reaches s.now probe])
        rw [hopenedAt.1, openSince_snoc]
        exact hs.since
      · rcases List.prefix_concat_iff.mp hbegins with heq | hbegins
        · obtain ⟨rfl, hlast⟩ := List.append_inj' heq rfl
          cases hlast
          exact hopenedAt.2 t₀ (hs.since.trans ht₀)
        · exact hs.refuses h t probe' hbegins t₀ ht₀
      · exact hs.closes probe' (by simpa using hmem)
  | complete i o =>
    simp only [World.Step, World.next] at hstep
    split at hstep
    case h_1 => cases hstep
    case h_2 c hc =>
      cases hstep
      cases o with
      | uncounted =>
        refine ⟨?_, ?_, ?_⟩
        · simpa [openedAt_settle, World.markOf] using hs.since
        · simpa [World.markOf] using hs.refuses
        · simpa [World.markOf] using hs.closes
      | counted =>
        cases hopens : s.breaker.opens opts c.probe with
        | false =>
          refine ⟨?_, ?_, ?_⟩
          · simpa [openedAt_settle, World.markOf, hopens] using hs.since
          · simpa [World.markOf, hopens] using hs.refuses
          · simpa [World.markOf, hopens] using hs.closes
        | true =>
          simp only [World.markOf, hopens, if_true]
          refine ⟨?_, fun h t probe hbegins t₀ ht₀ => ?_, fun probe hmem => ?_⟩
          · simp [openedAt_settle, hopens, openStep]
          · exact hs.refuses_snoc (by simp) hbegins ht₀
          · exact hs.closes probe (by simpa using hmem)
      | success =>
        cases hopened : s.breaker.openedAt with
        | none =>
          simp only [World.markOf, hopened, Option.isSome_none, Bool.false_eq_true, if_false,
            List.append_nil]
          refine ⟨?_, hs.refuses, hs.closes⟩
          rw [openedAt_settle]
          exact hopened.symm.trans hs.since
        | some t₁ =>
          -- only a probe may succeed while the circuit is not closed
          have hprobe : c.probe = true := by
            by_contra hne
            have hnone := hok c hc (by simpa using hne)
            rw [hopened] at hnone
            cases hnone
          simp only [World.markOf, hopened, Option.isSome_some, if_true, hprobe]
          refine ⟨?_, fun h t probe hbegins t₀ ht₀ => ?_, fun probe hmem => ?_⟩
          · simp [openedAt_settle, openStep]
          · exact hs.refuses_snoc (by simp) hbegins ht₀
          · rcases List.mem_append.mp hmem with hmem | hmem
            · exact hs.closes probe hmem
            · simpa using hmem

/-! ## Runs -/

/-- In every run, a probe is alone and leaves the breaker usable. -/
theorem one_probe {t₀ : ℤ} {ok : World → Event → Prop}
    (hrun : Runs (World.Step opts) ok (start t₀) s) : probes s ≤ 1 ∧
      (probes s = 0 → ∀ t, s.now + opts.cooldownMs ≤ t → (s.breaker.enter opts t).isSome) := by
  have hs : Tracked s :=
    hrun.invariant (I := Tracked) ⟨rfl, nofun⟩ fun _ _ _ hs _ hstep => hs.step hstep
  constructor
  · rw [hs.flag]
    split <;> omega
  · intro hnone t ht
    refine enter_isSome ?_ fun t' ht' => ?_
    · cases hprobing : s.breaker.probing with
      | false => rfl
      | true => simp [hs.flag, hprobing] at hnone
    · have := hs.past t' ht'
      linarith

/-- As long as calls of an earlier period do not succeed late, the breaker is safe in every state
reached. -/
theorem breaker_safe {t₀ : ℤ} (hrun : Runs (World.Step opts) SucceedsInTime (start t₀) s) :
    Safe opts s := by
  have hs : Sound opts s := by
    refine hrun.invariant (I := Sound opts) ⟨rfl, fun h t probe hbegins => ?_, nofun⟩
      fun _ _ _ hs hok hstep => hs.step hok hstep
    exact absurd (List.prefix_nil.mp hbegins) (by simp)
  obtain ⟨hprobes, hrecovers⟩ := one_probe hrun
  exact ⟨hs.refuses, hprobes, hs.closes, hrecovers⟩

/-! ## A circuit that opens with the first failure -/

/-- Play a list of events as long as they meet a condition that can be computed. -/
def World.play (opts : Options) (test : World → Event → Bool) (s : World) :
    List Event → Option World
  | [] => some s
  | e :: es =>
    if test s e then (s.next opts e).bind fun s' => s'.play opts test es else none

theorem runs_of_play {test : World → Event → Bool} {ok : World → Event → Prop}
    (htest : ∀ s e, test s e = true → ok s e) {es : List Event}
    (h : s.play opts test es = some s') : Runs (World.Step opts) ok s s' := by
  induction es generalizing s with
  | nil =>
    cases h
    exact Runs.refl
  | cons e es ih =>
    rw [World.play] at h
    split at h
    case isTrue hok =>
      obtain ⟨t, ht, hrest⟩ := Option.bind_eq_some_iff.mp h
      exact (Runs.single (htest s e hok) ht).trans (ih hrest)
    case isFalse => cases h

/-- `SucceedsInTime` as a test. -/
def succeedsInTime (s : World) : Event → Bool
  | .complete i .success => s.calls[i]?.all fun c => c.probe || s.breaker.openedAt.isNone
  | _ => true

theorem succeedsInTime_sound (s : World) (e : Event) (h : succeedsInTime s e = true) :
    SucceedsInTime s e := by
  cases e with
  | start => trivial
  | pass ms => trivial
  | complete i o =>
    cases o with
    | counted => trivial
    | uncounted => trivial
    | success =>
      intro c hc hprobe
      simpa [succeedsInTime, hc, hprobe] using h

/-- One failure opens the circuit for half a minute. -/
def strict : Options where
  failureThreshold := 1

/-- `breaker_safe` for a circuit that opens, lets a probe through and closes. -/
theorem breaker_safe_strict : ∃ s,
    (start 0).play strict succeedsInTime [.start, .complete 0 .counted, .start, .pass 30000, .start,
      .start, .complete 0 .success, .start] = some s ∧
    s.history = [.reaches 0 false, .opens 0, .reaches 30000 true, .closes true,
      .reaches 30000 false] ∧ Safe strict s := by
  have hplayed : ((start 0).play strict succeedsInTime [.start, .complete 0 .counted, .start,
      .pass 30000, .start, .start, .complete 0 .success, .start]).map World.history =
        some [.reaches 0 false, .opens 0, .reaches 30000 true, .closes true,
          .reaches 30000 false] := by decide +kernel
  obtain ⟨s, hs, hhistory⟩ := Option.map_eq_some_iff.mp hplayed
  exact ⟨s, hs, hhistory, breaker_safe (runs_of_play succeedsInTime_sound hs)⟩

/-- Of two calls one fails and opens the circuit, and the other succeeds: the next one reaches the
service at once. -/
theorem closed_by_a_late_success : ∃ s, Runs (World.Step strict) always (start 0) s ∧
    s.history = [.reaches 0 false, .reaches 0 false, .opens 0, .closes false, .reaches 0 false] ∧
    ¬Safe strict s := by
  have hplayed : ((start 0).play strict (fun _ _ => true) [.start, .start, .complete 0 .counted,
      .complete 0 .success, .start]).map World.history =
        some [.reaches 0 false, .reaches 0 false, .opens 0, .closes false, .reaches 0 false] := by
    decide +kernel
  obtain ⟨s, hs, hhistory⟩ := Option.map_eq_some_iff.mp hplayed
  refine ⟨s, runs_of_play (fun _ _ _ => trivial) hs, hhistory, fun hsafe => ?_⟩
  exact absurd (hsafe.closes false (by simp [hhistory])) (by decide)

end CircuitBreaker

end ArkanGold
