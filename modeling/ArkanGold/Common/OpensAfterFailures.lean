import ArkanGold.Common.CircuitBreaker

/-!
# When the circuit opens

A service is cut off only after it has failed several times without a success in between: a call is
refused only if the circuit was opened by `failureThreshold` counted failures in a row
(`refused_only_after_failures`), whatever calls are in flight and however late they end. A probe can
keep the circuit open, but there is none before the circuit has opened.
-/

namespace ArkanGold

namespace CircuitBreaker

variable {opts : Options} {s s' : World} {es : List Event} {e : Event}

/-! ## Failures in a row -/

/-- The failures in a row after an event. What `isFailure` does not count is passed over. -/
def rowStep (n : ℕ) : Event → ℕ
  | .complete _ .success => 0
  | .complete _ .counted => n + 1
  | _ => n

/-- The counted failures since the last success. -/
def inARow (es : List Event) : ℕ := es.foldl rowStep 0

theorem inARow_snoc : inARow (es ++ [e]) = rowStep (inARow es) e := by
  simp [inARow]

/-- At some time enough calls in a row had failed. -/
def Tripped (opts : Options) (es : List Event) : Prop :=
  ∃ before, before <+: es ∧ 0 < inARow before ∧ opts.failureThreshold ≤ inARow before

theorem Tripped.snoc (h : Tripped opts es) : Tripped opts (es ++ [e]) := by
  obtain ⟨before, hbefore, henough⟩ := h
  exact ⟨before, hbefore.trans (List.prefix_append ..), henough⟩

/-- What a completion does to the counter. -/
theorem failures_settle {now : ℤ} {probe : Bool} {b : Breaker} (o : Outcome) :
    (b.settle opts now probe o).failures =
      match o with
      | .success => 0
      | .counted => b.failures + 1
      | .uncounted => b.failures := by
  cases o <;> cases probe <;> rfl

/-! ## The invariant -/

/-- The counter is the failures in a row, and neither the circuit is open nor a probe in flight
before there were enough of them. -/
structure Counted (opts : Options) (es : List Event) (s : World) : Prop where
  failures : s.breaker.failures = inARow es
  circuit : s.breaker.openedAt.isSome = true → Tripped opts es
  probe : ∀ c ∈ s.calls, c.probe = true → Tripped opts es

/-- The failure that opens the circuit is the last of a row that is long enough, or of a probe. -/
theorem Counted.tripped (h : Counted opts es s) {i : ℕ} {c : Running} (hc : s.calls[i]? = some c)
    (hopens : s.breaker.opens opts c.probe = true) :
    Tripped opts (es ++ [.complete i .counted]) := by
  rcases Bool.or_eq_true_iff.mp hopens with hprobe | henough
  · exact (h.probe c (List.mem_of_getElem? hc) hprobe).snoc
  · have hrow : inARow (es ++ [.complete i .counted]) = s.breaker.failures + 1 := by
      rw [inARow_snoc, h.failures]
      rfl
    exact ⟨_, List.prefix_rfl, by omega, hrow ▸ of_decide_eq_true henough⟩

/-- The step lemma: every event keeps the count. -/
theorem Counted.step (h : Counted opts es s) (hstep : World.Step opts s e s') :
    Counted opts (es ++ [e]) s' := by
  cases e with
  | pass ms =>
    cases hstep
    exact ⟨inARow_snoc ▸ h.failures, fun ho => (h.circuit ho).snoc,
      fun c hc hp => (h.probe c hc hp).snoc⟩
  | start =>
    simp only [World.Step, World.next] at hstep
    split at hstep
    case h_1 =>
      cases hstep
      exact ⟨inARow_snoc ▸ h.failures, fun ho => (h.circuit ho).snoc,
        fun c hc hp => (h.probe c hc hp).snoc⟩
    case h_2 probe b henter =>
      cases hstep
      -- a probe gets through an open circuit only
      have hprobe : probe = true → Tripped opts es := by
        intro hp
        rcases enter_eq_some henter with ⟨hnot, -⟩ | ⟨-, -, -, t, ht, -⟩
        · rw [hnot] at hp
          cases hp
        · exact h.circuit (by rw [ht]; rfl)
      have hsame : b.failures = s.breaker.failures ∧ b.openedAt = s.breaker.openedAt := by
        rcases enter_eq_some henter with ⟨-, -, rfl⟩ | ⟨-, -, rfl, -⟩
        · exact ⟨rfl, rfl⟩
        · exact ⟨rfl, rfl⟩
      refine ⟨inARow_snoc ▸ hsame.1.trans h.failures, fun ho => ?_, fun c hc hp => ?_⟩
      · exact (h.circuit (hsame.2 ▸ ho)).snoc
      · rcases List.mem_append.mp hc with hold | hnew
        · exact (h.probe c hold hp).snoc
        · obtain rfl := List.mem_singleton.mp hnew
          exact (hprobe hp).snoc
  | complete i o =>
    simp only [World.Step, World.next] at hstep
    split at hstep
    case h_1 => cases hstep
    case h_2 c hc =>
      cases hstep
      refine ⟨?_, fun ho => ?_, fun d hd hp => ?_⟩
      · rw [failures_settle, inARow_snoc, ← h.failures]
        cases o <;> rfl
      · rw [openedAt_settle] at ho
        cases o with
        | success => cases ho
        | uncounted => exact (h.circuit ho).snoc
        | counted =>
          dsimp only at ho
          split at ho
          · exact h.tripped hc (by assumption)
          · exact (h.circuit ho).snoc
      · exact (h.probe d (List.mem_of_mem_eraseIdx hd) hp).snoc

/-! ## Runs -/

theorem play_snoc {test : World → Event → Bool} (hplay : s.play opts test (es ++ [e]) = some s') :
    ∃ t, s.play opts test es = some t ∧ World.Step opts t e s' := by
  induction es generalizing s with
  | nil =>
    rw [List.nil_append, World.play] at hplay
    split at hplay
    · obtain ⟨t, ht, hrest⟩ := Option.bind_eq_some_iff.mp hplay
      cases hrest
      exact ⟨s, rfl, ht⟩
    · cases hplay
  | cons d es ih =>
    rw [List.cons_append, World.play] at hplay
    rw [World.play]
    split at hplay
    · rename_i htest
      obtain ⟨t, ht, hrest⟩ := Option.bind_eq_some_iff.mp hplay
      rw [if_pos htest, ht]
      exact ih hrest
    · cases hplay

theorem counted_of_play {test : World → Event → Bool} {t₀ : ℤ}
    (hplay : (start t₀).play opts test es = some s) : Counted opts es s := by
  induction es using List.reverseRecOn generalizing s with
  | nil =>
    cases hplay
    exact ⟨rfl, by simp [start], by simp [start]⟩
  | append_singleton es e ih =>
    obtain ⟨t, ht, hstep⟩ := play_snoc hplay
    exact (ih ht).step hstep

/-- The counter is the number of counted failures since the last success, and a call is refused
only if at some time `failureThreshold` of them had come in a row. -/
theorem refused_only_after_failures {test : World → Event → Bool} {t₀ : ℤ}
    (hplay : (start t₀).play opts test es = some s) : s.breaker.failures = inARow es ∧
      ∀ now, s.breaker.enter opts now = none → Tripped opts es := by
  have hcounted := counted_of_play hplay
  refine ⟨hcounted.failures, fun now hrefused => hcounted.circuit ?_⟩
  cases hopened : s.breaker.openedAt with
  | some t => rfl
  | none => simp [Breaker.enter, Breaker.state, hopened] at hrefused

/-- `refused_only_after_failures` for a circuit that opens with the first failure. -/
theorem refused_only_after_failures_strict : ∃ s,
    (start 0).play strict (fun _ _ => true) [.start, .complete 0 .counted] = some s ∧
    s.breaker.enter strict 1 = none ∧ s.breaker.failures = 1 ∧
      ∀ now, s.breaker.enter strict now = none →
        Tripped strict [.start, .complete 0 .counted] := by
  have hplayed : ((start 0).play strict (fun _ _ => true) [.start, .complete 0 .counted]).map
      (fun s => s.breaker.enter strict 1) = some none := by decide +kernel
  obtain ⟨s, hs, hrefused⟩ := Option.map_eq_some_iff.mp hplayed
  exact ⟨s, hs, hrefused, refused_only_after_failures hs⟩

end CircuitBreaker

end ArkanGold
