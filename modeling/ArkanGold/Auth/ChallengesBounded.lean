import ArkanGold.Auth.LoginChallenge
import ArkanGold.Auth.StepUpBounded
import ArkanGold.Lib.Guarantee

/-!
# Challenges bound guessing

Every interleaving of the calls that compare a code on one login challenge, and with it what holds
of step-up challenges.

- `LoginSound`: a stage has five comparisons at most, one session results at most, and the record
  is gone when it has.
- `Orderly` is the condition: the attempts that a call has read are those made at the stage when it
  compares, and whoever stores the next stage, or opens a session without asking, finds the record
  still there.
-/

namespace ArkanGold

namespace LoginChallengeService

variable {s s' : LoginDb} {h : List LoginMark}

/-! ## Histories -/

/-- The mark of a comparison at a stage. -/
def isComparison (stage : ChallengeStage) : LoginMark → Bool
  | .compares st _ => decide (st = stage)
  | _ => false

/-- The mark of a session. -/
def isSession : LoginMark → Bool
  | .opens _ => true
  | _ => false

/-- The number of comparisons at a stage. -/
def compared (stage : ChallengeStage) (h : List LoginMark) : ℕ := h.countP (isComparison stage)

/-- The number of sessions. -/
def opened (h : List LoginMark) : ℕ := h.countP isSession

@[simp] theorem compared_snoc (stage : ChallengeStage) (l : LoginMark) :
    compared stage (h ++ [l]) = compared stage h + if isComparison stage l then 1 else 0 := by
  simp [compared, List.countP_append, List.countP_singleton]

@[simp] theorem opened_snoc (l : LoginMark) :
    opened (h ++ [l]) = opened h + if isSession l then 1 else 0 := by
  simp [opened, List.countP_append, List.countP_singleton]

/-- The property: every stage has its attempts, and the challenge one session. -/
structure Bounded (h : List LoginMark) : Prop where
  compared : ∀ stage, compared stage h ≤ MAX_CHALLENGE_ATTEMPTS
  sessions : opened h ≤ 1

/-! ## Commands -/

/-- What holds in every state reached. -/
structure LoginSound (s : LoginDb) : Prop where
  compared : ∀ stage, compared stage s.history ≤ MAX_CHALLENGE_ATTEMPTS
  once : opened s.history ≤ 1
  closed : 0 < opened s.history → s.challenge = none

/-- Nobody has come between what a call has read and what it does. -/
def Orderly : LoginMark → LoginDb → Prop
  | .compares stage read, s => compared stage s.history = read
  | .advances, s => s.challenge.isSome = true
  | .opens deleted, _ => deleted = true

/-- The invariant; nothing that was read needs to stay true. -/
def loginGuarantee : Guarantee LoginMark LoginDb where
  inv := LoginSound
  step _ _ := True
  cond := Orderly
  refl _ := trivial
  trans _ _ _ _ _ := trivial

/-- A deleted record, and other attempts. -/
theorem LoginSound.clear (hs : LoginSound s) (hhistory : s'.history = s.history)
    (hchallenge : s'.challenge = s.challenge ∨ s'.challenge = none) : LoginSound s' := by
  refine ⟨hhistory ▸ hs.compared, hhistory ▸ hs.once, fun hopen => ?_⟩
  rcases hchallenge with heq | hnone
  · exact heq.trans (hs.closed (hhistory ▸ hopen))
  · exact hnone

theorem LoginSound.compares {stage : ChallengeStage} {read : ℕ} (hs : LoginSound s)
    (hread : LoginChallengeService.compared stage s.history = read)
    (hmax : read < MAX_CHALLENGE_ATTEMPTS) : LoginSound (s.note (.compares stage read)) := by
  have hopened : opened (s.history ++ [.compares stage read]) = opened s.history := by
    simp [isSession]
  refine ⟨fun st => ?_, hopened ▸ hs.once, hopened ▸ hs.closed⟩
  show LoginChallengeService.compared st (s.history ++ [.compares stage read]) ≤ _
  rw [compared_snoc]
  by_cases hst : stage = st
  · subst hst
    simpa [isComparison, hread] using hmax
  · simpa [isComparison, hst] using hs.compared st

theorem LoginSound.advances {ch : LoginChallenge} (hs : LoginSound s)
    (hstored : s.challenge.isSome = true) :
    LoginSound ((s.note .advances).setChallenge (some ch)) := by
  have hopened : opened (s.history ++ [.advances]) = opened s.history := by simp [isSession]
  refine ⟨fun st => ?_, hopened ▸ hs.once, fun hopen => ?_⟩
  · simpa [isComparison] using hs.compared st
  · rw [hs.closed (hopened ▸ hopen)] at hstored
    cases hstored

theorem LoginSound.opens (hs : LoginSound s) (hstored : s.challenge.isSome = true) :
    LoginSound ((s.note (.opens s.challenge.isSome)).setChallenge none) := by
  have hnone : opened s.history = 0 := by
    by_contra hne
    rw [hs.closed (Nat.pos_of_ne_zero hne)] at hstored
    cases hstored
  refine ⟨fun st => ?_, ?_, fun _ => rfl⟩
  · simpa [isComparison] using hs.compared st
  · simp [hnone, isSession]

section Honors

variable {α : Type} {b : LoginStmt α} {post : α → LoginDb → Prop}

/-- A command keeps the invariant, whatever was read before. -/
theorem honors_command (h : ∀ t a t', LoginSound t → b.Meets Orderly t → b.Ok t a t' →
    LoginSound t' ∧ post a t') : (Call.transaction b : LoginCall α).Honors loginGuarantee post s :=
  Call.honors_transaction fun t a t' _ hs hmeets hok =>
    ⟨⟨(h t a t' hs hmeets hok).1, trivial⟩, (h t a t' hs hmeets hok).2⟩

/-- `DEL`, and the end of the attempts. -/
theorem honors_clear {g : LoginDb → LoginDb} (hhistory : ∀ s, (g s).history = s.history)
    (hchallenge : ∀ s, (g s).challenge = s.challenge ∨ (g s).challenge = none) :
    (Call.transaction (Block.write g) : LoginCall Unit).Honors loginGuarantee
      (fun _ _ => True) s := by
  refine honors_command fun t u t' hs _ hok => ⟨?_, trivial⟩
  obtain rfl := Block.ok_write.mp hok
  exact hs.clear (hhistory t) (hchallenge t)

theorem honors_delBoth :
    (Call.transaction delBoth).Honors loginGuarantee (fun _ _ => True) s :=
  honors_clear (fun _ => rfl) fun _ => .inr rfl

theorem honors_delAttempts :
    (Call.transaction (Block.write (LoginDb.setAttempts none)) : LoginCall Unit).Honors
      loginGuarantee (fun _ _ => True) s :=
  honors_clear (fun _ => rfl) fun _ => .inl rfl

/-- What `get` lets pass has attempts left. -/
theorem honors_get {kind : AccountKind} {stages : List ChallengeStage} :
    (get kind stages).Honors loginGuarantee
      (fun ch _ => ch.attempts < MAX_CHALLENGE_ATTEMPTS) s := by
  refine Call.honors_get_bind fun t _ _ => ?_
  refine Call.honors_getOrFail_bind fun ch _ => ?_
  refine Call.honors_get_bind fun u _ _ => ?_
  dsimp only
  split
  case isTrue => exact Call.honors_seq honors_delBoth fun _ _ _ => Call.honors_fail _
  case isFalse hlt => exact Call.honors_pure (not_le.mp hlt)

theorem honors_compareCode {ch : LoginChallenge} {right : Bool}
    (hmax : ch.attempts < MAX_CHALLENGE_ATTEMPTS) :
    (Call.transaction (compareCode ch right)).Honors loginGuarantee (fun _ _ => True) s := by
  refine honors_command fun t used t' hs hmeets hok => ⟨?_, trivial⟩
  simp only [compareCode, Block.ok_bind, Block.ok_mark, Block.ok_pure] at hok
  obtain ⟨_, _, rfl, -, rfl⟩ := hok
  exact hs.compares hmeets.1 hmax

theorem honors_fail : fail.Honors loginGuarantee (fun _ _ => True) s := by
  have hincr : (Call.transaction incrAttempts).Honors loginGuarantee (fun _ _ => True) s := by
    refine honors_command fun t n t' hs _ hok => ⟨?_, trivial⟩
    simp only [incrAttempts, Block.ok_bind, Block.ok_get, Block.ok_write, Block.ok_pure] at hok
    obtain ⟨_, _, ⟨rfl, rfl⟩, _, _, rfl, -, rfl⟩ := hok
    exact hs.clear rfl (.inl rfl)
  refine Call.honors_seq hincr fun n t _ => ?_
  split
  · exact Call.honors_seq honors_delBoth fun _ _ _ => Call.honors_pure trivial
  · exact Call.honors_pure trivial

theorem honors_consume {leads : Bool → Bool} :
    (consume leads).Honors loginGuarantee (fun _ _ => True) s := by
  refine Call.honors_seq honors_delAttempts fun _ _ _ => ?_
  refine honors_command fun t deleted t' hs hmeets hok => ⟨?_, trivial⟩
  have hmeets := (Block.meets_bind.mp hmeets).2 t t (Block.ok_get.mpr ⟨rfl, rfl⟩)
  simp only [delChallenge, Block.ok_bind, Block.ok_get] at hok
  obtain ⟨_, _, ⟨rfl, rfl⟩, hok⟩ := hok
  dsimp only at hmeets
  split at hok
  case isTrue hleads =>
    simp only [Block.ok_bind, Block.ok_mark, Block.ok_write, Block.ok_pure] at hok
    obtain ⟨_, _, rfl, _, _, rfl, -, rfl⟩ := hok
    rw [if_pos hleads] at hmeets
    exact hs.opens hmeets.1
  case isFalse =>
    simp only [Block.ok_bind, Block.ok_write, Block.ok_pure] at hok
    obtain ⟨_, _, rfl, -, rfl⟩ := hok
    exact hs.clear rfl (.inr rfl)

theorem honors_advance {ch : LoginChallenge} {stage : ChallengeStage} :
    (advance ch stage).Honors loginGuarantee (fun _ _ => True) s := by
  refine Call.honors_seq ?_ fun _ _ (_ : True) => honors_delAttempts
  refine honors_command fun t u t' hs hmeets hok => ⟨?_, trivial⟩
  simp only [storeStage, Block.ok_bind, Block.ok_mark, Block.ok_write] at hok
  obtain ⟨_, _, rfl, rfl⟩ := hok
  exact hs.advances hmeets.1

end Honors

/-! ## Calls -/

theorem honors_checkSecondFactor {ch : LoginChallenge} {a : LoginAnswers}
    (hmax : ch.attempts < MAX_CHALLENGE_ATTEMPTS) :
    (checkSecondFactor ch a).Honors loginGuarantee (fun _ _ => True) s := by
  refine Call.honors_check_bind fun _ => ?_
  refine Call.honors_seq (honors_compareCode hmax) fun used t _ => ?_
  split
  · exact Call.honors_pure trivial
  · refine Call.honors_seq honors_fail fun remaining u _ => ?_
    split
    · exact Call.honors_seq honors_consume fun _ _ _ => Call.honors_fail _
    · exact Call.honors_fail _

theorem honors_complete {result : LoginResult} :
    (complete result).Honors loginGuarantee (fun _ _ => True) s := by
  refine Call.honors_seq honors_consume fun deleted t _ => ?_
  exact Call.honors_check_bind fun _ => Call.honors_pure trivial

theorem honors_verifyStage {ch : LoginChallenge} {a : LoginAnswers}
    (hmax : ch.attempts < MAX_CHALLENGE_ATTEMPTS) :
    (verifyStage ch a).Honors loginGuarantee (fun _ _ => True) s := by
  refine Call.honors_seq (honors_checkSecondFactor hmax) fun _ _ _ => ?_
  split
  · exact Call.honors_seq honors_advance fun _ _ _ => Call.honors_pure trivial
  · exact honors_complete

theorem honors_verifyLoginMfa {a : LoginAnswers} :
    (verifyLoginMfa a).Honors loginGuarantee (fun _ _ => True) s := by
  refine Call.honors_seq honors_get fun ch t hmax => ?_
  refine Call.honors_check_bind fun _ => ?_
  split
  · split
    · exact Call.honors_seq honors_consume fun _ _ _ => Call.honors_fail _
    · exact honors_verifyStage hmax
  · split
    · exact Call.honors_seq honors_fail fun _ _ _ => Call.honors_fail _
    · exact Call.honors_fail _

theorem honors_verifyResetMfa {a : LoginAnswers} :
    (verifyResetMfa a).Honors loginGuarantee (fun _ _ => True) s := by
  refine Call.honors_seq honors_get fun ch t hmax => ?_
  refine Call.honors_check_bind fun _ => ?_
  exact Call.honors_seq (honors_checkSecondFactor hmax) fun _ _ _ => honors_complete

theorem honors_loginMfaVerify {a : LoginAnswers} :
    (loginMfaVerify a).Honors loginGuarantee (fun _ _ => True) s := by
  refine Call.honors_seq honors_get fun ch t hmax => ?_
  refine Call.honors_check_bind fun _ => ?_
  refine Call.honors_check_bind fun _ => ?_
  refine Call.honors_seq (honors_compareCode hmax) fun used u _ => ?_
  split
  · exact honors_complete
  · exact Call.honors_seq honors_fail fun _ _ _ => Call.honors_fail _

theorem honors_loginMfaSetupConfirm {a : LoginAnswers} :
    (loginMfaSetupConfirm a).Honors loginGuarantee (fun _ _ => True) s := by
  refine Call.honors_seq honors_get fun ch t hmax => ?_
  refine Call.honors_check_bind fun _ => ?_
  refine Call.honors_seq (honors_compareCode hmax) fun used u _ => ?_
  split
  · exact Call.honors_seq honors_consume fun _ _ _ => Call.honors_pure trivial
  · exact Call.honors_seq honors_fail fun _ _ _ => Call.honors_fail _

/-- Keys of Redis come to their end. -/
def KeysEnd (s s' : LoginDb) : Prop :=
  (s'.challenge = s.challenge ∨ s'.challenge = none) ∧
    (s'.attempts = s.attempts ∨ s'.attempts = none) ∧ s'.history = s.history ∧
      s'.nextId = s.nextId

/-- Calls in progress. -/
abbrev LoginPool : Type 1 := Pool LoginRequest LoginError ℕ LoginMark LoginDb LoginResult

/-- As long as every call finds what it has read, a stage has five comparisons at most, and the
challenge one session. -/
theorem guesses_bounded {s₀ : LoginDb} {p : LoginPool} (hstart : s₀.history = [])
    (hrun : Runs (Pool.Step serve KeysEnd) (Pool.Allowed Orderly fun _ _ => True) ⟨s₀, []⟩ p) :
    Bounded p.db.history := by
  have hsound : LoginSound s₀ := by
    constructor <;> simp [hstart, compared, opened]
  have hserve : ∀ (q : LoginRequest) s, LoginSound s →
      (serve q).Honors loginGuarantee (fun _ _ => True) s := by
    intro q s _
    cases q with
    | verifyLoginMfa a => exact honors_verifyLoginMfa
    | verifyResetMfa a => exact honors_verifyResetMfa
    | loginMfaVerify a => exact honors_loginMfaVerify
    | loginMfaSetupConfirm a => exact honors_loginMfaSetupConfirm
  have henv : ∀ s s', LoginSound s → KeysEnd s s' → True → loginGuarantee.Allows s s' :=
    fun s s' hs hkeys _ => ⟨hs.clear hkeys.2.2.1 hkeys.1, trivial⟩
  have hend := (Pool.guaranteed (G := loginGuarantee) (p := (⟨s₀, []⟩ : LoginPool)) hserve henv
    hsound rfl hrun).1
  exact ⟨hend.compared, hend.once⟩

end LoginChallengeService

/-! ## Both kinds of challenges -/

namespace StepUpService

/-- A challenge of one user, answered by `123456`. -/
def confirming : StepUpDb where
  challenge := some ⟨7, 1, .withdrawal, .sms, some "token:123456", 0⟩
  tokens := .empty
  history := []
  nextId := 0

theorem confirming_started : Started confirming := by
  refine ⟨?_, rfl, rfl⟩
  rintro ch ⟨⟩
  rfl

/-- A code for the challenge. -/
def answers (code : String) : StepUpRequest := .verify 7 1 code false

/-- `UpToDate` as a test. -/
def upToDate : StepUpMark → StepUpDb → Bool
  | .compares _ read _, s => compared s.history == read
  | .issues _, _ => true
  | .consumes _, _ => true

theorem upToDate_sound (l : StepUpMark) (s : StepUpDb) (h : upToDate l s = true) :
    UpToDate l s := by
  cases l with
  | compares number read ok => exact beq_iff_eq.mp h
  | issues token => trivial
  | consumes token => trivial

/-- The events on the challenge, as long as the marks passed meet the condition; hashes are left
as they are. -/
abbrev played (test : StepUpMark → StepUpDb → Bool) (es : List (PoolEvent StepUpRequest StepUpDb)) :
    Option StepUpPool :=
  Pool.playAllowed (serve id "token") test ⟨confirming, []⟩ es

end StepUpService

namespace LoginChallengeService

/-- A challenge of an account of the panel at a stage. -/
def loggingIn (stage : ChallengeStage) : LoginDb where
  challenge := some ⟨.admin, stage, .password, some .login, 0⟩
  attempts := none
  history := []
  nextId := 0

/-- The answers for a code that is right, or wrong. -/
def answers (right : Bool) : LoginAnswers := ⟨true, .active, true, true, right, false⟩

/-- `Orderly` as a test. -/
def orderly : LoginMark → LoginDb → Bool
  | .compares stage read, s => compared stage s.history == read
  | .advances, s => s.challenge.isSome
  | .opens deleted, _ => deleted

theorem orderly_sound (l : LoginMark) (s : LoginDb) (h : orderly l s = true) : Orderly l s := by
  cases l with
  | compares stage read => exact beq_iff_eq.mp h
  | advances => exact h
  | opens deleted => exact h

/-- The events on a challenge, as long as the marks passed meet the condition. -/
abbrev played (stage : ChallengeStage) (test : LoginMark → LoginDb → Bool)
    (es : List (PoolEvent LoginRequest LoginDb)) : Option LoginPool :=
  Pool.playAllowed serve test ⟨loggingIn stage, []⟩ es

end LoginChallengeService

/-- Each of `n` calls runs its next transactions, one call after the other. -/
def eachRuns {Q σ : Type} (n steps : ℕ) : List (PoolEvent Q σ) :=
  (List.range n).flatMap fun i => List.replicate steps (.advance i)

end ArkanGold
