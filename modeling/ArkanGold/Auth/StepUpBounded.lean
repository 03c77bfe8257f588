import ArkanGold.Auth.StepUp
import ArkanGold.Lib.Rights

/-!
# Step-up challenges bound guessing

Every interleaving of calls of `verify` and `consume` that concern one challenge.

- `StepUpStep` is what one command does. A comparison is made by a call that has read as many
  attempts as were made (`Uncounted` is the condition); without it two calls that have read the same
  record count one attempt between them, and both may succeed.
- `Counts`: the attempts in the record, and those a call has read, are no more than were made, and
  fewer once a right code was compared.
- The number of a comparison is a right of the call that has made it: it alone stores the token.
-/

namespace ArkanGold

namespace StepUpService

variable {s s' s'' : StepUpDb} {h : List StepUpMark} {a : ℕ} {ts : Set ℕ}

/-! ## Histories -/

/-- The mark of a comparison. -/
def isComparison : StepUpMark → Bool
  | .compares _ _ _ => true
  | _ => false

/-- The number of a comparison with a right code. -/
def rightNumber : StepUpMark → Option ℕ
  | .compares number _ true => some number
  | _ => none

/-- The token stored. -/
def storedToken : StepUpMark → Option ℕ
  | .issues token => some token
  | _ => none

/-- The token consumed. -/
def takenToken : StepUpMark → Option ℕ
  | .consumes token => some token
  | _ => none

/-- The number of comparisons. -/
def compared (h : List StepUpMark) : ℕ := h.countP isComparison

/-- The comparisons with a right code. -/
def rights (h : List StepUpMark) : List ℕ := h.filterMap rightNumber

/-- The tokens stored. -/
def issued (h : List StepUpMark) : List ℕ := h.filterMap storedToken

/-- The tokens consumed. -/
def consumed (h : List StepUpMark) : List ℕ := h.filterMap takenToken

@[simp] theorem compared_snoc (l : StepUpMark) :
    compared (h ++ [l]) = compared h + if isComparison l then 1 else 0 := by
  simp [compared, List.countP_append, List.countP_singleton]

@[simp] theorem rights_snoc (l : StepUpMark) :
    rights (h ++ [l]) = rights h ++ (rightNumber l).toList := by
  cases hl : rightNumber l <;> simp [rights, List.filterMap_append, hl]

@[simp] theorem issued_snoc (l : StepUpMark) :
    issued (h ++ [l]) = issued h ++ (storedToken l).toList := by
  cases hl : storedToken l <;> simp [issued, List.filterMap_append, hl]

@[simp] theorem consumed_snoc (l : StepUpMark) :
    consumed (h ++ [l]) = consumed h ++ (takenToken l).toList := by
  cases hl : takenToken l <;> simp [consumed, List.filterMap_append, hl]

/-- The property. -/
structure Bounded (h : List StepUpMark) : Prop where
  compared : compared h ≤ MAX_ATTEMPTS
  succeeds : (rights h).length ≤ 1
  tokens : (issued h).length ≤ 1
  consumed : (consumed h).Nodup

/-! ## Steps -/

/-- A number of attempts that was stored, or read. -/
def Counts (a : ℕ) (h : List StepUpMark) : Prop :=
  a ≤ compared h ∧ (rights h ≠ [] → a < compared h)

/-- What a command does. -/
inductive StepUpStep (s s' : StepUpDb) : Prop where
  | less (hchallenge : s'.challenge = s.challenge ∨ s'.challenge = none)
      (htokens : ∀ t ∈ s'.tokens.rows, t ∈ s.tokens.rows) (hhistory : s'.history = s.history)
      (hnext : s'.nextId = s.nextId)
  | compared (read : ℕ) (ok : Bool) (hread : compared s.history = read)
      (hcounts : Counts read s.history) (hmax : read < MAX_ATTEMPTS)
      (heq : s' = s.spendId.note (.compares s.nextId read ok))
  | counted (ch : Challenge) (hcounts : Counts ch.attempts s.history)
      (hmax : ch.attempts < MAX_ATTEMPTS) (heq : s' = s.setChallenge (some ch))
  | issued (t : StepUpToken) (hright : t.id ∈ rights s.history) (hnew : t.id ∉ issued s.history)
      (heq : s' = (s.note (.issues t.id)).setTokens (s.tokens.insert t))
  | consumed (t : StepUpToken) (hmem : t ∈ s.tokens.rows)
      (heq : s' = (s.note (.consumes t.id)).setTokens
        (s.tokens.deleteWhere fun k => k.id == t.id))

/-- What holds in every state reached. -/
structure StepUpSound (s : StepUpDb) : Prop where
  stored : ∀ ch, s.challenge = some ch → Counts ch.attempts s.history ∧ ch.attempts < MAX_ATTEMPTS
  bounded : compared s.history ≤ MAX_ATTEMPTS
  once : (rights s.history).length ≤ 1
  spent : ∀ n ∈ rights s.history, n < s.nextId
  results : ∀ t ∈ issued s.history, t ∈ rights s.history
  storedOnce : (issued s.history).Nodup
  known : ∀ t ∈ s.tokens.rows, t.id ∈ issued s.history
  gone : ∀ t ∈ consumed s.history, t ∈ issued s.history ∧ ∀ k ∈ s.tokens.rows, k.id ≠ t
  takenOnce : (consumed s.history).Nodup

theorem StepUpSound.bound (hs : StepUpSound s) : Bounded s.history :=
  ⟨hs.bounded, hs.once,
    ((List.subperm_of_subset hs.storedOnce hs.results).length_le).trans hs.once, hs.takenOnce⟩

/-- Right comparisons stay, and more attempts are made as soon as there is one. -/
structure Grows (s s' : StepUpDb) : Prop where
  next : s.nextId ≤ s'.nextId
  rights : ∀ n ∈ rights s.history, n ∈ StepUpService.rights s'.history
  counts : ∀ a, Counts a s.history → Counts a s'.history

theorem Counts.snoc {l : StepUpMark} (hc : Counts a h) : Counts a (h ++ [l]) := by
  refine ⟨hc.1.trans ?_, fun hright => ?_⟩
  · rw [compared_snoc]
    exact Nat.le_add_right _ _
  · cases l with
    | compares number read ok =>
      rw [compared_snoc]
      exact Nat.lt_succ_of_le hc.1
    | issues token => simpa [isComparison] using hc.2 (by simpa [rightNumber] using hright)
    | consumes token => simpa [isComparison] using hc.2 (by simpa [rightNumber] using hright)

theorem StepUpStep.grows (hstep : StepUpStep s s') : Grows s s' := by
  have hsnoc : ∀ l, ∀ n ∈ rights s.history, n ∈ rights (s.history ++ [l]) := fun l n hn => by
    rw [rights_snoc]
    exact List.mem_append_left _ hn
  cases hstep with
  | less _ _ hhistory hnext =>
    exact ⟨hnext.ge, hhistory ▸ fun _ hn => hn, hhistory ▸ fun _ ha => ha⟩
  | compared read ok _ _ _ heq =>
    subst heq
    exact ⟨Nat.le_succ _, hsnoc _, fun a ha => ha.snoc⟩
  | counted ch _ _ heq =>
    subst heq
    exact ⟨le_rfl, fun _ hn => hn, fun _ ha => ha⟩
  | issued t _ _ heq =>
    subst heq
    exact ⟨le_rfl, hsnoc _, fun a ha => ha.snoc⟩
  | consumed t _ heq =>
    subst heq
    exact ⟨le_rfl, hsnoc _, fun a ha => ha.snoc⟩

/-- The step lemma. -/
theorem StepUpSound.step (hs : StepUpSound s) (hstep : StepUpStep s s') : StepUpSound s' := by
  cases hstep with
  | less hchallenge htokens hhistory hnext =>
    constructor
    · intro ch hch
      rw [hhistory]
      rcases hchallenge with heq | hnone
      · exact hs.stored ch (heq ▸ hch)
      · rw [hnone] at hch
        cases hch
    · exact hhistory ▸ hs.bounded
    · exact hhistory ▸ hs.once
    · exact hhistory ▸ hnext ▸ hs.spent
    · exact hhistory ▸ hs.results
    · exact hhistory ▸ hs.storedOnce
    · exact fun t ht => hhistory ▸ hs.known t (htokens t ht)
    · rw [hhistory]
      exact fun t ht => ⟨(hs.gone t ht).1, fun k hk => (hs.gone t ht).2 k (htokens k hk)⟩
    · exact hhistory ▸ hs.takenOnce
  | compared read ok hread hcounts hmax heq =>
    subst heq
    -- the call had read all attempts, so no right code was compared before
    have hnone : rights s.history = [] := by
      by_contra hne
      exact absurd hread (hcounts.2 hne).ne'
    constructor
    · exact fun ch hch => ⟨(hs.stored ch hch).1.snoc, (hs.stored ch hch).2⟩
    · show compared (s.history ++ [.compares s.nextId read ok]) ≤ MAX_ATTEMPTS
      rw [compared_snoc, hread]
      exact hmax
    · show (rights (s.history ++ [.compares s.nextId read ok])).length ≤ 1
      cases ok <;> simp [hnone, rightNumber]
    · show ∀ n ∈ rights (s.history ++ [.compares s.nextId read ok]), n < s.nextId + 1
      cases ok <;> simp [hnone, rightNumber]
    · intro t ht
      have ht : t ∈ rights s.history := hs.results t (by simpa [storedToken] using ht)
      simp [hnone] at ht
    · simpa [storedToken] using hs.storedOnce
    · simpa [storedToken] using hs.known
    · simpa [storedToken, takenToken] using hs.gone
    · simpa [takenToken] using hs.takenOnce
  | counted ch hcounts hmax heq =>
    subst heq
    refine ⟨?_, hs.bounded, hs.once, hs.spent, hs.results, hs.storedOnce, hs.known, hs.gone,
      hs.takenOnce⟩
    rintro ch' ⟨⟩
    exact ⟨hcounts, hmax⟩
  | issued t hright hnew heq =>
    subst heq
    have hissued : issued (s.history ++ [.issues t.id]) = issued s.history ++ [t.id] := by
      simp [storedToken]
    have hright' : rights (s.history ++ [.issues t.id]) = rights s.history := by
      simp [rightNumber]
    constructor
    · exact fun ch hch => ⟨(hs.stored ch hch).1.snoc, (hs.stored ch hch).2⟩
    · simpa [isComparison] using hs.bounded
    · exact hright' ▸ hs.once
    · exact hright' ▸ hs.spent
    · show ∀ k ∈ issued (s.history ++ [.issues t.id]), k ∈ rights (s.history ++ [.issues t.id])
      rw [hissued, hright']
      intro k hk
      rcases List.mem_append.mp hk with hk | hk
      · exact hs.results k hk
      · exact List.mem_singleton.mp hk ▸ hright
    · show (issued (s.history ++ [.issues t.id])).Nodup
      rw [hissued]
      exact List.nodup_append.mpr ⟨hs.storedOnce, List.nodup_singleton _, fun k hk n hn hkn =>
        hnew (List.mem_singleton.mp hn ▸ hkn ▸ hk)⟩
    · show ∀ k ∈ (s.tokens.insert t).rows, k.id ∈ issued (s.history ++ [.issues t.id])
      rw [hissued]
      intro k hk
      rcases Table.mem_insert hk with hk | rfl
      · exact List.mem_append_left _ (hs.known k hk)
      · exact List.mem_append_right _ (List.mem_singleton_self _)
    · show ∀ n ∈ consumed (s.history ++ [.issues t.id]),
        n ∈ issued (s.history ++ [.issues t.id]) ∧ ∀ k ∈ (s.tokens.insert t).rows, k.id ≠ n
      rw [hissued]
      intro n hn
      obtain ⟨hstored, hgone⟩ := hs.gone n (by simpa [takenToken] using hn)
      refine ⟨List.mem_append_left _ hstored, fun k hk => ?_⟩
      rcases Table.mem_insert hk with hk | rfl
      · exact hgone k hk
      · rintro rfl
        exact hnew hstored
    · simpa [takenToken] using hs.takenOnce
  | consumed t hmem heq =>
    subst heq
    have hissued : issued (s.history ++ [.consumes t.id]) = issued s.history := by
      simp [storedToken]
    have hright : rights (s.history ++ [.consumes t.id]) = rights s.history := by
      simp [rightNumber]
    have htaken : consumed (s.history ++ [.consumes t.id]) = consumed s.history ++ [t.id] := by
      simp [takenToken]
    constructor
    · exact fun ch hch => ⟨(hs.stored ch hch).1.snoc, (hs.stored ch hch).2⟩
    · simpa [isComparison] using hs.bounded
    · exact hright ▸ hs.once
    · exact hright ▸ hs.spent
    · exact hissued ▸ hright ▸ hs.results
    · exact hissued ▸ hs.storedOnce
    · exact fun k hk => hissued ▸ hs.known k (Table.mem_deleteWhere.mp hk).1
    · show ∀ n ∈ consumed (s.history ++ [.consumes t.id]),
        n ∈ issued (s.history ++ [.consumes t.id]) ∧
          ∀ k ∈ (s.tokens.deleteWhere fun k => k.id == t.id).rows, k.id ≠ n
      rw [htaken, hissued]
      intro n hn
      rcases List.mem_append.mp hn with hn | hn
      · exact ⟨(hs.gone n hn).1, fun k hk => (hs.gone n hn).2 k (Table.mem_deleteWhere.mp hk).1⟩
      · obtain rfl := List.mem_singleton.mp hn
        exact ⟨hs.known t hmem, fun k hk => by simpa using (Table.mem_deleteWhere.mp hk).2⟩
    · show (consumed (s.history ++ [.consumes t.id])).Nodup
      rw [htaken]
      exact List.nodup_append.mpr ⟨hs.takenOnce, List.nodup_singleton _, fun k hk n hn hkn =>
        (hs.gone k hk).2 t hmem (List.mem_singleton.mp hn ▸ hkn.symm)⟩

theorem grows_steps (hsteps : Relation.ReflTransGen StepUpStep s s') : Grows s s' := by
  induction hsteps with
  | refl => exact ⟨le_rfl, fun _ hn => hn, fun _ ha => ha⟩
  | tail _ hlast ih =>
    have hgrows := hlast.grows
    exact ⟨ih.next.trans hgrows.next, fun n hn => hgrows.rights n (ih.rights n hn),
      fun a ha => hgrows.counts a (ih.counts a ha)⟩

theorem StepUpSound.steps (hs : StepUpSound s)
    (hsteps : Relation.ReflTransGen StepUpStep s s') : StepUpSound s' := by
  induction hsteps with
  | refl => exact hs
  | tail _ hlast ih => exact ih.step hlast

/-! ## Calls -/

/-- The call that compares has read every attempt made. -/
def UpToDate : StepUpMark → StepUpDb → Prop
  | .compares _ read _, s => compared s.history = read
  | .issues _, _ => True
  | .consumes _, _ => True

/-- The number of a comparison is a right to store its token. -/
def tokenRights : Rights ℕ StepUpMark StepUpDb where
  step := StepUpStep
  keeps n s s' := n ∈ issued s'.history → n ∈ issued s.history
  given n s := n < s.nextId
  cond := UpToDate
  step_refl _ := .less (.inl rfl) (fun _ ht => ht) rfl rfl
  keeps_refl _ _ hn := hn
  keeps_trans hk hk' hn := hk (hk' hn)
  given_step hstep hn := hn.trans_le hstep.grows.next

theorem others_grows (hothers : tokenRights.Others ts s s') : Grows s s' :=
  grows_steps (Rights.others_steps hothers)

/-- Commands that store no token need no right. -/
theorem turns_free (hstep : StepUpStep s s') (hissued : issued s'.history = issued s.history) :
    tokenRights.Turns ts ts s s' :=
  ⟨hstep, fun _ _ _ hn => hissued ▸ hn, fun _ ht => .inl ht⟩

/-- The comparison gives its number to the call. -/
theorem turns_compareCode {sha256 : String → String} {challengeToken code : String}
    {ch : Challenge} {mfaOk ok : Bool} {number : ℕ} (hs : StepUpSound s)
    (hcounts : Counts ch.attempts s.history) (hmax : ch.attempts < MAX_ATTEMPTS)
    (hmeets : (compareCode sha256 challengeToken ch code mfaOk).Meets UpToDate s)
    (hok : (compareCode sha256 challengeToken ch code mfaOk).Ok s (number, ok) s') :
    tokenRights.Turns ∅ {number} s s' ∧ number ∉ issued s'.history ∧
      (ok = true → number ∈ rights s'.history) ∧
        (ok = false → Counts (ch.attempts + 1) s'.history) := by
  simp only [compareCode, Block.ok_bind, Block.ok_fresh, Block.ok_mark, Block.ok_pure] at hok
  obtain ⟨n, s₁, ⟨hn, hs₁⟩, _, _, rfl, heq, rfl⟩ := hok
  obtain ⟨rfl, rfl⟩ := Prod.mk.inj heq
  subst hs₁
  obtain rfl : number = s.nextId := hn
  have hread : compared s.history = ch.attempts := hmeets.1
  have hunspent : s.nextId ∉ issued s.history := fun hmem =>
    lt_irrefl _ (hs.spent _ (hs.results _ hmem))
  have hnone : rights s.history = [] := by
    by_contra hne
    exact absurd hread (hcounts.2 hne).ne'
  generalize isRight sha256 challengeToken ch code mfaOk = ok
  have hissued : issued (s.history ++ [.compares s.nextId ch.attempts ok]) = issued s.history := by
    simp [storedToken]
  refine ⟨⟨.compared ch.attempts ok hread hcounts hmax rfl, fun _ _ _ hk => ?_, ?_⟩, ?_, ?_, ?_⟩
  · exact hissued ▸ hk
  · rintro k rfl
    exact .inr ⟨lt_irrefl _, Nat.lt_succ_self _⟩
  · exact fun hmem => hunspent (hissued ▸ hmem)
  · rintro rfl
    show s.nextId ∈ rights (s.history ++ [.compares s.nextId ch.attempts true])
    simp [rightNumber]
  · rintro rfl
    show Counts (ch.attempts + 1) (s.history ++ [.compares s.nextId ch.attempts false])
    simp [Counts, hread, isComparison, hnone, rightNumber]

theorem owns_countAttempt {ch : Challenge} (hcounts : Counts (ch.attempts + 1) s.history) :
    (countAttempt ch).Owns tokenRights (fun _ _ _ => True) ts s := by
  refine Call.owns_transaction_bind (fun _ _ _ => trivial) fun s₁ u s₂ h₁ _ hok =>
    ⟨ts, ?_, Call.owns_fail fun _ _ => trivial⟩
  obtain rfl := Block.ok_write.mp hok
  refine turns_free ?_ rfl
  by_cases hlast : MAX_ATTEMPTS ≤ ch.attempts + 1
  · rw [if_pos hlast]
    exact .less (.inr rfl) (fun _ ht => ht) rfl rfl
  · rw [if_neg hlast]
    exact .counted { ch with attempts := ch.attempts + 1 } ((others_grows h₁).counts _ hcounts)
      (not_le.mp hlast) rfl

theorem owns_succeed {ch : Challenge} {number : ℕ} (hmine : number ∈ ts)
    (hright : number ∈ rights s.history) (hnew : number ∉ issued s.history) :
    (succeed ch number).Owns tokenRights (fun _ _ _ => True) ts s := by
  refine Call.owns_transaction_bind (fun _ _ _ => trivial) fun s₁ u s₂ h₁ _ hok => ⟨ts, ?_, ?_⟩
  · obtain rfl := Block.ok_write.mp hok
    exact turns_free (.less (.inr rfl) (fun _ ht => ht) rfl rfl) rfl
  have hhistory : s₂.history = s₁.history := by
    obtain rfl := Block.ok_write.mp hok
    rfl
  refine Call.owns_transaction_bind (fun _ _ _ => trivial) fun s₃ u s₄ h₃ _ hok =>
    ⟨ts, ?_, Call.owns_pure fun _ _ => trivial⟩
  simp only [storeToken, Block.ok_bind, Block.ok_mark, Block.ok_write] at hok
  obtain ⟨_, _, rfl, rfl⟩ := hok
  have hkept₁ : number ∈ issued s₁.history → number ∈ issued s.history :=
    Rights.others_keeps h₁ hmine
  have hkept₃ : number ∈ issued s₃.history → number ∈ issued s₂.history :=
    Rights.others_keeps h₃ hmine
  have hright₃ : number ∈ rights s₃.history :=
    (others_grows h₃).rights _ (hhistory ▸ (others_grows h₁).rights _ hright)
  have hnew₃ : number ∉ issued s₃.history := fun hmem =>
    hnew (hkept₁ (hhistory ▸ hkept₃ hmem))
  refine ⟨.issued ⟨number, _, _, _⟩ hright₃ hnew₃ rfl, fun k hk _ hmem => ?_, fun _ ht => .inl ht⟩
  have hmem : k ∈ issued (s₃.history ++ [.issues number]) := hmem
  rw [issued_snoc, List.mem_append] at hmem
  rcases hmem with hmem | hmem
  · exact hmem
  · have hkn : k = number := by simpa [storedToken] using hmem
    exact absurd (hkn ▸ hmine) hk

theorem owns_verify {sha256 : String → String} {challengeToken code : String}
    {userId sessionId : ℕ} {mfaOk : Bool} (hs : StepUpSound s) :
    (verify sha256 challengeToken userId sessionId code mfaOk).Owns tokenRights
      (fun _ _ _ => True) ∅ s := by
  refine Call.owns_get_bind fun s₁ h₁ => ?_
  have hs₁ := hs.steps (Rights.others_steps h₁)
  refine Call.owns_getOrFail_bind (fun _ _ => trivial) fun ch hch => ?_
  obtain ⟨hcounts, hmax⟩ := hs₁.stored ch (Option.filter_eq_some_iff.mp hch).1
  refine Call.owns_transaction_bind (fun _ _ _ => trivial) fun s₂ x s₃ h₂ hmeets hok => ?_
  obtain ⟨number, ok⟩ := x
  have hs₂ := hs₁.steps (Rights.others_steps h₂)
  obtain ⟨hturns, hnew, hright, hwrong⟩ :=
    turns_compareCode hs₂ ((others_grows h₂).counts _ hcounts) hmax hmeets hok
  refine ⟨{number}, hturns, ?_⟩
  cases ok with
  | true => exact owns_succeed rfl (hright rfl) hnew
  | false => exact owns_countAttempt (hwrong rfl)

theorem owns_consume {userId sessionId : ℕ} {purpose : StepUpPurpose} {token : Option ℕ} :
    (consume userId sessionId purpose token).Owns tokenRights (fun _ _ _ => True) ∅ s := by
  cases token with
  | none => exact Call.owns_pure fun _ _ => trivial
  | some token =>
    refine Call.owns_transaction_bind (fun _ _ _ => trivial) fun s₁ v s₂ _ _ hok =>
      ⟨∅, ?_, Call.owns_pure fun _ _ => trivial⟩
    simp only [takeToken, Block.ok_bind, Block.ok_get] at hok
    obtain ⟨_, _, ⟨rfl, rfl⟩, hok⟩ := hok
    split at hok
    case h_1 =>
      obtain ⟨-, rfl⟩ := Block.ok_pure.mp hok
      exact Rights.turns_refl
    case h_2 t hfind =>
      obtain ⟨hmem, rfl⟩ := Table.find?_eq_some.mp hfind
      simp only [Block.ok_bind, Block.ok_mark, Block.ok_write, Block.ok_pure] at hok
      obtain ⟨_, _, rfl, _, _, rfl, -, rfl⟩ := hok
      exact turns_free (.consumed t hmem rfl) (by simp [History.record, storedToken])

/-- Keys of Redis come to their end. -/
def KeysEnd (s s' : StepUpDb) : Prop :=
  (s'.challenge = s.challenge ∨ s'.challenge = none) ∧ (∀ t ∈ s'.tokens.rows, t ∈ s.tokens.rows) ∧
    s'.history = s.history ∧ s'.nextId = s.nextId

/-- Calls of the service in progress. -/
abbrev StepUpPool : Type 1 := Pool StepUpRequest StepUpError ℕ StepUpMark StepUpDb StepUpResult

/-- The challenge as `start` has stored it. -/
structure Started (s : StepUpDb) : Prop where
  challenge : ∀ ch, s.challenge = some ch → ch.attempts = 0
  tokens : s.tokens.rows = []
  history : s.history = []

theorem Started.sound (hs : Started s) : StepUpSound s := by
  constructor
  · intro ch hch
    simp [hs.challenge ch hch, Counts, hs.history, rights, MAX_ATTEMPTS]
  all_goals simp [hs.history, hs.tokens, compared, rights, issued, consumed]

/-- As long as every comparison is made by a call that has read all attempts, there are no more
than five of them, one succeeds at most and gives one token, which is consumed once. -/
theorem guesses_bounded {sha256 : String → String} {challengeToken : String} {s₀ : StepUpDb}
    {p : StepUpPool} (hstart : Started s₀)
    (hrun : Runs (Pool.Step (serve sha256 challengeToken) KeysEnd)
      (Pool.Allowed UpToDate fun _ _ => True) ⟨s₀, []⟩ p) : Bounded p.db.history := by
  have hserve : ∀ (i : ℕ) q s, Relation.ReflTransGen StepUpStep s₀ s →
      (serve sha256 challengeToken q).Owns tokenRights (fun _ _ _ => True) ∅ s := by
    intro i q s hsteps
    cases q with
    | verify userId sessionId code mfaOk => exact owns_verify (hstart.sound.steps hsteps)
    | consume userId sessionId purpose token => exact owns_consume
  have henv : ∀ s s', KeysEnd s s' → True →
      tokenRights.step s s' ∧ ∀ n, tokenRights.given n s → tokenRights.keeps n s s' := by
    rintro s s' ⟨hchallenge, htokens, hhistory, hnext⟩ -
    exact ⟨.less hchallenge htokens hhistory hnext, fun n _ hn => hhistory ▸ hn⟩
  have hempty : (⟨s₀, []⟩ : StepUpPool).Shares tokenRights (fun _ _ _ _ => True) _ :=
    Pool.shares_nil
  obtain ⟨hsteps, -⟩ := Pool.shares_run hempty hrun henv hserve
  exact (hstart.sound.steps hsteps).bound

end StepUpService

end ArkanGold
