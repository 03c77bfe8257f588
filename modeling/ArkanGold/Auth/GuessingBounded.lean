import ArkanGold.Lib.Rights
import ArkanGold.Auth.CodeAttempts
import ArkanGold.Auth.SendQuota

/-!
# Guessing one-time codes

Every interleaving of the calls for one phone and purpose.

- `OtpStep` is what one operation does; a spent number of the supply is a right of the call
  that has drawn it (`otpRights`).
- The code, its counter and its row are read and written one by one, and so are the gap and the
  hour. The condition on the marks (`Orderly`) says of each operation that nobody has come
  between it and what it relies on.
- `guessing_bounded` is what holds under it, and `guessed_six_times` is what happens without it.
-/

namespace ArkanGold

namespace AuthService

open OtpSendLimiterService (consume release SendsSound SendStep Send sent kept charged within
  mem_sent mem_kept HOUR OTP_MAX_SENDS_PER_HOUR OTP_RESEND_GAP countSend)

variable {s s' s'' : OtpDb} {ts : Set ℕ} {k : ℕ}

/-! ## Steps -/

/-- What an operation does; the clock may move between them. -/
inductive OtpStep (s s' : OtpDb) : Prop where
  | code (h : CodeStep s.now s.nextId s'.nextId s.codes s'.codes) (hsends : s'.sends = s.sends)
      (hnow : s'.now = s.now)
  | send (h : SendStep s.now s.nextId s'.nextId s.sends s'.sends) (hcodes : s'.codes = s.codes)
      (hnow : s'.now = s.now)
  | later (hcodes : s'.codes = s.codes) (hsends : s'.sends = s.sends) (hnow : s.now ≤ s'.now)
      (hnext : s.nextId ≤ s'.nextId)

/-- What holds of the codes and of the quota. -/
structure OtpSound (s : OtpDb) : Prop where
  codes : CodesSound s.now s.nextId s.codes
  sends : SendsSound s.now s.nextId s.sends

/-- What a call notes of a send after it was counted. -/
def Of (send : ℕ) : SendMark → Prop
  | .counts _ _ => False
  | .lets k _ _ => k = send
  | .releases k => k = send
  | .returns k _ => k = send

/-- Nothing is noted of the code or the send with the number `k`. -/
structure Untouched (k : ℕ) (s s' : OtpDb) : Prop where
  files : ∀ id, .files k id ∈ s'.codes.history → .files k id ∈ s.codes.history
  sends : ∀ l, Of k l → l ∈ s'.sends.history → l ∈ s.sends.history

/-- A code or a send has the number `k`. -/
def Spent (k : ℕ) (s : OtpDb) : Prop :=
  .stores k ∈ s.codes.history ∨ ∃ hour, .counts k hour ∈ s.sends.history

/-- Histories grow. -/
structure Grows (s s' : OtpDb) : Prop where
  next : s.nextId ≤ s'.nextId
  codes : ∀ l ∈ s.codes.history, l ∈ s'.codes.history
  sends : ∀ l ∈ s.sends.history, l ∈ s'.sends.history

theorem OtpStep.grows (h : OtpStep s s') : Grows s s' := by
  cases h with
  | code h hsends _ => exact ⟨h.grows.1, h.grows.2, fun l hl => hsends ▸ hl⟩
  | send h hcodes _ => exact ⟨h.grows.1, fun l hl => hcodes ▸ hl, h.grows.2⟩
  | later hcodes hsends _ hnext =>
    exact ⟨hnext, fun l hl => hcodes ▸ hl, fun l hl => hsends ▸ hl⟩

theorem grows_steps (h : Relation.ReflTransGen OtpStep s s') : Grows s s' := by
  induction h with
  | refl => exact ⟨le_rfl, fun _ hl => hl, fun _ hl => hl⟩
  | tail _ hlast ih =>
    have hgrows := hlast.grows
    exact ⟨ih.next.trans hgrows.next, fun l hl => hgrows.codes l (ih.codes l hl),
      fun l hl => hgrows.sends l (ih.sends l hl)⟩

/-- The step lemma. -/
theorem OtpSound.step (hs : OtpSound s) (h : OtpStep s s') : OtpSound s' := by
  cases h with
  | code h hsends hnow =>
    have hcodes := hs.codes.step h
    have hsends' := hs.sends.later (le_refl s.now) h.grows.1
    exact ⟨hnow ▸ hcodes, hnow ▸ hsends ▸ hsends'⟩
  | send h hcodes hnow =>
    have hsends := hs.sends.step h
    have hcodes' := hs.codes.later (le_refl s.now) h.grows.1
    exact ⟨hnow ▸ hcodes ▸ hcodes', hnow ▸ hsends⟩
  | later hcodes hsends hnow hnext =>
    exact ⟨hcodes ▸ hs.codes.later hnow hnext, hsends ▸ hs.sends.later hnow hnext⟩

/-- The run lemma. -/
theorem OtpSound.run (hs : OtpSound s) (h : Relation.ReflTransGen OtpStep s s') : OtpSound s' := by
  induction h with
  | refl => exact hs
  | tail _ hlast ih => exact ih.step hlast

/-! ## The condition -/

/-- Nobody comes between an operation and what it relies on. -/
def OrderlyCode : CodeMark → OtpDb → Prop
  | .clears _, s => ∀ hash, s.codes.live s.now = some hash →
    .compares hash.salt true ∉ s.codes.history
  | .resets, s => ∀ hash, s.codes.live s.now = some hash →
    .compares hash.salt true ∉ s.codes.history
  | .compares salt true, s => (∃ hash, s.codes.live s.now = some hash ∧ hash.salt = salt) ∧
    .clears salt ∈ s.codes.history ∧ .compares salt false ∉ s.codes.history
  | .compares salt false, s => .compares salt true ∉ s.codes.history
  | .accepts salt true, s => ∃ hash, s.codes.live s.now = some hash ∧ hash.salt = salt
  | _, _ => True

/-- The same, of the quota. -/
def OrderlySend : SendMark → OtpDb → Prop
  | .counts _ _, s => s.sends.liveHour s.now = none →
    ∀ x ∈ kept s.sends.history, x.time + HOUR ≤ s.now
  | .lets _ hour _, s => (∀ t, s.sends.gap = some t → t ≤ s.now) ∧
    ∃ a, s.sends.liveHour s.now = some (hour, a)
  | .releases send, s => ∀ x ∈ sent s.sends.history, x.send = send →
    ∀ y ∈ sent s.sends.history, y.time ≤ x.time
  | .returns _ hour, s => ∃ a, s.sends.liveHour s.now = some (hour, a)

/-- The condition on the marks. -/
def Orderly : OtpMark → OtpDb → Prop
  | .code l, s => OrderlyCode l s
  | .send l, s => OrderlySend l s

/-- What a call may do, and the numbers it has drawn. -/
def otpRights : Rights ℕ OtpMark OtpDb where
  step := OtpStep
  keeps := Untouched
  given := Spent
  cond := Orderly
  step_refl _ := .later rfl rfl le_rfl le_rfl
  keeps_refl _ _ := ⟨fun _ => id, fun _ _ => id⟩
  keeps_trans h h' := ⟨fun id hid => h.files id (h'.files id hid),
    fun l hl hmem => h.sends l hl (h'.sends l hl hmem)⟩
  given_step h hspent := hspent.imp (h.grows.codes _) fun ⟨w, hw⟩ => ⟨w, h.grows.sends _ hw⟩

theorem others_grows (h : otpRights.Others ts s s') : Grows s s' :=
  grows_steps (Rights.others_steps h)

theorem OtpSound.others (hs : OtpSound s) (h : otpRights.Others ts s s') : OtpSound s' :=
  hs.run (Rights.others_steps h)

/-! ## Turns -/

/-- The rights stay as they are. -/
theorem turns_same (h : OtpStep s s') (hkeeps : ∀ k ∉ ts, Untouched k s s') :
    otpRights.Turns ts ts s s' :=
  ⟨h, fun k hk _ => hkeeps k hk, fun _ hk => .inl hk⟩

/-- An operation on the codes; what it stores in the database is of the call. -/
theorem turns_code (h : CodeStep s.now s.nextId s'.nextId s.codes s'.codes)
    (hsends : s'.sends = s.sends) (hnow : s'.now = s.now)
    (hfiles : ∀ k ∉ ts, ∀ id, .files k id ∈ s'.codes.history → .files k id ∈ s.codes.history) :
    otpRights.Turns ts ts s s' :=
  turns_same (.code h hsends hnow) fun k hk => ⟨hfiles k hk, fun _ _ hmem => hsends ▸ hmem⟩

/-- An operation on the quota; what it notes is of a send of the call. -/
theorem turns_send (h : SendStep s.now s.nextId s'.nextId s.sends s'.sends)
    (hcodes : s'.codes = s.codes) (hnow : s'.now = s.now)
    (hmine : ∀ k ∉ ts, ∀ l, Of k l → l ∈ s'.sends.history → l ∈ s.sends.history) :
    otpRights.Turns ts ts s s' :=
  turns_same (.send h hcodes hnow) fun k hk => ⟨fun _ hid => hcodes ▸ hid, hmine k hk⟩

/-! ## Sends -/

theorem snoc_of_ne {l m : SendMark} {h : List SendMark} (hne : l ≠ m) (hl : l ∈ h ++ [m]) : l ∈ h :=
  (OtpSendLimiterService.mem_snoc_of_ne hne).mp hl

/-- A send of the call: it is counted, and nothing more is noted of it. -/
structure Counted (ts : Set ℕ) (send hour : ℕ) (s : OtpDb) : Prop where
  mine : send ∈ ts
  counts : .counts send hour ∈ s.sends.history
  unused : ∀ l, Of send l → l ∉ s.sends.history

theorem Counted.others {send hour : ℕ} (h : Counted ts send hour s)
    (hothers : otpRights.Others ts s s') : Counted ts send hour s' := by
  refine ⟨h.mine, (others_grows hothers).sends _ h.counts, fun l hl hmem => ?_⟩
  have hkeeps : Untouched send s s' := Rights.others_keeps hothers h.mine
  exact h.unused l hl (hkeeps.sends l hl hmem)

/-- Nothing is noted of a number that is not spent. -/
theorem OtpSound.unspent (hs : OtpSound s) : ¬Spent s.nextId s ∧
    ∀ l, Of s.nextId l → l ∉ s.sends.history := by
  have hsent : ∀ x ∈ sent s.sends.history, x.send ≠ s.nextId := fun x hx heq =>
    absurd (hs.sends.counts _ _ (hs.sends.lets x hx).1).1 (by rw [heq]; exact lt_irrefl _)
  refine ⟨?_, fun l hl hmem => ?_⟩
  · rintro (hstored | ⟨hour, hcounted⟩)
    · exact absurd (hs.codes.named _ hstored) (lt_irrefl s.nextId)
    · exact lt_irrefl _ (hs.sends.counts _ _ hcounted).1
  · cases l with
    | counts send hour => exact hl
    | lets send hour time => exact hsent ⟨send, hour, time⟩ (mem_sent.mpr hmem) hl
    | releases send =>
      obtain ⟨x, hx, heq⟩ := hs.sends.releases send hmem
      exact hsent x hx (heq.trans hl)
    | returns send hour =>
      obtain ⟨x, hx, heq⟩ := hs.sends.releases send (hs.sends.returns send hour hmem)
      exact hsent x hx (heq.trans hl)

open OtpSendLimiterService in
/-- `INCR` of the hour. -/
theorem turns_incrHour {send hour : ℕ} {sends : ℤ} (hs : OtpSound s)
    (hmeets : incrHour.Meets Orderly s) (hok : incrHour.Ok s (send, hour, sends) s') :
    ∃ ts', otpRights.Turns ∅ ts' s s' ∧
      (sends ≤ OTP_MAX_SENDS_PER_HOUR → Counted ts' send hour s') := by
  simp only [incrHour, Block.ok_bind, Block.ok_fresh, Block.ok_get] at hok
  obtain ⟨n, s₁, ⟨hn, hs₁⟩, s₂, s₃, ⟨hs₂, hs₃⟩, hok⟩ := hok
  subst n s₃ s₂
  have hcond : Block.Meets Orderly (if (countSend s.now s.nextId s.sends).2.value ≤
      OTP_MAX_SENDS_PER_HOUR then _ else _) (Supply.bump s) := hmeets
  have hsends : s₁.sends = s.sends := hs₁ ▸ rfl
  have hnow : s₁.now = s.now := hs₁ ▸ rfl
  have hnext : Supply.next s = s.nextId := rfl
  rw [hsends, hnow, hnext] at hok
  by_cases hwithin : (countSend s.now s.nextId s.sends).2.value ≤ OTP_MAX_SENDS_PER_HOUR
  · rw [if_pos hwithin] at hcond hok
    simp only [Block.ok_bind, Block.ok_mark, Block.ok_write, Block.ok_pure] at hok
    obtain ⟨_, _, rfl, _, _, rfl, heq, rfl⟩ := hok
    cases heq
    subst hs₁
    have hunspent := hs.unspent
    refine ⟨{s.nextId}, ⟨.send (.counted hwithin hcond.1 rfl rfl) rfl rfl, ?_, ?_⟩, fun _ => ?_⟩
    · rintro k - hspent
      refine ⟨fun _ hid => hid, fun l hl hmem => snoc_of_ne ?_ hmem⟩
      rintro rfl
      exact hl
    · rintro k rfl
      exact .inr ⟨hunspent.1, .inr ⟨_, List.mem_append_right _ (List.mem_singleton_self _)⟩⟩
    · refine ⟨rfl, List.mem_append_right _ (List.mem_singleton_self _), fun l hl hmem => ?_⟩
      refine hunspent.2 l hl (snoc_of_ne ?_ hmem)
      rintro rfl
      exact hl
  · rw [if_neg hwithin] at hok
    simp only [Block.ok_bind, Block.ok_write, Block.ok_pure] at hok
    obtain ⟨_, _, rfl, heq, rfl⟩ := hok
    cases heq
    subst hs₁
    exact ⟨∅, turns_send (.tried (not_le.mp hwithin) rfl rfl) rfl rfl fun _ _ _ _ hmem => hmem,
      fun hle => absurd hle hwithin⟩

open OtpSendLimiterService in
/-- The send is let through. -/
structure LetThrough (ts : Set ℕ) (send hour : ℕ) (s : OtpDb) : Prop where
  mine : send ∈ ts
  counts : .counts send hour ∈ s.sends.history
  lets : ∃ time, .lets send hour time ∈ s.sends.history
  kept : .releases send ∉ s.sends.history
  unreturned : ∀ w, .returns send w ∉ s.sends.history

theorem LetThrough.others {send hour : ℕ} (h : LetThrough ts send hour s)
    (hothers : otpRights.Others ts s s') : LetThrough ts send hour s' := by
  obtain ⟨time, htime⟩ := h.lets
  have hgrows := others_grows hothers
  have hkeeps : Untouched send s s' := Rights.others_keeps hothers h.mine
  exact ⟨h.mine, hgrows.sends _ h.counts, ⟨time, hgrows.sends _ htime⟩,
    fun hmem => h.kept (hkeeps.sends _ rfl hmem),
    fun w hmem => h.unreturned w (hkeeps.sends _ rfl hmem)⟩

theorem LetThrough.mono {send hour : ℕ} (h : LetThrough ts send hour s)
    (hsends : s'.sends = s.sends) {ts' : Set ℕ} (hsub : ts ⊆ ts') : LetThrough ts' send hour s' :=
  ⟨hsub h.mine, hsends ▸ h.counts, hsends ▸ h.lets, hsends ▸ h.kept, hsends ▸ h.unreturned⟩

open OtpSendLimiterService in
/-- `SETEX` of the gap. -/
theorem turns_setGap {send hour : ℕ} {u : Unit} (h : Counted ts send hour s)
    (hmeets : (setGap send hour).Meets Orderly s) (hok : (setGap send hour).Ok s u s') :
    otpRights.Turns ts ts s s' ∧ LetThrough ts send hour s' := by
  simp only [setGap, Block.ok_bind, Block.ok_get, Block.ok_mark, Block.ok_write] at hok
  obtain ⟨s₁, s₂, ⟨hs₁, hs₂⟩, _, _, rfl, rfl⟩ := hok
  subst s₁ s₂
  have hcond : OrderlySend (.lets send hour s.now) s := hmeets.1
  refine ⟨turns_send (.passed send hour h.counts (fun _ _ => h.unused _ rfl) (h.unused _ rfl)
    hcond.1 hcond.2 rfl rfl) rfl rfl fun k hk l hl hmem => ?_, ?_⟩
  · refine snoc_of_ne ?_ hmem
    rintro rfl
    exact hk (hl ▸ h.mine)
  · exact ⟨h.mine, List.mem_append_left _ h.counts,
      ⟨s.now, List.mem_append_right _ (List.mem_singleton_self _)⟩,
      fun hmem => h.unused (.releases send) rfl (snoc_of_ne (by simp) hmem),
      fun w hmem => h.unused (.returns send w) rfl (snoc_of_ne (by simp) hmem)⟩

open OtpSendLimiterService in
/-- `EXPIRE` of the hour. -/
theorem turns_expireHour {u : Unit} (hok : expireHour.Ok s u s') :
    otpRights.Turns ts ts s s' ∧ s'.sends.history = s.sends.history := by
  obtain rfl := Block.ok_write.mp hok
  exact ⟨turns_send (.expired rfl rfl) rfl rfl fun _ _ _ _ hmem => hmem, rfl⟩

open OtpSendLimiterService in
/-- The first request of an hour sets its end. -/
theorem owns_expireFirst {send hour : ℕ} {sends : ℤ}
    (h : sends ≤ OTP_MAX_SENDS_PER_HOUR → Counted ts send hour s) :
    (OtpSendLimiterService.expireFirst sends).Owns otpRights
      (fun ts' _ s' => ts' = ts ∧ (sends ≤ OTP_MAX_SENDS_PER_HOUR → Counted ts send hour s'))
      ts s := by
  unfold OtpSendLimiterService.expireFirst
  split
  · refine Call.owns_transaction (fun e t ht => ⟨rfl, fun hle => (h hle).others ht⟩)
      fun s₁ u s₂ h₁ _ hok => ?_
    obtain ⟨hturns, hhistory⟩ := (@turns_expireHour _ _ ts) hok
    refine ⟨ts, hturns, fun t ht => ⟨rfl, fun hle => ?_⟩⟩
    have hcounted := (h hle).others h₁
    exact Counted.others ⟨hcounted.mine, hhistory ▸ hcounted.counts, hhistory ▸ hcounted.unused⟩ ht
  · exact Call.owns_pure fun t ht => ⟨rfl, fun hle => (h hle).others ht⟩

open OtpSendLimiterService in
theorem owns_consume (hs : OtpSound s) :
    consume.Owns otpRights (fun ts r s' => ∀ x, r = .ok x → LetThrough ts x.1 x.2 s') ∅ s := by
  have hfail : ∀ {ts : Set ℕ} {t : OtpDb} (e : OtpError) (s' : OtpDb), otpRights.Others ts t s' →
      ∀ x, (Except.error e : Except OtpError (ℕ × ℕ)) = .ok x → LetThrough ts x.1 x.2 s' :=
    fun e _ _ x hx => by cases hx
  unfold consume
  refine Call.owns_get_bind fun s₁ h₁ => ?_
  refine Call.owns_check_bind (hfail _) fun _ => ?_
  refine Call.owns_transaction_bind hfail fun s₂ x s₃ h₂ hmeets hok => ?_
  obtain ⟨send, hour, sends⟩ := x
  obtain ⟨ts', hturns, hcounted⟩ := turns_incrHour ((hs.others h₁).others h₂) hmeets hok
  refine ⟨ts', hturns, Call.owns_bind (Call.owns_mono (fun ts r s₄ h₄ => ?_)
    (owns_expireFirst hcounted))⟩
  obtain ⟨rfl, hcounted₄⟩ := h₄
  cases r with
  | error e => exact fun x hx => by cases hx
  | ok _ =>
    refine Call.owns_check_bind (hfail _) fun hwithin => ?_
    have hcounted₅ := hcounted₄ (of_decide_eq_true hwithin)
    refine Call.owns_transaction_bind hfail fun s₅ u s₆ h₅ hmeets hok => ?_
    obtain ⟨hturns, hthrough⟩ := turns_setGap (hcounted₅.others h₅) hmeets hok
    refine ⟨ts, hturns, Call.owns_pure fun t ht x hx => ?_⟩
    cases hx
    exact hthrough.others ht

/-! ## Releasing a send -/

open OtpSendLimiterService in
/-- The hour at an instant, and the counter that `DECR` makes of it. -/
theorem decr_live {now : ℤ} {c : SendState} {send hour : ℕ} {a : Counter}
    (hlive : c.liveHour now = some (hour, a)) :
    (((c.liveHour now).map Prod.fst).getD send, Counter.decr now (c.hour.map Prod.snd)) =
      (hour, { a with value := a.value - 1 }) := by
  obtain ⟨heq, hends⟩ := Option.filter_eq_some_iff.mp hlive
  have hcounter : Counter.live now (some a) = some a := by
    rw [Counter.live, Option.filter_some, if_pos hends]
  rw [hlive, heq, Option.map_some, Option.map_some, Counter.decr, hcounter]
  rfl

open OtpSendLimiterService in
theorem owns_release {send hour : ℕ} (h : LetThrough ts send hour s) :
    (release send hour).Owns otpRights (fun _ _ _ => True) ts s := by
  unfold release
  refine Call.owns_transaction_bind (fun _ _ _ => trivial) fun s₁ u s₂ h₁ hmeets hok => ?_
  have hthrough := h.others h₁
  simp only [delGap, Block.ok_bind, Block.ok_mark, Block.ok_write] at hok
  obtain ⟨_, _, rfl, rfl⟩ := hok
  have hcond : OrderlySend (.releases send) s₁ := hmeets.1
  obtain ⟨time, htime⟩ := hthrough.lets
  refine ⟨ts, turns_send (.released ⟨send, hour, time⟩ (mem_kept.mpr ⟨htime, hthrough.kept⟩)
    (hcond _ (mem_sent.mpr htime) rfl) rfl rfl) rfl rfl fun k hk l hl hmem => ?_, ?_⟩
  · refine snoc_of_ne ?_ hmem
    rintro rfl
    exact hk (hl ▸ hthrough.mine)
  refine Call.owns_transaction (fun _ _ _ => trivial) fun s₃ u s₄ h₃ hmeets hok => ?_
  simp only [decrHour, Block.ok_bind, Block.ok_mark, Block.ok_write] at hok
  obtain ⟨_, _, rfl, rfl⟩ := hok
  have hcond' : OrderlySend (.returns send hour) s₃ := hmeets.1
  obtain ⟨a, ha⟩ := hcond'
  have hgrows := others_grows h₃
  have hkeeps : Untouched send _ s₃ := Rights.others_keeps h₃ h.mine
  have hcounted := hgrows.sends _ (List.mem_append_left _ hthrough.counts)
  have hreleased := hgrows.sends _ (List.mem_append_right _ (List.mem_singleton_self _))
  refine ⟨ts, turns_send (.returned send hour a hcounted hreleased (fun hmem => ?_) ha ?_ rfl)
    rfl rfl fun k hk l hl hmem => ?_, fun _ _ => trivial⟩
  · exact hthrough.unreturned hour (snoc_of_ne (by simp) (hkeeps.sends _ rfl hmem))
  · rw [← (@decr_live _ _ send) ha]
    rfl
  · refine snoc_of_ne ?_ hmem
    rintro rfl
    exact hk (hl ▸ hthrough.mine)

/-! ## Codes -/

/-- An operation that every other call could do as well. -/
def Free (s s' : OtpDb) : Prop := OtpStep s s' ∧ ∀ k, Untouched k s s'

theorem Free.others (h : Free s s') : otpRights.Others ts s s' :=
  Rights.others_single h.1 fun k _ => h.2 k

/-- The rule for such an operation: what the call knows of the state stays true. -/
theorem owns_free_bind {α β : Type} {b : OtpStmt β} {f : β → OtpCall α}
    {P : Set ℕ → Except OtpError α → OtpDb → Prop}
    (hfail : ∀ e s', otpRights.Others ts s s' → P ts (.error e) s')
    (h : ∀ s' a s'', otpRights.Others ts s s' → b.Meets Orderly s' → b.Ok s' a s'' →
      Free s' s'' ∧ (f a).Owns otpRights P ts s'') :
    (Call.transaction b >>= f).Owns otpRights P ts s := by
  refine Call.owns_transaction_bind hfail fun s' a s'' hs' hmeets hok => ?_
  obtain ⟨hfree, hrest⟩ := h s' a s'' hs' hmeets hok
  exact ⟨ts, turns_same hfree.1 fun k _ => hfree.2 k, hrest⟩

theorem owns_free {β : Type} {b : OtpStmt β} (h : ∀ s' a s'', otpRights.Others ts s s' →
    b.Meets Orderly s' → b.Ok s' a s'' → Free s' s'') :
    (Call.transaction b : OtpCall β).Owns otpRights (fun _ _ _ => True) ts s :=
  Call.owns_transaction (fun _ _ _ => trivial) fun s' a s'' hs' hmeets hok =>
    ⟨ts, turns_same (h s' a s'' hs' hmeets hok).1 fun k _ => (h s' a s'' hs' hmeets hok).2 k,
      fun _ _ => trivial⟩

/-- An operation on the codes that stores none in the database. -/
theorem free_code (h : CodeStep s.now s.nextId s'.nextId s.codes s'.codes)
    (hsends : s'.sends = s.sends) (hnow : s'.now = s.now)
    (hfiles : ∀ k id, .files k id ∈ s'.codes.history → .files k id ∈ s.codes.history) : Free s s' :=
  ⟨.code h hsends hnow, fun k => ⟨hfiles k, fun _ _ hmem => hsends ▸ hmem⟩⟩

theorem files_snoc {l : CodeMark} {h : List CodeMark} (hl : ∀ k id, l ≠ .files k id) {k id : ℕ}
    (hmem : .files k id ∈ h ++ [l]) : .files k id ∈ h :=
  (mem_snoc_of_ne (hl k id).symm).mp hmem

/-- `DEL` of the hash. -/
theorem free_delHash {u : Unit} (hok : delHash.Ok s u s') : Free s s' := by
  obtain rfl := Block.ok_write.mp hok
  exact free_code (.less (.inr rfl) rfl (fun _ hr => hr) rfl le_rfl) rfl rfl fun _ _ hmem => hmem

/-- `deleteMany` of rows. -/
theorem free_deleteMany {p : UserOtp → Bool} {u : Unit}
    (hok : (otpRows.deleteMany p : OtpStmt Unit).Ok s u s') : Free s s' := by
  obtain rfl := (Relation.ok_deleteMany otpRows).mp hok
  exact free_code (.less (.inl rfl) rfl (fun r hr => (Table.mem_deleteWhere.mp hr).1) rfl le_rfl)
    rfl rfl fun _ _ hmem => hmem

/-- `DEL` of the attempts. -/
theorem free_delAttempts {l : CodeMark} {u : Unit}
    (hl : l = .resets ∨ ∃ salt, l = .clears salt ∧ .stores salt ∈ s.codes.history)
    (hmeets : (delAttempts l).Meets Orderly s) (hok : (delAttempts l).Ok s u s') : Free s s' := by
  simp only [delAttempts, Block.ok_bind, Block.ok_mark, Block.ok_write] at hok
  obtain ⟨_, _, rfl, rfl⟩ := hok
  have hcond : OrderlyCode l s := hmeets.1
  have hfree : ∀ hash, s.codes.live s.now = some hash →
      .compares hash.salt true ∉ s.codes.history := by
    rcases hl with rfl | ⟨salt, rfl, -⟩
    · exact hcond
    · exact hcond
  refine free_code (.deleted l hl hfree rfl rfl) rfl rfl fun k id hmem => files_snoc ?_ hmem
  rintro k id rfl
  simp at hl

/-! ## Issuing a code -/

/-- A code of the call: it is in Redis, or was, and not yet in the database. -/
structure Stored (ts : Set ℕ) (salt : ℕ) (s : OtpDb) : Prop where
  mine : salt ∈ ts
  stores : .stores salt ∈ s.codes.history
  unfiled : ∀ id, .files salt id ∉ s.codes.history

theorem Stored.others {salt : ℕ} (h : Stored ts salt s) (hothers : otpRights.Others ts s s') :
    Stored ts salt s' := by
  have hkeeps : Untouched salt s s' := Rights.others_keeps hothers h.mine
  exact ⟨h.mine, (others_grows hothers).codes _ h.stores,
    fun id hmem => h.unfiled id (hkeeps.files id hmem)⟩

/-- `SETEX` of the hash. -/
theorem turns_storeHash {digest : ℕ → String} {hash : CodeHash} (hs : OtpSound s)
    (hok : (storeHash digest).Ok s hash s') :
    otpRights.Turns ts (insert hash.salt ts) s s' ∧ Stored (insert hash.salt ts) hash.salt s' ∧
      s'.sends = s.sends := by
  simp only [storeHash, Block.ok_bind, Block.ok_fresh, Block.ok_mark, Block.ok_write,
    Block.ok_pure] at hok
  obtain ⟨n, s₁, ⟨hn, hs₁⟩, _, _, rfl, _, _, rfl, rfl, rfl⟩ := hok
  subst n s₁
  have hunspent := hs.unspent.1
  refine ⟨⟨.code (.stored (digest s.nextId) rfl rfl) rfl rfl, ?_, ?_⟩, ?_, rfl⟩
  · exact fun k _ _ => ⟨fun id hmem => files_snoc (by simp) hmem, fun _ _ hmem => hmem⟩
  · rintro k (rfl | hk)
    · exact .inr ⟨hunspent, .inl (List.mem_append_right _ (List.mem_singleton_self _))⟩
    · exact .inl hk
  · refine ⟨Set.mem_insert _ _, List.mem_append_right _ (List.mem_singleton_self _),
      fun id hmem => ?_⟩
    exact hunspent (.inl (hs.codes.named _ (files_snoc (by simp) hmem) :
      NamedBefore s.nextId s.codes.history (.files s.nextId id)).1)

/-- `create` of the row. -/
theorem turns_createRow {hash : CodeHash} {u : Unit} (h : Stored ts hash.salt s)
    (hok : (createRow hash).Ok s u s') : otpRights.Turns ts ts s s' ∧ s'.sends = s.sends := by
  simp only [createRow, Block.ok_bind, Block.ok_get, Relation.ok_create, Block.ok_mark] at hok
  obtain ⟨s₁, s₂, ⟨hs₁, hs₂⟩, id, _, ⟨hid, -, rfl⟩, rfl⟩ := hok
  subst s₁ s₂ id
  have hrow : CodeStep s.now s.nextId (s.nextId + 1) s.codes { s.codes with
      rows := s.codes.rows.insert ⟨s.nextId, hash, 0, s.now + OTP_TTL, s.now⟩
      history := s.codes.history ++ [.files hash.salt s.nextId] } :=
    .filed ⟨s.nextId, hash, 0, s.now + OTP_TTL, s.now⟩ ⟨rfl, rfl⟩ h.stores h.unfiled rfl rfl
      (fun r hr => Table.mem_insert hr) rfl rfl
  refine ⟨turns_code hrow rfl rfl fun k hk id hmem => ?_, rfl⟩
  refine (mem_snoc.mp hmem).resolve_right fun heq => hk ?_
  cases heq
  exact h.mine

theorem owns_withdraw {send hour : ℕ} (h : LetThrough ts send hour s) :
    (withdraw send hour).Owns otpRights (fun _ _ _ => True) ts s := by
  unfold withdraw
  refine owns_free_bind (fun _ _ _ => trivial) fun s₁ u s₂ h₁ _ hok => ⟨free_delHash hok, ?_⟩
  have h₂ := (h.others h₁).others (free_delHash hok).others
  refine owns_free_bind (fun _ _ _ => trivial) fun s₃ u s₄ h₃ _ hok => ⟨free_deleteMany hok, ?_⟩
  exact owns_release ((h₂.others h₃).others (free_deleteMany hok).others)

theorem owns_issueOtp {digest : String → ℕ → String} {otp : String} {deliver : Bool}
    {delivered : Except OtpError Unit} (hs : OtpSound s) :
    (issueOtp digest otp deliver delivered).Owns otpRights (fun _ _ _ => True) ∅ s := by
  unfold issueOtp
  refine Call.owns_bind (Call.owns_mono (fun ts r s₁ h₁ => ?_)
    (Call.owns_steps (owns_consume hs) .refl))
  obtain ⟨hthrough, hsteps⟩ := h₁
  cases r with
  | error e => trivial
  | ok x =>
    obtain ⟨send, hour⟩ := x
    have hthrough₁ := hthrough _ rfl
    have hs₁ : OtpSound s₁ := hs.run hsteps
    refine Call.owns_transaction_bind (fun _ _ _ => trivial) fun s₂ hash s₃ h₂ _ hok => ?_
    obtain ⟨hturns, hstored₃, hsends⟩ := turns_storeHash (hs₁.others h₂) hok
    have hthrough₃ := (hthrough₁.others h₂).mono hsends (Set.subset_insert hash.salt ts)
    refine ⟨insert hash.salt ts, hturns, ?_⟩
    -- the attempts on the code before are forgotten
    refine owns_free_bind (fun _ _ _ => trivial) fun s₄ u s₅ h₄ hmeets hok => ?_
    have hfree := free_delAttempts (.inr ⟨hash.salt, rfl, (hstored₃.others h₄).stores⟩) hmeets hok
    have h₅ := Rights.others_trans h₄ hfree.others
    refine ⟨hfree, owns_free_bind (fun _ _ _ => trivial) fun s₆ u s₇ h₆ _ hok => ?_⟩
    have h₇ := Rights.others_trans (Rights.others_trans h₅ h₆) (free_deleteMany hok).others
    refine ⟨free_deleteMany hok, Call.owns_transaction_bind (fun _ _ _ => trivial)
      fun s₈ u s₉ h₈ _ hok => ?_⟩
    have h₈' := Rights.others_trans h₇ h₈
    obtain ⟨hturns, hsends⟩ := turns_createRow (hstored₃.others h₈') hok
    have hthrough₉ := (hthrough₃.others h₈').mono hsends subset_rfl
    refine ⟨insert hash.salt ts, hturns, ?_⟩
    split
    · refine Call.owns_bind (Call.owns_mono (fun ts r s _ => ?_) (owns_withdraw hthrough₉))
      cases r with
      | error e => trivial
      | ok _ => exact Call.owns_fail fun _ _ => trivial
    · exact Call.owns_pure fun _ _ => trivial

/-! ## Validating a code -/

theorem free_incrAttempts {salt : ℕ} {attempts : ℤ} (hmeets : (incrAttempts salt).Meets Orderly s)
    (hok : (incrAttempts salt).Ok s attempts s') : Free s s' ∧
      (attempts ≤ OTP_MAX_ATTEMPTS → .compares salt true ∈ s'.codes.history) := by
  simp only [incrAttempts, Block.ok_bind, Block.ok_get] at hok
  obtain ⟨s₁, s₂, ⟨hs₁, hs₂⟩, hok⟩ := hok
  subst s₁ s₂
  have hcond : Block.Meets Orderly (if (Counter.incr s.now s.codes.attempts).value ≤
      OTP_MAX_ATTEMPTS then _ else _) s := hmeets
  by_cases hwithin : (Counter.incr s.now s.codes.attempts).value ≤ OTP_MAX_ATTEMPTS
  · rw [if_pos hwithin] at hcond hok
    simp only [Block.ok_bind, Block.ok_mark, Block.ok_write, Block.ok_pure] at hok
    obtain ⟨_, _, rfl, _, _, rfl, rfl, rfl⟩ := hok
    have hmark : OrderlyCode (.compares salt true) s := hcond.1
    obtain ⟨hlive, hcleared, hother⟩ := hmark
    exact ⟨free_code (.compared salt hwithin hlive hcleared hother rfl rfl) rfl rfl
      fun k id hmem => files_snoc (by simp) hmem,
      fun _ => List.mem_append_right _ (List.mem_singleton_self _)⟩
  · rw [if_neg hwithin] at hok
    simp only [Block.ok_bind, Block.ok_write, Block.ok_pure] at hok
    obtain ⟨_, _, rfl, rfl, rfl⟩ := hok
    exact ⟨free_code (.tried (not_le.mp hwithin) rfl rfl) rfl rfl fun _ _ hmem => hmem,
      fun hle => absurd hle hwithin⟩

theorem free_takeHash {salt deleted : ℕ} (hcompared : .compares salt true ∈ s.codes.history)
    (hmeets : (takeHash salt).Meets Orderly s) (hok : (takeHash salt).Ok s deleted s') :
    Free s s' := by
  simp only [takeHash, Block.ok_bind, Block.ok_get] at hok
  obtain ⟨s₁, s₂, ⟨hs₁, hs₂⟩, hok⟩ := hok
  subst s₁ s₂
  cases hlive : s.codes.live s.now with
  | none =>
    rw [hlive] at hok
    obtain ⟨-, rfl⟩ := Block.ok_pure.mp hok
    exact ⟨.later rfl rfl le_rfl le_rfl, fun k => otpRights.keeps_refl k s'⟩
  | some x =>
    have hcond := (Block.meets_bind.mp hmeets).2 s s (Block.ok_get.mpr ⟨rfl, rfl⟩)
    rw [hlive] at hok hcond
    simp only [Block.ok_bind, Block.ok_mark, Block.ok_write, Block.ok_pure] at hok
    obtain ⟨_, _, rfl, _, _, rfl, -, rfl⟩ := hok
    have hmark : OrderlyCode (.accepts salt true) s := hcond.1
    exact free_code (.taken salt hmark hcompared rfl rfl) rfl rfl
      fun k id hmem => files_snoc (by simp) hmem

theorem owns_expireAttempts {attempts : ℤ} {α : Type} {f : Unit → OtpCall α}
    {P : Set ℕ → Except OtpError α → OtpDb → Prop}
    (hfail : ∀ e s', otpRights.Others ts s s' → P ts (.error e) s')
    (h : ∀ s', otpRights.Others ts s s' → (f ()).Owns otpRights P ts s') :
    (expireFirst attempts >>= f).Owns otpRights P ts s := by
  unfold expireFirst
  split
  · refine owns_free_bind hfail fun s₁ u s₂ h₁ _ hok => ?_
    obtain rfl := Block.ok_write.mp hok
    have hfree : Free s₁ (s₁.setCodes { s₁.codes with
        attempts := Counter.expire s₁.now OTP_TTL s₁.codes.attempts }) :=
      free_code (.expired rfl rfl) rfl rfl fun _ _ hmem => hmem
    exact ⟨hfree, h _ (Rights.others_trans h₁ hfree.others)⟩
  · exact h s Rights.others_refl

theorem owns_validateInRedis {digest : String → ℕ → String} {code : String} {hash : CodeHash} :
    (validateInRedis digest code hash).Owns otpRights (fun _ _ _ => True) ts s := by
  unfold validateInRedis
  refine owns_free_bind (fun _ _ _ => trivial) fun s₁ attempts s₂ h₁ hmeets hok => ?_
  obtain ⟨hfree, hcompared⟩ := free_incrAttempts hmeets hok
  refine ⟨hfree, owns_expireAttempts (fun _ _ _ => trivial) fun s₃ h₃ => ?_⟩
  by_cases hover : (OTP_MAX_ATTEMPTS : ℤ) < attempts
  · rw [if_pos hover]
    unfold exceed
    refine owns_free_bind (fun _ _ _ => trivial) fun s₄ u s₅ _ _ hok => ⟨free_delHash hok, ?_⟩
    refine owns_free_bind (fun _ _ _ => trivial) fun s₆ u s₇ _ hmeets hok =>
      ⟨free_delAttempts (.inl rfl) hmeets hok, ?_⟩
    refine owns_free_bind (fun _ _ _ => trivial) fun s₈ u s₉ _ _ hok => ⟨free_deleteMany hok, ?_⟩
    exact Call.owns_fail fun _ _ => trivial
  · rw [if_neg hover]
    refine Call.owns_check_bind (fun _ _ => trivial) fun _ => ?_
    refine owns_free_bind (fun _ _ _ => trivial) fun s₄ deleted s₅ h₄ hmeets hok => ?_
    have hgrows := others_grows (Rights.others_trans h₃ h₄)
    have hcompared₄ := hgrows.codes _ (hcompared (not_lt.mp hover))
    refine ⟨free_takeHash hcompared₄ hmeets hok, ?_⟩
    refine Call.owns_check_bind (fun _ _ => trivial) fun _ => ?_
    refine owns_free_bind (fun _ _ _ => trivial) fun s₆ u s₇ _ hmeets hok =>
      ⟨free_delAttempts (.inl rfl) hmeets hok, ?_⟩
    exact owns_free fun s₈ u s₉ _ _ hok => free_deleteMany hok

/-- What is left of a fold that keeps the best row is one of the rows, or the first value. -/
theorem mem_of_foldl {α : Type} {f : Option α → α → Option α}
    (hf : ∀ best r, f best r = some r ∨ f best r = best) {record : α} :
    ∀ (rows : List α) (best : Option α), rows.foldl f best = some record →
      record ∈ rows ∨ best = some record := by
  intro rows
  induction rows with
  | nil => exact fun best hbest => .inr hbest
  | cons r rows ih =>
    intro best hbest
    rcases ih _ hbest with hmem | hnext
    · exact .inl (List.mem_cons_of_mem r hmem)
    · rcases hf best r with hnew | hold
      · rw [hnew, Option.some.injEq] at hnext
        exact .inl (hnext ▸ List.mem_cons_self)
      · exact .inr (hold ▸ hnext)

/-- The latest row is one of the rows. -/
theorem mem_latestOtp {record : UserOtp} (h : latestOtp s = some record) :
    record ∈ s.codes.rows.rows := by
  have hfold := mem_of_foldl (fun best r => ?_) _ _ h
  · rcases hfold with hmem | hnone
    · exact List.mem_of_mem_filter hmem
    · cases hnone
  · cases best with
    | none => exact .inl rfl
    | some b =>
      dsimp only
      split
      · exact .inl rfl
      · exact .inr rfl

theorem free_claimRow {record : UserOtp} {claimed : ℕ}
    (hfiled : .files record.codeHash.salt record.id ∈ s.codes.history)
    (hmeets : (claimRow record).Meets Orderly s) (hok : (claimRow record).Ok s claimed s') :
    Free s s' ∧ (claimed ≠ 0 → .compares record.codeHash.salt false ∈ s'.codes.history) := by
  simp only [claimRow, Block.ok_bind, Block.ok_get] at hok
  obtain ⟨s₁, s₂, ⟨hs₁, hs₂⟩, hok⟩ := hok
  subst s₁ s₂
  cases hrow : (s.codes.rows.find? record.id).filter
      fun r => decide (r.attempts < OTP_MAX_ATTEMPTS) with
  | none =>
    rw [hrow] at hok
    obtain ⟨rfl, rfl⟩ := Block.ok_pure.mp hok
    exact ⟨⟨.later rfl rfl le_rfl le_rfl, fun k => otpRights.keeps_refl k s'⟩,
      fun h => absurd rfl h⟩
  | some row =>
    have hcond := (Block.meets_bind.mp hmeets).2 s s (Block.ok_get.mpr ⟨rfl, rfl⟩)
    rw [hrow] at hok hcond
    simp only [Block.ok_bind, Block.ok_mark, Block.ok_write, Block.ok_pure] at hok
    obtain ⟨_, _, rfl, _, _, rfl, -, rfl⟩ := hok
    have hmark : OrderlyCode (.compares record.codeHash.salt false) s := hcond.1
    obtain ⟨hfound, hwithin⟩ := Option.filter_eq_some_iff.mp hrow
    obtain ⟨hmem, hid⟩ := Table.find?_eq_some.mp hfound
    refine ⟨free_code (.claimed row record.codeHash.salt hmem (of_decide_eq_true hwithin)
      (hid ▸ hfiled) hmark rfl rfl ?_ rfl rfl) rfl rfl fun k id hmem => files_snoc (by simp) hmem,
      fun _ => List.mem_append_right _ (List.mem_singleton_self _)⟩
    intro r hr
    have hupdated : r ∈ (s.codes.rows.update record.id
        (fun r => { r with attempts := r.attempts + 1 }) fun _ => rfl).rows := hr
    obtain ⟨r₀, hr₀, rfl⟩ := Table.mem_update.mp hupdated
    by_cases hsame : r₀.id = record.id
    · have hrow₀ : s.codes.rows.find? record.id = some r₀ := hsame ▸ Table.find?_of_mem hr₀
      obtain rfl := Option.some.inj (hrow₀.symm.trans hfound)
      exact .inr (if_pos hsame)
    · rw [if_neg hsame]
      exact .inl ⟨hr₀, fun heq => hsame (heq.trans hid)⟩

theorem free_consumeRow {record : UserOtp} {consumed : ℕ}
    (hfiled : .files record.codeHash.salt record.id ∈ s.codes.history)
    (hcompared : .compares record.codeHash.salt false ∈ s.codes.history)
    (hok : (consumeRow record).Ok s consumed s') : Free s s' := by
  simp only [consumeRow, Block.ok_bind, Block.ok_get] at hok
  obtain ⟨s₁, s₂, ⟨hs₁, hs₂⟩, hok⟩ := hok
  subst s₁ s₂
  cases hrow : s.codes.rows.find? record.id with
  | none =>
    rw [hrow] at hok
    obtain ⟨-, rfl⟩ := Block.ok_pure.mp hok
    exact ⟨.later rfl rfl le_rfl le_rfl, fun k => otpRights.keeps_refl k s'⟩
  | some row =>
    rw [hrow] at hok
    simp only [Block.ok_bind, Block.ok_mark, Block.ok_write, Block.ok_pure] at hok
    obtain ⟨_, _, rfl, _, _, rfl, -, rfl⟩ := hok
    refine free_code (.consumed record.codeHash.salt record.id ⟨row, Table.find?_eq_some.mp hrow⟩
      hfiled hcompared rfl rfl (fun r hr => ?_) rfl rfl) rfl rfl
      fun k id hmem => files_snoc (by simp) hmem
    obtain ⟨hmem, hother⟩ := Table.mem_deleteWhere.mp hr
    exact ⟨hmem, beq_eq_false_iff_ne.mp hother⟩

theorem owns_validateInDatabase {digest : String → ℕ → String} {code : String} (hs : OtpSound s) :
    (validateInDatabase digest code).Owns otpRights (fun _ _ _ => True) ts s := by
  unfold validateInDatabase
  refine Call.owns_get_bind fun s₁ h₁ => ?_
  refine Call.owns_getOrFail_bind (fun _ _ => trivial) fun record hrecord => ?_
  have hfiled := ((hs.others h₁).codes.rows.row record (mem_latestOtp hrecord)).1
  refine owns_free_bind (fun _ _ _ => trivial) fun s₂ claimed s₃ h₂ hmeets hok => ?_
  obtain ⟨hfree, hcompared⟩ := free_claimRow ((others_grows h₂).codes _ hfiled) hmeets hok
  refine ⟨hfree, ?_⟩
  by_cases hnone : claimed = 0
  · rw [if_pos hnone]
    refine owns_free_bind (fun _ _ _ => trivial) fun s₄ u s₅ _ _ hok => ⟨free_deleteMany hok, ?_⟩
    exact Call.owns_fail fun _ _ => trivial
  · rw [if_neg hnone]
    refine Call.owns_check_bind (fun _ _ => trivial) fun _ => ?_
    refine owns_free_bind (fun _ _ _ => trivial) fun s₄ consumed s₅ h₄ _ hok => ?_
    have hsteps := others_grows (Rights.others_trans (Rights.others_trans h₂ hfree.others) h₄)
    have hcompared₄ := (others_grows h₄).codes _ (hcompared hnone)
    refine ⟨free_consumeRow (hsteps.codes _ hfiled) hcompared₄ hok, ?_⟩
    cases consumed == 1 with
    | true => exact Call.owns_pure fun _ _ => trivial
    | false => exact Call.owns_fail fun _ _ => trivial

theorem owns_serveOtp {digest : String → ℕ → String} (hs : OtpSound s) (q : OtpRequest) :
    (serveOtp digest q).Owns otpRights (fun _ _ _ => True) ∅ s := by
  cases q with
  | issue otp deliver delivered =>
    refine Call.owns_bind (Call.owns_mono (fun ts r s _ => ?_) (owns_issueOtp hs))
    cases r with
    | error e => trivial
    | ok _ => exact Call.owns_pure fun _ _ => trivial
  | validate code =>
    refine Call.owns_get_bind fun s₁ h₁ => ?_
    cases hlive : s₁.codes.live s₁.now with
    | some hash => exact owns_validateInRedis
    | none => exact owns_validateInDatabase (hs.others h₁)

/-! ## Every interleaving -/

/-- The clock moves, and numbers are drawn. -/
structure TimePasses (s s' : OtpDb) : Prop where
  codes : s'.codes = s.codes
  sends : s'.sends = s.sends
  now : s.now ≤ s'.now
  next : s.nextId ≤ s'.nextId

/-- No code was issued yet. -/
structure NoCodes (s : OtpDb) : Prop where
  codes : s.codes = ⟨none, none, .empty, []⟩
  sends : s.sends = ⟨none, none, []⟩

theorem NoCodes.sound (h : NoCodes s) : OtpSound s := by
  refine ⟨?_, ?_⟩
  · rw [h.codes]
    refine ⟨fun l hl => absurd hl List.not_mem_nil, ⟨nofun, nofun, nofun, ?_, ?_⟩,
      ⟨?_, ?_, ?_, ?_, ?_⟩, ?_⟩ <;> simp
    intro r hr
    cases hr
  · rw [h.sends]
    constructor <;> simp [sent, kept, charged, within, OTP_MAX_SENDS_PER_HOUR]

/-- What a run is to bound. -/
structure GuessingBounded (s : OtpDb) : Prop where
  /-- submitted codes that a code is compared with, over both copies of it -/
  compared : ∀ salt, s.codes.history.count (.compares salt true) +
    s.codes.history.count (.compares salt false) ≤ OTP_MAX_ATTEMPTS
  /-- submitted codes that are accepted for a code -/
  accepted : ∀ salt, s.codes.history.count (.accepts salt true) +
    s.codes.history.count (.accepts salt false) ≤ 1
  /-- sends let through in an hour that are not released -/
  hourly : ∀ start, (within start s.sends.history).length ≤ OTP_MAX_SENDS_PER_HOUR
  /-- two of them -/
  apart : ∀ x ∈ kept s.sends.history, ∀ y ∈ kept s.sends.history, x ≠ y →
    OTP_RESEND_GAP ≤ |x.time - y.time|

theorem OtpSound.bounded (hs : OtpSound s) : GuessingBounded s :=
  ⟨hs.codes.compared_le, hs.codes.accepted_le, hs.sends.hourly, hs.sends.apart⟩

/-- A hash that does not hide its code. -/
def plainDigest (code : String) (_ : ℕ) : String := code

/-- A phone that was sent no code. -/
def newPhone : OtpDb := ⟨⟨none, none, .empty, []⟩, ⟨none, none, []⟩, 0, 1⟩

/-- A code is issued, one guess at it fails and the next one does not. -/
def issuedAndGuessed : List (PoolEvent OtpRequest OtpDb) :=
  .start (.issue "482913" false (.ok ())) :: List.replicate 8 (.advance 0) ++
    .start (.validate "000000") :: List.replicate 3 (.advance 1) ++
    .start (.validate "482913") :: List.replicate 5 (.advance 2)

/-- Whether nobody comes between an operation on the codes and what it relies on. -/
def orderlyCode : CodeMark → OtpDb → Bool
  | .clears _, s => (s.codes.live s.now).all fun hash =>
    decide (.compares hash.salt true ∉ s.codes.history)
  | .resets, s => (s.codes.live s.now).all fun hash =>
    decide (.compares hash.salt true ∉ s.codes.history)
  | .compares salt true, s => (s.codes.live s.now).any (fun hash => hash.salt == salt) &&
    decide (.clears salt ∈ s.codes.history) && decide (.compares salt false ∉ s.codes.history)
  | .compares salt false, s => decide (.compares salt true ∉ s.codes.history)
  | .accepts salt true, s => (s.codes.live s.now).any fun hash => hash.salt == salt
  | _, _ => true

theorem orderlyCode_sound {l : CodeMark} {s : OtpDb} (h : orderlyCode l s = true) :
    OrderlyCode l s := by
  have hall : ∀ {o : Option CodeHash}, (o.all fun hash =>
      decide (CodeMark.compares hash.salt true ∉ s.codes.history)) = true →
      ∀ hash, o = some hash → .compares hash.salt true ∉ s.codes.history := by
    rintro o ho hash rfl
    exact of_decide_eq_true ho
  have hany : ∀ {o : Option CodeHash} {salt : ℕ}, (o.any fun hash => hash.salt == salt) = true →
      ∃ hash, o = some hash ∧ hash.salt = salt := by
    intro o salt ho
    obtain ⟨hash, heq, hsalt⟩ := (Option.any_eq_true _ _).mp ho
    exact ⟨hash, heq, beq_iff_eq.mp hsalt⟩
  cases l with
  | clears salt => exact hall h
  | resets => exact hall h
  | stores salt => trivial
  | files salt id => trivial
  | compares salt redis =>
    cases redis with
    | true =>
      simp only [orderlyCode, Bool.and_eq_true, decide_eq_true_eq] at h
      exact ⟨hany h.1.1, h.1.2, h.2⟩
    | false =>
      have hfree : decide (CodeMark.compares salt true ∉ s.codes.history) = true := h
      have hnot := of_decide_eq_true hfree
      exact hnot
  | accepts salt redis =>
    cases redis with
    | true => exact hany h
    | false => trivial

/-- The same, for the quota; no send was let through before. -/
def orderlySend : SendMark → OtpDb → Bool
  | .counts _ _, s => (kept s.sends.history).isEmpty
  | .lets _ hour _, s => s.sends.gap.isNone &&
    ((s.sends.liveHour s.now).any fun w => w.1 == hour)
  | _, _ => false

theorem orderlySend_sound {l : SendMark} {s : OtpDb} (h : orderlySend l s = true) :
    OrderlySend l s := by
  cases l with
  | counts send hour =>
    intro _ x hx
    rw [List.isEmpty_iff.mp h] at hx
    exact absurd hx List.not_mem_nil
  | lets send hour time =>
    obtain ⟨hgap, hlive⟩ := Bool.and_eq_true_iff.mp h
    obtain ⟨⟨w, a⟩, heq, hhour⟩ := (Option.any_eq_true _ _).mp hlive
    obtain rfl := beq_iff_eq.mp hhour
    refine ⟨fun t ht => ?_, a, heq⟩
    rw [Option.isNone_iff_eq_none.mp hgap] at ht
    cases ht
  | releases send => cases h
  | returns send hour => cases h

/-- Both. -/
def orderly : OtpMark → OtpDb → Bool
  | .code l, s => orderlyCode l s
  | .send l, s => orderlySend l s

theorem orderly_sound (l : OtpMark) (s : OtpDb) (h : orderly l s = true) : Orderly l s := by
  cases l with
  | code l => exact orderlyCode_sound h
  | send l => exact orderlySend_sound h

/-- A code is in Redis, and the attempts on the one before it are not yet deleted; five guesses
come in between and one after. -/
def guessedAtOnce : List (PoolEvent OtpRequest OtpDb) :=
  .start (.issue "482913" false (.ok ())) :: List.replicate 5 (.advance 0) ++
    .start (.validate "000000") :: List.replicate 3 (.advance 1) ++
    ([2, 3, 4, 5].flatMap fun i => [.start (.validate "000000"), .advance i, .advance i]) ++
    [.advance 0, .start (.validate "000000"), .advance 6, .advance 6]

/-- Two codes are asked for at once; both requests find no gap. -/
def askedTwice : List (PoolEvent OtpRequest OtpDb) :=
  [.start (.issue "482913" false (.ok ())), .start (.issue "731046" false (.ok ())), .advance 0,
    .advance 1] ++ List.replicate 3 (.advance 0) ++ List.replicate 2 (.advance 1)

end AuthService

end ArkanGold
