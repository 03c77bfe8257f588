import ArkanGold.Auth.OneTimeCodes

/-!
# The quota of sends

What bounds the sends that are not released: the gap keeps two of them apart, the counter of the
hour bounds those of one hour, and an hour is not opened too soon after sends of another.

- `SendStep` is what one operation does to the quota, under the condition that goes with it.
- `SendsSound`: the counter of an hour is at least the number of sends counted in it that were
  not taken off again; sends of other hours are an hour old.
- `SendsSound.step`: it is kept by every operation.
-/

namespace ArkanGold

namespace OtpSendLimiterService

variable {now now' : ℤ} {next next' : ℕ} {c c' : SendState} {h : List SendMark} {l m : SendMark}

/-! ## Sends -/

/-- A send that was let through. -/
structure Send where
  send : ℕ
  hour : ℕ
  time : ℤ
  deriving DecidableEq

/-- The send that a mark lets through. -/
def sendOf : SendMark → Option Send
  | .lets send hour time => some ⟨send, hour, time⟩
  | _ => none

/-- The sends that were let through. -/
def sent (h : List SendMark) : List Send := h.filterMap sendOf

/-- The sends let through that are not released. -/
def kept (h : List SendMark) : List Send :=
  (sent h).filter fun x => decide (.releases x.send ∉ h)

/-- The send that a mark counts in an hour. -/
def countedBy (hour : ℕ) : SendMark → Option ℕ
  | .counts send w => if w = hour then some send else none
  | _ => none

/-- The sends counted in an hour and not taken off it. -/
def charged (hour : ℕ) (h : List SendMark) : List ℕ :=
  (h.filterMap (countedBy hour)).filter fun send => decide (.returns send hour ∉ h)

/-- The sends that are not released and were let through in the hour after `start`. -/
def within (start : ℤ) (h : List SendMark) : List Send :=
  (kept h).filter fun x => decide (start < x.time ∧ x.time ≤ start + HOUR)

theorem mem_sent {x : Send} : x ∈ sent h ↔ .lets x.send x.hour x.time ∈ h := by
  unfold sent
  constructor
  · intro hx
    obtain ⟨l, hl, heq⟩ := List.mem_filterMap.mp hx
    cases l with
    | lets send hour time =>
      cases heq
      exact hl
    | counts send hour => cases heq
    | releases send => cases heq
    | returns send hour => cases heq
  · exact fun hl => List.mem_filterMap.mpr ⟨_, hl, rfl⟩

theorem mem_kept {x : Send} :
    x ∈ kept h ↔ .lets x.send x.hour x.time ∈ h ∧ .releases x.send ∉ h := by
  rw [kept, List.mem_filter, mem_sent, decide_eq_true_eq]

theorem mem_counted {send hour : ℕ} :
    send ∈ h.filterMap (countedBy hour) ↔ .counts send hour ∈ h := by
  constructor
  · intro hx
    obtain ⟨l, hl, heq⟩ := List.mem_filterMap.mp hx
    cases l with
    | counts send' hour' =>
      simp only [countedBy, Option.ite_none_right_eq_some, Option.some.injEq] at heq
      obtain ⟨rfl, rfl⟩ := heq
      exact hl
    | lets send hour time => cases heq
    | releases send => cases heq
    | returns send hour => cases heq
  · exact fun hl => List.mem_filterMap.mpr ⟨_, hl, by simp [countedBy]⟩

theorem mem_charged {send hour : ℕ} :
    send ∈ charged hour h ↔ .counts send hour ∈ h ∧ .returns send hour ∉ h := by
  rw [charged, List.mem_filter, mem_counted, decide_eq_true_eq]

/-! ## The hour -/

theorem countSend_live {hour send : ℕ} {a : Counter} (hlive : c.liveHour now = some (hour, a)) :
    c.hour = some (hour, a) ∧
      countSend now send c = (hour, { a with value := a.value + 1 }) := by
  obtain ⟨heq, hends⟩ := Option.filter_eq_some_iff.mp hlive
  refine ⟨heq, ?_⟩
  have hcounter : Counter.live now (some a) = some a := by
    rw [Counter.live, Option.filter_some, if_pos hends]
  rw [countSend, hlive, heq, Option.map_some, Option.map_some, Counter.incr, hcounter]
  rfl

theorem countSend_dead {send : ℕ} (hdead : c.liveHour now = none) :
    countSend now send c = (send, ⟨1, none⟩) := by
  have hcounter : Counter.live now (c.hour.map Prod.snd) = none := by
    unfold SendState.liveHour at hdead
    cases hhour : c.hour with
    | none => rfl
    | some w =>
      rw [hhour, Option.filter_some] at hdead
      rw [Option.map_some, Counter.live, Option.filter_some]
      split at hdead
      · cases hdead
      · rename_i hno
        exact if_neg hno
  rw [countSend, hdead, Counter.incr, hcounter]
  rfl

/-! ## Steps -/

/-- What an operation does to the quota at the instant `now`; `next` is the next number of the
supply. -/
inductive SendStep (now : ℤ) (next next' : ℕ) (c c' : SendState) : Prop where
  | same (heq : c' = c) (hnext : next ≤ next')
  | tried (hover : OTP_MAX_SENDS_PER_HOUR < (countSend now next c).2.value)
    (heq : c' = { c with hour := some (countSend now next c) }) (hnext : next' = next + 1)
  | counted (hwithin : (countSend now next c).2.value ≤ OTP_MAX_SENDS_PER_HOUR)
    (hold : c.liveHour now = none → ∀ x ∈ kept c.history, x.time + HOUR ≤ now)
    (heq : c' = { c with
      hour := some (countSend now next c)
      history := c.history ++ [.counts next (countSend now next c).1] }) (hnext : next' = next + 1)
  | expired (heq : c' = { c with
      hour := (c.liveHour now).map (fun w => (w.1, { w.2 with endsAt := some (now + HOUR) })) })
    (hnext : next' = next)
  | passed (send hour : ℕ) (hcounted : .counts send hour ∈ c.history)
    (hnew : ∀ hour time, .lets send hour time ∉ c.history) (hkept : .releases send ∉ c.history)
    (hgap : ∀ t, c.gap = some t → t ≤ now) (hlive : ∃ a, c.liveHour now = some (hour, a))
    (heq : c' = { c with
      gap := some (now + OTP_RESEND_GAP)
      history := c.history ++ [.lets send hour now] }) (hnext : next' = next)
  | released (x : Send) (hlet : x ∈ kept c.history)
    (hlast : ∀ y ∈ sent c.history, y.time ≤ x.time)
    (heq : c' = { c with gap := none, history := c.history ++ [.releases x.send] })
    (hnext : next' = next)
  | returned (send hour : ℕ) (a : Counter) (hcounted : .counts send hour ∈ c.history)
    (hreleased : .releases send ∈ c.history) (hnew : .returns send hour ∉ c.history)
    (hlive : c.liveHour now = some (hour, a))
    (heq : c' = { c with
      hour := some (hour, { a with value := a.value - 1 })
      history := c.history ++ [.returns send hour] }) (hnext : next' = next)

/-- The supply and the history only grow. -/
theorem SendStep.grows (h : SendStep now next next' c c') :
    next ≤ next' ∧ ∀ l ∈ c.history, l ∈ c'.history := by
  cases h with
  | same heq hnext => exact ⟨hnext, fun l hl => heq ▸ hl⟩
  | tried _ heq hnext => exact ⟨hnext ▸ Nat.le_succ next, fun l hl => heq ▸ hl⟩
  | counted _ _ heq hnext =>
    exact ⟨hnext ▸ Nat.le_succ next, fun l hl => heq ▸ List.mem_append_left _ hl⟩
  | expired heq hnext => exact ⟨hnext.ge, fun l hl => heq ▸ hl⟩
  | passed _ _ _ _ _ _ _ heq hnext => exact ⟨hnext.ge, fun l hl => heq ▸ List.mem_append_left _ hl⟩
  | released _ _ _ heq hnext => exact ⟨hnext.ge, fun l hl => heq ▸ List.mem_append_left _ hl⟩
  | returned _ _ _ _ _ _ _ heq hnext =>
    exact ⟨hnext.ge, fun l hl => heq ▸ List.mem_append_left _ hl⟩

/-! ## The invariant -/

/-- What holds of the quota. -/
structure SendsSound (now : ℤ) (next : ℕ) (c : SendState) : Prop where
  counts : ∀ send hour, .counts send hour ∈ c.history → send < next ∧ hour < next
  lets : ∀ x ∈ sent c.history, .counts x.send x.hour ∈ c.history ∧ x.time ≤ now
  releases : ∀ send, .releases send ∈ c.history → ∃ x ∈ sent c.history, x.send = send
  returns : ∀ send hour, .returns send hour ∈ c.history → .releases send ∈ c.history
  once : ∀ hour, (c.history.filterMap (countedBy hour)).Nodup
  single : ((sent c.history).map Send.send).Nodup
  opened : ∀ hour a, c.hour = some (hour, a) → hour < next
  charge : ∀ hour a, c.hour = some (hour, a) → (charged hour c.history).length ≤ a.value
  bounded : ∀ hour, (charged hour c.history).length ≤ OTP_MAX_SENDS_PER_HOUR
  older : ∀ hour a, c.hour = some (hour, a) → ∀ x ∈ kept c.history, x.hour ≠ hour →
    x.time + HOUR ≤ now
  gap : ∀ x ∈ kept c.history, x.time + OTP_RESEND_GAP ≤ now ∨
    ∃ t, c.gap = some t ∧ x.time + OTP_RESEND_GAP ≤ t
  apart : ∀ x ∈ kept c.history, ∀ y ∈ kept c.history, x ≠ y →
    OTP_RESEND_GAP ≤ |x.time - y.time|
  hourly : ∀ start, (within start c.history).length ≤ OTP_MAX_SENDS_PER_HOUR

/-! ## Histories that grow -/

theorem mem_snoc : m ∈ h ++ [l] ↔ m ∈ h ∨ m = l := by
  rw [List.mem_append, List.mem_singleton]

theorem mem_snoc_of_ne (hne : m ≠ l) : m ∈ h ++ [l] ↔ m ∈ h :=
  mem_snoc.trans (or_iff_left hne)

theorem decide_snoc_of_ne (hne : m ≠ l) : decide (m ∉ h ++ [l]) = decide (m ∉ h) :=
  decide_eq_decide.mpr (not_congr (mem_snoc_of_ne hne))

theorem sent_snoc : sent (h ++ [l]) = sent h ++ (sendOf l).toList := by
  rw [sent, List.filterMap_append]
  cases hl : sendOf l with
  | none => simp [sent, hl]
  | some x => simp [sent, hl]

theorem kept_snoc_of_none (hl : sendOf l = none) (hne : ∀ send, l ≠ .releases send) :
    kept (h ++ [l]) = kept h := by
  rw [kept, sent_snoc, hl, Option.toList_none, List.append_nil, kept]
  exact List.filter_congr fun x _ => decide_snoc_of_ne (hne x.send).symm

theorem kept_snoc_lets {send hour : ℕ} {time : ℤ} (hkept : .releases send ∉ h) :
    kept (h ++ [.lets send hour time]) = kept h ++ [⟨send, hour, time⟩] := by
  have hsame : ∀ x : Send, decide (.releases x.send ∉ h ++ [SendMark.lets send hour time]) =
      decide (.releases x.send ∉ h) := fun x => decide_snoc_of_ne (by simp)
  rw [kept, sent_snoc]
  simp only [sendOf, Option.toList_some, hsame]
  rw [List.filter_append, kept, List.filter_singleton]
  simp [hkept]

theorem mem_kept_snoc_releases {send : ℕ} {x : Send} :
    x ∈ kept (h ++ [.releases send]) ↔ x ∈ kept h ∧ x.send ≠ send := by
  rw [mem_kept, mem_kept, mem_snoc_of_ne (by simp), mem_snoc]
  simp [and_assoc]

theorem kept_snoc_releases {send : ℕ} :
    (kept (h ++ [.releases send])).Sublist (kept h) := by
  have hweaker : ∀ x : Send, decide (.releases x.send ∉ h ++ [SendMark.releases send]) = true →
      decide (.releases x.send ∉ h) = true := by
    intro x hx
    exact decide_eq_true fun hmem => of_decide_eq_true hx (mem_snoc.mpr (.inl hmem))
  rw [kept, sent_snoc, show sendOf (.releases send) = none from rfl, Option.toList_none,
    List.append_nil]
  exact List.monotone_filter_right _ hweaker

theorem counted_snoc {hour : ℕ} : (h ++ [l]).filterMap (countedBy hour) =
    h.filterMap (countedBy hour) ++ (countedBy hour l).toList := by
  rw [List.filterMap_append]
  cases hl : countedBy hour l with
  | none => simp [hl]
  | some x => simp [hl]

theorem charged_snoc_of_none {hour : ℕ} (hl : countedBy hour l = none)
    (hne : ∀ send, l ≠ .returns send hour) : charged hour (h ++ [l]) = charged hour h := by
  rw [charged, counted_snoc, hl, Option.toList_none, List.append_nil, charged]
  exact List.filter_congr fun send _ => decide_snoc_of_ne (hne send).symm

theorem charged_snoc_counts {send hour : ℕ} (hnew : .returns send hour ∉ h) :
    charged hour (h ++ [.counts send hour]) = charged hour h ++ [send] := by
  have hsame : ∀ x : ℕ, decide (.returns x hour ∉ h ++ [SendMark.counts send hour]) =
      decide (.returns x hour ∉ h) := fun x => decide_snoc_of_ne (by simp)
  rw [charged, counted_snoc]
  simp only [countedBy, if_true, Option.toList_some, hsame]
  rw [List.filter_append, charged, List.filter_singleton]
  simp [hnew]

theorem charged_snoc_returns {send hour : ℕ} (hcounted : .counts send hour ∈ h)
    (hnew : .returns send hour ∉ h) (honce : (h.filterMap (countedBy hour)).Nodup) :
    (charged hour (h ++ [.returns send hour])).length + 1 = (charged hour h).length := by
  have hmem : send ∈ charged hour h := mem_charged.mpr ⟨hcounted, hnew⟩
  have heq : charged hour (h ++ [.returns send hour]) = (charged hour h).erase send := by
    have hnodup : (charged hour h).Nodup := honce.filter _
    rw [hnodup.erase_eq_filter, charged, counted_snoc,
      show countedBy hour (.returns send hour) = none from rfl, Option.toList_none,
      List.append_nil, charged, List.filter_filter]
    refine List.filter_congr fun x _ => ?_
    rw [Bool.eq_iff_iff]
    simp [and_comm]
  rw [heq, List.length_erase_of_mem hmem]
  have hpos := List.length_pos_of_mem hmem
  omega

/-! ## What an operation keeps -/

theorem SendsSound.later (hs : SendsSound now next c) (hnow : now ≤ now') (hnext : next ≤ next') :
    SendsSound now' next' c where
  counts send hour hmem :=
    ⟨lt_of_lt_of_le (hs.counts send hour hmem).1 hnext,
      lt_of_lt_of_le (hs.counts send hour hmem).2 hnext⟩
  lets x hx := ⟨(hs.lets x hx).1, (hs.lets x hx).2.trans hnow⟩
  releases := hs.releases
  returns := hs.returns
  once := hs.once
  single := hs.single
  opened hour a ha := lt_of_lt_of_le (hs.opened hour a ha) hnext
  charge := hs.charge
  bounded := hs.bounded
  older hour a ha x hx hne := (hs.older hour a ha x hx hne).trans hnow
  gap x hx := (hs.gap x hx).imp (fun hle => hle.trans hnow) id
  apart := hs.apart
  hourly := hs.hourly

/-- The hour changes and the sends do not. -/
theorem SendsSound.recount (hs : SendsSound now next c) (hgap : c'.gap = c.gap)
    (hhistory : c'.history = c.history)
    (hhour : ∀ hour a, c'.hour = some (hour, a) →
      ∃ a', c.hour = some (hour, a') ∧ a'.value ≤ a.value) (hnext : next ≤ next') :
    SendsSound now next' c' := by
  have hs' := hs.later (le_refl now) hnext
  constructor
  · exact hhistory ▸ hs'.counts
  · exact hhistory ▸ hs'.lets
  · exact hhistory ▸ hs'.releases
  · exact hhistory ▸ hs'.returns
  · exact hhistory ▸ hs'.once
  · exact hhistory ▸ hs'.single
  · intro hour a ha
    obtain ⟨a', ha', -⟩ := hhour hour a ha
    exact hs'.opened hour a' ha'
  · intro hour a ha
    obtain ⟨a', ha', hle⟩ := hhour hour a ha
    exact hhistory ▸ (hs'.charge hour a' ha').trans hle
  · exact hhistory ▸ hs'.bounded
  · intro hour a ha
    obtain ⟨a', ha', -⟩ := hhour hour a ha
    exact hhistory ▸ hs'.older hour a' ha'
  · rw [hgap, hhistory]
    exact hs'.gap
  · exact hhistory ▸ hs'.apart
  · exact hhistory ▸ hs'.hourly

theorem liveHour_eq_some {hour : ℕ} {a : Counter} (hlive : c.liveHour now = some (hour, a)) :
    c.hour = some (hour, a) :=
  (Option.filter_eq_some_iff.mp hlive).1

theorem SendsSound.tried (hs : SendsSound now next c)
    (hover : OTP_MAX_SENDS_PER_HOUR < (countSend now next c).2.value) :
    SendsSound now (next + 1) { c with hour := some (countSend now next c) } := by
  cases hlive : c.liveHour now with
  | none =>
    rw [countSend_dead hlive] at hover
    exact absurd hover (show ¬OTP_MAX_SENDS_PER_HOUR < 1 by decide)
  | some w =>
    obtain ⟨hour, a⟩ := w
    obtain ⟨hhour, hcount⟩ := (@countSend_live _ _ _ next) hlive
    refine hs.recount rfl rfl ?_ (Nat.le_succ next)
    intro hour' a' ha'
    rw [hcount] at ha'
    cases ha'
    exact ⟨a, hhour, (lt_add_one a.value).le⟩

theorem SendsSound.expired (hs : SendsSound now next c) : SendsSound now next { c with
    hour := (c.liveHour now).map (fun w => (w.1, { w.2 with endsAt := some (now + HOUR) })) } := by
  refine hs.recount rfl rfl ?_ le_rfl
  intro hour a ha
  obtain ⟨⟨hour', a'⟩, hlive, heq⟩ := Option.map_eq_some_iff.mp ha
  cases heq
  exact ⟨a', liveHour_eq_some hlive, le_rfl⟩

/-- A number that was not spent yet is in no mark. -/
theorem SendsSound.fresh (hs : SendsSound now next c) (hour : ℕ) :
    .counts next hour ∉ c.history ∧ .returns next hour ∉ c.history ∧
      ∀ send, .counts send next ∉ c.history := by
  refine ⟨fun hmem => lt_irrefl next (hs.counts _ _ hmem).1, fun hmem => ?_,
    fun send hmem => lt_irrefl next (hs.counts _ _ hmem).2⟩
  obtain ⟨x, hx, rfl⟩ := hs.releases _ (hs.returns _ _ hmem)
  exact lt_irrefl x.send (hs.counts _ _ (hs.lets x hx).1).1

/-- The hour that counts the next send, and what it has counted with it. -/
theorem SendsSound.counted_hour (hs : SendsSound now next c)
    (hold : c.liveHour now = none → ∀ x ∈ kept c.history, x.time + HOUR ≤ now) :
    (countSend now next c).1 < next + 1 ∧
      (charged (countSend now next c).1 c.history).length + 1 ≤ (countSend now next c).2.value ∧
      ∀ x ∈ kept c.history, x.hour ≠ (countSend now next c).1 → x.time + HOUR ≤ now := by
  cases hlive : c.liveHour now with
  | none =>
    rw [countSend_dead hlive]
    have hnone : charged next c.history = [] := List.eq_nil_iff_forall_not_mem.mpr
      fun send hmem => (hs.fresh next).2.2 send (mem_charged.mp hmem).1
    refine ⟨Nat.lt_succ_self next, ?_, fun x hx _ => hold hlive x hx⟩
    show ((charged next c.history).length : ℤ) + 1 ≤ 1
    rw [hnone]
    decide
  | some w =>
    obtain ⟨hour, a⟩ := w
    obtain ⟨hhour, hcount⟩ := (@countSend_live _ _ _ next) hlive
    rw [hcount]
    exact ⟨(hs.opened hour a hhour).trans (Nat.lt_succ_self next),
      add_le_add_left (hs.charge hour a hhour) 1, hs.older hour a hhour⟩

theorem SendsSound.counted (hs : SendsSound now next c)
    (hwithin : (countSend now next c).2.value ≤ OTP_MAX_SENDS_PER_HOUR)
    (hold : c.liveHour now = none → ∀ x ∈ kept c.history, x.time + HOUR ≤ now) :
    SendsSound now (next + 1) { c with
      hour := some (countSend now next c)
      history := c.history ++ [.counts next (countSend now next c).1] } := by
  obtain ⟨hopened, hcharge, holder⟩ := hs.counted_hour hold
  generalize countSend now next c = w at *
  obtain ⟨w, a⟩ := w
  have hs' := hs.later (le_refl now) (Nat.le_succ next)
  have hsent : sent (c.history ++ [.counts next w]) = sent c.history := by
    rw [sent_snoc]
    exact List.append_nil _
  have hkept : kept (c.history ++ [.counts next w]) = kept c.history :=
    kept_snoc_of_none rfl (by simp)
  have hcharged : charged w (c.history ++ [.counts next w]) = charged w c.history ++ [next] :=
    charged_snoc_counts (hs.fresh w).2.1
  constructor
  · intro send hour hmem
    rcases mem_snoc.mp hmem with hmem | heq
    · exact hs'.counts send hour hmem
    · cases heq
      exact ⟨Nat.lt_succ_self next, hopened⟩
  · intro x hx
    rw [hsent] at hx
    exact ⟨mem_snoc.mpr (.inl (hs.lets x hx).1), (hs.lets x hx).2⟩
  · intro send hmem
    rw [mem_snoc_of_ne (by simp)] at hmem
    exact hsent ▸ hs.releases send hmem
  · intro send hour hmem
    rw [mem_snoc_of_ne (by simp)] at hmem ⊢
    exact hs.returns send hour hmem
  · intro hour
    rw [counted_snoc]
    by_cases hhour : w = hour
    · subst hhour
      have hnew : next ∉ c.history.filterMap (countedBy w) := fun hmem =>
        (hs.fresh w).1 (mem_counted.mp hmem)
      simp only [countedBy, if_true, Option.toList_some]
      exact List.nodup_append'.mpr ⟨hs.once w, List.nodup_singleton next,
        List.disjoint_singleton.mpr hnew⟩
    · simp only [countedBy, if_neg hhour, Option.toList_none, List.append_nil]
      exact hs.once hour
  · rw [hsent]
    exact hs.single
  · rintro hour a' ha'
    cases ha'
    exact hopened
  · rintro hour a' ha'
    cases ha'
    rw [hcharged, List.length_append, List.length_singleton]
    exact_mod_cast hcharge
  · intro hour
    by_cases hhour : w = hour
    · subst hhour
      rw [hcharged, List.length_append, List.length_singleton]
      exact_mod_cast hcharge.trans hwithin
    · rw [charged_snoc_of_none (l := .counts next w) (if_neg hhour) (by simp)]
      exact hs.bounded hour
  · rintro hour a' ha' x hx hne
    cases ha'
    exact holder x (hkept ▸ hx) hne
  · rw [hkept]
    exact hs.gap
  · rw [hkept]
    exact hs.apart
  · intro start
    rw [within, hkept]
    exact hs.hourly start

/-- Every hour that the new send is in keeps to the quota: the sends of that hour are counted in
the hour that counts now. -/
theorem SendsSound.hourly_passed (hs : SendsSound now next c) {send hour : ℕ} {a : Counter}
    (hhour : c.hour = some (hour, a)) (hcounted : .counts send hour ∈ c.history)
    (hsends : ((sent c.history ++ [(⟨send, hour, now⟩ : Send)]).map Send.send).Nodup)
    (hkept : .releases send ∉ c.history) (start : ℤ) (hend : now ≤ start + HOUR) :
    ((within start c.history ++ [(⟨send, hour, now⟩ : Send)]).length : ℤ) ≤
      OTP_MAX_SENDS_PER_HOUR := by
  have hrecent : ∀ x ∈ within start c.history, x ∈ kept c.history ∧ x.hour = hour := by
    intro x hx
    obtain ⟨hx, hin⟩ := List.mem_filter.mp hx
    have hstart : start < x.time := (of_decide_eq_true hin).1
    refine ⟨hx, by_contra fun hne => ?_⟩
    have hold := hs.older hour a hhour x hx hne
    linarith
  have hsub : ∀ send' ∈ (within start c.history ++ [(⟨send, hour, now⟩ : Send)]).map Send.send,
      send' ∈ charged hour c.history := by
    intro send' hsend
    obtain ⟨x, hx, rfl⟩ := List.mem_map.mp hsend
    have hx' : .counts x.send hour ∈ c.history ∧ .releases x.send ∉ c.history := by
      rcases List.mem_append.mp hx with hx | hx
      · obtain ⟨hx, hsame⟩ := hrecent x hx
        exact ⟨hsame ▸ (hs.lets x (mem_sent.mpr (mem_kept.mp hx).1)).1, (mem_kept.mp hx).2⟩
      · obtain rfl := List.mem_singleton.mp hx
        exact ⟨hcounted, hkept⟩
    exact mem_charged.mpr ⟨hx'.1, fun hreturned => hx'.2 (hs.returns _ _ hreturned)⟩
  have hlist : (within start c.history ++ [(⟨send, hour, now⟩ : Send)]).Sublist
      (sent c.history ++ [⟨send, hour, now⟩]) :=
    (List.filter_sublist.trans List.filter_sublist).append_right _
  have hle := (List.subperm_of_subset (hsends.sublist (hlist.map _)) hsub).length_le
  rw [List.length_map] at hle
  exact (Nat.cast_le.mpr hle).trans (hs.bounded hour)

theorem SendsSound.passed (hs : SendsSound now next c) {send hour : ℕ}
    (hcounted : .counts send hour ∈ c.history)
    (hnew : ∀ hour time, .lets send hour time ∉ c.history) (hkept : .releases send ∉ c.history)
    (hgap : ∀ t, c.gap = some t → t ≤ now) (hlive : ∃ a, c.liveHour now = some (hour, a)) :
    SendsSound now next { c with
      gap := some (now + OTP_RESEND_GAP)
      history := c.history ++ [.lets send hour now] } := by
  obtain ⟨a, hlive⟩ := hlive
  have hhour := liveHour_eq_some hlive
  have hsent : sent (c.history ++ [.lets send hour now]) = sent c.history ++ [⟨send, hour, now⟩] := by
    rw [sent_snoc]
    rfl
  have hkepts := (@kept_snoc_lets _ _ hour now) hkept
  have hcharged : ∀ w, charged w (c.history ++ [.lets send hour now]) = charged w c.history :=
    fun w => charged_snoc_of_none rfl (by simp)
  have hpassed : ∀ x ∈ kept c.history, x.time + OTP_RESEND_GAP ≤ now := by
    intro x hx
    rcases hs.gap x hx with hle | ⟨t, ht, hle⟩
    · exact hle
    · exact hle.trans (hgap t ht)
  have hsends : ((sent c.history ++ [(⟨send, hour, now⟩ : Send)]).map Send.send).Nodup := by
    rw [List.map_append, List.map_singleton]
    refine List.nodup_append'.mpr ⟨hs.single, List.nodup_singleton send,
      List.disjoint_singleton.mpr fun hmem => ?_⟩
    obtain ⟨x, hx, rfl⟩ := List.mem_map.mp hmem
    exact hnew _ _ (mem_sent.mp hx)
  constructor
  · intro send' hour' hmem
    rw [mem_snoc_of_ne (by simp)] at hmem
    exact hs.counts send' hour' hmem
  · intro x hx
    rw [hsent] at hx
    rcases List.mem_append.mp hx with hx | hx
    · exact ⟨mem_snoc.mpr (.inl (hs.lets x hx).1), (hs.lets x hx).2⟩
    · obtain rfl := List.mem_singleton.mp hx
      exact ⟨mem_snoc.mpr (.inl hcounted), le_rfl⟩
  · intro send' hmem
    rw [mem_snoc_of_ne (by simp)] at hmem
    obtain ⟨x, hx, heq⟩ := hs.releases send' hmem
    exact ⟨x, hsent ▸ List.mem_append_left _ hx, heq⟩
  · intro send' hour' hmem
    rw [mem_snoc_of_ne (by simp)] at hmem ⊢
    exact hs.returns send' hour' hmem
  · intro w
    rw [counted_snoc]
    exact (List.append_nil _).symm ▸ hs.once w
  · rw [hsent]
    exact hsends
  · exact hs.opened
  · intro w b hb
    rw [hcharged]
    exact hs.charge w b hb
  · intro w
    rw [hcharged]
    exact hs.bounded w
  · intro w b hb x hx hne
    rw [hkepts] at hx
    rcases List.mem_append.mp hx with hx | hx
    · exact hs.older w b hb x hx hne
    · obtain rfl := List.mem_singleton.mp hx
      cases hhour.symm.trans hb
      exact absurd rfl hne
  · intro x hx
    rw [hkepts] at hx
    rcases List.mem_append.mp hx with hx | hx
    · exact .inl (hpassed x hx)
    · obtain rfl := List.mem_singleton.mp hx
      exact .inr ⟨_, rfl, le_rfl⟩
  · intro x hx y hy hne
    rw [hkepts] at hx hy
    rcases List.mem_append.mp hx with hx | hx <;> rcases List.mem_append.mp hy with hy | hy
    · exact hs.apart x hx y hy hne
    · obtain rfl := List.mem_singleton.mp hy
      rw [abs_sub_comm]
      exact (le_sub_iff_add_le'.mpr (hpassed x hx)).trans (le_abs_self _)
    · obtain rfl := List.mem_singleton.mp hx
      exact (le_sub_iff_add_le'.mpr (hpassed y hy)).trans (le_abs_self _)
    · obtain rfl := List.mem_singleton.mp hx
      exact absurd (List.mem_singleton.mp hy).symm hne
  · intro start
    rw [within, hkepts, List.filter_append]
    by_cases hin : start < now ∧ now ≤ start + HOUR
    · rw [List.filter_singleton, decide_eq_true hin]
      exact hs.hourly_passed hhour hcounted hsends hkept start hin.2
    · rw [List.filter_singleton, decide_eq_false hin]
      exact (List.append_nil _).symm ▸ hs.hourly start

theorem SendsSound.released (hs : SendsSound now next c) {x : Send} (hlet : x ∈ kept c.history)
    (hlast : ∀ y ∈ sent c.history, y.time ≤ x.time) :
    SendsSound now next { c with gap := none, history := c.history ++ [.releases x.send] } := by
  have hx := mem_sent.mpr (mem_kept.mp hlet).1
  have hsent : sent (c.history ++ [.releases x.send]) = sent c.history := by
    rw [sent_snoc]
    exact List.append_nil _
  have hcharged : ∀ w, charged w (c.history ++ [.releases x.send]) = charged w c.history :=
    fun w => charged_snoc_of_none rfl (by simp)
  have hless : ∀ {y}, y ∈ kept (c.history ++ [.releases x.send]) → y ∈ kept c.history := fun hy =>
    (mem_kept_snoc_releases.mp hy).1
  constructor
  · intro send hour hmem
    rw [mem_snoc_of_ne (by simp)] at hmem
    exact hs.counts send hour hmem
  · intro y hy
    rw [hsent] at hy
    exact ⟨mem_snoc.mpr (.inl (hs.lets y hy).1), (hs.lets y hy).2⟩
  · intro send hmem
    rw [hsent]
    rcases mem_snoc.mp hmem with hmem | heq
    · exact hs.releases send hmem
    · cases heq
      exact ⟨x, hx, rfl⟩
  · intro send hour hmem
    rw [mem_snoc_of_ne (by simp)] at hmem
    exact mem_snoc.mpr (.inl (hs.returns send hour hmem))
  · intro w
    rw [counted_snoc]
    exact (List.append_nil _).symm ▸ hs.once w
  · rw [hsent]
    exact hs.single
  · exact hs.opened
  · intro w a ha
    rw [hcharged]
    exact hs.charge w a ha
  · intro w
    rw [hcharged]
    exact hs.bounded w
  · exact fun w a ha y hy => hs.older w a ha y (hless hy)
  · intro y hy
    have hne : y ≠ x := fun heq => (mem_kept_snoc_releases.mp hy).2 (heq ▸ rfl)
    have hbefore := hlast y (mem_sent.mpr (mem_kept.mp (hless hy)).1)
    have hfar := hs.apart x hlet y (hless hy) hne.symm
    rw [abs_of_nonneg (sub_nonneg.mpr hbefore)] at hfar
    have hpast := (hs.lets x hx).2
    exact .inl (by linarith)
  · exact fun y hy z hz => hs.apart y (hless hy) z (hless hz)
  · intro start
    have hle := ((@kept_snoc_releases c.history x.send)).filter
      (fun x : Send => decide (start < x.time ∧ x.time ≤ start + HOUR)) |>.length_le
    exact (Nat.cast_le.mpr hle).trans (hs.hourly start)

theorem SendsSound.returned (hs : SendsSound now next c) {send hour : ℕ} {a : Counter}
    (hcounted : .counts send hour ∈ c.history) (hreleased : .releases send ∈ c.history)
    (hnew : .returns send hour ∉ c.history) (hlive : c.liveHour now = some (hour, a)) :
    SendsSound now next { c with
      hour := some (hour, { a with value := a.value - 1 })
      history := c.history ++ [.returns send hour] } := by
  have hhour := liveHour_eq_some hlive
  have hsent : sent (c.history ++ [.returns send hour]) = sent c.history := by
    rw [sent_snoc]
    exact List.append_nil _
  have hkept : kept (c.history ++ [.returns send hour]) = kept c.history :=
    kept_snoc_of_none rfl (by simp)
  have hless := charged_snoc_returns hcounted hnew (hs.once hour)
  constructor
  · intro send' hour' hmem
    rw [mem_snoc_of_ne (by simp)] at hmem
    exact hs.counts send' hour' hmem
  · intro x hx
    rw [hsent] at hx
    exact ⟨mem_snoc.mpr (.inl (hs.lets x hx).1), (hs.lets x hx).2⟩
  · intro send' hmem
    rw [mem_snoc_of_ne (by simp)] at hmem
    exact hsent ▸ hs.releases send' hmem
  · intro send' hour' hmem
    rcases mem_snoc.mp hmem with hmem | heq
    · exact mem_snoc.mpr (.inl (hs.returns send' hour' hmem))
    · cases heq
      exact mem_snoc.mpr (.inl hreleased)
  · intro w
    rw [counted_snoc]
    exact (List.append_nil _).symm ▸ hs.once w
  · rw [hsent]
    exact hs.single
  · rintro w b hb
    cases hb
    exact hs.opened hour a hhour
  · rintro w b hb
    cases hb
    have hcharge := hs.charge hour a hhour
    show ((charged hour (c.history ++ [.returns send hour])).length : ℤ) ≤ a.value - 1
    omega
  · intro w
    by_cases hw : hour = w
    · subst hw
      have hle := hs.bounded hour
      show ((charged hour (c.history ++ [.returns send hour])).length : ℤ) ≤ _
      omega
    · rw [charged_snoc_of_none rfl (by simp [hw])]
      exact hs.bounded w
  · rintro w b hb x hx hne
    cases hb
    exact hs.older hour a hhour x (hkept ▸ hx) hne
  · rw [hkept]
    exact hs.gap
  · rw [hkept]
    exact hs.apart
  · intro start
    rw [within, hkept]
    exact hs.hourly start

/-- **The step lemma.** -/
theorem SendsSound.step (hs : SendsSound now next c) (hstep : SendStep now next next' c c') :
    SendsSound now next' c' := by
  cases hstep with
  | same heq hnext => exact heq ▸ hs.later le_rfl hnext
  | tried hover heq hnext =>
    subst heq hnext
    exact hs.tried hover
  | counted hwithin hold heq hnext =>
    subst heq hnext
    exact hs.counted hwithin hold
  | expired heq hnext =>
    subst heq hnext
    exact hs.expired
  | passed send hour hcounted hnew hkept hgap hlive heq hnext =>
    subst heq hnext
    exact hs.passed hcounted hnew hkept hgap hlive
  | released x hlet hlast heq hnext =>
    subst heq hnext
    exact hs.released hlet hlast
  | returned send hour a hcounted hreleased hnew hlive heq hnext =>
    subst heq hnext
    exact hs.returned hcounted hreleased hnew hlive

end OtpSendLimiterService

end ArkanGold
