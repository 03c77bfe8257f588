import ArkanGold.Auth.OneTimeCodes

/-!
# Attempts on a code

What bounds the comparisons of a code: for the copy in Redis the counter of attempts, for the
copy in the database the counter of the row.

- `CodeStep` is what one operation does to the codes, under the condition that goes with it.
- `RedisSound`: while Redis has the code, the counter of attempts has seen every comparison of it
  and does not end before the code does.
- `RowsSound`: a code has one row, and its counter has seen every comparison of that copy.
- `CodesSound.step`: both are kept by every operation.
-/

namespace ArkanGold

namespace AuthService

variable {now now' : ℤ} {next next' : ℕ} {c c' : CodeState} {h : List CodeMark} {l m : CodeMark}

/-! ## Histories -/

theorem mem_snoc : m ∈ h ++ [l] ↔ m ∈ h ∨ m = l := by
  rw [List.mem_append, List.mem_singleton]

theorem mem_snoc_of_ne (hne : m ≠ l) : m ∈ h ++ [l] ↔ m ∈ h :=
  mem_snoc.trans (or_iff_left hne)

theorem count_snoc_of_ne (hne : m ≠ l) : (h ++ [l]).count m = h.count m := by
  have hzero : [l].count m = 0 := List.count_eq_zero_of_not_mem (by simpa using hne)
  rw [List.count_append, hzero, add_zero]

theorem count_snoc_self : (h ++ [l]).count l = h.count l + 1 := by
  rw [List.count_append, List.count_singleton_self]

/-! ## The hash in Redis -/

theorem live_eq_some {hash : CodeHash} :
    c.live now = some hash ↔ ∃ e, c.hash = some (hash, e) ∧ now < e := by
  unfold CodeState.live
  constructor
  · intro hlive
    obtain ⟨x, hx, rfl⟩ := Option.map_eq_some_iff.mp hlive
    obtain ⟨hx, hlt⟩ := Option.filter_eq_some_iff.mp hx
    exact ⟨x.2, hx, of_decide_eq_true hlt⟩
  · rintro ⟨e, he, hlt⟩
    simp [he, hlt]

/-! ## Steps -/

/-- What an operation does to the codes at the instant `now`; `next` is the next number of the
supply. -/
inductive CodeStep (now : ℤ) (next next' : ℕ) (c c' : CodeState) : Prop where
  | less (hhash : c'.hash = c.hash ∨ c'.hash = none) (hattempts : c'.attempts = c.attempts)
    (hrows : ∀ r ∈ c'.rows.rows, r ∈ c.rows.rows) (hhistory : c'.history = c.history)
    (hnext : next ≤ next')
  | expired (heq : c' = { c with attempts := Counter.expire now OTP_TTL c.attempts })
    (hnext : next' = next)
  | stored (digest : String) (heq : c' = { c with
      hash := some (⟨next, digest⟩, now + OTP_TTL)
      history := c.history ++ [.stores next] }) (hnext : next' = next + 1)
  | deleted (l : CodeMark) (hl : l = .resets ∨ ∃ salt, l = .clears salt ∧ .stores salt ∈ c.history)
    (hfree : ∀ hash, c.live now = some hash → .compares hash.salt true ∉ c.history)
    (heq : c' = { c with attempts := none, history := c.history ++ [l] }) (hnext : next' = next)
  | filed (row : UserOtp) (hrow : row.id = next ∧ row.attempts = 0)
    (hstored : .stores row.codeHash.salt ∈ c.history)
    (hnew : ∀ id, .files row.codeHash.salt id ∉ c.history)
    (hhash : c'.hash = c.hash) (hattempts : c'.attempts = c.attempts)
    (hrows : ∀ r ∈ c'.rows.rows, r ∈ c.rows.rows ∨ r = row)
    (hhistory : c'.history = c.history ++ [.files row.codeHash.salt row.id])
    (hnext : next' = next + 1)
  | tried (hover : OTP_MAX_ATTEMPTS < (Counter.incr now c.attempts).value)
    (heq : c' = { c with attempts := some (Counter.incr now c.attempts) }) (hnext : next' = next)
  | compared (salt : ℕ) (hwithin : (Counter.incr now c.attempts).value ≤ OTP_MAX_ATTEMPTS)
    (hlive : ∃ hash, c.live now = some hash ∧ hash.salt = salt)
    (hcleared : .clears salt ∈ c.history) (hother : .compares salt false ∉ c.history)
    (heq : c' = { c with
      attempts := some (Counter.incr now c.attempts)
      history := c.history ++ [.compares salt true] }) (hnext : next' = next)
  | claimed (row : UserOtp) (salt : ℕ) (hrow : row ∈ c.rows.rows)
    (hwithin : row.attempts < OTP_MAX_ATTEMPTS)
    (hfiled : .files salt row.id ∈ c.history) (hother : .compares salt true ∉ c.history)
    (hhash : c'.hash = c.hash) (hattempts : c'.attempts = c.attempts)
    (hrows : ∀ r ∈ c'.rows.rows,
      (r ∈ c.rows.rows ∧ r.id ≠ row.id) ∨ r = { row with attempts := row.attempts + 1 })
    (hhistory : c'.history = c.history ++ [.compares salt false]) (hnext : next' = next)
  | taken (salt : ℕ) (hlive : ∃ hash, c.live now = some hash ∧ hash.salt = salt)
    (hcompared : .compares salt true ∈ c.history)
    (heq : c' = { c with hash := none, history := c.history ++ [.accepts salt true] })
    (hnext : next' = next)
  | consumed (salt id : ℕ) (hrow : ∃ r ∈ c.rows.rows, r.id = id)
    (hfiled : .files salt id ∈ c.history) (hcompared : .compares salt false ∈ c.history)
    (hhash : c'.hash = c.hash) (hattempts : c'.attempts = c.attempts)
    (hrows : ∀ r ∈ c'.rows.rows, r ∈ c.rows.rows ∧ r.id ≠ id)
    (hhistory : c'.history = c.history ++ [.accepts salt false]) (hnext : next' = next)

/-- The supply and the history only grow. -/
theorem CodeStep.grows (h : CodeStep now next next' c c') :
    next ≤ next' ∧ ∀ l ∈ c.history, l ∈ c'.history := by
  cases h with
  | less _ _ _ hhistory hnext => exact ⟨hnext, fun l hl => hhistory ▸ hl⟩
  | expired heq hnext => exact ⟨hnext.ge, fun l hl => heq ▸ hl⟩
  | stored _ heq hnext => exact ⟨hnext ▸ Nat.le_succ next, fun l hl => heq ▸ mem_snoc.mpr (.inl hl)⟩
  | deleted _ _ _ heq hnext => exact ⟨hnext.ge, fun l hl => heq ▸ mem_snoc.mpr (.inl hl)⟩
  | filed _ _ _ _ _ _ _ hhistory hnext =>
    exact ⟨hnext ▸ Nat.le_succ next, fun l hl => hhistory ▸ mem_snoc.mpr (.inl hl)⟩
  | tried _ heq hnext => exact ⟨hnext.ge, fun l hl => heq ▸ hl⟩
  | compared _ _ _ _ _ heq hnext => exact ⟨hnext.ge, fun l hl => heq ▸ mem_snoc.mpr (.inl hl)⟩
  | claimed _ _ _ _ _ _ _ _ _ hhistory hnext =>
    exact ⟨hnext.ge, fun l hl => hhistory ▸ mem_snoc.mpr (.inl hl)⟩
  | taken _ _ _ heq hnext => exact ⟨hnext.ge, fun l hl => heq ▸ mem_snoc.mpr (.inl hl)⟩
  | consumed _ _ _ _ _ _ _ _ hhistory hnext =>
    exact ⟨hnext.ge, fun l hl => hhistory ▸ mem_snoc.mpr (.inl hl)⟩

/-! ## Names -/

/-- What a mark needs of the history before it. -/
def NamedBefore (next : ℕ) (h : List CodeMark) : CodeMark → Prop
  | .stores salt => salt < next
  | .clears salt => .stores salt ∈ h
  | .resets => True
  | .files salt id => .stores salt ∈ h ∧ id < next
  | .compares salt _ => .stores salt ∈ h
  | .accepts salt redis => .compares salt redis ∈ h

/-- Every mark has what it needs. -/
def Named (next : ℕ) (h : List CodeMark) : Prop := ∀ l ∈ h, NamedBefore next h l

theorem NamedBefore.grow (hl : NamedBefore next h l) (hnext : next ≤ next') : NamedBefore next' (h ++ [m]) l := by
  cases l with
  | stores salt => exact lt_of_lt_of_le hl hnext
  | clears salt => exact List.mem_append_left _ hl
  | resets => trivial
  | files salt id => exact ⟨List.mem_append_left _ hl.1, lt_of_lt_of_le hl.2 hnext⟩
  | compares salt redis => exact List.mem_append_left _ hl
  | accepts salt redis => exact List.mem_append_left _ hl

theorem Named.mono (hn : Named next h) (hnext : next ≤ next') : Named next' h := by
  intro l hl
  have hknown := hn l hl
  cases l with
  | stores salt => exact lt_of_lt_of_le hknown hnext
  | files salt id => exact ⟨hknown.1, lt_of_lt_of_le hknown.2 hnext⟩
  | clears salt => exact hknown
  | resets => trivial
  | compares salt redis => exact hknown
  | accepts salt redis => exact hknown

theorem Named.snoc (hn : Named next h) (hl : NamedBefore next' h l) (hnext : next ≤ next') :
    Named next' (h ++ [l]) := by
  intro m hm
  rcases mem_snoc.mp hm with hm | rfl
  · exact (hn m hm).grow hnext
  · exact hl.grow le_rfl

theorem Named.not_stored (hn : Named next h) : .stores next ∉ h := fun hmem =>
  lt_irrefl next (hn _ hmem)

/-! ## The copy in Redis -/

/-- The counter of attempts goes with the code that Redis has. -/
structure RedisSound (now : ℤ) (c : CodeState) : Prop where
  hash : ∀ x e, c.hash = some (x, e) →
    .stores x.salt ∈ c.history ∧ e ≤ now + OTP_TTL ∧ .accepts x.salt true ∉ c.history
  counted : ∀ x e, c.hash = some (x, e) → now < e → .compares x.salt true ∈ c.history →
    ∃ a, c.attempts = some a ∧ c.history.count (.compares x.salt true) ≤ a.value ∧
      ∀ t, a.endsAt = some t → e ≤ t
  clear : ∀ x e, c.hash = some (x, e) → now < e → .clears x.salt ∈ c.history →
    .compares x.salt true ∉ c.history → c.attempts = none
  bounded : ∀ salt, c.history.count (.compares salt true) ≤ OTP_MAX_ATTEMPTS
  once : ∀ salt, c.history.count (.accepts salt true) ≤ 1

/-- What the copy in Redis has to do with a mark. -/
def AboutRedis : CodeMark → Prop
  | .files _ _ => False
  | .compares _ redis => redis = true
  | .accepts _ redis => redis = true
  | .resets => False
  | _ => True

/-- Marks about the rows, and a hash that is deleted. -/
theorem RedisSound.frame (hs : RedisSound now c) (hhash : c'.hash = c.hash ∨ c'.hash = none)
    (hattempts : c'.attempts = c.attempts)
    (hhistory : c'.history = c.history ∨ ∃ l, ¬AboutRedis l ∧ c'.history = c.history ++ [l]) :
    RedisSound now c' := by
  have hmem : ∀ m, AboutRedis m → (m ∈ c'.history ↔ m ∈ c.history) ∧
      c'.history.count m = c.history.count m := by
    intro m hm
    rcases hhistory with heq | ⟨l, hl, heq⟩
    · rw [heq]
      exact ⟨Iff.rfl, rfl⟩
    · have hne : m ≠ l := fun hml => hl (hml ▸ hm)
      rw [heq]
      exact ⟨mem_snoc_of_ne hne, count_snoc_of_ne hne⟩
  have hold : ∀ x e, c'.hash = some (x, e) → c.hash = some (x, e) := by
    intro x e he
    rcases hhash with heq | hnone
    · exact heq ▸ he
    · rw [hnone] at he
      cases he
  constructor
  · intro x e he
    rw [(hmem (.stores x.salt) trivial).1, (hmem (.accepts x.salt true) rfl).1]
    exact hs.hash x e (hold x e he)
  · intro x e he hlt hcompared
    rw [(hmem (.compares x.salt true) rfl).1] at hcompared
    rw [hattempts, (hmem (.compares x.salt true) rfl).2]
    exact hs.counted x e (hold x e he) hlt hcompared
  · intro x e he hlt hcleared hcompared
    rw [(hmem (.clears x.salt) trivial).1] at hcleared
    rw [(hmem (.compares x.salt true) rfl).1] at hcompared
    exact hattempts.trans (hs.clear x e (hold x e he) hlt hcleared hcompared)
  · exact fun salt => (hmem (.compares salt true) rfl).2 ▸ hs.bounded salt
  · exact fun salt => (hmem (.accepts salt true) rfl).2 ▸ hs.once salt

theorem RedisSound.later (hs : RedisSound now c) (hnow : now ≤ now') : RedisSound now' c where
  hash x e he := by
    obtain ⟨hstored, hend, haccepted⟩ := hs.hash x e he
    exact ⟨hstored, hend.trans (by linarith), haccepted⟩
  counted x e he hlt := hs.counted x e he (hnow.trans_lt hlt)
  clear x e he hlt := hs.clear x e he (hnow.trans_lt hlt)
  bounded := hs.bounded
  once := hs.once

/-- `INCR` counts one more, and keeps the end of the counter. -/
theorem incr_of_live {a : Counter} (ha : ∀ t, a.endsAt = some t → now < t) :
    Counter.incr now (some a) = { a with value := a.value + 1 } := by
  have hlive : Counter.live now (some a) = some a := by
    unfold Counter.live
    cases hend : a.endsAt with
    | none => simp [hend]
    | some t => simp [hend, ha t hend]
  rw [Counter.incr, hlive]

theorem RedisSound.stored (hs : RedisSound now c) (hn : Named next c.history) (digest : String) :
    RedisSound now { c with
      hash := some (⟨next, digest⟩, now + OTP_TTL)
      history := c.history ++ [.stores next] } := by
  have hnot := hn.not_stored
  have hcompared : ∀ redis, .compares next redis ∉ c.history := fun _ hmem => hnot (hn _ hmem)
  constructor
  · intro x e he
    cases he
    refine ⟨mem_snoc.mpr (.inr rfl), le_rfl, fun haccepted => ?_⟩
    exact hcompared true (hn _ ((mem_snoc_of_ne (by simp)).mp haccepted))
  · intro x e he _ hmem
    cases he
    exact absurd ((mem_snoc_of_ne (by simp)).mp hmem) (hcompared true)
  · intro x e he _ hmem
    cases he
    exact absurd (hn _ ((mem_snoc_of_ne (by simp)).mp hmem)) hnot
  · intro salt
    rw [count_snoc_of_ne (by simp)]
    exact hs.bounded salt
  · intro salt
    rw [count_snoc_of_ne (by simp)]
    exact hs.once salt

theorem RedisSound.deleted (hs : RedisSound now c)
    (hl : l = .resets ∨ ∃ salt, l = .clears salt ∧ .stores salt ∈ c.history)
    (hfree : ∀ hash, c.live now = some hash → .compares hash.salt true ∉ c.history) :
    RedisSound now { c with attempts := none, history := c.history ++ [l] } := by
  have hne : ∀ m, (∃ salt, m = .stores salt) ∨ (∃ salt, m = .compares salt true) ∨
      (∃ salt, m = .accepts salt true) → m ≠ l := by
    rintro m (⟨salt, rfl⟩ | ⟨salt, rfl⟩ | ⟨salt, rfl⟩) rfl <;> simp at hl
  constructor
  · intro x e he
    rw [mem_snoc_of_ne (hne _ (.inl ⟨_, rfl⟩)), mem_snoc_of_ne (hne _ (.inr (.inr ⟨_, rfl⟩)))]
    exact hs.hash x e he
  · intro x e he hlt hmem
    rw [mem_snoc_of_ne (hne _ (.inr (.inl ⟨_, rfl⟩)))] at hmem
    exact absurd hmem (hfree x (live_eq_some.mpr ⟨e, he, hlt⟩))
  · intro x e _ _ _ _
    rfl
  · intro salt
    rw [count_snoc_of_ne (hne _ (.inr (.inl ⟨_, rfl⟩)))]
    exact hs.bounded salt
  · intro salt
    rw [count_snoc_of_ne (hne _ (.inr (.inr ⟨_, rfl⟩)))]
    exact hs.once salt

/-- A counter that has seen comparisons of the code in Redis has not ended. -/
theorem RedisSound.live_counter (hs : RedisSound now c) {x : CodeHash} {e : ℤ}
    (he : c.hash = some (x, e)) (hlt : now < e) (hmem : .compares x.salt true ∈ c.history) :
    ∃ a, c.attempts = some a ∧ c.history.count (.compares x.salt true) ≤ a.value ∧
      (∀ t, a.endsAt = some t → e ≤ t) ∧ ∀ t, a.endsAt = some t → now < t := by
  obtain ⟨a, ha, hcount, hends⟩ := hs.counted x e he hlt hmem
  exact ⟨a, ha, hcount, hends, fun t ht => hlt.trans_le (hends t ht)⟩

theorem RedisSound.expired (hs : RedisSound now c) :
    RedisSound now { c with attempts := Counter.expire now OTP_TTL c.attempts } := by
  refine ⟨hs.hash, fun x e he hlt hmem => ?_, fun x e he hlt hcleared hmem => ?_, hs.bounded,
    hs.once⟩
  · obtain ⟨a, ha, hcount, -, hlive⟩ := hs.live_counter he hlt hmem
    have hlive' : Counter.live now (some a) = some a := by
      unfold Counter.live
      cases hend : a.endsAt with
      | none => simp [hend]
      | some t => simp [hend, hlive t hend]
    refine ⟨{ a with endsAt := some (now + OTP_TTL) }, ?_, hcount, ?_⟩
    · show Counter.expire now OTP_TTL c.attempts = _
      rw [ha, Counter.expire, hlive']
      rfl
    · rintro t ⟨⟩
      exact (hs.hash x e he).2.1
  · show Counter.expire now OTP_TTL c.attempts = none
    rw [hs.clear x e he hlt hcleared hmem]
    rfl

theorem RedisSound.tried (hs : RedisSound now c)
    (hover : OTP_MAX_ATTEMPTS < (Counter.incr now c.attempts).value) :
    RedisSound now { c with attempts := some (Counter.incr now c.attempts) } := by
  refine ⟨hs.hash, fun x e he hlt hmem => ?_, fun x e he hlt hcleared hmem => ?_, hs.bounded,
    hs.once⟩
  · obtain ⟨a, ha, hcount, hends, hlive⟩ := hs.live_counter he hlt hmem
    refine ⟨{ a with value := a.value + 1 }, ?_, by show _ ≤ a.value + 1; linarith, hends⟩
    show some (Counter.incr now c.attempts) = _
    rw [ha, incr_of_live hlive]
  · rw [hs.clear x e he hlt hcleared hmem] at hover
    exact absurd hover (show ¬(5 : ℤ) < 1 by decide)

theorem RedisSound.compared (hs : RedisSound now c) {salt : ℕ}
    (hwithin : (Counter.incr now c.attempts).value ≤ OTP_MAX_ATTEMPTS)
    (hlive : ∃ hash, c.live now = some hash ∧ hash.salt = salt)
    (hcleared : .clears salt ∈ c.history) :
    RedisSound now { c with
      attempts := some (Counter.incr now c.attempts)
      history := c.history ++ [.compares salt true] } := by
  obtain ⟨x, hx, rfl⟩ := hlive
  obtain ⟨e, he, hlt⟩ := live_eq_some.mp hx
  have hcounted : c.history.count (.compares x.salt true) + 1 ≤ (Counter.incr now c.attempts).value ∧
      ∀ t, (Counter.incr now c.attempts).endsAt = some t → e ≤ t := by
    by_cases hmem : .compares x.salt true ∈ c.history
    · obtain ⟨a, ha, hcount, hends, ha'⟩ := hs.live_counter he hlt hmem
      rw [ha, incr_of_live ha']
      exact ⟨by show _ ≤ a.value + 1; linarith, hends⟩
    · rw [hs.clear x e he hlt hcleared hmem, List.count_eq_zero_of_not_mem hmem]
      exact ⟨show ((0 : ℕ) : ℤ) + 1 ≤ 1 by decide, nofun⟩
  constructor
  · intro y e' he'
    rw [mem_snoc_of_ne (by simp), mem_snoc_of_ne (by simp)]
    exact hs.hash y e' he'
  · intro y e' he' _ _
    obtain ⟨rfl, rfl⟩ : y = x ∧ e' = e := by
      have heq := he.symm.trans he'
      cases heq
      exact ⟨rfl, rfl⟩
    refine ⟨_, rfl, ?_, hcounted.2⟩
    rw [count_snoc_self]
    exact_mod_cast hcounted.1
  · intro y e' he' _ _ hmem
    have heq := he.symm.trans he'
    cases heq
    exact absurd (mem_snoc.mpr (.inr rfl)) hmem
  · intro salt
    by_cases hsalt : salt = x.salt
    · subst hsalt
      rw [count_snoc_self]
      have hle := hcounted.1.trans hwithin
      exact_mod_cast hle
    · rw [count_snoc_of_ne (by simp [hsalt])]
      exact hs.bounded salt
  · intro salt
    rw [count_snoc_of_ne (by simp)]
    exact hs.once salt

theorem RedisSound.taken (hs : RedisSound now c) {salt : ℕ}
    (hlive : ∃ hash, c.live now = some hash ∧ hash.salt = salt) :
    RedisSound now { c with hash := none, history := c.history ++ [.accepts salt true] } := by
  obtain ⟨x, hx, rfl⟩ := hlive
  obtain ⟨e, he, -⟩ := live_eq_some.mp hx
  refine ⟨nofun, nofun, nofun, fun salt => ?_, fun salt => ?_⟩
  · rw [count_snoc_of_ne (by simp)]
    exact hs.bounded salt
  · by_cases hsalt : salt = x.salt
    · subst hsalt
      rw [count_snoc_self, List.count_eq_zero_of_not_mem (hs.hash x e he).2.2]
    · rw [count_snoc_of_ne (by simp [hsalt])]
      exact hs.once salt

/-! ## The copy in the database -/

/-- The counter of a row goes with the code of the row. -/
structure RowsSound (c : CodeState) : Prop where
  row : ∀ r ∈ c.rows.rows, .files r.codeHash.salt r.id ∈ c.history ∧
    c.history.count (.compares r.codeHash.salt false) ≤ r.attempts ∧
    r.attempts ≤ OTP_MAX_ATTEMPTS ∧ .accepts r.codeHash.salt false ∉ c.history
  single : ∀ salt salt' id id', .files salt id ∈ c.history → .files salt' id' ∈ c.history →
    (salt = salt' ↔ id = id')
  filed : ∀ salt, .compares salt false ∈ c.history → ∃ id, .files salt id ∈ c.history
  bounded : ∀ salt, c.history.count (.compares salt false) ≤ OTP_MAX_ATTEMPTS
  once : ∀ salt, c.history.count (.accepts salt false) ≤ 1

/-- What the copy in the database has to do with a mark. -/
def AboutRows : CodeMark → Prop
  | .files _ _ => True
  | .compares _ redis => redis = false
  | .accepts _ redis => redis = false
  | _ => False

/-- Marks about Redis, and rows that are deleted. -/
theorem RowsSound.frame (hs : RowsSound c) (hrows : ∀ r ∈ c'.rows.rows, r ∈ c.rows.rows)
    (hhistory : c'.history = c.history ∨ ∃ l, ¬AboutRows l ∧ c'.history = c.history ++ [l]) :
    RowsSound c' := by
  have hmem : ∀ m, AboutRows m → (m ∈ c'.history ↔ m ∈ c.history) ∧
      c'.history.count m = c.history.count m := by
    intro m hm
    rcases hhistory with heq | ⟨l, hl, heq⟩
    · rw [heq]
      exact ⟨Iff.rfl, rfl⟩
    · have hne : m ≠ l := fun hml => hl (hml ▸ hm)
      rw [heq]
      exact ⟨mem_snoc_of_ne hne, count_snoc_of_ne hne⟩
  constructor
  · intro r hr
    rw [(hmem (.files r.codeHash.salt r.id) trivial).1,
      (hmem (.compares r.codeHash.salt false) rfl).2,
      (hmem (.accepts r.codeHash.salt false) rfl).1]
    exact hs.row r (hrows r hr)
  · intro salt salt' id id'
    rw [(hmem (.files salt id) trivial).1, (hmem (.files salt' id') trivial).1]
    exact hs.single salt salt' id id'
  · intro salt
    rw [(hmem (.compares salt false) rfl).1]
    intro hcompared
    obtain ⟨id, hid⟩ := hs.filed salt hcompared
    exact ⟨id, (hmem (.files salt id) trivial).1.mpr hid⟩
  · exact fun salt => (hmem (.compares salt false) rfl).2 ▸ hs.bounded salt
  · exact fun salt => (hmem (.accepts salt false) rfl).2 ▸ hs.once salt

/-- The row of a code. -/
theorem RowsSound.salt_eq (hs : RowsSound c) {r : UserOtp} {salt : ℕ} (hr : r ∈ c.rows.rows)
    (hfiled : .files salt r.id ∈ c.history) : r.codeHash.salt = salt :=
  (hs.single _ _ _ _ (hs.row r hr).1 hfiled).mpr rfl

theorem RowsSound.insert (hs : RowsSound c) (hn : Named next c.history) {row : UserOtp}
    (hrow : row.id = next ∧ row.attempts = 0) (hnew : ∀ id, .files row.codeHash.salt id ∉ c.history)
    (hrows : ∀ r ∈ c'.rows.rows, r ∈ c.rows.rows ∨ r = row)
    (hhistory : c'.history = c.history ++ [.files row.codeHash.salt row.id]) : RowsSound c' := by
  have huncompared : .compares row.codeHash.salt false ∉ c.history := fun hmem => by
    obtain ⟨id, hid⟩ := hs.filed _ hmem
    exact hnew id hid
  have hdrawn : ∀ salt, .files salt row.id ∉ c.history := fun salt hmem =>
    absurd (hn _ hmem).2 (by rw [hrow.1]; exact lt_irrefl next)
  constructor
  · intro r hr
    rw [hhistory, count_snoc_of_ne (by simp), mem_snoc_of_ne (l := .files _ _)
      (m := .accepts r.codeHash.salt false) (by simp)]
    rcases hrows r hr with hr | rfl
    · obtain ⟨hfiled, hrest⟩ := hs.row r hr
      exact ⟨mem_snoc.mpr (.inl hfiled), hrest⟩
    · refine ⟨mem_snoc.mpr (.inr rfl), ?_, ?_, fun haccepted => huncompared (hn _ haccepted)⟩
      · rw [List.count_eq_zero_of_not_mem huncompared]
        exact Nat.zero_le _
      · rw [hrow.2]
        exact Nat.zero_le _
  · intro salt salt' id id' h h'
    rw [hhistory] at h h'
    rcases mem_snoc.mp h with h | heq
    · rcases mem_snoc.mp h' with h' | heq'
      · exact hs.single _ _ _ _ h h'
      · cases heq'
        exact ⟨fun hsalt => absurd (hsalt ▸ h) (hnew id), fun hid => absurd (hid ▸ h) (hdrawn salt)⟩
    · cases heq
      rcases mem_snoc.mp h' with h' | heq'
      · exact ⟨fun hsalt => absurd (hsalt ▸ h') (hnew id'),
          fun hid => absurd (hid ▸ h') (hdrawn salt')⟩
      · cases heq'
        exact ⟨fun _ => rfl, fun _ => rfl⟩
  · intro salt hmem
    rw [hhistory, mem_snoc_of_ne (by simp)] at hmem
    obtain ⟨id, hid⟩ := hs.filed salt hmem
    exact ⟨id, hhistory ▸ mem_snoc.mpr (.inl hid)⟩
  · intro salt
    rw [hhistory, count_snoc_of_ne (by simp)]
    exact hs.bounded salt
  · intro salt
    rw [hhistory, count_snoc_of_ne (by simp)]
    exact hs.once salt

theorem RowsSound.claimed (hs : RowsSound c) {row : UserOtp} {salt : ℕ} (hrow : row ∈ c.rows.rows)
    (hwithin : row.attempts < OTP_MAX_ATTEMPTS) (hfiled : .files salt row.id ∈ c.history)
    (hrows : ∀ r ∈ c'.rows.rows,
      (r ∈ c.rows.rows ∧ r.id ≠ row.id) ∨ r = { row with attempts := row.attempts + 1 })
    (hhistory : c'.history = c.history ++ [.compares salt false]) : RowsSound c' := by
  have hsalt := hs.salt_eq hrow hfiled
  obtain ⟨-, hcount, -, haccepted⟩ := hs.row row hrow
  rw [hsalt] at hcount haccepted
  constructor
  · intro r hr
    rw [hhistory, mem_snoc_of_ne (by simp), mem_snoc_of_ne (by simp)]
    rcases hrows r hr with ⟨hr, hne⟩ | rfl
    · obtain ⟨hfiled', hcount', hrest⟩ := hs.row r hr
      have hother : r.codeHash.salt ≠ salt := fun heq =>
        hne ((hs.single _ _ _ _ hfiled' hfiled).mp heq)
      rw [count_snoc_of_ne (by simp [hother])]
      exact ⟨hfiled', hcount', hrest⟩
    · refine ⟨hsalt ▸ hfiled, ?_, hwithin, hsalt ▸ haccepted⟩
      show (c.history ++ [CodeMark.compares salt false]).count (.compares row.codeHash.salt false) ≤ _
      rw [hsalt, count_snoc_self]
      exact Nat.succ_le_succ hcount
  · intro salt' salt'' id id'
    rw [hhistory, mem_snoc_of_ne (by simp), mem_snoc_of_ne (by simp)]
    exact hs.single _ _ _ _
  · intro salt' hmem
    rw [hhistory] at hmem ⊢
    rcases mem_snoc.mp hmem with hmem | heq
    · obtain ⟨id, hid⟩ := hs.filed salt' hmem
      exact ⟨id, mem_snoc.mpr (.inl hid)⟩
    · cases heq
      exact ⟨row.id, mem_snoc.mpr (.inl hfiled)⟩
  · intro salt'
    rw [hhistory]
    by_cases hsalt' : salt' = salt
    · subst hsalt'
      rw [count_snoc_self]
      omega
    · rw [count_snoc_of_ne (by simp [hsalt'])]
      exact hs.bounded salt'
  · intro salt'
    rw [hhistory, count_snoc_of_ne (by simp)]
    exact hs.once salt'

theorem RowsSound.consumed (hs : RowsSound c) {salt id : ℕ} (hrow : ∃ r ∈ c.rows.rows, r.id = id)
    (hfiled : .files salt id ∈ c.history) (hrows : ∀ r ∈ c'.rows.rows, r ∈ c.rows.rows ∧ r.id ≠ id)
    (hhistory : c'.history = c.history ++ [.accepts salt false]) : RowsSound c' := by
  obtain ⟨row, hrow, rfl⟩ := hrow
  have hsalt := hs.salt_eq hrow hfiled
  constructor
  · intro r hr
    obtain ⟨hr, hne⟩ := hrows r hr
    obtain ⟨hfiled', hcount, hmax, haccepted⟩ := hs.row r hr
    have hother : r.codeHash.salt ≠ salt := fun heq =>
      hne ((hs.single _ _ _ _ hfiled' hfiled).mp heq)
    rw [hhistory, mem_snoc_of_ne (by simp), count_snoc_of_ne (by simp),
      mem_snoc_of_ne (by simp [hother])]
    exact ⟨hfiled', hcount, hmax, haccepted⟩
  · intro salt' salt'' id id'
    rw [hhistory, mem_snoc_of_ne (by simp), mem_snoc_of_ne (by simp)]
    exact hs.single _ _ _ _
  · intro salt' hmem
    rw [hhistory, mem_snoc_of_ne (by simp)] at hmem
    obtain ⟨id, hid⟩ := hs.filed salt' hmem
    exact ⟨id, hhistory ▸ mem_snoc.mpr (.inl hid)⟩
  · intro salt'
    rw [hhistory, count_snoc_of_ne (by simp)]
    exact hs.bounded salt'
  · intro salt'
    rw [hhistory]
    by_cases hsalt' : salt' = salt
    · subst hsalt'
      rw [count_snoc_self, List.count_eq_zero_of_not_mem (hsalt ▸ (hs.row row hrow).2.2.2)]
    · rw [count_snoc_of_ne (by simp [hsalt'])]
      exact hs.once salt'

/-! ## Both copies -/

/-- What holds of the codes. -/
structure CodesSound (now : ℤ) (next : ℕ) (c : CodeState) : Prop where
  named : Named next c.history
  redis : RedisSound now c
  rows : RowsSound c
  oneWay : ∀ salt, .compares salt true ∈ c.history → .compares salt false ∉ c.history

theorem oneWay_snoc (hone : ∀ salt, .compares salt true ∈ h → .compares salt false ∉ h)
    (hl : ∀ salt redis, l ≠ .compares salt redis) :
    ∀ salt, .compares salt true ∈ h ++ [l] → .compares salt false ∉ h ++ [l] := by
  intro salt hmem hmem'
  rw [mem_snoc_of_ne (hl salt true).symm] at hmem
  rw [mem_snoc_of_ne (hl salt false).symm] at hmem'
  exact hone salt hmem hmem'

/-- **The step lemma.** -/
theorem CodesSound.step (hs : CodesSound now next c) (hstep : CodeStep now next next' c c') :
    CodesSound now next' c' := by
  obtain ⟨hn, hredis, hrows, hone⟩ := hs
  cases hstep with
  | less hhash hattempts hsub hhistory hnext =>
    exact ⟨hhistory ▸ hn.mono hnext, hredis.frame hhash hattempts (.inl hhistory),
      hrows.frame hsub (.inl hhistory), hhistory ▸ hone⟩
  | expired heq hnext =>
    subst heq hnext
    exact ⟨hn, hredis.expired, hrows.frame (fun _ hr => hr) (.inl rfl), hone⟩
  | stored digest heq hnext =>
    subst heq hnext
    exact ⟨hn.snoc (Nat.lt_succ_self next) (Nat.le_succ next), hredis.stored hn digest,
      hrows.frame (fun _ hr => hr) (.inr ⟨_, id, rfl⟩), oneWay_snoc hone (by simp)⟩
  | deleted l hl hfree heq hnext =>
    subst heq hnext
    have habout : ¬AboutRows l ∧ (∀ salt redis, l ≠ .compares salt redis) ∧ NamedBefore next' c.history l := by
      rcases hl with rfl | ⟨salt, rfl, hstored⟩
      · exact ⟨id, by simp, trivial⟩
      · exact ⟨id, by simp, hstored⟩
    exact ⟨hn.snoc habout.2.2 le_rfl, hredis.deleted hl hfree,
      hrows.frame (fun _ hr => hr) (.inr ⟨l, habout.1, rfl⟩), oneWay_snoc hone habout.2.1⟩
  | filed row hrow hstored hnew hhash hattempts hsub hhistory hnext =>
    subst hnext
    refine ⟨?_, hredis.frame (.inl hhash) hattempts (.inr ⟨_, id, hhistory⟩),
      hrows.insert hn hrow hnew hsub hhistory, hhistory ▸ oneWay_snoc hone (by simp)⟩
    exact hhistory ▸ hn.snoc ⟨hstored, hrow.1 ▸ Nat.lt_succ_self next⟩ (Nat.le_succ next)
  | tried hover heq hnext =>
    subst heq hnext
    exact ⟨hn, hredis.tried hover, hrows.frame (fun _ hr => hr) (.inl rfl), hone⟩
  | compared salt hwithin hlive hcleared hother heq hnext =>
    subst heq hnext
    refine ⟨hn.snoc (hn (.clears salt) hcleared : .stores salt ∈ c.history) le_rfl, hredis.compared hwithin hlive hcleared,
      hrows.frame (fun _ hr => hr) (.inr ⟨_, by simp [AboutRows], rfl⟩), ?_⟩
    intro salt' hmem
    rw [mem_snoc_of_ne (by simp)]
    rcases mem_snoc.mp hmem with hmem | heq
    · exact hone salt' hmem
    · cases heq
      exact hother
  | claimed row salt hrow hwithin hfiled hother hhash hattempts hsub hhistory hnext =>
    subst hnext
    refine ⟨?_, hredis.frame (.inl hhash) hattempts (.inr ⟨_, by simp [AboutRedis], hhistory⟩),
      hrows.claimed hrow hwithin hfiled hsub hhistory, ?_⟩
    · exact hhistory ▸ hn.snoc (hn (.files salt row.id) hfiled).1 le_rfl
    · intro salt' hmem hmem'
      rw [hhistory, mem_snoc_of_ne (by simp)] at hmem
      rw [hhistory] at hmem'
      rcases mem_snoc.mp hmem' with hmem' | heq
      · exact hone salt' hmem hmem'
      · cases heq
        exact hother hmem
  | taken salt hlive hcompared heq hnext =>
    subst heq hnext
    exact ⟨hn.snoc hcompared le_rfl, hredis.taken hlive,
      hrows.frame (fun _ hr => hr) (.inr ⟨_, by simp [AboutRows], rfl⟩),
      oneWay_snoc hone (by simp)⟩
  | consumed salt id hrow hfiled hcompared hhash hattempts hsub hhistory hnext =>
    subst hnext
    exact ⟨hhistory ▸ hn.snoc hcompared le_rfl,
      hredis.frame (.inl hhash) hattempts (.inr ⟨_, by simp [AboutRedis], hhistory⟩),
      hrows.consumed hrow hfiled hsub hhistory, hhistory ▸ oneWay_snoc hone (by simp)⟩

theorem CodesSound.later (hs : CodesSound now next c) (hnow : now ≤ now') (hnext : next ≤ next') :
    CodesSound now' next' c :=
  ⟨hs.named.mono hnext, hs.redis.later hnow, hs.rows, hs.oneWay⟩

/-! ## The bounds -/

/-- A code is compared with at most `OTP_MAX_ATTEMPTS` submitted codes, over both copies. -/
theorem CodesSound.compared_le (hs : CodesSound now next c) (salt : ℕ) :
    c.history.count (.compares salt true) + c.history.count (.compares salt false) ≤
      OTP_MAX_ATTEMPTS := by
  by_cases hmem : .compares salt true ∈ c.history
  · rw [List.count_eq_zero_of_not_mem (hs.oneWay salt hmem), add_zero]
    exact hs.redis.bounded salt
  · rw [List.count_eq_zero_of_not_mem hmem, zero_add]
    exact hs.rows.bounded salt

/-- A code is accepted at most once, over both copies. -/
theorem CodesSound.accepted_le (hs : CodesSound now next c) (salt : ℕ) :
    c.history.count (.accepts salt true) + c.history.count (.accepts salt false) ≤ 1 := by
  by_cases hmem : .accepts salt true ∈ c.history
  · have hother : .accepts salt false ∉ c.history := fun hmem' =>
      hs.oneWay salt (hs.named _ hmem) (hs.named _ hmem')
    rw [List.count_eq_zero_of_not_mem hother, add_zero]
    exact hs.redis.once salt
  · rw [List.count_eq_zero_of_not_mem hmem, zero_add]
    exact hs.rows.once salt

end AuthService

end ArkanGold
