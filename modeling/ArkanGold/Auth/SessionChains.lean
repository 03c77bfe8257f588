import ArkanGold.Lib.Rights
import ArkanGold.Auth.Sessions

/-!
# Chains of sessions

A session stems from the login that opened the first one of its chain.

- The right to continue a session belongs to the call that has deleted its row for a refresh:
  nobody else continues it so (`SessionStep`, `sessionRights`).
- A session keeps the expiry of the one it continues, so all of a chain have the expiry of
  its login.
- A revocation deletes the rows it finds. A session that a refresh or a rotation has in hand
  is not among them, and `createSession` does not look for a revocation. So the condition on
  the marks (`NotRevoked`) asks that there was none since the session to be continued was
  created, and `refreshed_after_logoutAll` is what happens without it.
-/

namespace ArkanGold

namespace AuthService

variable {tokens : TokenService} {s s' s'' : SessionDb}

/-! ## What the calls do -/

/-- The session `id` stems from the login that opened the session `login`. -/
inductive StemsFrom (history : List SessionMark) (login : ℕ) : ℕ → Prop where
  | opened : StemsFrom history login login
  | continued {o : SessionOrigin} {old id : ℕ} {e : ℤ} (h : StemsFrom history login old)
      (hcreates : .creates o id e ∈ history) (hold : o.old = some old) :
      StemsFrom history login id

/-- The hash is the one of a refresh token of the session. -/
def HashOf (tokens : TokenService) (hash : String) (id : ℕ) : Prop :=
  ∃ p ttl now, p.sessionId = id ∧ hash = tokens.sha256 (tokens.signRefresh p ttl now)

/-- No refresh has continued the session. -/
def Unused (old : ℕ) (s : SessionDb) : Prop :=
  ∀ hash id e, .creates (.refreshed hash old) id e ∉ s.history

/-- A session is only continued if no revocation has come since it was created. -/
def NotRevoked : SessionMark → SessionDb → Prop
  | .creates o _ _, s => ∀ old, o.old = some old → ∀ b, .revokes b ∈ s.history → b ≤ old
  | _, _ => True

/-- Rows go, and what stays keeps its token and its expiry. -/
def Fewer (s s' : SessionDb) : Prop :=
  ∀ r' ∈ s'.sessions.rows, ∃ r ∈ s.sessions.rows,
    r.id = r'.id ∧ r.refreshTokenHash = r'.refreshTokenHash ∧ r.expiresAt = r'.expiresAt

/-- A session is created. -/
structure Created (tokens : TokenService) (o : SessionOrigin) (row : UserSession)
    (s s' : SessionDb) : Prop where
  rows : ∀ r ∈ s'.sessions.rows, r ∈ s.sessions.rows ∨ r = row
  id : row.id = s.nextId
  supply : s'.nextId = s.nextId + 1
  history : s'.history = s.history ++ [.creates o row.id row.expiresAt]
  hash : HashOf tokens row.refreshTokenHash row.id
  parent : ∀ old, o.old = some old → (∃ o', .creates o' old row.expiresAt ∈ s.history) ∧
    ∀ b, .revokes b ∈ s.history → b ≤ old
  once : ∀ hash old, o = .refreshed hash old →
    HashOf tokens hash old ∧ .takes old ∈ s.history ∧ Unused old s

/-- What a transaction does. -/
inductive SessionStep (tokens : TokenService) (s s' : SessionDb) : Prop where
  | fewer (hrows : Fewer s s') (hsupply : s.nextId ≤ s'.nextId) (hhistory : s'.history = s.history)
  | taken (id : ℕ) (hrows : Fewer s s') (hbefore : ∃ r ∈ s.sessions.rows, r.id = id)
      (hafter : ∀ r ∈ s'.sessions.rows, r.id ≠ id) (hsupply : s'.nextId = s.nextId)
      (hhistory : s'.history = s.history ++ [.takes id])
  | revoked (hrows : s'.sessions.rows = []) (hsupply : s'.nextId = s.nextId)
      (hhistory : s'.history = s.history ++ [.revokes s.nextId])
  | created (o : SessionOrigin) (row : UserSession) (h : Created tokens o row s s')

theorem fewer_refl (s : SessionDb) : Fewer s s := fun r hr => ⟨r, hr, rfl, rfl, rfl⟩

theorem SessionStep.history_mono (h : SessionStep tokens s s') {l : SessionMark}
    (hl : l ∈ s.history) : l ∈ s'.history := by
  cases h with
  | fewer _ _ hhistory => exact hhistory ▸ hl
  | taken id _ _ _ _ hhistory => exact hhistory ▸ List.mem_append_left _ hl
  | revoked _ _ hhistory => exact hhistory ▸ List.mem_append_left _ hl
  | created o row h => exact h.history ▸ List.mem_append_left _ hl

theorem SessionStep.supply (h : SessionStep tokens s s') : s.nextId ≤ s'.nextId := by
  cases h with
  | fewer _ hsupply _ => exact hsupply
  | taken id _ _ _ hsupply _ => exact hsupply.ge
  | revoked _ hsupply _ => exact hsupply.ge
  | created o row h => exact h.supply ▸ Nat.le_succ _

/-- The right to continue a session by a refresh. -/
def sessionRights (tokens : TokenService) : Rights ℕ SessionMark SessionDb where
  step := SessionStep tokens
  keeps old s s' := Unused old s → Unused old s'
  given old s := .takes old ∈ s.history
  cond := NotRevoked
  step_refl s := .fewer (fewer_refl s) le_rfl rfl
  keeps_refl _ _ := id
  keeps_trans h h' := h' ∘ h
  given_step h := h.history_mono

/-! ## The invariant -/

/-- What holds of the sessions and of how they came to be. -/
structure Sound (tokens : TokenService) (s : SessionDb) : Prop where
  origin : ∀ r ∈ s.sessions.rows, ∃ o, .creates o r.id r.expiresAt ∈ s.history
  hash : ∀ r ∈ s.sessions.rows, HashOf tokens r.refreshTokenHash r.id
  untaken : ∀ r ∈ s.sessions.rows, .takes r.id ∉ s.history
  unrevoked : ∀ r ∈ s.sessions.rows, ∀ b, .revokes b ∈ s.history → b ≤ r.id
  drawn : ∀ {o id e}, .creates o id e ∈ s.history → id < s.nextId
  takes : ∀ id, .takes id ∈ s.history → id < s.nextId
  revokes : ∀ b, .revokes b ∈ s.history → b ≤ s.nextId
  unique : ∀ {o id e o' e'}, .creates o id e ∈ s.history → .creates o' id e' ∈ s.history →
    o = o' ∧ e = e'
  parent : ∀ {o id e old}, .creates o id e ∈ s.history → o.old = some old →
    (∃ o', .creates o' old e ∈ s.history) ∧ ∀ b, .revokes b ∈ s.history → b ≤ id → b ≤ old
  single : ∀ {hash old id e hash' id' e'}, .creates (.refreshed hash old) id e ∈ s.history →
    .creates (.refreshed hash' old) id' e' ∈ s.history → id = id'
  token : ∀ {hash old id e}, .creates (.refreshed hash old) id e ∈ s.history → HashOf tokens hash old
  used : ∀ {hash old id e}, .creates (.refreshed hash old) id e ∈ s.history → .takes old ∈ s.history

/-- A mark that was added, or one that was there. -/
theorem mem_append_mark {h : List SessionMark} {l m : SessionMark} :
    l ∈ h ++ [m] ↔ l ∈ h ∨ l = m := by
  rw [List.mem_append, List.mem_singleton]

theorem Sound.fewer (h : Sound tokens s) (hrows : Fewer s s') (hsupply : s.nextId ≤ s'.nextId)
    (hhistory : s'.history = s.history) : Sound tokens s' := by
  constructor
  · intro r hr
    obtain ⟨r₀, hr₀, hid, -, hexpires⟩ := hrows r hr
    rw [hhistory, ← hid, ← hexpires]
    exact h.origin r₀ hr₀
  · intro r hr
    obtain ⟨r₀, hr₀, hid, htoken, -⟩ := hrows r hr
    rw [← hid, ← htoken]
    exact h.hash r₀ hr₀
  · intro r hr
    obtain ⟨r₀, hr₀, hid, -⟩ := hrows r hr
    rw [hhistory, ← hid]
    exact h.untaken r₀ hr₀
  · intro r hr
    obtain ⟨r₀, hr₀, hid, -⟩ := hrows r hr
    rw [hhistory, ← hid]
    exact h.unrevoked r₀ hr₀
  · rw [hhistory]
    exact fun hc => (h.drawn hc).trans_le hsupply
  · rw [hhistory]
    exact fun id hid => (h.takes id hid).trans_le hsupply
  · rw [hhistory]
    exact fun b hb => (h.revokes b hb).trans hsupply
  all_goals rw [hhistory]
  · exact h.unique
  · exact h.parent
  · exact h.single
  · exact h.token
  · exact h.used

/-- Marks of other kinds do not concern how sessions came to be. -/
theorem creates_append {h : List SessionMark} {m : SessionMark}
    (hm : ∀ o id e, m ≠ .creates o id e) {o : SessionOrigin} {id : ℕ} {e : ℤ} :
    .creates o id e ∈ h ++ [m] ↔ .creates o id e ∈ h := by
  rw [mem_append_mark]
  exact ⟨fun hor => hor.resolve_right (Ne.symm (hm o id e)), .inl⟩

theorem Sound.taken {id : ℕ} (h : Sound tokens s) (hrows : Fewer s s')
    (hbefore : ∃ r ∈ s.sessions.rows, r.id = id) (hafter : ∀ r ∈ s'.sessions.rows, r.id ≠ id)
    (hsupply : s'.nextId = s.nextId) (hhistory : s'.history = s.history ++ [.takes id]) :
    Sound tokens s' := by
  have hcreates : ∀ {o id' e}, .creates o id' e ∈ s'.history ↔ .creates o id' e ∈ s.history := by
    rw [hhistory]
    exact creates_append fun _ _ _ h => by cases h
  have hrevokes : ∀ {b}, .revokes b ∈ s'.history ↔ .revokes b ∈ s.history := by
    intro b
    rw [hhistory, mem_append_mark]
    exact ⟨fun hor => hor.resolve_right nofun, .inl⟩
  constructor
  · intro r hr
    obtain ⟨r₀, hr₀, hid, -, hexpires⟩ := hrows r hr
    obtain ⟨o, ho⟩ := h.origin r₀ hr₀
    exact ⟨o, hcreates.mpr (hid ▸ hexpires ▸ ho)⟩
  · intro r hr
    obtain ⟨r₀, hr₀, hid, htoken, -⟩ := hrows r hr
    rw [← hid, ← htoken]
    exact h.hash r₀ hr₀
  · intro r hr htaken
    obtain ⟨r₀, hr₀, hid, -⟩ := hrows r hr
    rw [hhistory, mem_append_mark] at htaken
    rcases htaken with htaken | htaken
    · exact h.untaken r₀ hr₀ (hid ▸ htaken)
    · injection htaken with hsame
      exact hafter r hr hsame
  · intro r hr b hb
    obtain ⟨r₀, hr₀, hid, -⟩ := hrows r hr
    exact hid ▸ h.unrevoked r₀ hr₀ b (hrevokes.mp hb)
  · intro o id' e hc
    exact hsupply ▸ h.drawn (hcreates.mp hc)
  · intro id' hid'
    rw [hhistory, mem_append_mark] at hid'
    rw [hsupply]
    rcases hid' with hid' | hid'
    · exact h.takes id' hid'
    · injection hid' with hsame
      obtain ⟨r, hr, hrid⟩ := hbefore
      obtain ⟨o, ho⟩ := h.origin r hr
      rw [hsame, ← hrid]
      exact h.drawn ho
  · exact fun b hb => hsupply ▸ h.revokes b (hrevokes.mp hb)
  · exact fun hc hc' => h.unique (hcreates.mp hc) (hcreates.mp hc')
  · intro o id' e old hc hold
    obtain ⟨⟨o', ho'⟩, hparent⟩ := h.parent (hcreates.mp hc) hold
    exact ⟨⟨o', hcreates.mpr ho'⟩, fun b hb => hparent b (hrevokes.mp hb)⟩
  · exact fun hc hc' => h.single (hcreates.mp hc) (hcreates.mp hc')
  · exact fun hc => h.token (hcreates.mp hc)
  · exact fun hc => hhistory ▸ List.mem_append_left _ (h.used (hcreates.mp hc))

theorem Sound.revoked (h : Sound tokens s) (hrows : s'.sessions.rows = [])
    (hsupply : s'.nextId = s.nextId) (hhistory : s'.history = s.history ++ [.revokes s.nextId]) :
    Sound tokens s' := by
  have hcreates : ∀ {o id e}, .creates o id e ∈ s'.history ↔ .creates o id e ∈ s.history := by
    rw [hhistory]
    exact creates_append fun _ _ _ h => by cases h
  have hrevokes : ∀ {b}, .revokes b ∈ s'.history → .revokes b ∈ s.history ∨ b = s.nextId := by
    intro b hb
    rw [hhistory, mem_append_mark] at hb
    exact hb.imp_right fun heq => by injection heq
  have hnone : ∀ {r}, r ∉ s'.sessions.rows := by simp [hrows]
  constructor
  · exact fun r hr => absurd hr hnone
  · exact fun r hr => absurd hr hnone
  · exact fun r hr => absurd hr hnone
  · exact fun r hr => absurd hr hnone
  · exact fun hc => hsupply ▸ h.drawn (hcreates.mp hc)
  · intro id hid
    rw [hhistory, mem_append_mark] at hid
    exact hsupply ▸ h.takes id (hid.resolve_right nofun)
  · intro b hb
    rw [hsupply]
    rcases hrevokes hb with hb | rfl
    · exact h.revokes b hb
    · exact le_rfl
  · exact fun hc hc' => h.unique (hcreates.mp hc) (hcreates.mp hc')
  · intro o id e old hc hold
    obtain ⟨⟨o', ho'⟩, hparent⟩ := h.parent (hcreates.mp hc) hold
    refine ⟨⟨o', hcreates.mpr ho'⟩, fun b hb hle => ?_⟩
    rcases hrevokes hb with hb | rfl
    · exact hparent b hb hle
    · exact absurd (h.drawn (hcreates.mp hc)) (not_lt.mpr hle)
  · exact fun hc hc' => h.single (hcreates.mp hc) (hcreates.mp hc')
  · exact fun hc => h.token (hcreates.mp hc)
  · exact fun hc => hhistory ▸ List.mem_append_left _ (h.used (hcreates.mp hc))

theorem Sound.created {o : SessionOrigin} {row : UserSession} (h : Sound tokens s)
    (hnew : Created tokens o row s s') : Sound tokens s' := by
  have hcreates : ∀ {o' id e}, .creates o' id e ∈ s'.history → .creates o' id e ∈ s.history ∨
      o' = o ∧ id = row.id ∧ e = row.expiresAt := by
    intro o' id e hc
    rw [hnew.history, mem_append_mark] at hc
    refine hc.imp_right fun heq => ?_
    injection heq with h₁ h₂ h₃
    exact ⟨h₁, h₂, h₃⟩
  have hkept : ∀ {l}, l ∈ s.history → l ∈ s'.history := fun hl =>
    hnew.history ▸ List.mem_append_left _ hl
  have hrevokes : ∀ {b}, .revokes b ∈ s'.history → .revokes b ∈ s.history := by
    intro b hb
    rw [hnew.history, mem_append_mark] at hb
    exact hb.resolve_right nofun
  have htakes : ∀ {id}, .takes id ∈ s'.history → .takes id ∈ s.history := by
    intro id hid
    rw [hnew.history, mem_append_mark] at hid
    exact hid.resolve_right nofun
  have hfresh : ∀ {o' e}, .creates o' row.id e ∉ s.history := fun hc =>
    absurd (h.drawn hc) (by rw [hnew.id]; exact lt_irrefl _)
  constructor
  · intro r hr
    rcases hnew.rows r hr with hr | rfl
    · obtain ⟨o', ho'⟩ := h.origin r hr
      exact ⟨o', hkept ho'⟩
    · exact ⟨o, by rw [hnew.history]; exact List.mem_append_right _ (List.mem_singleton_self _)⟩
  · intro r hr
    rcases hnew.rows r hr with hr | rfl
    · exact h.hash r hr
    · exact hnew.hash
  · intro r hr htaken
    rcases hnew.rows r hr with hr | rfl
    · exact h.untaken r hr (htakes htaken)
    · have hlt := h.takes _ (htakes htaken)
      rw [hnew.id] at hlt
      exact lt_irrefl _ hlt
  · intro r hr b hb
    rcases hnew.rows r hr with hr | rfl
    · exact h.unrevoked r hr b (hrevokes hb)
    · exact hnew.id ▸ h.revokes b (hrevokes hb)
  · intro o' id e hc
    rw [hnew.supply]
    rcases hcreates hc with hc | ⟨-, rfl, -⟩
    · exact (h.drawn hc).trans (Nat.lt_succ_self _)
    · exact hnew.id ▸ Nat.lt_succ_self _
  · intro id hid
    rw [hnew.supply]
    exact (h.takes id (htakes hid)).trans (Nat.lt_succ_self _)
  · intro b hb
    rw [hnew.supply]
    exact (h.revokes b (hrevokes hb)).trans (Nat.le_succ _)
  · intro o₁ id e₁ o₂ e₂ h₁ h₂
    rcases hcreates h₁ with h₁ | ⟨rfl, rfl, rfl⟩
    · rcases hcreates h₂ with h₂ | ⟨rfl, rfl, rfl⟩
      · exact h.unique h₁ h₂
      · exact absurd h₁ hfresh
    · rcases hcreates h₂ with h₂ | ⟨rfl, -, rfl⟩
      · exact absurd h₂ hfresh
      · exact ⟨rfl, rfl⟩
  · intro o' id e old hc hold
    rcases hcreates hc with hc | ⟨rfl, rfl, rfl⟩
    · obtain ⟨⟨o'', ho''⟩, hparent⟩ := h.parent hc hold
      exact ⟨⟨o'', hkept ho''⟩, fun b hb => hparent b (hrevokes hb)⟩
    · obtain ⟨⟨o'', ho''⟩, hparent⟩ := hnew.parent old hold
      exact ⟨⟨o'', hkept ho''⟩, fun b hb _ => hparent b (hrevokes hb)⟩
  · intro hash old id e hash' id' e' h₁ h₂
    rcases hcreates h₁ with h₁ | ⟨ho, rfl, -⟩
    · rcases hcreates h₂ with h₂ | ⟨ho, -, -⟩
      · exact h.single h₁ h₂
      · exact absurd h₁ ((hnew.once _ _ ho.symm).2.2 _ _ _)
    · rcases hcreates h₂ with h₂ | ⟨-, rfl, -⟩
      · exact absurd h₂ ((hnew.once _ _ ho.symm).2.2 _ _ _)
      · rfl
  · intro hash old id e hc
    rcases hcreates hc with hc | ⟨ho, -, -⟩
    · exact h.token hc
    · exact (hnew.once _ _ ho.symm).1
  · intro hash old id e hc
    rcases hcreates hc with hc | ⟨ho, -, -⟩
    · exact hkept (h.used hc)
    · exact hkept (hnew.once _ _ ho.symm).2.1

/-- The step lemma. -/
theorem Sound.step (h : Sound tokens s) (hstep : SessionStep tokens s s') : Sound tokens s' := by
  cases hstep with
  | fewer hrows hsupply hhistory => exact h.fewer hrows hsupply hhistory
  | taken id hrows hbefore hafter hsupply hhistory =>
    exact h.taken hrows hbefore hafter hsupply hhistory
  | revoked hrows hsupply hhistory => exact h.revoked hrows hsupply hhistory
  | created o row hnew => exact h.created hnew

/-- The run lemma. -/
theorem Sound.run (h : Sound tokens s) (hrun : Relation.ReflTransGen (SessionStep tokens) s s') :
    Sound tokens s' := by
  induction hrun with
  | refl => exact h
  | tail _ hlast ih => exact ih.step hlast

/-! ## Chains -/

/-- All sessions of a chain have the expiry of its login. -/
theorem Sound.chain_expiry (h : Sound tokens s) {login id : ℕ} {e e' : ℤ} {o o' : SessionOrigin}
    (hlogin : .creates o login e ∈ s.history) (hstems : StemsFrom s.history login id)
    (hid : .creates o' id e' ∈ s.history) : e' = e := by
  induction hstems generalizing o' e' with
  | opened => exact (h.unique hid hlogin).2
  | continued hold hcreates hparent ih =>
    obtain ⟨rfl, rfl⟩ := h.unique hid hcreates
    obtain ⟨⟨o'', ho''⟩, -⟩ := h.parent hid hparent
    exact ih ho''

/-- A chain that goes on after a revocation began after it. -/
theorem Sound.chain_revoked (h : Sound tokens s) {login id b : ℕ} (hb : .revokes b ∈ s.history)
    (hstems : StemsFrom s.history login id) (hle : b ≤ id) : b ≤ login := by
  induction hstems with
  | opened => exact hle
  | continued hold hcreates hparent ih =>
    exact ih ((h.parent hcreates hparent).2 b hb hle)

/-! ## The calls keep to their rights -/

/-- What a session was when it was read still holds of how it came to be. -/
structure Known (tokens : TokenService) (row : UserSession) (s : SessionDb) : Prop where
  origin : ∃ o, .creates o row.id row.expiresAt ∈ s.history
  hash : HashOf tokens row.refreshTokenHash row.id

theorem Sound.known (h : Sound tokens s) {row : UserSession} (hrow : row ∈ s.sessions.rows) :
    Known tokens row s := ⟨h.origin row hrow, h.hash row hrow⟩

theorem mark_steps (h : Relation.ReflTransGen (SessionStep tokens) s s') {l : SessionMark}
    (hl : l ∈ s.history) : l ∈ s'.history := by
  induction h with
  | refl => exact hl
  | tail _ hlast ih => exact hlast.history_mono ih

theorem supply_steps (h : Relation.ReflTransGen (SessionStep tokens) s s') :
    s.nextId ≤ s'.nextId := by
  induction h with
  | refl => exact le_rfl
  | tail _ hlast ih => exact ih.trans hlast.supply

theorem others_mark {ts : Set ℕ} (h : (sessionRights tokens).Others ts s s') {l : SessionMark}
    (hl : l ∈ s.history) : l ∈ s'.history := mark_steps (Rights.others_steps h) hl

theorem others_supply {ts : Set ℕ} (h : (sessionRights tokens).Others ts s s') :
    s.nextId ≤ s'.nextId := supply_steps (Rights.others_steps h)

theorem Known.others {ts : Set ℕ} {row : UserSession} (h : Known tokens row s)
    (hothers : (sessionRights tokens).Others ts s s') : Known tokens row s' := by
  obtain ⟨o, ho⟩ := h.origin
  exact ⟨⟨o, others_mark hothers ho⟩, h.hash⟩

/-- A transaction that only deletes, or does nothing to the sessions. -/
theorem turns_fewer {ts : Set ℕ} (hrows : Fewer s s') (hsupply : s.nextId ≤ s'.nextId)
    (hhistory : s'.history = s.history) : (sessionRights tokens).Turns ts ts s s' := by
  refine ⟨.fewer hrows hsupply hhistory, fun t _ _ hunused => ?_, fun _ ht => .inl ht⟩
  intro hash id e hc
  exact hunused hash id e (hhistory ▸ hc)

theorem fewer_deleteWhere (p : UserSession → Bool) (s : SessionDb) :
    Fewer s (s.setSessions (s.sessions.deleteWhere p)) := fun r hr =>
  ⟨r, (Table.mem_deleteWhere.mp hr).1, rfl, rfl, rfl⟩

/-- A statement that deletes. -/
theorem owns_deleteMany {ts : Set ℕ} {p : UserSession → Bool} {α : Type}
    {f : Unit → SessionCall α} {P : Set ℕ → Except AuthError α → SessionDb → Prop}
    (hfail : ∀ e s', (sessionRights tokens).Others ts s s' → P ts (.error e) s')
    (h : ∀ s', (∀ l ∈ s.history, l ∈ s'.history) → (f ()).Owns (sessionRights tokens) P ts s') :
    (Call.transaction (sessionRows.deleteMany p) >>= f).Owns (sessionRights tokens) P ts s := by
  refine Call.owns_transaction_bind hfail fun s₁ u s₂ h₁ _ hok => ?_
  obtain rfl := (Relation.ok_deleteMany sessionRows).mp hok
  exact ⟨ts, turns_fewer (fewer_deleteWhere p s₁) le_rfl rfl, h _ fun l hl => others_mark h₁ hl⟩

/-- What `createSession` needs to continue a session. -/
structure Ready (tokens : TokenService) (ts : Set ℕ) (o : SessionOrigin) (absolute : Option ℤ)
    (s : SessionDb) : Prop where
  parent : ∀ old, o.old = some old → ∃ e o', absolute = some e ∧ .creates o' old e ∈ s.history
  right : ∀ hash old, o = .refreshed hash old →
    old ∈ ts ∧ HashOf tokens hash old ∧ .takes old ∈ s.history ∧ Unused old s

theorem Ready.others {ts : Set ℕ} {o : SessionOrigin} {absolute : Option ℤ}
    (h : Ready tokens ts o absolute s) (hothers : (sessionRights tokens).Others ts s s') :
    Ready tokens ts o absolute s' where
  parent old hold := by
    obtain ⟨e, o', habsolute, ho'⟩ := h.parent old hold
    exact ⟨e, o', habsolute, others_mark hothers ho'⟩
  right hash old ho := by
    obtain ⟨hmine, hhash, htaken, hunused⟩ := h.right hash old ho
    have hkeeps : Unused old s → Unused old s' := Rights.others_keeps hothers hmine
    exact ⟨hmine, hhash, others_mark hothers htaken, hkeeps hunused⟩

/-- The commit of a session. -/
theorem turns_insertSession {ts : Set ℕ} {o : SessionOrigin} {absolute : Option ℤ} {e : ℤ}
    {mk : ℕ → ℤ → UserSession} {id : ℕ} (hok : (insertSession o e mk).Ok s id s')
    (hmeets : (insertSession o e mk).Meets NotRevoked s) (hready : Ready tokens ts o absolute s)
    (habsolute : ∀ e', absolute = some e' → e' = e) (hexpires : ∀ id now, (mk id now).expiresAt = e)
    (hhash : ∀ id now, HashOf tokens (mk id now).refreshTokenHash id) :
    (sessionRights tokens).Turns ts ts s s' := by
  simp only [insertSession, Block.ok_bind, Block.ok_get, Relation.ok_create, Block.ok_mark,
    Block.ok_pure] at hok
  obtain ⟨s₀, s₁, ⟨hs₀, hs₁⟩, _, t, ⟨rfl, hnone, rfl⟩, _, _, rfl, rfl, rfl⟩ := hok
  subst s₀ s₁
  have hinsert : ∀ r ∈ ((sessionRows.get (Supply.bump s)).insert
      { mk (Supply.next s) s.now with id := Supply.next s }).rows, r ∈ s.sessions.rows ∨
        r = { mk (Supply.next s) s.now with id := Supply.next s } := fun r hr => Table.mem_insert hr
  refine ⟨.created o { mk (Supply.next s) s.now with id := Supply.next s } ⟨hinsert, rfl, rfl, ?_,
    hhash _ _, fun old hold => ⟨?_, ?_⟩, fun hash old ho => ?_⟩, fun t ht hgiven hunused => ?_,
    fun _ ht => .inl ht⟩
  · show _ ++ [SessionMark.creates o (Supply.next s) e] = _
    rw [← hexpires (Supply.next s) s.now]
    rfl
  · obtain ⟨e', o', heq, ho'⟩ := hready.parent old hold
    obtain rfl := habsolute e' heq
    exact ⟨o', (hexpires (Supply.next s) s.now).symm ▸ ho'⟩
  · simp only [insertSession, Block.meets_bind] at hmeets
    have hmark := (hmeets.2 s s (by simp)).2 (Supply.next s) _
      ((Relation.ok_create sessionRows).mpr ⟨rfl, hnone, rfl⟩)
    exact hmark.1.1 old hold
  · exact (hready.right hash old ho).2
  · intro hash id' e' hc
    have hc' : .creates (.refreshed hash t) id' e' ∈ s.history ++
        [.creates o (Supply.next s) e] := hc
    rw [mem_append_mark] at hc'
    rcases hc' with hc' | hc'
    · exact hunused hash id' e' hc'
    · injection hc' with ho
      exact ht (hready.right hash t ho.symm).1

theorem owns_createSession {ts : Set ℕ} {o : SessionOrigin} {userId : ℕ} {phone : String}
    {ip device : Option String} {absolute : Option ℤ} (hready : Ready tokens ts o absolute s) :
    (createSession tokens o userId phone ip device absolute).Owns (sessionRights tokens)
      (fun _ _ _ => True) ts s := by
  refine Call.owns_get_bind fun s₁ h₁ => ?_
  refine Call.owns_transaction_bind (fun _ _ _ => trivial) fun s₂ id s₃ h₂ hmeets hok => ?_
  refine ⟨ts, turns_insertSession hok hmeets ((hready.others h₁).others h₂) ?_ (fun _ _ => rfl)
    fun id now => ⟨_, _, _, rfl, rfl⟩, Call.owns_pure fun _ _ => trivial⟩
  rintro e' rfl
  rfl

/-- What taking a session for a refresh does. -/
theorem taken_of_ok {id : ℕ} {u : Unit} (hok : (takeSession id).Ok s u s') :
    (∃ row ∈ s.sessions.rows, row.id = id) ∧ s'.history = s.history ++ [.takes id] ∧
      s'.nextId = s.nextId ∧ s'.sessions = s.sessions.deleteWhere fun r => r.id == id := by
  simp only [takeSession, Block.ok_bind, Block.ok_lock, Block.ok_get, Block.ok_check, Block.ok_mark,
    Relation.ok_deleteMany, Option.isSome_iff_exists] at hok
  obtain ⟨_, _, rfl, s₁, _, ⟨rfl, rfl⟩, _, _, ⟨⟨row, hrow⟩, rfl⟩, _, _, rfl, rfl⟩ := hok
  obtain ⟨hmem, hid⟩ := Table.find?_eq_some.mp hrow
  exact ⟨⟨row, hmem, hid⟩, rfl, rfl, rfl⟩

theorem unused_taken {id old : ℕ} (hhistory : s'.history = s.history ++ [.takes id])
    (h : Unused old s) : Unused old s' := by
  intro hash id' e hc
  rw [hhistory] at hc
  exact h hash id' e ((creates_append fun _ _ _ h => by cases h).mp hc)

/-- Its commit: the right to continue the session is gained. -/
theorem turns_takeSession {id : ℕ} {u : Unit} (h : Sound tokens s) (hok : (takeSession id).Ok s u s') :
    (sessionRights tokens).Turns ∅ {id} s s' := by
  obtain ⟨⟨row, hmem, hid⟩, hhistory, hsupply, hsessions⟩ := taken_of_ok hok
  have hrows : Fewer s s' := fun r hr =>
    ⟨r, (Table.mem_deleteWhere.mp (hsessions ▸ hr)).1, rfl, rfl, rfl⟩
  refine ⟨.taken id hrows ⟨row, hmem, hid⟩ (fun r hr => ?_) hsupply hhistory,
    fun t _ _ => unused_taken hhistory, ?_⟩
  · have hr' : r ∈ (s.sessions.deleteWhere fun r => r.id == id).rows := hsessions ▸ hr
    exact beq_eq_false_iff_ne.mp (Table.mem_deleteWhere.mp hr').2
  · rintro t rfl
    refine .inr ⟨fun hgiven => h.untaken row hmem (hid ▸ hgiven), ?_⟩
    show .takes t ∈ s'.history
    rw [hhistory]
    exact List.mem_append_right _ (List.mem_singleton_self _)

theorem Sound.others {ts : Set ℕ} (h : Sound tokens s)
    (hothers : (sessionRights tokens).Others ts s s') : Sound tokens s' :=
  h.run (Rights.others_steps hothers)

theorem owns_refreshToken {presented : String} (h : Sound tokens s) :
    (refreshToken tokens presented).Owns (sessionRights tokens) (fun _ _ _ => True) ∅ s := by
  unfold refreshToken
  refine Call.owns_get_bind fun s₁ h₁ => ?_
  refine Call.owns_getOrFail_bind (fun _ _ => trivial) fun session hsession => ?_
  have hsound₁ := h.others h₁
  have hknown := hsound₁.known (List.mem_of_find?_eq_some hsession)
  have hhash : session.refreshTokenHash = tokens.sha256 presented := by
    have hpred := List.find?_some hsession
    simp only [Bool.and_eq_true, beq_iff_eq] at hpred
    exact hpred.1
  refine Call.owns_transaction_bind (fun _ _ _ => trivial) fun s₂ u s₃ h₂ _ hok => ?_
  have hsound₂ := hsound₁.others h₂
  have hturns := turns_takeSession hsound₂ hok
  obtain ⟨⟨row, hmem, hid⟩, hhistory, -⟩ := taken_of_ok hok
  refine ⟨{session.id}, hturns, Call.owns_get_bind fun s₄ h₄ => ?_⟩
  refine Call.owns_check_bind (fun _ _ => trivial) fun _ => owns_createSession ?_
  have hunused : Unused session.id s₂ := fun hash id e hc =>
    hsound₂.untaken row hmem (hid ▸ hsound₂.used hc)
  have hready : Ready tokens {session.id} (.refreshed (tokens.sha256 presented) session.id)
      (some session.expiresAt) s₃ := by
    refine ⟨fun old hold => ?_, fun hash old ho => ?_⟩
    · obtain rfl := Option.some.inj hold
      obtain ⟨o, ho⟩ := (hknown.others h₂).origin
      exact ⟨_, o, rfl, hturns.step.history_mono ho⟩
    · injection ho with hhash' hold
      subst hhash' hold
      refine ⟨rfl, hhash ▸ hknown.hash, ?_, unused_taken hhistory hunused⟩
      rw [hhistory]
      exact List.mem_append_right _ (List.mem_singleton_self _)
  exact hready.others h₄

theorem owns_rotate {currentSessionId : ℕ} {ip userAgent : Option String} (h : Sound tokens s) :
    (rotateAfterFactorChange tokens currentSessionId ip userAgent).Owns (sessionRights tokens)
      (fun _ _ _ => True) ∅ s := by
  unfold rotateAfterFactorChange
  refine Call.owns_get_bind fun s₁ h₁ => ?_
  refine owns_deleteMany (fun _ _ _ => trivial) fun s₂ hkept => ?_
  cases hcurrent : s₁.sessions.find? currentSessionId with
  | none => exact Call.owns_pure fun _ _ => trivial
  | some current =>
    obtain ⟨o, ho⟩ := ((h.others h₁).known (Table.mem_of_find? hcurrent)).origin
    have hready : Ready tokens ∅ (.rotated current.id) (some current.expiresAt) s₂ := by
      refine ⟨fun old hold => ?_, nofun⟩
      obtain rfl := Option.some.inj hold
      exact ⟨_, o, rfl, hkept _ ho⟩
    refine Call.owns_bind (Call.owns_mono (fun ts r s₃ _ => ?_) (owns_createSession hready))
    cases r with
    | error e => trivial
    | ok created => exact Call.owns_pure fun _ _ => trivial

theorem owns_login {secondFactor : Except AuthError Unit} {ip userAgent : Option String} :
    (verifyLoginMfa tokens secondFactor ip userAgent).Owns (sessionRights tokens)
      (fun _ _ _ => True) ∅ s := by
  unfold verifyLoginMfa
  refine Call.owns_get_bind fun s₁ h₁ => ?_
  refine Call.owns_ofExcept_bind (fun _ _ _ => trivial) fun _ _ => ?_
  exact owns_createSession ⟨nofun, nofun⟩

/-! ## Revocations -/

/-- A revocation has come since the ids from `bound` on were drawn. -/
def Revoked (bound : ℕ) (s : SessionDb) : Prop := ∃ b, .revokes b ∈ s.history ∧ bound ≤ b

/-- A statement that writes neither sessions nor marks. -/
theorem turns_aside {ts : Set ℕ} (hsessions : s'.sessions = s.sessions)
    (hsupply : s'.nextId = s.nextId) (hhistory : s'.history = s.history) :
    (sessionRights tokens).Turns ts ts s s' :=
  turns_fewer (fun r hr => ⟨r, hsessions ▸ hr, rfl, rfl, rfl⟩) hsupply.ge hhistory

theorem owns_setPassword {hash : String} {α : Type} {f : Unit → SessionCall α}
    {P : Set ℕ → Except AuthError α → SessionDb → Prop}
    (hfail : ∀ e s', (sessionRights tokens).Others ∅ s s' → P ∅ (.error e) s')
    (h : ∀ s', s.nextId ≤ s'.nextId → (f ()).Owns (sessionRights tokens) P ∅ s') :
    (Call.transaction (setPassword hash) >>= f).Owns (sessionRights tokens) P ∅ s := by
  refine Call.owns_transaction_bind hfail fun s₁ u s₂ h₁ _ hok => ?_
  have hsupply := others_supply h₁
  simp only [setPassword, Block.ok_bind, Block.ok_lock, Block.ok_get, Block.ok_write] at hok
  obtain ⟨_, _, rfl, _, _, ⟨rfl, rfl⟩, rfl⟩ := hok
  exact ⟨∅, turns_aside rfl rfl rfl, h _ hsupply⟩

theorem owns_spend {jti : Option String} :
    (spend jti).Owns (sessionRights tokens) (fun ts _ s' => ts = ∅ ∧ s.nextId ≤ s'.nextId) ∅ s := by
  cases jti with
  | none => exact Call.owns_pure fun s' hs' => ⟨rfl, others_supply hs'⟩
  | some jti =>
    refine Call.owns_transaction (fun e s' hs' => ⟨rfl, others_supply hs'⟩) fun s₁ u s₂ h₁ _ hok => ?_
    have hsupply := others_supply h₁
    simp only [useResetToken, Block.ok_bind, Block.ok_get, Block.ok_check, Block.ok_write] at hok
    obtain ⟨_, _, ⟨rfl, rfl⟩, _, _, ⟨-, rfl⟩, rfl⟩ := hok
    refine ⟨∅, turns_aside rfl rfl rfl, fun t ht => ⟨rfl, ?_⟩⟩
    have hsupply' := others_supply ht
    exact hsupply.trans hsupply'

theorem owns_revokeSessions {bound : ℕ} (hbound : bound ≤ s.nextId) :
    (Call.transaction revokeSessions : SessionCall Unit).Owns (sessionRights tokens)
      (fun _ r s' => (∃ a, r = .ok a) → Revoked bound s') ∅ s := by
  refine Call.owns_transaction (fun e s' _ ⟨a, ha⟩ => by cases ha) fun s₁ u s₂ h₁ _ hok => ?_
  simp only [revokeSessions, Block.ok_bind, Block.ok_get, Block.ok_mark,
    Relation.ok_deleteMany] at hok
  obtain ⟨s₃, s₄, ⟨hs₃, hs₄⟩, _, _, rfl, rfl⟩ := hok
  subst s₃ s₄
  refine ⟨∅, ⟨.revoked ?_ rfl rfl, fun t _ _ hunused hash id e hc => ?_, fun _ ht => .inl ht⟩,
    fun t ht _ => ?_⟩
  · show (s₁.sessions.rows.filter fun _ => !true) = []
    simp
  · have hc' : .creates (.refreshed hash t) id e ∈ s₁.history ++ [.revokes s₁.nextId] := hc
    exact hunused hash id e ((creates_append fun _ _ _ h => by cases h).mp hc')
  · refine ⟨s₁.nextId, others_mark ht ?_, hbound.trans (others_supply h₁)⟩
    exact List.mem_append_right _ (List.mem_singleton_self _)

theorem owns_resetPassword {verified : Option ResetTokenPayload} {acceptable : Except AuthError Unit}
    {hash : String} {bound : ℕ} (hbound : bound ≤ s.nextId) :
    (resetPassword verified acceptable hash).Owns (sessionRights tokens)
      (fun _ r s' => (∃ a, r = .ok a) → Revoked bound s') ∅ s := by
  have hfail : ∀ (e : AuthError) s', (sessionRights tokens).Others ∅ s s' →
      (∃ a, (Except.error e : Except AuthError Unit) = .ok a) → Revoked bound s' :=
    fun e s' _ ⟨a, ha⟩ => by cases ha
  unfold resetPassword
  refine Call.owns_getOrFail_bind (hfail _) fun payload _ => ?_
  refine Call.owns_check_bind (hfail _) fun _ => ?_
  refine Call.owns_ofExcept_bind hfail fun _ _ => ?_
  refine Call.owns_bind (Call.owns_mono (fun ts r s₁ hspent => ?_) owns_spend)
  obtain ⟨rfl, hsupply⟩ := hspent
  cases r with
  | error e => exact fun ⟨a, ha⟩ => by cases ha
  | ok _ =>
    refine owns_setPassword (fun e s' _ ⟨a, ha⟩ => by cases ha) fun s₂ hsupply₂ => ?_
    exact owns_revokeSessions ((hbound.trans hsupply).trans hsupply₂)

theorem owns_changePassword {sessionId : ℕ} {dto : ChangePasswordDto} :
    (changePassword sessionId dto).Owns (sessionRights tokens) (fun _ _ _ => True) ∅ s := by
  unfold changePassword
  refine Call.owns_get_bind fun s₁ h₁ => ?_
  refine Call.owns_getOrFail_bind (fun _ _ => trivial) fun _ _ => ?_
  refine Call.owns_ofExcept_bind (fun _ _ _ => trivial) fun _ _ => ?_
  refine Call.owns_check_bind (fun _ _ => trivial) fun _ => ?_
  refine Call.owns_check_bind (fun _ _ => trivial) fun _ => ?_
  refine Call.owns_ofExcept_bind (fun _ _ _ => trivial) fun _ _ => ?_
  refine owns_setPassword (fun _ _ _ => trivial) fun s₂ _ => ?_
  refine Call.owns_transaction (fun _ _ _ => trivial) fun s₃ u s₄ _ _ hok => ?_
  obtain rfl := (Relation.ok_deleteMany sessionRows).mp hok
  exact ⟨∅, turns_fewer (fewer_deleteWhere _ s₃) le_rfl rfl, fun _ _ => trivial⟩

/-! ## Every interleaving -/

/-- The requests that revoke every session. -/
def AuthRequest.Revokes : AuthRequest → Prop
  | .resetPassword _ _ _ => True
  | .logoutAll => True
  | _ => False

/-- A call that answers with what another one returns. -/
theorem owns_answer {α β : Type} {c : SessionCall α} {f : α → β} {P : SessionDb → Prop}
    (hstable : ∀ ts s s', (sessionRights tokens).Others ts s s' → P s → P s')
    (h : c.Owns (sessionRights tokens) (fun _ r s => (∃ a, r = .ok a) → P s) ∅ s) :
    (do pure (f (← c)) : SessionCall β).Owns (sessionRights tokens)
      (fun _ r s => (∃ a, r = .ok a) → P s) ∅ s := by
  refine Call.owns_bind (Call.owns_mono (fun ts r s' hP => ?_) h)
  cases r with
  | error e => exact fun ⟨a, ha⟩ => by cases ha
  | ok a => exact Call.owns_pure fun s'' hs'' _ => hstable ts s' s'' hs'' (hP ⟨a, rfl⟩)

theorem owns_serve (bound : ℕ) (h : Sound tokens s) (hbound : bound ≤ s.nextId) (q : AuthRequest) :
    (serve tokens q).Owns (sessionRights tokens)
      (fun _ r s' => (∃ a, r = .ok a) → q.Revokes → Revoked bound s') ∅ s := by
  have hstable : ∀ ts s s', (sessionRights tokens).Others ts s s' →
      (q.Revokes → Revoked bound s) → q.Revokes → Revoked bound s' := by
    intro ts s s' hothers hrevoked hq
    obtain ⟨b, hb, hle⟩ := hrevoked hq
    exact ⟨b, others_mark hothers hb, hle⟩
  cases q with
  | login secondFactor ip userAgent =>
    exact owns_answer hstable (Call.owns_mono (fun _ _ _ _ _ hq => hq.elim) owns_login)
  | refreshToken presented =>
    exact owns_answer hstable (Call.owns_mono (fun _ _ _ _ _ hq => hq.elim) (owns_refreshToken h))
  | rotateAfterFactorChange id ip userAgent =>
    exact Call.owns_mono (fun _ _ _ _ _ hq => hq.elim) (owns_rotate h)
  | changePassword id dto =>
    exact owns_answer hstable (Call.owns_mono (fun _ _ _ _ _ hq => hq.elim) owns_changePassword)
  | resetPassword verified acceptable hash =>
    exact owns_answer hstable (Call.owns_mono (fun _ _ _ hr ha _ => hr ha)
      (owns_resetPassword hbound))
  | logout id =>
    refine owns_answer (c := logout id) (f := fun _ => none) hstable ?_
    refine Call.owns_transaction (fun _ _ _ _ hq => hq.elim) fun s₁ u s₂ _ _ hok => ?_
    obtain rfl := (Relation.ok_deleteMany sessionRows).mp hok
    exact ⟨∅, turns_fewer (fewer_deleteWhere _ s₁) le_rfl rfl, fun _ _ _ hq => hq.elim⟩
  | logoutAll =>
    exact owns_answer (c := logoutAll) (f := fun _ => none) hstable
      (Call.owns_mono (fun _ _ _ hr ha _ => hr ha) (owns_revokeSessions hbound))

/-- The rest of the application: the clock moves, sessions are used, expire or are deleted,
the settings and the user are edited. -/
structure Outside (s s' : SessionDb) : Prop where
  rows : Fewer s s'
  supply : s.nextId ≤ s'.nextId
  history : s'.history = s.history

/-- Nobody has logged in yet. -/
structure NoSessions (s : SessionDb) : Prop where
  sessions : s.sessions.rows = []
  history : s.history = []

theorem NoSessions.sound (h : NoSessions s) : Sound tokens s := by
  constructor <;> simp [h.sessions, h.history]

/-- A login has opened the session `login`, to expire at `e`. -/
def LoggedIn (s : SessionDb) (login : ℕ) (e : ℤ) : Prop := .creates .login login e ∈ s.history

/-- What holds of the sessions in every state of a run. -/
structure SessionsSound (tokens : TokenService) (s : SessionDb) : Prop where
  /-- a refresh token yields at most one session -/
  single : ∀ token old id e old' id' e',
    .creates (.refreshed (tokens.sha256 token) old) id e ∈ s.history →
    .creates (.refreshed (tokens.sha256 token) old') id' e' ∈ s.history → id = id'
  /-- a session expires with the login that it stems from -/
  expiry : ∀ login e, LoggedIn s login e → ∀ r ∈ s.sessions.rows,
    StemsFrom s.history login r.id → r.expiresAt = e

theorem Sound.sessionsSound (h : Sound tokens s) : SessionsSound tokens s where
  single token old id e old' id' e' hc hc' := by
    obtain ⟨p, ttl, now, hp, hhash⟩ := h.token hc
    obtain ⟨p', ttl', now', hp', hhash'⟩ := h.token hc'
    obtain rfl : old = old' := hp.symm.trans ((tokens.distinct (hhash.symm.trans hhash')).trans hp')
    exact h.single hc hc'
  expiry login e hlogin r hr hstems := by
    obtain ⟨o, ho⟩ := h.origin r hr
    exact h.chain_expiry hlogin hstems ho

/-- After the revocations `q` with the index `i` or above no session is alive that stems from a
login made before them. -/
def NoneRevived (p p' : Pool AuthRequest AuthError SessionRow SessionMark SessionDb
    (Option SessionTokens)) : Prop :=
  ∀ i q a, p.calls.length ≤ i → p'.calls[i]? = some (q, .done (.ok a)) → q.Revokes →
    ∀ login e, LoggedIn p.db login e → ∀ r ∈ p'.db.sessions.rows, p'.db.now < r.expiresAt →
      ¬StemsFrom p'.db.history login r.id

/-- Along every interleaving of the calls, a refresh token yields at most one session, every
session expires with its login, and none outlives a revocation that has started after its login
and has returned, as long as no session is continued that was created before a revocation. -/
theorem sessions_not_revived (tokens : TokenService) {s₀ : SessionDb} (hstart : NoSessions s₀)
    {p p' : Pool AuthRequest AuthError SessionRow SessionMark SessionDb (Option SessionTokens)}
    (hrun : Runs (Pool.Step (serve tokens) Outside) (Pool.Allowed NotRevoked fun _ _ => True)
      ⟨s₀, []⟩ p)
    (hrun' : Runs (Pool.Step (serve tokens) Outside) (Pool.Allowed NotRevoked fun _ _ => True)
      p p') :
    SessionsSound tokens p'.db ∧ NoneRevived p p' := by
  have henv : ∀ s s', Outside s s' → True → (sessionRights tokens).step s s' ∧
      ∀ t, (sessionRights tokens).given t s → (sessionRights tokens).keeps t s s' := by
    intro s s' hout _
    refine ⟨.fewer hout.rows hout.supply hout.history, fun t _ hunused hash id e hc => ?_⟩
    exact hunused hash id e (hout.history ▸ hc)
  have hnil : (⟨s₀, []⟩ : Pool AuthRequest AuthError SessionRow SessionMark SessionDb
      (Option SessionTokens)).Shares (sessionRights tokens) (fun _ _ _ _ => True) fun _ => ∅ :=
    Pool.shares_nil
  obtain ⟨hreach, own, hshares⟩ := Pool.shares_run hnil hrun henv fun _ q s hs =>
    Call.owns_mono (fun _ _ _ _ => trivial)
      (owns_serve 0 (hstart.sound.run hs) (Nat.zero_le _) q)
  have hsound : Sound tokens p.db := hstart.sound.run hreach
  have hshares' : p.Shares (sessionRights tokens) (fun i q r s => p.calls.length ≤ i →
      (∃ a, r = .ok a) → q.Revokes → Revoked p.db.nextId s) own := by
    refine ⟨hshares.disjoint, hshares.given, fun i q c hc => ?_⟩
    refine Call.owns_mono (fun _ _ _ _ hle => ?_) (hshares.owns i q c hc)
    exact absurd (List.getElem?_eq_some_iff.mp hc).1 (not_lt.mpr hle)
  obtain ⟨hreach', own', hshares''⟩ := Pool.shares_run hshares' hrun' henv fun i q s hs =>
    Call.owns_mono (fun _ _ _ hr _ => hr)
      (owns_serve p.db.nextId (hsound.run hs) (supply_steps hs) q)
  have hsound' : Sound tokens p'.db := hsound.run hreach'
  refine ⟨hsound'.sessionsSound, fun i q a hi hdone hq login e hlogin r hr _ hstems => ?_⟩
  obtain ⟨b, hb, hle⟩ := hshares''.ended hdone hi ⟨a, rfl⟩ hq
  have hafter := hsound'.chain_revoked hb hstems (hsound'.unrevoked r hr b hb)
  have hbefore := hsound.drawn hlogin
  omega

/-! ## A login, a refresh and a revocation -/

/-- Tokens that spell the number of their session. -/
def plainTokens : TokenService where
  signAccess p _ _ := String.ofList (List.replicate p.sessionId 'a')
  signRefresh p _ _ := String.ofList (List.replicate p.sessionId 'r')
  sha256 token := token
  distinct {p p' _ _ _ _} h := by
    have hlength := congrArg (fun token => token.toList.length) h
    simpa using hlength

/-- A user who has not logged in. -/
def newUser : SessionDb where
  user := ⟨7, "0912", some "hash", none⟩
  sessions := .empty
  usedResetTokens := []
  number _ := none
  now := 0
  nextId := 3
  history := []

/-- The user logs in. -/
def loggedIn : List (PoolEvent AuthRequest SessionDb) :=
  .start (.login (.ok ()) none none) :: List.replicate 3 (.advance 0)

/-- The refresh token of that login is presented; its session is read and deleted. -/
def presented : List (PoolEvent AuthRequest SessionDb) :=
  .start (.refreshToken "rrr") :: List.replicate 2 (.advance 1)

/-- The user logs out everywhere. -/
def loggedOut : List (PoolEvent AuthRequest SessionDb) := [.start .logoutAll, .advance 2]

/-- Whether no session is continued that was created before a revocation. -/
def notRevoked : SessionMark → SessionDb → Bool
  | .creates o _ _, s =>
    o.old.all fun old => s.history.all fun
      | .revokes b => decide (b ≤ old)
      | _ => true
  | _, _ => true

theorem notRevoked_sound (l : SessionMark) (s : SessionDb) (h : notRevoked l s = true) :
    NotRevoked l s := by
  cases l with
  | creates o id e =>
    intro old hold b hb
    have hall : (s.history.all fun | .revokes b => decide (b ≤ old) | _ => true) = true := by
      simpa [notRevoked, hold] using h
    simpa using List.all_eq_true.mp hall _ hb
  | takes id => trivial
  | revokes b => trivial

/-- A pool after the events, as long as the marks passed meet the condition. -/
abbrev played (test : SessionMark → SessionDb → Bool)
    (p : Pool AuthRequest AuthError SessionRow SessionMark SessionDb (Option SessionTokens))
    (es : List (PoolEvent AuthRequest SessionDb)) :
    Option (Pool AuthRequest AuthError SessionRow SessionMark SessionDb (Option SessionTokens)) :=
  p.playAllowed (serve plainTokens) test es

/-- `sessions_not_revived` for a session that is refreshed before the user logs out. -/
theorem sessions_not_revived_logoutAll : ∃ p p',
    (played notRevoked ⟨newUser, []⟩ loggedIn = some p ∧
      played notRevoked p (presented ++ List.replicate 3 (.advance 1) ++ loggedOut) = some p') ∧
    p.db.sessions.rows.length = 1 ∧ p'.db.sessions.rows = [] ∧
    SessionsSound plainTokens p'.db ∧ NoneRevived p p' := by
  have hplayed : ((played notRevoked ⟨newUser, []⟩ loggedIn).bind fun p =>
      (played notRevoked p (presented ++ List.replicate 3 (.advance 1) ++ loggedOut)).map fun p' =>
        (p.db.sessions.rows.length, p'.db.sessions.rows)) = some (1, []) := by
    decide +kernel
  obtain ⟨p, hp, hrest⟩ := Option.bind_eq_some_iff.mp hplayed
  obtain ⟨p', hp', hrows⟩ := Option.map_eq_some_iff.mp hrest
  obtain ⟨hone, hnone⟩ := Prod.mk.inj hrows
  refine ⟨p, p', ⟨hp, hp'⟩, hone, hnone, ?_⟩
  exact (@sessions_not_revived plainTokens newUser) ⟨rfl, rfl⟩
    (Pool.runs_of_playAllowed notRevoked_sound hp) (Pool.runs_of_playAllowed notRevoked_sound hp')

/-- Whether a call is a `logoutAll` that has returned. -/
def hasLoggedOut : AuthRequest × SessionCall (Option SessionTokens) → Bool
  | (.logoutAll, .done (.ok _)) => true
  | _ => false

theorem hasLoggedOut_eq_true {c : AuthRequest × SessionCall (Option SessionTokens)}
    (h : hasLoggedOut c = true) : ∃ a, c = (.logoutAll, .done (.ok a)) := by
  unfold hasLoggedOut at h
  split at h
  · exact ⟨_, rfl⟩
  · cases h

/-- The user logs out everywhere while a refresh has the session in hand. -/
theorem refreshed_after_logoutAll : NoSessions newUser ∧ ∃ p p',
    Runs (Pool.Step (serve plainTokens) Outside) always ⟨newUser, []⟩ p ∧
      Runs (Pool.Step (serve plainTokens) Outside) always p p' ∧
      ¬(SessionsSound plainTokens p'.db ∧ NoneRevived p p') := by
  refine ⟨⟨rfl, rfl⟩, ?_⟩
  have hplayed : ((played (fun _ _ => true) ⟨newUser, []⟩ loggedIn).bind fun p =>
      (played (fun _ _ => true) p (presented ++ loggedOut ++ List.replicate 3 (.advance 1))).map
        fun p' => ((p.calls.length, p.db.history),
          (p'.db.history, p'.db.sessions.rows.map fun r => (r.id, decide (p'.db.now < r.expiresAt))),
          p'.calls[2]?.map hasLoggedOut)) =
      some ((1, [.creates .login 3 43200000]),
        ([.creates .login 3 43200000, .takes 3, .revokes 4,
          .creates (.refreshed "rrr" 3) 4 43200000], [(4, true)]), some true) := by
    decide +kernel
  obtain ⟨p, hp, hrest⟩ := Option.bind_eq_some_iff.mp hplayed
  obtain ⟨p', hp', hall⟩ := Option.map_eq_some_iff.mp hrest
  obtain ⟨hbefore, hrest⟩ := Prod.mk.inj hall
  obtain ⟨hafter, hcall⟩ := Prod.mk.inj hrest
  have hruns : ∀ {v v' : Pool AuthRequest AuthError SessionRow SessionMark SessionDb
      (Option SessionTokens)} {es}, played (fun _ _ => true) v es = some v' →
      Runs (Pool.Step (serve plainTokens) Outside) always v v' := by
    intro v v' es h
    have hallowed : Runs (Pool.Step (serve plainTokens) Outside)
        (Pool.Allowed (fun _ _ => True) fun _ _ => True) v v' :=
      Pool.runs_of_playAllowed (fun _ _ _ => trivial) h
    exact hallowed.mono fun _ _ _ => trivial
  refine ⟨p, p', hruns hp, hruns hp', fun ⟨_, hnone⟩ => ?_⟩
  obtain ⟨hlength, hlogins⟩ := Prod.mk.inj hbefore
  obtain ⟨hhistory, hrows⟩ := Prod.mk.inj hafter
  obtain ⟨c, hc, hdone⟩ := Option.map_eq_some_iff.mp hcall
  obtain ⟨a, rfl⟩ := hasLoggedOut_eq_true hdone
  obtain ⟨r, rest, hsessions, hr, -⟩ := List.map_eq_cons_iff.mp hrows
  obtain ⟨hid, halive⟩ := Prod.mk.inj hr
  refine hnone 2 _ a (by omega) hc trivial 3 43200000 (by simp [LoggedIn, hlogins]) r (by simp [hsessions])
    (of_decide_eq_true halive) ?_
  rw [hid]
  exact .continued .opened (o := .refreshed "rrr" 3) (e := 43200000) (by simp [hhistory]) rfl

end AuthService

end ArkanGold
