import ArkanGold.Audit.AuditService
import ArkanGold.Lib.HashChain

/-!
# An untouched audit chain verifies

Whatever logging calls run and in whatever order their statements fall, a commit adds at
most one record to a chain, under the lock of its row in `audit_chain_state`
(`AuditStep`). So the rows of a chain, in the order of their commits, are linked from
`GENESIS_HASH` to the stored hash (`Intact`), and the walk of `verifyChain` visits them in
that order, however `findMany` sorts them.
-/

namespace ArkanGold

namespace AuditService

variable {P : Platform} {s s' : AuditDb} {c : ChainId}

/-! ## What a commit does -/

/-- A commit leaves the chains alone, or adds a record to one of them. -/
inductive AuditStep (P : Platform) (s s' : AuditDb) : Prop where
  | quiet (h : ∀ c, s'.chain c = s.chain c)
  | append (c : ChainId) (row : AuditLog) (head : String)
      (hhead : (s.chain c).lastHash = some head) (hprev : row.prevHash = some head)
      (hhash : row.hash = some (P.sha256Hex (hashInput row head)))
      (hnew : (s.chain c).logs.find? row.id = none)
      (hchain : s'.chain c = ⟨row.hash, (s.chain c).logs.insert row⟩)
      (hother : ∀ d, d ≠ c → s'.chain d = s.chain d)

/-- What a lock protects: a chain, or the absence of the rows that are being inserted. -/
def auditFrame (r : AuditRow) (s s' : AuditDb) : Prop :=
  match r with
  | .chain c => s'.chain c = s.chain c
  | .log _ _ => True
  | .own n => ∀ c, (s.chain c).logs.find? n = none → (s'.chain c).logs.find? n = none

/-- The discipline of the audit service. -/
def auditDiscipline (P : Platform) : Discipline AuditRow Empty AuditDb where
  trans := AuditStep P
  frame := auditFrame
  cond l _ := l.elim
  trans_refl _ := .quiet fun _ => rfl
  frame_refl r _ := by cases r <;> simp [auditFrame]
  frame_trans r s s' s'' h h' := by
    cases r with
    | chain c => exact h'.trans h
    | log c n => trivial
    | own n => exact fun c hc => h' c (h c hc)

/-- Both chains have their row in `audit_chain_state`, as the migration leaves them. -/
def Seeded (s : AuditDb) : Prop := ∀ c, ∃ head, (s.chain c).lastHash = some head

theorem seeded_step (h : Seeded s) (hstep : AuditStep P s s') : Seeded s' := by
  intro c
  cases hstep with
  | quiet hsame => exact (hsame c).symm ▸ h c
  | append d row head hhead hprev hhash hnew hchain hother =>
    by_cases hc : c = d
    · subst hc
      exact ⟨_, by rw [hchain, hhash]⟩
    · exact (hother c hc).symm ▸ h c

theorem seeded_run (h : Seeded s) (hrun : Relation.ReflTransGen (AuditStep P) s s') :
    Seeded s' := by
  induction hrun with
  | refl => exact h
  | tail _ hlast ih => exact seeded_step ih hlast

theorem seeded_rely {held : List AuditRow} (h : Seeded s)
    (hrely : (auditDiscipline P).rely held s s') : Seeded s' :=
  seeded_run h (Discipline.rely_run hrely)

/-- A locked chain stays as it is. -/
theorem chain_rely {held : List AuditRow} (hrely : (auditDiscipline P).rely held s s')
    (hc : AuditRow.chain c ∈ held) : s'.chain c = s.chain c := by
  have hframe : auditFrame (.chain c) s s' := Discipline.rely_frame hrely hc
  exact hframe

theorem quiet_bump (s : AuditDb) : (auditDiscipline P).trans s (Supply.bump s) ∧
    ∀ r, (auditDiscipline P).frame r s (Supply.bump s) := by
  refine ⟨.quiet fun c => AuditDb.chain_bump c s, fun r => ?_⟩
  cases r with
  | chain c => exact AuditDb.chain_bump c s
  | log c n => trivial
  | own n => exact fun c hc => (AuditDb.chain_bump c s).symm ▸ hc

/-! ## What the calls do -/

/-- What is stored hashes as what was hashed. -/
theorem hashInput_storedLog (record : AuditLog) (head hash : String) (n : ℕ) :
    hashInput (storedLog P record head hash n) head = hashInput record head := by
  unfold hashInput
  rw [Json.canonicalize_congr]
  refine Json.same_object_of_values ?_
  have hold : (P.jsonb record.oldValue).sortKeys = record.oldValue.sortKeys := P.same_jsonb _
  have hnew : (P.jsonb record.newValue).sortKeys = record.newValue.sortKeys := P.same_jsonb _
  simp only [columns, storedLog, List.map_append, List.map_cons, hold, hnew]

/-- The writes of `append`, on a state whose head is the one the record names. -/
theorem guar_append {held : List AuditRow} (record : AuditLog) {head : String} {n : ℕ}
    (hchain : AuditRow.chain c ∈ held) (hown : AuditRow.own n ∈ held)
    (hhead : (s.chain c).lastHash = some head) (hnew : (s.chain c).logs.find? n = none)
    (hs' : ∀ d, s'.chain d = if d = c then
      ⟨some (P.sha256Hex (hashInput record head)), (s.chain c).logs.insert
        (storedLog P record head (P.sha256Hex (hashInput record head)) n)⟩ else s.chain d) :
    (auditDiscipline P).guar held s s' := by
  refine ⟨.append c (storedLog P record head (P.sha256Hex (hashInput record head)) n) head hhead
    rfl ?_ hnew ?_ ?_, fun r hr => ?_⟩
  · rw [hashInput_storedLog]
    rfl
  · rw [hs', if_pos rfl]
    rfl
  · intro d hd
    rw [hs', if_neg hd]
  · cases r with
    | chain d =>
      have hd : d ≠ c := fun h => hr (h ▸ hchain)
      exact (hs' d).trans (if_neg hd)
    | log d m => trivial
    | own m =>
      have hm : m ≠ n := fun h => hr (h ▸ hown)
      intro d hd
      rw [hs']
      split
      · rename_i hdc
        subst hdc
        exact (Table.find?_insert_of_ne _ hm).trans hd
      · exact hd

theorem safe_append {fields : AuditLog} {post : Except ApiError Unit → AuditDb → Prop}
    (hs : Seeded s) (hpost : ∀ r t, post r t) :
    (Call.transaction (append P c fields) : AuditCall Unit).Safe (auditDiscipline P) post s := by
  refine Call.safe_transaction ?_ fun e t _ => hpost _ t
  intro s₀ h₀
  simp only [append, lockChain, Block.wp_bind, Block.wp_get]
  intro s₁ h₁
  obtain ⟨head₁, hhead₁⟩ := seeded_rely (seeded_rely hs h₀) h₁ c
  simp only [id_eq, hhead₁]
  intro s₂ h₂ s₃ h₃ s₄ h₄
  refine (AuditDb.logRows c).wp_create quiet_bump fun n s₅ h₅ hnew => ?_
  simp only [advanceChain, Block.wp_bind, Block.wp_lock, Block.wp_write]
  intro s₆ h₆ s₇ h₇
  refine ⟨?_, fun t _ => hpost _ t⟩
  -- under the lock the chain stays as it was read
  have hseeded : Seeded s₃ :=
    seeded_rely (seeded_rely (seeded_rely (seeded_rely hs h₀) h₁) h₂) h₃
  obtain ⟨head, hhead⟩ := hseeded c
  have hc₄ : s₄.chain c = s₃.chain c := chain_rely h₄ (by simp)
  have hc₅ : s₅.chain c = s₄.chain c := chain_rely h₅ (by simp)
  have hc₆ : s₆.chain c = s₅.chain c := chain_rely h₆ (by simp)
  have hc₇ : s₇.chain c = s₆.chain c := chain_rely h₇ (by simp)
  have hnew₇ : (s₇.chain c).logs.find? n = none := by
    rw [hc₇, hc₆]
    exact hnew
  have hhead₇ : (s₇.chain c).lastHash = some head := by rw [hc₇, hc₆, hc₅, hc₄, hhead]
  simp only [id_eq, hhead, Option.getD_some]
  refine guar_append { fields with createdAt := s₄.now } (c := c) (n := n) (by simp) (by simp)
     hhead₇ hnew₇ fun d => ?_
  by_cases hd : d = c
  · subst hd
    simp [AuditDb.logRows]
  · simp [AuditDb.logRows, hd, AuditDb.chain_setChain_of_ne hd]

/-- The outcomes of a call: verification has seen two states, one after the other. -/
def answered (P : Platform) (s₀ : AuditDb) (q : AuditRequest)
    (r : Except ApiError (Option ChainVerificationResult)) (s : AuditDb) : Prop :=
  match q with
  | .verifyChain c => (∃ e, r = .error e) ∨ ∃ s₁ s₂, Relation.ReflTransGen (AuditStep P) s₀ s₁ ∧
      Relation.ReflTransGen (AuditStep P) s₁ s₂ ∧ Relation.ReflTransGen (AuditStep P) s₂ s ∧
      r = .ok (verifyRows P (s₁.chain c).lastHash (findMany (s₂.chain c).logs))
  | _ => True

theorem safe_log {actor : Actor} {event : AuditEvent}
    {post : Except ApiError Unit → AuditDb → Prop} (hs : Seeded s) (hpost : ∀ r t, post r t) :
    (log P c actor event).Safe (auditDiscipline P) post s := by
  refine Call.safe_bind (Call.safe_attempt (safe_append hs fun r t => ?_))
  exact Call.safe_pure fun t' _ => hpost _ t'

theorem safe_verifyChain {s₀ : AuditDb} (hs : Relation.ReflTransGen (AuditStep P) s₀ s) :
    (verifyChain P c).Safe (auditDiscipline P) (answered P s₀ (.verifyChain c)) s := by
  have herr (e : ApiError) (t : AuditDb) : answered P s₀ (.verifyChain c) (.error e) t :=
    .inl ⟨e, rfl⟩
  refine Call.safe_bind (Call.safe_transaction ?_ fun e t _ => herr e t)
  intro s₁ h₁ s₂ h₂ s₃ h₃
  refine ⟨⟨(auditDiscipline P).trans_refl _, fun r _ => (auditDiscipline P).frame_refl r _⟩, ?_⟩
  intro s₄ h₄
  refine Call.safe_bind (Call.safe_transaction ?_ fun e t _ => herr e t)
  intro s₅ h₅ s₆ h₆ s₇ h₇
  refine ⟨⟨(auditDiscipline P).trans_refl _, fun r _ => (auditDiscipline P).frame_refl r _⟩, ?_⟩
  intro s₈ h₈
  refine Call.safe_pure fun s₉ h₉ => .inr ⟨s₂, s₆, ?_, ?_, ?_, rfl⟩
  · exact (hs.trans (Discipline.rely_run h₁)).trans (Discipline.rely_run h₂)
  · exact Discipline.rely_run (Discipline.rely_trans h₃ (Discipline.rely_trans h₄
      (Discipline.rely_trans h₅ h₆)))
  · exact Discipline.rely_run (Discipline.rely_trans h₇ (Discipline.rely_trans h₈ h₉))

/-- Every call keeps to the discipline. -/
theorem safe_serve {s₀ : AuditDb} (hseeded : Seeded s₀) (q : AuditRequest)
    (hs : Relation.ReflTransGen (AuditStep P) s₀ s) :
    (serve P q).Safe (auditDiscipline P) (answered P s₀ q) s := by
  have hs' : Seeded s := seeded_run hseeded hs
  cases q with
  | logAdmin adminUserId event =>
    exact Call.safe_bind (safe_log hs' fun r t => by
      cases r with
      | ok _ => exact Call.safe_pure fun _ _ => trivial
      | error e => trivial)
  | logUser userId adminId event =>
    exact Call.safe_bind (safe_log hs' fun r t => by
      cases r with
      | ok _ => exact Call.safe_pure fun _ _ => trivial
      | error e => trivial)
  | verifyChain c => exact safe_verifyChain hs

/-! ## The chain that grows -/

/-- The hash a record names; the walk only looks at rows that have one. -/
def prevOf (row : AuditLog) : String := row.prevHash.getD ""

/-- The hash of a record. -/
def hashOf (row : AuditLog) : String := row.hash.getD ""

/-- The rows of a chain that have hashes, in the order of their commits. -/
def chainedRows (x : AuditChain) : List AuditLog := x.logs.rows.filter isChained

/-- The record has the hash of its own text. -/
def Hashed (P : Platform) (row : AuditLog) : Prop :=
  isChained row = true ∧ hashOf row = P.sha256Hex (hashInput row (prevOf row))

/-- The chain `y` is the chain `x` with the records `l` added. -/
structure Grown (P : Platform) (x y : AuditChain) (l : List AuditLog) : Prop where
  rows : y.logs.rows = x.logs.rows ++ l
  linked : ∃ g h, x.lastHash = some g ∧ y.lastHash = some h ∧
    HashChain.Linked prevOf hashOf g l h
  hashed : ∀ row ∈ l, Hashed P row

theorem Grown.refl {x : AuditChain} {head : String} (h : x.lastHash = some head) :
    Grown P x x [] :=
  ⟨(List.append_nil _).symm, ⟨head, head, h, h, rfl⟩, by simp⟩

theorem Grown.trans {x y z : AuditChain} {l l' : List AuditLog} (h : Grown P x y l)
    (h' : Grown P y z l') : Grown P x z (l ++ l') := by
  obtain ⟨g, m, hg, hm, hl⟩ := h.linked
  obtain ⟨m', e, hm', he, hl'⟩ := h'.linked
  have hmm : m = m' := Option.some.inj (hm.symm.trans hm')
  subst hmm
  refine ⟨?_, ⟨g, e, hg, he, HashChain.linked_append.mpr ⟨m, hl, hl'⟩⟩, ?_⟩
  · rw [h'.rows, h.rows, List.append_assoc]
  · intro row hrow
    exact (List.mem_append.mp hrow).elim (h.hashed row) (h'.hashed row)

theorem Grown.chainedRows {x y : AuditChain} {l : List AuditLog} (h : Grown P x y l) :
    chainedRows y = chainedRows x ++ l := by
  have hl : l.filter isChained = l := List.filter_eq_self.mpr fun row hrow => (h.hashed row hrow).1
  rw [AuditService.chainedRows, h.rows, List.filter_append, hl]
  rfl

theorem grown_step (hseeded : Seeded s) (hstep : AuditStep P s s') (c : ChainId) :
    ∃ l, Grown P (s.chain c) (s'.chain c) l := by
  obtain ⟨head₀, hhead₀⟩ := hseeded c
  cases hstep with
  | quiet hsame =>
    rw [hsame]
    exact ⟨[], .refl hhead₀⟩
  | append d row head hhead hprev hhash hnew hchain hother =>
    by_cases hc : c = d
    · subst hc
      have hrow : isChained row = true := by simp [isChained, hprev, hhash]
      refine ⟨[row], ?_, ⟨head, hashOf row, hhead, ?_, ?_, rfl⟩, ?_⟩
      · rw [hchain, Table.rows_insert hnew]
      · rw [hchain, hashOf, hhash]
        rfl
      · rw [prevOf, hprev]
        rfl
      · intro r hr
        rw [List.mem_singleton] at hr
        subst hr
        exact ⟨hrow, by rw [hashOf, hhash, prevOf, hprev]; rfl⟩
    · rw [hother c hc]
      exact ⟨[], .refl hhead₀⟩

theorem grown_run (hseeded : Seeded s) (hrun : Relation.ReflTransGen (AuditStep P) s s')
    (c : ChainId) : ∃ l, Grown P (s.chain c) (s'.chain c) l := by
  have key : Seeded s' ∧ ∃ l, Grown P (s.chain c) (s'.chain c) l := by
    induction hrun with
    | refl =>
      obtain ⟨head, hhead⟩ := hseeded c
      exact ⟨hseeded, [], .refl hhead⟩
    | tail _ hstep ih =>
      obtain ⟨hsd, l, hl⟩ := ih
      obtain ⟨l', hl'⟩ := grown_step hsd hstep c
      exact ⟨seeded_step hsd hstep, l ++ l', hl.trans hl'⟩
  exact key.2

/-! ## The walk -/

theorem prevHash_beq {row : AuditLog} (h : isChained row = true) (m : String) :
    (row.prevHash == some m) = decide (prevOf row = m) := by
  simp only [isChained, Bool.and_eq_true, Option.isSome_iff_exists] at h
  obtain ⟨⟨p, hp⟩, -⟩ := h
  by_cases hpm : p = m <;> simp [prevOf, hp, hpm]

/-- The walk goes from record to record to the end of the chain. -/
theorem walk_linked {chained : List AuditLog} (headHash : String) (done rest : List AuditLog)
    {m h : String} {fuel : ℕ} (hperm : chained.Perm (done ++ rest)) (hids : ((done ++ rest).map AuditLog.id).Nodup)
    (hprevs : ((done ++ rest).map prevOf).Nodup) (hend : ∀ row ∈ done ++ rest, prevOf row ≠ h)
    (hhashed : ∀ row ∈ done ++ rest, Hashed P row)
    (hlinked : HashChain.Linked prevOf hashOf m rest h) (hfuel : rest.length < fuel)
    (reached : Bool) (lastId : Option ℕ) :
    ∃ lastId', walk P chained headHash fuel ⟨done.map AuditLog.id, m, reached, lastId⟩ =
      some (.inr ⟨(done ++ rest).map AuditLog.id, h,
        reached || rest.any fun row => hashOf row == headHash, lastId'⟩) := by
  have hchained : ∀ row ∈ chained, isChained row = true := fun row hrow =>
    (hhashed row (hperm.mem_iff.mp hrow)).1
  have hfilter (m : String) : (chained.filter fun row => row.prevHash == some m) =
      chained.filter fun row => decide (prevOf row = m) :=
    List.filter_congr fun row hrow => prevHash_beq (hchained row hrow) m
  induction rest generalizing done m fuel reached lastId with
  | nil =>
    obtain ⟨fuel, rfl⟩ : ∃ n, fuel = n + 1 := ⟨fuel - 1, by simp at hfuel; omega⟩
    have hmh : m = h := hlinked
    subst hmh
    have hnone : (chained.filter fun row => row.prevHash == some m) = [] := by
      rw [hfilter, List.filter_eq_nil_iff]
      intro row hrow
      simpa using hend row (hperm.mem_iff.mp hrow)
    exact ⟨lastId, by simp [walk, hnone]⟩
  | cons r rs ih =>
    obtain ⟨fuel, rfl⟩ : ∃ n, fuel = n + 1 := ⟨fuel - 1, by simp at hfuel; omega⟩
    obtain ⟨hprev, hrest⟩ := hlinked
    have hr : r ∈ done ++ r :: rs := List.mem_append_right _ (List.mem_cons_self ..)
    -- the only record that names the hash reached
    have hone : (chained.filter fun row => row.prevHash == some m) = [r] := by
      rw [hfilter, ← List.perm_singleton]
      refine (hperm.filter _).trans (List.Perm.of_eq ?_)
      simp only [List.map_append, List.map_cons, List.nodup_append, List.nodup_cons] at hprevs
      obtain ⟨-, ⟨hrs, -⟩, hdisj⟩ := hprevs
      rw [List.filter_append, List.filter_cons_of_pos (by simpa using hprev),
        List.filter_eq_nil_iff.mpr, List.filter_eq_nil_iff.mpr, List.nil_append]
      · intro row hrow
        have : prevOf row ≠ prevOf r := fun heq => hrs (heq ▸ List.mem_map_of_mem hrow)
        simpa [← hprev] using this
      · intro row hrow
        have : prevOf row ≠ prevOf r :=
          hdisj _ (List.mem_map_of_mem hrow) _ (List.mem_cons_self ..)
        simpa [← hprev] using this
    have hnew : (done.map AuditLog.id).contains r.id = false := by
      simp only [List.map_append, List.map_cons, List.nodup_append] at hids
      rw [← Bool.not_eq_true, List.contains_iff_mem]
      exact fun hmem => hids.2.2 _ hmem _ (List.mem_cons_self ..) rfl
    obtain ⟨hrchained, hrhash⟩ := hhashed r hr
    have hhash : r.hash = some (hashOf r) := by
      simp only [isChained, Bool.and_eq_true, Option.isSome_iff_exists] at hrchained
      obtain ⟨-, e, he⟩ := hrchained
      simp [hashOf, he]
    have hok : (some (P.sha256Hex (hashInput r m)) != r.hash) = false := by
      rw [hhash, hrhash, hprev]
      simp
    have happend : done ++ r :: rs = (done ++ [r]) ++ rs := by simp
    obtain ⟨lastId', hwalk⟩ := ih (done ++ [r]) (m := hashOf r)
      (happend ▸ hperm) (happend ▸ hids) (happend ▸ hprevs) (happend ▸ hend)
      (happend ▸ hhashed) hrest (by simp at hfuel; omega)
      (reached || r.hash == some headHash) (some r.id)
    refine ⟨lastId', ?_⟩
    simp only [walk, hone, hnew, hok, Bool.false_eq_true, if_false]
    rw [List.map_append, List.map_singleton, ← happend] at hwalk
    have hgetD : r.hash.getD "" = hashOf r := rfl
    rw [hgetD, hwalk, List.any_cons, Bool.or_assoc, hhash]
    rfl

/-- The rows of a chain that has grown from its beginning to the stored hash, and perhaps
beyond it, are found valid in whatever order they are read. -/
theorem verifyRows_linked {rows l₁ l₂ : List AuditLog} {h₁ h₂ : String}
    (hperm : (rows.filter isChained).Perm (l₁ ++ l₂))
    (hids : ((l₁ ++ l₂).map AuditLog.id).Nodup) (hhashed : ∀ row ∈ l₁ ++ l₂, Hashed P row)
    (hl₁ : HashChain.Linked prevOf hashOf GENESIS_HASH l₁ h₁)
    (hl₂ : HashChain.Linked prevOf hashOf h₁ l₂ h₂)
    (hfresh : ∀ row ∈ l₁ ++ l₂, hashOf row ≠ GENESIS_HASH)
    (hinj : ∀ row ∈ l₁ ++ l₂, ∀ row' ∈ l₁ ++ l₂, hashOf row = hashOf row' →
      prevOf row = prevOf row') :
    verifyRows P (some h₁) rows = some ⟨true, (l₁ ++ l₂).length, none⟩ := by
  have hl : HashChain.Linked prevOf hashOf GENESIS_HASH (l₁ ++ l₂) h₂ :=
    HashChain.linked_append.mpr ⟨h₁, hl₁, hl₂⟩
  have hend : ∀ row ∈ l₁ ++ l₂, prevOf row ≠ h₂ := fun row hrow =>
    hl.prev_ne (List.ne_nil_of_mem hrow) hfresh hinj row hrow
  have hlen : (l₁ ++ l₂).length < (rows.filter isChained).length + 1 := by
    rw [hperm.length_eq]
    omega
  obtain ⟨lastId, hwalk⟩ := walk_linked h₁ [] (l₁ ++ l₂) hperm hids
    (hl.nodup_prev hfresh hinj) hend hhashed hl hlen (h₁ == GENESIS_HASH) none
  -- the walk has passed the stored hash
  have hreached : (h₁ == GENESIS_HASH || (l₁ ++ l₂).any fun row => hashOf row == h₁) = true := by
    by_cases hnil : l₁ = []
    · subst hnil
      have : GENESIS_HASH = h₁ := hl₁
      simp [← this]
    · obtain ⟨row, hrow, hhash⟩ := hl₁.last_mem hnil
      simp only [Bool.or_eq_true, List.any_eq_true, beq_iff_eq]
      exact .inr ⟨row, List.mem_append_left _ hrow, hhash⟩
  have hnone : ((rows.filter isChained).find? fun row =>
      !((l₁ ++ l₂).map AuditLog.id).contains row.id) = none := by
    rw [List.find?_eq_none]
    intro row hrow
    simp only [Bool.not_eq_true', Bool.not_eq_false, List.contains_iff_mem]
    exact List.mem_map_of_mem (hperm.mem_iff.mp hrow)
  simp only [verifyRows, Option.getD_some]
  rw [show ([] : List ℕ) = ([] : List AuditLog).map AuditLog.id from rfl, hwalk]
  simp only [List.nil_append, verdict, hnone, hreached, if_true, List.length_map]

/-! ## The hash function -/

/-- The texts that were hashed for the records of a chain. -/
def hashedTexts (x : AuditChain) : Set String :=
  {v | ∃ row ∈ chainedRows x, v = hashInput row (prevOf row)}

/-- The text of a record begins with the hash it names, which has 64 digits. -/
theorem prevOf_eq_of_hashInput {row row' : AuditLog} (h : (prevOf row).length = 64)
    (h' : (prevOf row').length = 64)
    (htext : hashInput row (prevOf row) = hashInput row' (prevOf row')) :
    prevOf row = prevOf row' ∧ (recordJson row (prevOf row)).canonicalize =
      (recordJson row' (prevOf row')).canonicalize := by
  have hchars := congrArg String.toList htext
  simp only [hashInput, String.toList_append, List.append_assoc] at hchars
  obtain ⟨hprev, hrest⟩ := List.append_inj hchars
    (by rw [String.length_toList, String.length_toList, h, h'])
  exact ⟨String.toList_inj.mp hprev, String.toList_inj.mp (List.append_cancel_left hrest)⟩

theorem length_GENESIS_HASH : GENESIS_HASH.length = 64 := by decide

/-- In a chain of hashed records every hash that is named has 64 digits. -/
theorem length_prevOf {l : List AuditLog} {h : String}
    (hl : HashChain.Linked prevOf hashOf GENESIS_HASH l h) (hhashed : ∀ row ∈ l, Hashed P row) :
    ∀ row ∈ l, (prevOf row).length = 64 :=
  hl.forall_prev (p := fun v => v.length = 64) length_GENESIS_HASH fun row hrow => by
    rw [(hhashed row hrow).2, P.length_sha256Hex]

/-- The state that the migration leaves: both chains begin, and no row has hashes. -/
def Fresh (s : AuditDb) : Prop :=
  ∀ c, (s.chain c).lastHash = some GENESIS_HASH ∧ chainedRows (s.chain c) = []

/-- SHA-256 tells the hashed texts of a chain apart and gives none of them the hash that
stands for the beginning. -/
structure CollisionFree (P : Platform) (x : AuditChain) : Prop where
  injOn : Set.InjOn P.sha256Hex (hashedTexts x)
  ne_genesis : ∀ v ∈ hashedTexts x, P.sha256Hex v ≠ GENESIS_HASH

/-- The head read in one state and the rows read in a later one. -/
theorem verifyRows_run {s₀ s₁ s₂ s₃ : AuditDb} (hfresh : Fresh s₀)
    (h₁ : Relation.ReflTransGen (AuditStep P) s₀ s₁)
    (h₂ : Relation.ReflTransGen (AuditStep P) s₁ s₂)
    (h₃ : Relation.ReflTransGen (AuditStep P) s₂ s₃) (hfree : CollisionFree P (s₃.chain c)) :
    verifyRows P (s₁.chain c).lastHash (findMany (s₂.chain c).logs) =
      some ⟨true, (chainedRows (s₂.chain c)).length, none⟩ := by
  have hseeded : Seeded s₀ := fun c => ⟨_, (hfresh c).1⟩
  obtain ⟨l₁, hg₁⟩ := grown_run hseeded h₁ c
  obtain ⟨l₂, hg₂⟩ := grown_run (seeded_run hseeded h₁) h₂ c
  obtain ⟨l₃, hg₃⟩ := grown_run (seeded_run (seeded_run hseeded h₁) h₂) h₃ c
  obtain ⟨g, m, hg, hm, hl₁⟩ := hg₁.linked
  obtain ⟨m', e, hm', -, hl₂⟩ := hg₂.linked
  have hgenesis : g = GENESIS_HASH := Option.some.inj (hg.symm.trans (hfresh c).1)
  have hmm : m = m' := Option.some.inj (hm.symm.trans hm')
  subst hgenesis hmm
  have hrows : chainedRows (s₂.chain c) = l₁ ++ l₂ := by
    rw [hg₂.chainedRows, hg₁.chainedRows, (hfresh c).2, List.nil_append]
  have hhashed : ∀ row ∈ l₁ ++ l₂, Hashed P row := fun row hrow =>
    (List.mem_append.mp hrow).elim (hg₁.hashed row) (hg₂.hashed row)
  have htext : ∀ row ∈ l₁ ++ l₂, hashInput row (prevOf row) ∈ hashedTexts (s₃.chain c) := by
    intro row hrow
    refine ⟨row, ?_, rfl⟩
    rw [hg₃.chainedRows, hrows]
    exact List.mem_append_left _ hrow
  have hlength := length_prevOf (HashChain.linked_append.mpr ⟨m, hl₁, hl₂⟩) hhashed
  have hperm : ((findMany (s₂.chain c).logs).filter isChained).Perm (l₁ ++ l₂) :=
    hrows ▸ (List.perm_insertionSort _ _).filter _
  have hids : ((l₁ ++ l₂).map AuditLog.id).Nodup :=
    hrows ▸ (s₂.chain c).logs.nodup.sublist (List.filter_sublist.map _)
  rw [hm, hrows]
  refine verifyRows_linked hperm hids hhashed hl₁ hl₂ ?_ ?_
  · intro row hrow
    rw [(hhashed row hrow).2]
    exact hfree.ne_genesis _ (htext row hrow)
  · intro row hrow row' hrow' hsame
    rw [(hhashed row hrow).2, (hhashed row' hrow').2] at hsame
    exact (prevOf_eq_of_hashInput (hlength row hrow) (hlength row' hrow')
      (hfree.injOn (htext row hrow) (htext row' hrow') hsame)).1

end AuditService

open AuditService

/-- The clock runs as it likes; nothing else writes the audit tables. -/
def AuditClock (s s' : AuditDb) : Prop := ∃ t, s' = { s with now := t }

theorem quiet_clock {P : Platform} (s s' : AuditDb) (h : AuditClock s s') :
    (auditDiscipline P).trans s s' ∧ ∀ r, (auditDiscipline P).frame r s s' := by
  obtain ⟨t, rfl⟩ := h
  have hsame (c : ChainId) : AuditDb.chain { s with now := t } c = s.chain c := by
    cases c <;> rfl
  refine ⟨.quiet hsame, fun r => ?_⟩
  cases r with
  | chain c => exact hsame c
  | log c n => trivial
  | own n => exact fun c hc => (hsame c).symm ▸ hc

/-- The text of a first record. -/
def firstText : String :=
  "0000000000000000000000000000000000000000000000000000000000000000|\x7b\"action\":\"test.event\",\"actorLabel\":null,\"adminUserId\":null,\"createdAt\":\"2025-06-15T15:06:40.000Z\",\"entityId\":null,\"entityType\":\"test\",\"ip\":null,\"newValue\":null,\"oldValue\":null,\"prevHash\":\"0000000000000000000000000000000000000000000000000000000000000000\",\"source\":\"spec\",\"success\":true,\"userAgent\":null\x7d"

/-- A platform that knows the digest of the first record. -/
def firstPlatform : Platform where
  sha256Hex v :=
    if v = firstText then "33c36e4b19c285fcc9cab8dfb967ecfb8d09cb402dad2294575fbb5e4da42a08"
    else String.ofList (List.replicate 64 'f')
  length_sha256Hex v := by
    split <;> decide
  jsonb := Json.sortKeys
  same_jsonb := Json.same_sortKeys

/-- The audit tables after the migration. -/
def emptyAudit : AuditDb :=
  ⟨⟨some GENESIS_HASH, .empty⟩, ⟨some GENESIS_HASH, .empty⟩, 1750000000000, 1⟩

/-- One event is logged. -/
def firstEvents : List (WorldEvent AuditRequest ApiError AuditDb) :=
  .start (.logAdmin none { action := "test.event", source := "spec" }) ::
    List.replicate 12 (.advance 0)

/-- The world once the event is logged, if nothing goes wrong. -/
def firstLogged : Option
    (World AuditRequest ApiError AuditRow Empty AuditDb (Option ChainVerificationResult)) :=
  World.play (serve firstPlatform) ⟨emptyAudit, []⟩ firstEvents

theorem fresh_emptyAudit : AuditService.Fresh emptyAudit := fun c => by
  cases c <;> exact ⟨rfl, rfl⟩

theorem runs_firstLogged {w : World AuditRequest ApiError AuditRow Empty AuditDb
    (Option ChainVerificationResult)} (hw : firstLogged = some w) :
    Runs (World.Step (serve firstPlatform) AuditClock) always ⟨emptyAudit, []⟩ w := by
  refine World.runs_of_play hw ?_ fun _ _ _ => trivial
  rintro e he s rfl
  simp [firstEvents] at he

/-- One text and one digest. -/
theorem collisionFree_firstLogged {w : World AuditRequest ApiError AuditRow Empty AuditDb
    (Option ChainVerificationResult)} (hw : firstLogged = some w) :
    CollisionFree firstPlatform (w.db.chain .admin) := by
  have htexts : (firstLogged.map fun w => (chainedRows (w.db.chain .admin)).map fun row =>
      hashInput row (prevOf row)) = some [firstText] := by decide +kernel
  rw [hw, Option.map_some, Option.some.injEq] at htexts
  have hall : ∀ v ∈ hashedTexts (w.db.chain .admin), v = firstText := by
    rintro v ⟨row, hrow, rfl⟩
    have hmem := List.mem_map_of_mem (f := fun row => hashInput row (prevOf row)) hrow
    rw [htexts] at hmem
    exact List.mem_singleton.mp hmem
  refine ⟨fun v hv v' hv' _ => (hall v hv).trans (hall v' hv').symm, fun v hv => ?_⟩
  rw [hall v hv]
  decide +kernel

end ArkanGold
