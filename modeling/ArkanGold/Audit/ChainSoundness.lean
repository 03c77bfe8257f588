import ArkanGold.Audit.ChainCompleteness

/-!
# A chain that verifies has not lost or changed a record

The rows of a chain are replaced by any other rows, the stored hash is left alone. If
`verifyChain` is content, its walk has gone along records with the hashes of their own
texts up to the stored hash. As no two texts in question share a hash, these are the
records that were logged: the last one has the stored hash, and each names the one before.
-/

namespace ArkanGold

namespace AuditService

variable {P : Platform} {c : ChainId}

/-! ## What the walk has seen -/

theorem hashOf_of_isChained {row : AuditLog} (h : isChained row = true) :
    row.hash = some (hashOf row) := by
  simp only [isChained, Bool.and_eq_true, Option.isSome_iff_exists] at h
  obtain ⟨-, e, he⟩ := h
  simp [hashOf, he]

theorem prevHash_of_isChained {row : AuditLog} (h : isChained row = true) :
    row.prevHash = some (prevOf row) := by
  simp only [isChained, Bool.and_eq_true, Option.isSome_iff_exists] at h
  obtain ⟨⟨p, hp⟩, -⟩ := h
  simp [prevOf, hp]

/-- The records that the walk visits are linked and have the hashes of their texts. -/
theorem walk_sound {chained : List AuditLog} (hchained : ∀ row ∈ chained, isChained row = true)
    {headHash : String} {fuel : ℕ} {w w' : Walk}
    (h : walk P chained headHash fuel w = some (.inr w')) :
    ∃ l, (∀ row ∈ l, row ∈ chained ∧ Hashed P row) ∧
      HashChain.Linked prevOf hashOf w.expectedPrevHash l w'.expectedPrevHash ∧
      (w'.reachedHead = true → w.reachedHead = true ∨
        ∃ l₁ row l₂, l = l₁ ++ row :: l₂ ∧ hashOf row = headHash) := by
  induction fuel generalizing w with
  | zero => simp [walk] at h
  | succ fuel ih =>
    have hdone : w = w' → ∃ l, (∀ row ∈ l, row ∈ chained ∧ Hashed P row) ∧
        HashChain.Linked prevOf hashOf w.expectedPrevHash l w'.expectedPrevHash ∧
        (w'.reachedHead = true → w.reachedHead = true ∨
          ∃ l₁ row l₂, l = l₁ ++ row :: l₂ ∧ hashOf row = headHash) := by
      rintro rfl
      exact ⟨[], by simp, rfl, .inl⟩
    rw [walk] at h
    split at h
    · exact hdone (by simpa using h)
    · simp at h
    · rename_i row hfilter
      have hrow : row ∈ chained ∧ (row.prevHash == some w.expectedPrevHash) = true :=
        List.mem_filter.mp (hfilter ▸ List.mem_singleton_self row)
      split_ifs at h with hvisited hhash
      · exact hdone (by simpa using h)
      · simp at h
      · -- the record is visited and the walk goes on from its hash
        obtain ⟨l, hl, hlinked, hreached⟩ := ih h
        have hisc := hchained row hrow.1
        have hprev : prevOf row = w.expectedPrevHash := by
          have := prevHash_beq hisc w.expectedPrevHash
          rw [hrow.2] at this
          simpa using this.symm
        have hown : hashOf row = P.sha256Hex (hashInput row (prevOf row)) := by
          rw [hashOf_of_isChained hisc] at hhash
          simp only [bne_iff_ne, ne_eq, not_not, Option.some.injEq] at hhash
          rw [hprev, hhash]
        refine ⟨row :: l, ?_, ⟨hprev, hlinked⟩, ?_⟩
        · rintro r hr
          rcases List.mem_cons.mp hr with rfl | hr
          · exact ⟨hrow.1, hisc, hown⟩
          · exact hl r hr
        · intro hw'
          rcases hreached hw' with hthis | ⟨l₁, r, l₂, rfl, hr⟩
          · simp only [Bool.or_eq_true, beq_iff_eq] at hthis
            refine hthis.imp id fun hhead => ⟨[], row, l, rfl, ?_⟩
            simp [hashOf, hhead]
          · exact .inr ⟨row :: l₁, r, l₂, rfl, hr⟩

/-- The walk returns at once only where the chain is broken. -/
theorem walk_broken {chained : List AuditLog} {headHash : String} {fuel : ℕ} {w : Walk}
    {r : ChainVerificationResult} (h : walk P chained headHash fuel w = some (.inl r)) :
    r.valid = false := by
  induction fuel generalizing w with
  | zero => simp [walk] at h
  | succ fuel ih =>
    rw [walk] at h
    split at h
    · simp at h
    · obtain rfl : _ = r := by simpa using h
      rfl
    · split_ifs at h with hvisited hhash
      · simp at h
      · obtain rfl : _ = r := by simpa using h
        rfl
      · exact ih h

/-- The walk comes to an end: each round visits another row. -/
theorem walk_isSome {chained : List AuditLog} {headHash : String} {fuel : ℕ} {w : Walk}
    (hnodup : w.visited.Nodup) (hsub : w.visited ⊆ chained.map AuditLog.id)
    (hfuel : chained.length < fuel + w.visited.length) :
    (walk P chained headHash fuel w).isSome = true := by
  induction fuel generalizing w with
  | zero =>
    have hle : w.visited.length ≤ chained.length := by
      rw [← List.length_map (f := AuditLog.id)]
      exact (List.subperm_of_subset hnodup hsub).length_le
    omega
  | succ fuel ih =>
    rw [walk]
    split
    · rfl
    · rfl
    · rename_i row hfilter
      have hrow : row ∈ chained :=
        (List.mem_filter.mp (hfilter ▸ List.mem_singleton_self row)).1
      split_ifs with hvisited hhash
      · rfl
      · rfl
      · refine ih ?_ ?_ ?_
        · rw [List.nodup_append]
          refine ⟨hnodup, List.nodup_singleton _, ?_⟩
          rintro i hi j hj rfl
          rw [List.mem_singleton] at hj
          subst hj
          exact hvisited (List.contains_iff_mem.mpr hi)
        · intro i hi
          rcases List.mem_append.mp hi with hi | hi
          · exact hsub hi
          · rw [List.mem_singleton] at hi
            subst hi
            exact List.mem_map_of_mem hrow
        · simp only [List.length_append, List.length_singleton]
          omega

/-- `verifyChain` always comes to a result. -/
theorem verifyRows_isSome (P : Platform) (lastHash : Option String) (rows : List AuditLog) :
    (verifyRows P lastHash rows).isSome = true := by
  have hwalk : (walk P (rows.filter isChained) (lastHash.getD GENESIS_HASH)
      ((rows.filter isChained).length + 1)
      ⟨[], GENESIS_HASH, lastHash.getD GENESIS_HASH == GENESIS_HASH, none⟩).isSome = true :=
    walk_isSome List.nodup_nil (by simp) (by simp)
  obtain ⟨x, hx⟩ := Option.isSome_iff_exists.mp hwalk
  unfold verifyRows
  dsimp only
  rw [hx]
  cases x <;> rfl

/-- The rows that were found valid contain a chain up to the stored hash. -/
theorem verifyRows_sound {head : String} {rows : List AuditLog} {r : ChainVerificationResult}
    (h : verifyRows P (some head) rows = some r) (hvalid : r.valid = true) :
    ∃ l, (∀ row ∈ l, row ∈ rows ∧ Hashed P row) ∧
      HashChain.Linked prevOf hashOf GENESIS_HASH l head := by
  unfold verifyRows at h
  dsimp only [Option.getD_some] at h
  split at h
  · cases h
  · rename_i x hwalk
    obtain rfl : x = r := by simpa using h
    rw [walk_broken hwalk] at hvalid
    cases hvalid
  · rename_i w hwalk
    obtain ⟨l, hl, hlinked, hreached⟩ :=
      walk_sound (fun row hrow => (List.mem_filter.mp hrow).2) hwalk
    have hhead : w.reachedHead = true := by
      obtain rfl : _ = r := by simpa using h
      unfold verdict at hvalid
      split at hvalid
      · cases hvalid
      · split at hvalid
        · assumption
        · cases hvalid
    have hrows : ∀ row ∈ l, row ∈ rows ∧ Hashed P row := fun row hrow =>
      ⟨(List.mem_filter.mp (hl row hrow).1).1, (hl row hrow).2⟩
    rcases hreached hhead with hempty | ⟨l₁, row, l₂, rfl, hrow⟩
    · obtain rfl : head = GENESIS_HASH := by simpa using hempty
      exact ⟨[], by simp, rfl⟩
    · refine ⟨l₁ ++ [row], fun r hr => hrows r ?_, HashChain.linked_snoc.mpr ⟨?_, hrow⟩⟩
      · rw [List.append_cons]
        exact List.mem_append_left _ hr
      · obtain ⟨m, hl₁, hm, -⟩ := HashChain.linked_append.mp hlinked
        exact hm ▸ hl₁

/-! ## The records of one text -/

/-- The two rows agree in every column that is hashed; the values of `jsonb` columns are
compared as such, whatever the order of their keys. -/
structure SameRecord (a b : AuditLog) : Prop where
  actor : a.actor = b.actor
  actorLabel : a.actorLabel = b.actorLabel
  action : a.action = b.action
  entityType : a.entityType = b.entityType
  entityId : a.entityId = b.entityId
  oldValue : a.oldValue.Same b.oldValue
  newValue : a.newValue.Same b.newValue
  ip : a.ip = b.ip
  userAgent : a.userAgent = b.userAgent
  source : a.source = b.source
  success : a.success = b.success
  createdAt : a.createdAt = b.createdAt
  prevHash : a.prevHash = b.prevHash
  hash : a.hash = b.hash

theorem textJson_inj {v w : Option String} (h : (textJson v).Same (textJson w)) : v = w := by
  cases v <;> cases w
  · rfl
  · cases h
  · cases h
  · exact congrArg some h.string

theorem nodup_columns (row : AuditLog) (prevHash : String) :
    ((columns row prevHash).map Prod.fst).Nodup := by
  cases h : row.actor <;> simp [columns, h, actorFields]

/-- The columns of the two kinds of actor have different names. -/
theorem actor_eq {row row' : AuditLog} {prev prev' : String}
    (h : (recordJson row prev).Same (recordJson row' prev')) : row.actor = row'.actor := by
  unfold recordJson at h
  have hvalue (k : String) {v w : Option String} (hv : (k, textJson v) ∈ columns row prev)
      (hw : (k, textJson w) ∈ columns row' prev') : v = w :=
    textJson_inj (h.value (nodup_columns row' prev') hv hw)
  cases hrow : row.actor with
  | admin adminUserId =>
    have hmem := h.mem (k := "adminUserId") (v := textJson adminUserId)
      (by simp [columns, hrow, actorFields])
    cases hrow' : row'.actor with
    | admin adminUserId' =>
      exact congrArg Actor.admin (hvalue "adminUserId" (by simp [columns, hrow, actorFields])
        (by simp [columns, hrow', actorFields]))
    | user userId adminId => simp [columns, hrow', actorFields] at hmem
  | user userId adminId =>
    have hmem := h.mem (k := "userId") (v := textJson userId)
      (by simp [columns, hrow, actorFields])
    cases hrow' : row'.actor with
    | admin adminUserId' => simp [columns, hrow', actorFields] at hmem
    | user userId' adminId' =>
      have huser : userId = userId' := hvalue "userId"
        (by simp [columns, hrow, actorFields]) (by simp [columns, hrow', actorFields])
      have hadmin : adminId = adminId' := hvalue "adminId"
        (by simp [columns, hrow, actorFields]) (by simp [columns, hrow', actorFields])
      rw [huser, hadmin]

/-- Records of one text are the same, whatever their ids are. -/
theorem sameRecord_of_hashInput {row row' : AuditLog} (hrow : isChained row = true)
    (hrow' : isChained row' = true) (hlen : (prevOf row).length = 64)
    (hlen' : (prevOf row').length = 64) (hhash : hashOf row = hashOf row')
    (htext : hashInput row (prevOf row) = hashInput row' (prevOf row')) : SameRecord row row' := by
  obtain ⟨hprev, hcanonical⟩ := prevOf_eq_of_hashInput hlen hlen' htext
  have hsame := Json.same_of_canonicalize hcanonical
  have hactor := actor_eq hsame
  unfold recordJson at hsame
  have hvalue (k : String) {v w : Json} (hv : (k, v) ∈ columns row (prevOf row))
      (hw : (k, w) ∈ columns row' (prevOf row')) : v.Same w :=
    hsame.value (nodup_columns row' (prevOf row')) hv hw
  have hcell (k : String) {v w : Option String} (hv : (k, textJson v) ∈ columns row (prevOf row))
      (hw : (k, textJson w) ∈ columns row' (prevOf row')) : v = w := textJson_inj (hvalue k hv hw)
  exact
    { actor := hactor
      actorLabel := hcell "actorLabel" (by simp [columns]) (by simp [columns])
      action := Json.Same.string (hvalue "action" (by simp [columns]) (by simp [columns]))
      entityType := hcell "entityType" (by simp [columns]) (by simp [columns])
      entityId := hcell "entityId" (by simp [columns]) (by simp [columns])
      oldValue := hvalue "oldValue" (by simp [columns]) (by simp [columns])
      newValue := hvalue "newValue" (by simp [columns]) (by simp [columns])
      ip := hcell "ip" (by simp [columns]) (by simp [columns])
      userAgent := hcell "userAgent" (by simp [columns]) (by simp [columns])
      source := hcell "source" (by simp [columns]) (by simp [columns])
      success := Json.Same.bool (hvalue "success" (by simp [columns]) (by simp [columns]))
      createdAt := toISOString_injective
        (Json.Same.string (hvalue "createdAt" (by simp [columns]) (by simp [columns])))
      prevHash := by rw [prevHash_of_isChained hrow, prevHash_of_isChained hrow', hprev]
      hash := by rw [hashOf_of_isChained hrow, hashOf_of_isChained hrow', hhash] }

/-- The texts of the rows that have hashes. -/
def textsOf (rows : List AuditLog) : Set String :=
  {v | ∃ row ∈ rows, isChained row = true ∧ v = hashInput row (prevOf row)}

end AuditService

open AuditService

/-- Whatever rows stand in the place of those that were logged: if `verifyChain` finds them
valid against the stored hash, then every record that was logged is still among them. -/
theorem valid_chain_keeps_records (P : Platform) {s₀ : AuditDb}
    {w : World AuditRequest ApiError AuditRow Empty AuditDb (Option ChainVerificationResult)}
    (hfresh : AuditService.Fresh s₀)
    (hrun : Runs (World.Step (serve P) AuditClock) always ⟨s₀, []⟩ w)
    (c : ChainId) (rows : List AuditLog)
    (hinj : Set.InjOn P.sha256Hex (hashedTexts (w.db.chain c) ∪ textsOf rows))
    (hgenesis : ∀ v ∈ hashedTexts (w.db.chain c) ∪ textsOf rows,
      P.sha256Hex v ≠ GENESIS_HASH) :
    (∀ r, verifyRows P (w.db.chain c).lastHash rows = some r → r.valid = true →
      ∀ row ∈ chainedRows (w.db.chain c), ∃ row' ∈ rows, SameRecord row row') ∧
    ∀ t t' r, (t.chain c).lastHash = (w.db.chain c).lastHash → (t.chain c).logs.rows.Perm rows →
      (verifyChain P c).Returns t (some r) t' → r.valid = true →
      ∀ row ∈ chainedRows (w.db.chain c), ∃ row' ∈ (t.chain c).logs.rows, SameRecord row row' := by
  have hseeded : Seeded s₀ := fun c => ⟨_, (hfresh c).1⟩
  have hserve : ∀ q s, Relation.ReflTransGen (auditDiscipline P).trans s₀ s →
      (serve P q).Safe (auditDiscipline P) (answered P s₀ q) s :=
    fun q s hs => safe_serve hseeded q hs
  obtain ⟨hreach, -⟩ := World.refines quiet_bump quiet_clock hserve World.inv_idle
    (hrun.mono fun w e _ => World.allowed_of_empty w e)
  obtain ⟨l, hg⟩ := grown_run hseeded hreach c
  obtain ⟨g, head, hgen, hhead, hlinked⟩ := hg.linked
  obtain rfl : g = GENESIS_HASH := Option.some.inj (hgen.symm.trans (hfresh c).1)
  have hrows : chainedRows (w.db.chain c) = l := by
    rw [hg.chainedRows, (hfresh c).2, List.nil_append]
  have key : ∀ rows', rows' ⊆ rows → ∀ r,
      verifyRows P (w.db.chain c).lastHash rows' = some r → r.valid = true →
      ∀ row ∈ chainedRows (w.db.chain c), ∃ row' ∈ rows', SameRecord row row' := by
    intro rows' hsub r hr hvalid row hrow
    rw [hhead] at hr
    obtain ⟨l', hl', hlinked'⟩ := verifyRows_sound hr hvalid
    have hhashed' : ∀ row ∈ l', Hashed P row := fun row hrow => (hl' row hrow).2
    have htext : ∀ row ∈ l, hashInput row (prevOf row) ∈
        hashedTexts (w.db.chain c) ∪ textsOf rows := fun row hrow =>
      .inl ⟨row, hrows ▸ hrow, rfl⟩
    have htext' : ∀ row ∈ l', hashInput row (prevOf row) ∈
        hashedTexts (w.db.chain c) ∪ textsOf rows := fun row hrow =>
      .inr ⟨row, hsub (hl' row hrow).1, (hhashed' row hrow).1, rfl⟩
    have hlength := length_prevOf hlinked hg.hashed
    have hlength' := length_prevOf hlinked' hhashed'
    -- the two chains have the same ends, so they agree record by record
    have hall : List.Forall₂ SameRecord l l' := by
      refine hlinked.unique hlinked' ?_ ?_ ?_
      · intro row hrow
        rw [(hg.hashed row hrow).2]
        exact hgenesis _ (htext row hrow)
      · intro row hrow
        rw [(hhashed' row hrow).2]
        exact hgenesis _ (htext' row hrow)
      · intro row hrow row' hrow' hhash
        have hdigest := hhash
        rw [(hg.hashed row hrow).2, (hhashed' row' hrow').2] at hdigest
        have hsame : hashInput row (prevOf row) = hashInput row' (prevOf row') :=
          hinj (htext row hrow) (htext' row' hrow') hdigest
        have hlen := hlength row hrow
        have hlen' := hlength' row' hrow'
        exact ⟨sameRecord_of_hashInput (hg.hashed row hrow).1 (hhashed' row' hrow').1 hlen hlen'
          hhash hsame, (prevOf_eq_of_hashInput hlen hlen' hsame).1⟩
    obtain ⟨i, hi, rfl⟩ := List.getElem_of_mem (hrows ▸ hrow)
    have hi' : i < l'.length := hall.length_eq ▸ hi
    exact ⟨l'[i], (hl' _ (List.getElem_mem hi')).1, hall.get hi hi'⟩
  refine ⟨fun r hr hvalid => key rows (List.Subset.refl _) r hr hvalid, ?_⟩
  intro t t' r hlast hperm hreturns hvalid row hrow
  simp only [verifyChain, Call.returns_bind, Call.returns_transaction, Block.ok_get,
    Call.returns_pure] at hreturns
  obtain ⟨s₁, t₁, ⟨hs₁, ht₁⟩, s₂, t₂, ⟨hs₂, ht₂⟩, hr, -⟩ := hreturns
  rw [hs₁, hs₂, ht₁, hlast] at hr
  have hread : (findMany (t.chain c).logs).Perm (t.chain c).logs.rows :=
    List.perm_insertionSort _ _
  obtain ⟨row', hrow', hsame⟩ := key _ (hread.trans hperm).subset r hr.symm hvalid row hrow
  exact ⟨row', hread.mem_iff.mp hrow', hsame⟩

/-- The records of a chain under other ids. -/
def renumbered (x : AuditChain) : List AuditLog :=
  (chainedRows x).map fun row => { row with id := row.id + 6 }

theorem textsOf_renumbered (x : AuditChain) : textsOf (renumbered x) ⊆ hashedTexts x := by
  rintro v ⟨row', hrow', -, rfl⟩
  obtain ⟨row, hrow, rfl⟩ := List.mem_map.mp hrow'
  exact ⟨row, hrow, rfl⟩

/-- `valid_chain_keeps_records` for the record of one event that was given another id. -/
theorem valid_chain_keeps_records_first : ∃ w, firstLogged = some w ∧
    (∀ r, verifyRows firstPlatform (w.db.chain .admin).lastHash
        (renumbered (w.db.chain .admin)) = some r → r.valid = true →
      ∀ row ∈ chainedRows (w.db.chain .admin), ∃ row' ∈ renumbered (w.db.chain .admin),
        SameRecord row row') ∧
    ∀ t t' r, (t.chain .admin).lastHash = (w.db.chain .admin).lastHash →
      (t.chain .admin).logs.rows.Perm (renumbered (w.db.chain .admin)) →
      (verifyChain firstPlatform .admin).Returns t (some r) t' → r.valid = true →
      ∀ row ∈ chainedRows (w.db.chain .admin), ∃ row' ∈ (t.chain .admin).logs.rows,
        SameRecord row row' := by
  obtain ⟨w, hw⟩ := Option.isSome_iff_exists.mp
    (show firstLogged.isSome = true by decide +kernel)
  have hfree := collisionFree_firstLogged hw
  have htexts : hashedTexts (w.db.chain .admin) ∪ textsOf (renumbered (w.db.chain .admin)) ⊆
      hashedTexts (w.db.chain .admin) :=
    Set.union_subset (Set.Subset.refl _) (textsOf_renumbered _)
  exact ⟨w, hw, valid_chain_keeps_records firstPlatform fresh_emptyAudit (runs_firstLogged hw)
    .admin _ (hfree.injOn.mono htexts) fun v hv => hfree.ne_genesis v (htexts hv)⟩

end ArkanGold
