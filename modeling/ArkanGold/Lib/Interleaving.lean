import ArkanGold.Lib.Calls

/-!
# Interleaved transactions

Any number of sessions run calls, one statement at a time. A transaction reads the
committed state together with its own writes, its writes reach the others when it
commits, and a row it has locked is locked until then.

- `World.next`: one statement of one session. A statement that has to wait for a lock is
  not enabled; the database may abort a transaction at any point.
- `Discipline`: what a commit may do to the state (`trans`), and what the lock of a row
  protects (`frame`). Between two statements of a transaction the others commit as the
  discipline says and leave the rows it has locked alone (`rely`); what it commits itself
  must be such a step (`guar`).
- `Block.wp` and `Call.Safe`: the obligations of a transaction and of a call, computed
  from the program. `World.refines`: calls that meet them take the database through
  steps of `trans` only, whatever the interleaving.
-/

namespace ArkanGold

/-- Where a call stands: between two transactions, or inside one with the rows it has
locked and the writes it has not committed. -/
inductive Session (ε R L σ α : Type) : Type 1 where
  | idle (c : Call ε R L σ α)
  | busy {β : Type} (b : Block ε R L σ β) (held : List R) (pend : σ → σ)
      (k : Except ε β → Call ε R L σ α)

/-- The committed state and the sessions, each with its request. -/
structure World (Q ε R L σ α : Type) : Type 1 where
  db : σ
  sessions : List (Q × Session ε R L σ α)

/-- What can happen to a world. -/
inductive WorldEvent (Q ε σ : Type) where
  /-- a request arrives -/
  | start (q : Q)
  /-- a session executes its next statement -/
  | advance (i : ℕ)
  /-- the database aborts the transaction of a session -/
  | abort (i : ℕ) (e : ε)
  /-- the surroundings change the state -/
  | outside (s : σ)

section Semantics

variable {Q ε R L σ α : Type} [DecidableEq R] [Supply σ] [History L σ]

/-- The rows a session has locked. -/
def Session.held : Session ε R L σ α → List R
  | .idle _ => []
  | .busy _ held _ _ => held

/-- The next statement of a session; `free` tells whether a row is not locked by
another. -/
def Session.next (free : R → Bool) (s : σ) :
    Session ε R L σ α → Option (σ × Session ε R L σ α)
  | .idle (.done _) => none
  | .idle (.tx b k) => some (s, .busy b [] id k)
  | .busy (.done a) _ pend k => some (pend s, .idle (k (.ok a)))
  | .busy (.fail e) _ _ k => some (s, .idle (k (.error e)))
  | .busy (.lockThen r b) held pend k =>
    if free r then some (s, .busy b (r :: held) pend k) else none
  | .busy (.readThen f) held pend k => some (s, .busy (f (pend s)) held pend k)
  | .busy (.writeThen g b) held pend k => some (s, .busy b held (g ∘ pend) k)
  | .busy (.freshThen f) held pend k =>
    some (Supply.bump s, .busy (f (Supply.next s)) held pend k)
  | .busy (.markThen l b) held pend k =>
    some (s, .busy b held (History.record l ∘ pend) k)

/-- No session but the `i`-th has locked the row. -/
def World.free (w : World Q ε R L σ α) (i : ℕ) (r : R) : Bool :=
  (w.sessions.eraseIdx i).all fun x => !x.2.held.contains r

/-- The world after an event; `serve` is the service. -/
def World.next (serve : Q → Call ε R L σ α) (w : World Q ε R L σ α) :
    WorldEvent Q ε σ → Option (World Q ε R L σ α)
  | .start q => some { w with sessions := w.sessions ++ [(q, .idle (serve q))] }
  | .advance i =>
    match w.sessions[i]? with
    | none => none
    | some (q, x) =>
      (x.next (w.free i) w.db).map fun (s, x') =>
        { db := s, sessions := w.sessions.set i (q, x') }
  | .abort i e =>
    match w.sessions[i]? with
    | some (q, .busy _ _ _ k) => some { w with sessions := w.sessions.set i (q, .idle (k (.error e))) }
    | _ => none
  | .outside s => some { w with db := s }

/-- One step: an event, with the surroundings restricted to `env`. -/
def World.Step (serve : Q → Call ε R L σ α) (env : σ → σ → Prop) (w : World Q ε R L σ α)
    (e : WorldEvent Q ε σ) (w' : World Q ε R L σ α) : Prop :=
  w.next serve e = some w' ∧ ∀ s, e = .outside s → env w.db s

/-- A mark passed in this step meets the condition, on the state as its transaction
sees it. -/
def World.Allowed (cond : L → σ → Prop) (w : World Q ε R L σ α) : WorldEvent Q ε σ → Prop
  | .advance i =>
    match w.sessions[i]? with
    | some (_, .busy (.markThen l _) _ pend _) => cond l (pend w.db)
    | _ => True
  | _ => True

omit [DecidableEq R] [Supply σ] [History L σ] in
/-- Without marks every event is allowed. -/
theorem World.allowed_of_empty {cond : Empty → σ → Prop}
    (w : World Q ε R Empty σ α) (e : WorldEvent Q ε σ) : w.Allowed cond e := by
  unfold World.Allowed
  split
  · split
    · rename_i l _ _ _ _ _
      exact l.elim
    · trivial
  · trivial

/-- Play a list of events. -/
def World.play (serve : Q → Call ε R L σ α) (w : World Q ε R L σ α) :
    List (WorldEvent Q ε σ) → Option (World Q ε R L σ α)
  | [] => some w
  | e :: es => (w.next serve e).bind fun w' => w'.play serve es

/-- What was played is a run, as long as the surroundings took no part. -/
theorem World.runs_of_play {serve : Q → Call ε R L σ α} {env : σ → σ → Prop}
    {ok : World Q ε R L σ α → WorldEvent Q ε σ → Prop} {es : List (WorldEvent Q ε σ)}
    {w w' : World Q ε R L σ α} (h : w.play serve es = some w')
    (hinside : ∀ e ∈ es, ∀ s, e ≠ .outside s) (hok : ∀ v e, e ∈ es → ok v e) :
    Runs (World.Step serve env) ok w w' := by
  induction es generalizing w with
  | nil =>
    cases h
    exact Runs.refl
  | cons e es ih =>
    obtain ⟨v, hv, hrest⟩ := Option.bind_eq_some_iff.mp h
    have hstep : World.Step serve env w e v :=
      ⟨hv, fun s hs => absurd hs (hinside e (List.mem_cons_self ..) s)⟩
    exact (Runs.single (hok w e (List.mem_cons_self ..)) hstep).trans
      (ih hrest (fun e he => hinside e (List.mem_cons_of_mem _ he))
        fun v e he => hok v e (List.mem_cons_of_mem _ he))

/-- The mark that a session passes next, if any, meets a condition that can be computed. -/
def Session.allows (cond : L → σ → Bool) (s : σ) : Session ε R L σ α → Bool
  | .busy (.markThen l _) _ pend _ => cond l (pend s)
  | _ => true

/-- A mark passed with this event meets the condition. -/
def World.allows (cond : L → σ → Bool) (w : World Q ε R L σ α) : WorldEvent Q ε σ → Bool
  | .advance i => w.sessions[i]?.all fun x => x.2.allows cond w.db
  | _ => true

omit [DecidableEq R] [Supply σ] [History L σ] in
theorem World.allowed_of_allows {cond : L → σ → Prop} {test : L → σ → Bool}
    (htest : ∀ l s, test l s = true → cond l s) {w : World Q ε R L σ α} {e : WorldEvent Q ε σ}
    (h : w.allows test e = true) : w.Allowed cond e := by
  unfold World.Allowed
  split
  · split
    · rename_i hget
      simp only [World.allows, hget, Option.all_some, Session.allows] at h
      exact htest _ _ h
    · trivial
  · trivial

/-- Play a list of events as long as the marks passed meet the condition. -/
def World.playAllowed (serve : Q → Call ε R L σ α) (cond : L → σ → Bool)
    (w : World Q ε R L σ α) : List (WorldEvent Q ε σ) → Option (World Q ε R L σ α)
  | [] => some w
  | e :: es =>
    if w.allows cond e then (w.next serve e).bind fun w' => w'.playAllowed serve cond es else none

theorem World.runs_of_playAllowed {serve : Q → Call ε R L σ α} {env : σ → σ → Prop}
    {cond : L → σ → Prop} {test : L → σ → Bool} (htest : ∀ l s, test l s = true → cond l s)
    {es : List (WorldEvent Q ε σ)} {w w' : World Q ε R L σ α}
    (h : w.playAllowed serve test es = some w') (hinside : ∀ e ∈ es, ∀ s, e ≠ .outside s) :
    Runs (World.Step serve env) (World.Allowed cond) w w' := by
  induction es generalizing w with
  | nil =>
    cases h
    exact Runs.refl
  | cons e es ih =>
    rw [World.playAllowed] at h
    split at h
    · rename_i hallows
      obtain ⟨v, hv, hrest⟩ := Option.bind_eq_some_iff.mp h
      have hstep : World.Step serve env w e v :=
        ⟨hv, fun s hs => absurd hs (hinside e (List.mem_cons_self ..) s)⟩
      exact (Runs.single (World.allowed_of_allows htest hallows) hstep).trans
        (ih hrest fun e he => hinside e (List.mem_cons_of_mem _ he))
    · cases h

omit [DecidableEq R] [Supply σ] [History L σ] in
/-- A statement changes the session that executes it and no other. -/
theorem mem_sessions_set {l : List (Q × Session ε R L σ α)} {i : ℕ}
    {x : Q × Session ε R L σ α} {j : ℕ} {y : Q × Session ε R L σ α}
    (h : (l.set i x)[j]? = some y) : (j = i ∧ y = x) ∨ (j ≠ i ∧ l[j]? = some y) := by
  rw [List.getElem?_set] at h
  split at h
  · rename_i hij
    split at h
    · cases h
      exact .inl ⟨hij.symm, rfl⟩
    · cases h
  · rename_i hij
    exact .inr ⟨Ne.symm hij, h⟩

end Semantics

/-! ## Disciplines -/

/-- What sessions may rely on: the steps that commits take, and what stays the same as
long as a row is locked. -/
structure Discipline (R L σ : Type) where
  trans : σ → σ → Prop
  frame : R → σ → σ → Prop
  cond : L → σ → Prop
  trans_refl : ∀ s, trans s s
  frame_refl : ∀ r s, frame r s s
  frame_trans : ∀ r s s' s'', frame r s s' → frame r s' s'' → frame r s s''

namespace Discipline

variable {R L σ : Type} (D : Discipline R L σ)

/-- What the others can do while the rows `held` are locked. -/
def rely (held : List R) : σ → σ → Prop :=
  Relation.ReflTransGen fun s s' => D.trans s s' ∧ ∀ r ∈ held, D.frame r s s'

/-- What a transaction that has locked the rows `held` may commit. -/
def guar (held : List R) (s s' : σ) : Prop := D.trans s s' ∧ ∀ r, r ∉ held → D.frame r s s'

variable {D} {held held' : List R} {s s' s'' : σ}

theorem rely_refl : D.rely held s s := Relation.ReflTransGen.refl

theorem rely_trans (h : D.rely held s s') (h' : D.rely held s' s'') : D.rely held s s'' :=
  Relation.ReflTransGen.trans h h'

theorem rely_step (ht : D.trans s s') (hf : ∀ r ∈ held, D.frame r s s') : D.rely held s s' :=
  Relation.ReflTransGen.single ⟨ht, hf⟩

/-- With fewer rows locked, less can be relied on. -/
theorem rely_mono (hsub : ∀ r ∈ held, r ∈ held') (h : D.rely held' s s') : D.rely held s s' :=
  Relation.ReflTransGen.mono (fun _ _ ⟨ht, hf⟩ => ⟨ht, fun r hr => hf r (hsub r hr)⟩) _ _ h

/-- A locked row keeps what its lock protects. -/
theorem rely_frame {r : R} (h : D.rely held s s') (hr : r ∈ held) : D.frame r s s' := by
  induction h with
  | refl => exact D.frame_refl r s
  | tail _ hlast ih => exact D.frame_trans r _ _ _ ih (hlast.2 r hr)

theorem rely_run (h : D.rely held s s') : Relation.ReflTransGen D.trans s s' :=
  Relation.ReflTransGen.mono (fun _ _ h => h.1) _ _ h

/-- A relation that every step respects holds between the ends of a run. -/
theorem rely_of {P : σ → σ → Prop} (hrefl : ∀ s, P s s)
    (htrans : ∀ a b c, P a b → P b c → P a c) (hstep : ∀ a b, D.trans a b → P a b)
    (h : D.rely held s s') : P s s' := by
  induction h with
  | refl => exact hrefl s
  | tail _ hlast ih => exact htrans _ _ _ ih (hstep _ _ hlast.1)

end Discipline

/-! ## The obligations of a transaction -/

namespace Block

variable {ε R L σ α β : Type} [Supply σ] [History L σ] (D : Discipline R L σ)

/-- The block, with the rows `held` locked and the writes `pend` pending, comes to its
end only as `post` says, whatever the others do in between. -/
def wp : Block ε R L σ α → List R → (σ → σ) → (α → List R → (σ → σ) → σ → Prop) → σ → Prop
  | done a, held, pend, post, s => post a held pend s
  | fail _, _, _, _, _ => True
  | lockThen r k, held, pend, post, s =>
    ∀ s', D.rely held s s' → k.wp (r :: held) pend post s'
  | readThen f, held, pend, post, s =>
    ∀ s', D.rely held s s' → (f (pend s')).wp held pend post s'
  | writeThen g k, held, pend, post, s => k.wp held (g ∘ pend) post s
  | freshThen f, held, pend, post, s =>
    ∀ s', D.rely held s s' → (f (Supply.next s')).wp held pend post (Supply.bump s')
  | markThen l k, held, pend, post, s =>
    ∀ s', D.rely held s s' → D.cond l (pend s') → k.wp held (History.record l ∘ pend) post s'

variable {D} {held : List R} {pend : σ → σ} {s : σ}

@[simp] theorem wp_pure {a : α} {post : α → List R → (σ → σ) → σ → Prop} :
    (pure a : Block ε R L σ α).wp D held pend post s ↔ post a held pend s := Iff.rfl

@[simp] theorem wp_fail {e : ε} {post : α → List R → (σ → σ) → σ → Prop} :
    (fail e : Block ε R L σ α).wp D held pend post s ↔ True := Iff.rfl

@[simp] theorem wp_lock {r : R} {post : Unit → List R → (σ → σ) → σ → Prop} :
    (lock r : Block ε R L σ Unit).wp D held pend post s ↔
      ∀ s', D.rely held s s' → post () (r :: held) pend s' := Iff.rfl

@[simp] theorem wp_get {post : σ → List R → (σ → σ) → σ → Prop} :
    (get : Block ε R L σ σ).wp D held pend post s ↔
      ∀ s', D.rely held s s' → post (pend s') held pend s' := Iff.rfl

@[simp] theorem wp_write {g : σ → σ} {post : Unit → List R → (σ → σ) → σ → Prop} :
    (write g : Block ε R L σ Unit).wp D held pend post s ↔ post () held (g ∘ pend) s := Iff.rfl

@[simp] theorem wp_fresh {post : ℕ → List R → (σ → σ) → σ → Prop} :
    (fresh : Block ε R L σ ℕ).wp D held pend post s ↔
      ∀ s', D.rely held s s' → post (Supply.next s') held pend (Supply.bump s') := Iff.rfl

@[simp] theorem wp_mark {l : L} {post : Unit → List R → (σ → σ) → σ → Prop} :
    (mark l : Block ε R L σ Unit).wp D held pend post s ↔
      ∀ s', D.rely held s s' → D.cond l (pend s') →
        post () held (History.record l ∘ pend) s' := Iff.rfl

@[simp] theorem wp_check {c : Bool} {e : ε} {post : Unit → List R → (σ → σ) → σ → Prop} :
    (check c e : Block ε R L σ Unit).wp D held pend post s ↔ (c = true → post () held pend s) := by
  cases c with
  | false => simp [check]
  | true => simp [check]

@[simp] theorem wp_getOrFail {o : Option α} {e : ε} {post : α → List R → (σ → σ) → σ → Prop} :
    (getOrFail o e : Block ε R L σ α).wp D held pend post s ↔
      ∀ a, o = some a → post a held pend s := by
  cases o with
  | none => simp [getOrFail]
  | some b => simp [getOrFail]

@[simp] theorem wp_ofExcept {r : Except ε α} {post : α → List R → (σ → σ) → σ → Prop} :
    (ofExcept r : Block ε R L σ α).wp D held pend post s ↔
      ∀ a, r = .ok a → post a held pend s := by
  cases r with
  | error e => simp [ofExcept]
  | ok b => simp [ofExcept]

theorem wp_ite {c : Prop} [Decidable c] {x y : Block ε R L σ α}
    {post : α → List R → (σ → σ) → σ → Prop} :
    (if c then x else y).wp D held pend post s ↔
      (c → x.wp D held pend post s) ∧ (¬c → y.wp D held pend post s) := by
  by_cases hc : c <;> simp [hc]

/-- The rule for sequencing. -/
@[simp] theorem wp_bind {x : Block ε R L σ α} {f : α → Block ε R L σ β}
    {post : β → List R → (σ → σ) → σ → Prop} :
    (x >>= f).wp D held pend post s ↔
      x.wp D held pend (fun a held pend s => (f a).wp D held pend post s) s := by
  show (x.bind f).wp D held pend post s ↔ _
  induction x generalizing held pend s with
  | done a => exact Iff.rfl
  | fail e => exact Iff.rfl
  | lockThen r k ih => exact forall_congr' fun s' => imp_congr_right fun _ => ih
  | readThen k ih => exact forall_congr' fun s' => imp_congr_right fun _ => ih _
  | writeThen g k ih => exact ih
  | freshThen k ih => exact forall_congr' fun s' => imp_congr_right fun _ => ih _
  | markThen l k ih =>
    exact forall_congr' fun s' => imp_congr_right fun _ => imp_congr_right fun _ => ih

/-- The rule of consequence. -/
theorem wp_mono {x : Block ε R L σ α} {post post' : α → List R → (σ → σ) → σ → Prop}
    (himp : ∀ a held pend s, post a held pend s → post' a held pend s)
    (h : x.wp D held pend post s) : x.wp D held pend post' s := by
  induction x generalizing held pend s with
  | done a => exact himp a held pend s h
  | fail e => trivial
  | lockThen r k ih => exact fun s' hs' => ih (h s' hs')
  | readThen k ih => exact fun s' hs' => ih _ (h s' hs')
  | writeThen g k ih => exact ih h
  | freshThen k ih => exact fun s' hs' => ih _ (h s' hs')
  | markThen l k ih => exact fun s' hs' hc => ih (h s' hs' hc)

/-- What the others do does not hurt, as long as the postcondition puts up with it. -/
theorem wp_stable {x : Block ε R L σ α} {post : α → List R → (σ → σ) → σ → Prop}
    (hpost : ∀ a held pend s s', post a held pend s → D.rely held s s' → post a held pend s')
    {s' : σ} (h : x.wp D held pend post s) (hrely : D.rely held s s') :
    x.wp D held pend post s' := by
  induction x generalizing pend with
  | done a => exact hpost a held pend s s' h hrely
  | fail e => trivial
  | lockThen r k ih => exact fun t ht => h t (Discipline.rely_trans hrely ht)
  | readThen k ih => exact fun t ht => h t (Discipline.rely_trans hrely ht)
  | writeThen g k ih => exact ih h
  | freshThen k ih => exact fun t ht => h t (Discipline.rely_trans hrely ht)
  | markThen l k ih => exact fun t ht => h t (Discipline.rely_trans hrely ht)

/-- What nobody can undo may be assumed at the end. -/
theorem wp_and_stable {P : σ → Prop} (hstable : ∀ held s s', P s → D.rely held s s' → P s')
    (hbump : ∀ s, P s → P (Supply.bump s)) {x : Block ε R L σ α}
    {post : α → List R → (σ → σ) → σ → Prop} (hs : P s) (h : x.wp D held pend post s) :
    x.wp D held pend (fun a held pend s => P s ∧ post a held pend s) s := by
  induction x generalizing held pend s with
  | done a => exact ⟨hs, h⟩
  | fail e => trivial
  | lockThen r k ih => exact fun t ht => ih (hstable _ _ _ hs ht) (h t ht)
  | readThen k ih => exact fun t ht => ih _ (hstable _ _ _ hs ht) (h t ht)
  | writeThen g k ih => exact ih hs h
  | freshThen k ih => exact fun t ht => ih _ (hbump _ (hstable _ _ _ hs ht)) (h t ht)
  | markThen l k ih => exact fun t ht hc => ih (hstable _ _ _ hs ht) (h t ht hc)

/-- Locking rows one after the other. -/
theorem wp_lockAll {rs : List R} {post : Unit → List R → (σ → σ) → σ → Prop}
    (h : ∀ s', D.rely held s s' → post () (rs.reverse ++ held) pend s') :
    (lockAll rs : Block ε R L σ Unit).wp D held pend post s := by
  induction rs generalizing held s with
  | nil => exact h s Discipline.rely_refl
  | cons r rs ih =>
    simp only [lockAll, wp_bind, wp_lock]
    intro s₁ h₁
    refine ih fun s₂ h₂ => ?_
    have h₂' : D.rely held s₁ s₂ :=
      Discipline.rely_mono (fun r hr => List.mem_cons_of_mem _ hr) h₂
    have := h s₂ (Discipline.rely_trans h₁ h₂')
    rwa [List.reverse_cons, List.append_assoc, List.singleton_append] at this

end Block

/-! ## The obligations of a call -/

namespace Call

variable {ε R L σ α β : Type} [Supply σ] [History L σ] (D : Discipline R L σ)

/-- Every transaction of the call commits as the discipline says, and its outcome is one
that `Q` admits for good. -/
def Safe (Q : Except ε α → σ → Prop) : Call ε R L σ α → σ → Prop
  | done r, s => ∀ s', D.rely [] s s' → Q r s'
  | tx b k, s =>
    (∀ s', D.rely [] s s' → b.wp D [] id (fun a held pend s => ∀ s', D.rely held s s' →
      D.guar held s' (pend s') ∧ (k (.ok a)).Safe Q (pend s')) s') ∧
    ∀ e s', D.rely [] s s' → (k (.error e)).Safe Q s'

variable {D} {Q : Except ε α → σ → Prop} {s : σ}

theorem safe_stable {c : Call ε R L σ α} {s' : σ} (h : c.Safe D Q s)
    (hrely : D.rely [] s s') : c.Safe D Q s' := by
  cases c with
  | done r => exact fun t ht => h t (Discipline.rely_trans hrely ht)
  | tx b k =>
    exact ⟨fun t ht => h.1 t (Discipline.rely_trans hrely ht),
      fun e t ht => h.2 e t (Discipline.rely_trans hrely ht)⟩

theorem safe_pure {a : α} (h : ∀ s', D.rely [] s s' → Q (.ok a) s') :
    (pure a : Call ε R L σ α).Safe D Q s := h

theorem safe_fail {e : ε} (h : ∀ s', D.rely [] s s' → Q (.error e) s') :
    (fail e : Call ε R L σ α).Safe D Q s := h

/-- The rule of consequence. -/
theorem safe_mono {c : Call ε R L σ α} {Q' : Except ε α → σ → Prop}
    (himp : ∀ r s, Q r s → Q' r s) (h : c.Safe D Q s) : c.Safe D Q' s := by
  induction c generalizing s with
  | done r => exact fun s' hs' => himp r s' (h s' hs')
  | tx b k ih =>
    refine ⟨fun s' hs' => Block.wp_mono ?_ (h.1 s' hs'), fun e s' hs' => ih _ (h.2 e s' hs')⟩
    intro a held pend t hpost t' ht'
    exact ⟨(hpost t' ht').1, ih _ (hpost t' ht').2⟩

/-- The rule for sequencing. -/
theorem safe_bind {c : Call ε R L σ β} {f : β → Call ε R L σ α}
    (h : c.Safe D (fun r s => match r with
      | .ok a => (f a).Safe D Q s
      | .error e => Q (.error e) s) s) : (c >>= f).Safe D Q s := by
  show (c.bind f).Safe D Q s
  induction c generalizing s with
  | done r =>
    cases r with
    | ok a => exact h s Discipline.rely_refl
    | error e => exact h
  | tx b k ih =>
    refine ⟨fun s' hs' => Block.wp_mono ?_ (h.1 s' hs'), fun e s' hs' => ih _ (h.2 e s' hs')⟩
    intro a held pend t hpost t' ht'
    exact ⟨(hpost t' ht').1, ih _ (hpost t' ht').2⟩

/-- An attempt ends well with whatever outcome the call has. -/
theorem safe_attempt {c : Call ε R L σ β} {Q : Except ε (Except ε β) → σ → Prop}
    (h : c.Safe D (fun r s => Q (.ok r) s) s) : c.attempt.Safe D Q s := by
  induction c generalizing s with
  | done r => exact h
  | tx b k ih =>
    refine ⟨fun s' hs' => Block.wp_mono ?_ (h.1 s' hs'), fun e s' hs' => ih _ (h.2 e s' hs')⟩
    intro a held pend t hpost t' ht'
    exact ⟨(hpost t' ht').1, ih _ (hpost t' ht').2⟩

/-- A transaction: it commits as the discipline says, with an outcome for good. -/
theorem safe_transaction {b : Block ε R L σ α} {f : ε → ε}
    (h : ∀ s', D.rely [] s s' → b.wp D [] id (fun a held pend s => ∀ s', D.rely held s s' →
      D.guar held s' (pend s') ∧ ∀ s'', D.rely [] (pend s') s'' → Q (.ok a) s'') s')
    (herr : ∀ e s', D.rely [] s s' → Q (.error e) s') : (transaction b f).Safe D Q s :=
  ⟨h, fun e _ hs' t ht => herr (f e) t (Discipline.rely_trans hs' ht)⟩

theorem safe_check {c : Bool} {e : ε} {Q : Except ε Unit → σ → Prop}
    (hok : c = true → ∀ s', D.rely [] s s' → Q (.ok ()) s')
    (herr : ∀ s', D.rely [] s s' → Q (.error e) s') :
    (check c e : Call ε R L σ Unit).Safe D Q s := by
  cases c with
  | false => exact herr
  | true => exact hok rfl

theorem safe_getOrFail {o : Option α} {e : ε}
    (hok : ∀ a, o = some a → ∀ s', D.rely [] s s' → Q (.ok a) s')
    (herr : ∀ s', D.rely [] s s' → Q (.error e) s') :
    (getOrFail o e : Call ε R L σ α).Safe D Q s := by
  cases o with
  | none => exact herr
  | some a => exact hok a rfl

/-- A check throws, or what follows may rely on it. -/
theorem safe_check_bind {c : Bool} {e : ε} {f : Unit → Call ε R L σ α}
    (herr : ∀ s', D.rely [] s s' → Q (.error e) s') (hok : c = true → (f ()).Safe D Q s) :
    (check c e >>= f).Safe D Q s := by
  cases c with
  | false => exact herr
  | true => exact hok rfl

theorem safe_getOrFail_bind {o : Option β} {e : ε} {f : β → Call ε R L σ α}
    (herr : ∀ s', D.rely [] s s' → Q (.error e) s')
    (hok : ∀ b, o = some b → (f b).Safe D Q s) : (getOrFail o e >>= f).Safe D Q s := by
  cases o with
  | none => exact herr
  | some b => exact hok b rfl

theorem safe_ofExcept_bind {r : Except ε β} {f : β → Call ε R L σ α}
    (herr : ∀ e s', D.rely [] s s' → Q (.error e) s') (hok : ∀ b, r = .ok b → (f b).Safe D Q s) :
    (ofExcept r >>= f).Safe D Q s := by
  cases r with
  | error e => exact herr e
  | ok b => exact hok b rfl

/-- What a statement of its own has read was true a moment ago. -/
theorem safe_get_bind {f : σ → Call ε R L σ α}
    (herr : ∀ e s', D.rely [] s s' → Q (.error e) s')
    (h : ∀ t s', D.rely [] s t → D.rely [] t s' → (f t).Safe D Q s') :
    (transaction Block.get >>= f).Safe D Q s := by
  refine safe_bind (safe_transaction ?_ fun e t ht => herr e t ht)
  intro s₁ h₁ s₂ h₂ s₃ h₃
  refine ⟨⟨D.trans_refl _, fun r _ => D.frame_refl r _⟩, fun s₄ h₄ => ?_⟩
  exact h s₂ s₄ (Discipline.rely_trans h₁ h₂) (Discipline.rely_trans h₃ h₄)

/-- A loop of calls that each keep to what is known when they start. -/
theorem safe_forEach {f : β → Call ε R L σ Unit} {P : σ → Prop}
    (hstable : ∀ s s', P s → D.rely [] s s' → P s') {l : List β}
    (h : ∀ b ∈ l, ∀ s, P s → (f b).Safe D (fun _ => P) s) (hs : P s) :
    (forEach f l).Safe D (fun _ => P) s := by
  induction l generalizing s with
  | nil => exact fun s' hs' => hstable s s' hs hs'
  | cons b l ih =>
    refine safe_bind (safe_mono (fun r t ht => ?_) (h b (List.mem_cons_self ..) s hs))
    cases r with
    | error e => exact ht
    | ok u => exact ih (fun b hb => h b (List.mem_cons_of_mem _ hb)) ht

end Call

/-! ## Every interleaving -/

section Refinement

variable {Q ε R L σ α : Type} [DecidableEq R] [Supply σ] [History L σ]
variable (D : Discipline R L σ) (outcome : Q → Except ε α → σ → Prop)

/-- The obligations of a session in the middle of its call. -/
def Session.Safe (Q : Except ε α → σ → Prop) : Session ε R L σ α → σ → Prop
  | .idle c, s => c.Safe D Q s
  | .busy b held pend k, s =>
    b.wp D held pend (fun a held pend s => ∀ s', D.rely held s s' →
      D.guar held s' (pend s') ∧ (k (.ok a)).Safe D Q (pend s')) s ∧
    ∀ e s', D.rely [] s s' → (k (.error e)).Safe D Q s'

/-- No row is locked by two sessions. -/
def World.Exclusive (w : World Q ε R L σ α) : Prop :=
  ∀ (i j : ℕ) (x y : Q × Session ε R L σ α), w.sessions[i]? = some x →
    w.sessions[j]? = some y → i ≠ j → ∀ r ∈ x.2.held, r ∉ y.2.held

/-- The invariant of the worlds that are reached. -/
structure World.Inv (w : World Q ε R L σ α) : Prop where
  exclusive : w.Exclusive
  safe : ∀ x ∈ w.sessions, x.2.Safe D (outcome x.1) w.db

variable {D outcome}

omit [DecidableEq R] in
theorem Session.safe_stable {P : Except ε α → σ → Prop} {x : Session ε R L σ α} {s s' : σ}
    (h : x.Safe D P s) (hrely : D.rely x.held s s') : x.Safe D P s' := by
  cases x with
  | idle c => exact Call.safe_stable h hrely
  | busy b held pend k =>
    refine ⟨Block.wp_stable ?_ h.1 hrely, fun e t ht => h.2 e t ?_⟩
    · intro a held pend t t' hpost ht t'' ht''
      exact hpost t'' (Discipline.rely_trans ht ht'')
    · exact Discipline.rely_trans (Discipline.rely_mono (by simp) hrely) ht

omit [Supply σ] [History L σ] in
theorem World.free_eq_true {w : World Q ε R L σ α} {i j : ℕ} {r : R}
    {y : Q × Session ε R L σ α} (h : w.free i r = true) (hy : w.sessions[j]? = some y)
    (hij : j ≠ i) : r ∉ y.2.held := by
  unfold World.free at h
  rw [List.all_eq_true] at h
  have hmem : y ∈ w.sessions.eraseIdx i := List.mem_eraseIdx_iff_getElem?.mpr ⟨j, hij, hy⟩
  simpa using h y hmem

omit [Supply σ] [History L σ] in
/-- A session that replaces its predecessor keeps the locks exclusive if it has locked
nothing that was not free. -/
theorem World.exclusive_set {w : World Q ε R L σ α} (hex : w.Exclusive) {i : ℕ} {q : Q}
    {x y : Session ε R L σ α} (hx : w.sessions[i]? = some (q, x))
    (hheld : ∀ r ∈ y.held, r ∈ x.held ∨ w.free i r = true) (db : σ) :
    World.Exclusive { db := db, sessions := w.sessions.set i (q, y) } := by
  show ∀ (a b : ℕ) (u v : Q × Session ε R L σ α), (w.sessions.set i (q, y))[a]? = some u →
    (w.sessions.set i (q, y))[b]? = some v → a ≠ b → ∀ r ∈ u.2.held, r ∉ v.2.held
  intro a b u v hu hv hab r hr hr'
  rcases mem_sessions_set hu with ⟨rfl, rfl⟩ | ⟨ha, hu₀⟩
  · rcases mem_sessions_set hv with ⟨rfl, -⟩ | ⟨hb, hv₀⟩
    · exact hab rfl
    · rcases hheld r hr with h | h
      · exact hex a b _ _ hx hv₀ hab r h hr'
      · exact World.free_eq_true h hv₀ hb hr'
  · rcases mem_sessions_set hv with ⟨rfl, rfl⟩ | ⟨-, hv⟩
    · rcases hheld r hr' with h | h
      · exact hex a b _ _ hu₀ hx hab r hr h
      · exact World.free_eq_true h hu₀ ha hr
    · exact hex a b _ _ hu₀ hv hab r hr hr'

/-- A session that executes a statement: the invariant is kept if the session meets its
obligations afterwards, and the state moved as the others may rely on. -/
theorem World.inv_set {w : World Q ε R L σ α} (hinv : w.Inv D outcome) {i : ℕ} {q : Q}
    {x y : Session ε R L σ α} (hx : w.sessions[i]? = some (q, x))
    (hheld : ∀ r ∈ y.held, r ∈ x.held ∨ w.free i r = true) {db : σ}
    (hsafe : y.Safe D (outcome q) db)
    (hrely : ∀ held : List R, (∀ r ∈ held, r ∉ x.held) → D.rely held w.db db) :
    World.Inv D outcome { db := db, sessions := w.sessions.set i (q, y) } := by
  refine ⟨World.exclusive_set hinv.exclusive hx hheld db, fun z hz => ?_⟩
  obtain ⟨j, hj⟩ := List.mem_iff_getElem?.mp hz
  rcases mem_sessions_set hj with ⟨-, rfl⟩ | ⟨hij, hj⟩
  · exact hsafe
  · have hex : ∀ (i j : ℕ) (x y : Q × Session ε R L σ α), w.sessions[i]? = some x →
        w.sessions[j]? = some y → i ≠ j → ∀ r ∈ x.2.held, r ∉ y.2.held := hinv.exclusive
    refine Session.safe_stable (hinv.safe z (List.mem_of_getElem? hj)) (hrely _ fun r hr hr' => ?_)
    exact hex j i _ _ hj hx hij r hr hr'

variable {serve : Q → Call ε R L σ α} {env : σ → σ → Prop}

/-- **Step lemma**: a statement of any session keeps the invariant, and the database
takes a step of the discipline. -/
theorem World.inv_step {w w' : World Q ε R L σ α} {e : WorldEvent Q ε σ}
    (hbump : ∀ s, D.trans s (Supply.bump s) ∧ ∀ r, D.frame r s (Supply.bump s))
    (henv : ∀ s s', env s s' → D.trans s s' ∧ ∀ r, D.frame r s s')
    (hserve : ∀ q, (serve q).Safe D (outcome q) w.db) (hinv : w.Inv D outcome)
    (hallowed : w.Allowed D.cond e) (hstep : w.Step serve env e w') :
    w'.Inv D outcome ∧ D.trans w.db w'.db := by
  obtain ⟨hnext, hout⟩ := hstep
  cases e with
  | start q =>
    cases hnext
    refine ⟨⟨?_, ?_⟩, D.trans_refl _⟩
    · -- the new session holds no lock
      have hnew : ∀ (j : ℕ) (x : Q × Session ε R L σ α),
          (w.sessions ++ [(q, .idle (serve q))])[j]? = some x →
          w.sessions[j]? = some x ∨ x.2.held = [] := by
        intro j x hj
        rw [List.getElem?_append] at hj
        split at hj
        · exact .inl hj
        · have hmem := List.mem_of_getElem? hj
          rw [List.mem_singleton] at hmem
          subst hmem
          exact .inr rfl
      intro i j x y hx hy hij r hr hr'
      rcases hnew i x hx with hx | hx
      · rcases hnew j y hy with hy | hy
        · exact hinv.exclusive i j x y hx hy hij r hr hr'
        · simp [hy] at hr'
      · simp [hx] at hr
    · intro x hx
      rcases List.mem_append.mp hx with hx | hx
      · exact hinv.safe x hx
      · rw [List.mem_singleton] at hx
        subst hx
        exact hserve q
  | outside s =>
    cases hnext
    obtain ⟨htrans, hframe⟩ := henv _ _ (hout s rfl)
    refine ⟨⟨fun i j x y => hinv.exclusive i j x y, fun x hx => ?_⟩, htrans⟩
    exact Session.safe_stable (hinv.safe x hx)
      (Discipline.rely_step htrans fun r _ => hframe r)
  | abort i e =>
    simp only [World.next] at hnext
    cases hi : w.sessions[i]? with
    | none =>
      rw [hi] at hnext
      cases hnext
    | some qx =>
      obtain ⟨q, x⟩ := qx
      rw [hi] at hnext
      cases x with
      | idle c => cases hnext
      | busy b held pend k =>
        cases hnext
        have hsafe := hinv.safe _ (List.mem_of_getElem? hi)
        exact ⟨World.inv_set hinv hi (by simp [Session.held])
          (hsafe.2 e _ Discipline.rely_refl) fun _ _ => Discipline.rely_refl, D.trans_refl _⟩
  | advance i =>
    simp only [World.next] at hnext
    simp only [World.Allowed] at hallowed
    cases hi : w.sessions[i]? with
    | none =>
      rw [hi] at hnext
      cases hnext
    | some qx =>
      obtain ⟨q, x⟩ := qx
      rw [hi] at hnext hallowed
      have hsafe : x.Safe D (outcome q) w.db := hinv.safe _ (List.mem_of_getElem? hi)
      cases x with
      | idle c =>
        cases c with
        | done r => cases hnext
        | tx b k =>
          cases hnext
          refine ⟨World.inv_set hinv hi (by simp [Session.held]) ?_
            fun _ _ => Discipline.rely_refl, D.trans_refl _⟩
          exact ⟨hsafe.1 _ Discipline.rely_refl, hsafe.2⟩
      | busy b held pend k =>
        obtain ⟨hwp, herr⟩ := hsafe
        cases b with
        | done a =>
          cases hnext
          -- commit: the others see the pending writes, on rows they have not locked
          obtain ⟨⟨htrans, hframe⟩, hk⟩ := hwp _ Discipline.rely_refl
          refine ⟨World.inv_set hinv hi (by simp [Session.held]) hk ?_, htrans⟩
          exact fun held' hd => Discipline.rely_step htrans fun r hr => hframe r (hd r hr)
        | fail e =>
          cases hnext
          exact ⟨World.inv_set hinv hi (by simp [Session.held]) (herr e _ Discipline.rely_refl)
            fun _ _ => Discipline.rely_refl, D.trans_refl _⟩
        | lockThen r b =>
          simp only [Session.next] at hnext
          split at hnext
          · rename_i hfree
            cases hnext
            refine ⟨World.inv_set hinv hi ?_ ⟨hwp _ Discipline.rely_refl, herr⟩
              fun _ _ => Discipline.rely_refl, D.trans_refl _⟩
            intro r' hr'
            rcases List.mem_cons.mp hr' with rfl | hr'
            · exact .inr hfree
            · exact .inl hr'
          · cases hnext
        | readThen f =>
          cases hnext
          exact ⟨World.inv_set (y := .busy (f (pend w.db)) held pend k) hinv hi
            (fun r hr => .inl hr) ⟨hwp _ Discipline.rely_refl, herr⟩
            fun _ _ => Discipline.rely_refl, D.trans_refl _⟩
        | writeThen g b =>
          cases hnext
          exact ⟨World.inv_set (y := .busy b held (g ∘ pend) k) hinv hi
            (fun r hr => .inl hr) ⟨hwp, herr⟩ fun _ _ => Discipline.rely_refl, D.trans_refl _⟩
        | freshThen f =>
          cases hnext
          obtain ⟨htrans, hframe⟩ := hbump w.db
          have hrely : ∀ held : List R, D.rely held w.db (Supply.bump w.db) :=
            fun held => Discipline.rely_step htrans fun r _ => hframe r
          refine ⟨World.inv_set (y := .busy (f (Supply.next w.db)) held pend k) hinv hi
            (fun r hr => .inl hr) ⟨hwp _ Discipline.rely_refl, fun e s hs => ?_⟩
            fun held _ => hrely held, htrans⟩
          exact herr e s (Discipline.rely_trans (hrely []) hs)
        | markThen l b =>
          cases hnext
          exact ⟨World.inv_set (y := .busy b held (History.record l ∘ pend) k) hinv hi
            (fun r hr => .inl hr) ⟨hwp _ Discipline.rely_refl hallowed, herr⟩
            fun _ _ => Discipline.rely_refl, D.trans_refl _⟩

/-- **Run lemma**: along every interleaving whose marks meet the condition the invariant is
kept, and the database goes through steps of the discipline. -/
theorem World.inv_run {w w' : World Q ε R L σ α}
    (hbump : ∀ s, D.trans s (Supply.bump s) ∧ ∀ r, D.frame r s (Supply.bump s))
    (henv : ∀ s s', env s s' → D.trans s s' ∧ ∀ r, D.frame r s s')
    (hserve : ∀ q s, Relation.ReflTransGen D.trans w.db s → (serve q).Safe D (outcome q) s)
    (hinv : w.Inv D outcome) (hrun : Runs (World.Step serve env) (World.Allowed D.cond) w w') :
    Relation.ReflTransGen D.trans w.db w'.db ∧ w'.Inv D outcome := by
  refine hrun.invariant
    (I := fun v => Relation.ReflTransGen D.trans w.db v.db ∧ v.Inv D outcome)
    ⟨Relation.ReflTransGen.refl, hinv⟩ ?_
  rintro v e v' ⟨hreach, hv⟩ hallowed hstep
  obtain ⟨hv', htrans⟩ := World.inv_step hbump henv (fun q => hserve q _ hreach) hv hallowed hstep
  exact ⟨hreach.tail htrans, hv'⟩

/-- **Refinement**: along every interleaving whose marks meet the condition, the database
goes through steps of the discipline, and every call that has ended has an outcome that
its specification admits. -/
theorem World.refines {w w' : World Q ε R L σ α}
    (hbump : ∀ s, D.trans s (Supply.bump s) ∧ ∀ r, D.frame r s (Supply.bump s))
    (henv : ∀ s s', env s s' → D.trans s s' ∧ ∀ r, D.frame r s s')
    (hserve : ∀ q s, Relation.ReflTransGen D.trans w.db s → (serve q).Safe D (outcome q) s)
    (hinv : w.Inv D outcome) (hrun : Runs (World.Step serve env) (World.Allowed D.cond) w w') :
    Relation.ReflTransGen D.trans w.db w'.db ∧
      ∀ q r, (q, .idle (.done r)) ∈ w'.sessions → outcome q r w'.db := by
  obtain ⟨hreach, hinv'⟩ := World.inv_run hbump henv hserve hinv hrun
  exact ⟨hreach, fun q r hmem => hinv'.safe _ hmem _ Discipline.rely_refl⟩

omit [DecidableEq R] in
/-- A world without sessions meets the invariant. -/
theorem World.inv_idle {s : σ} : World.Inv (Q := Q) (ε := ε) (α := α) D outcome ⟨s, []⟩ :=
  ⟨fun _ _ _ _ hx => by simp at hx, by simp⟩

end Refinement

end ArkanGold
