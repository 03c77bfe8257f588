import ArkanGold.Lib.Statements

/-!
# Transactions that leave something alone

A block is `Within P` if each of its writes and marks takes a state to a related one, for a
relation `P` that says what is left alone. Of such a block nothing else has to be known:

- `Block.Within.ok`: run alone, it ends in a related state.
- `Block.Within.wp`: run among others, its pending writes are of that kind.

`Block.zoom` runs a block on a part of the state; all it does is within that part.
-/

namespace ArkanGold

namespace Block

variable {ε R R' L L' σ τ α β ρ : Type} {key : ρ → ℕ}

/-- Every write and every mark, wherever the block takes its branches, respects `P`. -/
def Within [History L σ] (P : σ → σ → Prop) : Block ε R L σ α → Prop
  | done _ => True
  | fail _ => True
  | lockThen _ k => k.Within P
  | readThen k => ∀ s, (k s).Within P
  | writeThen g k => (∀ s, P s (g s)) ∧ k.Within P
  | freshThen k => ∀ n, (k n).Within P
  | markThen l k => (∀ s, P s (History.record l s)) ∧ k.Within P

variable [History L σ] {P : σ → σ → Prop}

@[simp] theorem within_pure {a : α} : (pure a : Block ε R L σ α).Within P := trivial

@[simp] theorem within_fail {e : ε} : (fail e : Block ε R L σ α).Within P := trivial

@[simp] theorem within_lock {r : R} : (lock r : Block ε R L σ Unit).Within P := trivial

@[simp] theorem within_get : (get : Block ε R L σ σ).Within P := fun _ => trivial

@[simp] theorem within_write {g : σ → σ} :
    (write g : Block ε R L σ Unit).Within P ↔ ∀ s, P s (g s) := and_iff_left trivial

@[simp] theorem within_fresh : (fresh : Block ε R L σ ℕ).Within P := fun _ => trivial

@[simp] theorem within_mark {l : L} :
    (mark l : Block ε R L σ Unit).Within P ↔ ∀ s, P s (History.record l s) := and_iff_left trivial

@[simp] theorem within_check {c : Bool} {e : ε} : (check c e : Block ε R L σ Unit).Within P := by
  cases c <;> trivial

@[simp] theorem within_getOrFail {o : Option α} {e : ε} :
    (getOrFail o e : Block ε R L σ α).Within P := by
  cases o <;> trivial

@[simp] theorem within_ofExcept {r : Except ε α} :
    (ofExcept r : Block ε R L σ α).Within P := by
  cases r <;> trivial

theorem within_bind {x : Block ε R L σ α} {f : α → Block ε R L σ β} (hx : x.Within P)
    (hf : ∀ a, (f a).Within P) : (x >>= f).Within P := by
  show (x.bind f).Within P
  induction x with
  | done a => exact hf a
  | fail e => trivial
  | lockThen r k ih => exact ih hx
  | readThen k ih => exact fun s => ih s (hx s)
  | writeThen g k ih => exact ⟨hx.1, ih hx.2⟩
  | freshThen k ih => exact fun n => ih n (hx n)
  | markThen l k ih => exact ⟨hx.1, ih hx.2⟩

theorem within_ite {c : Prop} [Decidable c] {x y : Block ε R L σ α} (hx : x.Within P)
    (hy : y.Within P) : (if c then x else y).Within P := by
  split
  · exact hx
  · exact hy

theorem within_lockAll (rs : List R) : (lockAll rs : Block ε R L σ Unit).Within P := by
  induction rs with
  | nil => trivial
  | cons r rs ih => exact within_bind within_lock fun _ => ih

/-- Run alone, such a block ends in a related state. -/
theorem Within.ok [Supply σ] {x : Block ε R L σ α} {s s' : σ} {a : α}
    (hrefl : ∀ s, P s s) (htrans : ∀ s t u, P s t → P t u → P s u)
    (hbump : ∀ s, P s (Supply.bump s)) (hx : x.Within P) (h : x.Ok s a s') : P s s' := by
  induction x generalizing s with
  | done b =>
    obtain ⟨-, rfl⟩ := ok_pure.mp h
    exact hrefl _
  | fail e => exact (ok_fail.mp h).elim
  | lockThen r k ih => exact ih hx h
  | readThen k ih => exact ih s (hx s) h
  | writeThen g k ih => exact htrans _ _ _ (hx.1 s) (ih hx.2 h)
  | freshThen k ih => exact htrans _ _ _ (hbump s) (ih _ (hx _) h)
  | markThen l k ih => exact htrans _ _ _ (hx.1 s) (ih hx.2 h)

/-- Run among others, such a block adds a write that respects `P`. -/
theorem Within.wp [Supply σ] {D : Discipline R L σ} {x : Block ε R L σ α}
    {held : List R} {pend : σ → σ} {post : α → List R → (σ → σ) → σ → Prop} {s : σ}
    (hrefl : ∀ s, P s s) (htrans : ∀ s t u, P s t → P t u → P s u)
    (hbump : ∀ s, D.trans s (Supply.bump s) ∧ ∀ r, D.frame r s (Supply.bump s))
    (hx : x.Within P)
    (h : ∀ a held' g s', (∀ r ∈ held, r ∈ held') → (∀ s, P s (g s)) → D.rely held s s' →
      post a held' (g ∘ pend) s') : x.wp D held pend post s := by
  induction x generalizing held pend s with
  | done a => exact h a held id s (fun _ hr => hr) hrefl Discipline.rely_refl
  | fail e => trivial
  | lockThen r k ih =>
    intro s₁ h₁
    refine ih hx fun a held' g s₂ hsub hg h₂ => ?_
    refine h a held' g s₂ (fun r hr => hsub r (List.mem_cons_of_mem _ hr)) hg ?_
    exact Discipline.rely_trans h₁
      (Discipline.rely_mono (fun r hr => List.mem_cons_of_mem _ hr) h₂)
  | readThen k ih =>
    intro s₁ h₁
    exact ih _ (hx _) fun a held' g s₂ hsub hg h₂ =>
      h a held' g s₂ hsub hg (Discipline.rely_trans h₁ h₂)
  | writeThen g k ih =>
    refine ih hx.2 fun a held' g' s₂ hsub hg' h₂ => ?_
    exact h a held' (g' ∘ g) s₂ hsub (fun s => htrans _ _ _ (hx.1 s) (hg' _)) h₂
  | freshThen k ih =>
    intro s₁ h₁
    have hb : D.rely held s₁ (Supply.bump s₁) :=
      Discipline.rely_step (hbump s₁).1 fun r _ => (hbump s₁).2 r
    exact ih _ (hx _) fun a held' g s₂ hsub hg h₂ =>
      h a held' g s₂ hsub hg (Discipline.rely_trans h₁ (Discipline.rely_trans hb h₂))
  | markThen l k ih =>
    intro s₁ h₁ _
    refine ih hx.2 fun a held' g s₂ hsub hg h₂ => ?_
    exact h a held' (g ∘ History.record l) s₂ hsub (fun s => htrans _ _ _ (hx.1 s) (hg _))
      (Discipline.rely_trans h₁ h₂)

end Block

/-! ## Statements -/

namespace Relation

variable {ε R L σ ρ : Type} [History L σ] {key : ρ → ℕ} {P : σ → σ → Prop} (T : Relation R σ ρ key)

theorem within_create (h : ∀ t s, P s (T.set t s)) {own : ℕ → R} {taken : ε} {mk : ℕ → ρ} :
    (T.create own taken mk : Block ε R L σ ℕ).Within P :=
  Block.within_bind Block.within_fresh fun _ => Block.within_bind Block.within_lock fun _ =>
    Block.within_bind Block.within_get fun _ => Block.within_bind Block.within_check fun _ =>
      Block.within_bind (Block.within_write.mpr fun s => h _ s) fun _ => Block.within_pure

theorem within_update (h : ∀ t s, P s (T.set t s)) {missing : ε} {k : ℕ} {f : ρ → ρ}
    {hf : ∀ r, key (f r) = key r} : (T.update missing k f hf : Block ε R L σ Unit).Within P :=
  Block.within_bind Block.within_lock fun _ => Block.within_bind Block.within_get fun _ =>
    Block.within_bind Block.within_check fun _ => Block.within_write.mpr fun s => h _ s

theorem within_updateMany (h : ∀ t s, P s (T.set t s)) {p : ρ → Bool} {f : ρ → ρ}
    {hf : ∀ r, key (f r) = key r} : (T.updateMany p f hf : Block ε R L σ Unit).Within P :=
  Block.within_bind Block.within_get fun _ => Block.within_bind (Block.within_lockAll _) fun _ =>
    Block.within_write.mpr fun s => h _ s

end Relation

/-! ## A part of the state -/

/-- A part of the state: it can be read and replaced, and the row ids come from it. -/
structure Part (σ τ : Type) [Supply σ] [Supply τ] where
  get : τ → σ
  set : σ → τ → τ
  get_set : ∀ s t, get (set s t) = s
  set_set : ∀ s s' t, set s' (set s t) = set s' t
  set_get : ∀ t, set (get t) t = t
  next_eq : ∀ t, Supply.next t = Supply.next (get t)
  bump_eq : ∀ t, Supply.bump t = set (Supply.bump (get t)) t

namespace Block

variable {ε R R' L L' σ τ α β : Type} [Supply σ] [Supply τ] [History L σ]

/-- Run a block on a part of the state, with its rows renamed; a mark stays with the part. -/
def zoom (V : Part σ τ) (row : R → R') : Block ε R L σ α → Block ε R' L' τ α
  | done a => done a
  | fail e => fail e
  | lockThen r k => lockThen (row r) (k.zoom V row)
  | readThen k => readThen fun t => (k (V.get t)).zoom V row
  | writeThen g k => writeThen (fun t => V.set (g (V.get t)) t) (k.zoom V row)
  | freshThen k => freshThen fun n => (k n).zoom V row
  | markThen l k => writeThen (fun t => V.set (History.record l (V.get t)) t) (k.zoom V row)

variable {V : Part σ τ} {row : R → R'}

@[simp] theorem zoom_pure {a : α} :
    (pure a : Block ε R L σ α).zoom V row = (pure a : Block ε R' L' τ α) := rfl

@[simp] theorem zoom_lock {r : R} :
    (lock r : Block ε R L σ Unit).zoom V row = (lock (row r) : Block ε R' L' τ Unit) := rfl

@[simp] theorem zoom_get : (get : Block ε R L σ σ).zoom V row =
    (do pure (V.get (← get)) : Block ε R' L' τ σ) := rfl

@[simp] theorem zoom_write {g : σ → σ} : (write g : Block ε R L σ Unit).zoom V row =
    (write fun t => V.set (g (V.get t)) t : Block ε R' L' τ Unit) := rfl

@[simp] theorem zoom_check {c : Bool} {e : ε} : (check c e : Block ε R L σ Unit).zoom V row =
    (check c e : Block ε R' L' τ Unit) := by
  cases c <;> rfl

@[simp] theorem zoom_getOrFail {o : Option α} {e : ε} :
    (getOrFail o e : Block ε R L σ α).zoom V row = (getOrFail o e : Block ε R' L' τ α) := by
  cases o <;> rfl

/-- One step of the block after the other. -/
@[simp] theorem zoom_bind {x : Block ε R L σ α} {f : α → Block ε R L σ β} :
    ((x >>= f).zoom V row : Block ε R' L' τ β) = x.zoom V row >>= fun a => (f a).zoom V row := by
  show (x.bind f).zoom V row = (x.zoom V row).bind fun a => (f a).zoom V row
  induction x with
  | done a => rfl
  | fail e => rfl
  | lockThen r k ih => exact congrArg (lockThen (row r)) ih
  | readThen k ih => exact congrArg readThen (funext fun t => ih (V.get t))
  | writeThen g k ih => exact congrArg (writeThen _) ih
  | freshThen k ih => exact congrArg freshThen (funext fun n => ih n)
  | markThen l k ih => exact congrArg (writeThen _) ih

variable [History L' τ]

/-- Run alone, the block does to the part what it does by itself. -/
@[simp] theorem ok_zoom {x : Block ε R L σ α} {t t' : τ} {a : α} :
    (x.zoom V row : Block ε R' L' τ α).Ok t a t' ↔
      ∃ s', x.Ok (V.get t) a s' ∧ t' = V.set s' t := by
  induction x generalizing t with
  | done b =>
    show (pure b : Block ε R' L' τ α).Ok t a t' ↔ _
    constructor
    · intro h
      obtain ⟨rfl, rfl⟩ := ok_pure.mp h
      exact ⟨_, ok_pure.mpr ⟨rfl, rfl⟩, (V.set_get _).symm⟩
    · rintro ⟨s', h, rfl⟩
      obtain ⟨rfl, rfl⟩ := ok_pure.mp h
      exact ok_pure.mpr ⟨rfl, V.set_get _⟩
  | fail e =>
    constructor
    · exact fun h => (ok_fail.mp h).elim
    · rintro ⟨s', h, -⟩
      exact (ok_fail.mp h).elim
  | lockThen r k ih => exact ih
  | readThen k ih => exact ih (V.get t)
  | writeThen g k ih =>
    refine (ih (t := V.set (g (V.get t)) t)).trans ?_
    rw [V.get_set]
    exact exists_congr fun s' => and_congr_right fun _ => by rw [V.set_set]
  | freshThen k ih =>
    refine (ih (Supply.next t) (t := Supply.bump t)).trans ?_
    rw [V.bump_eq, V.get_set, V.next_eq]
    exact exists_congr fun s' => and_congr_right fun _ => by rw [V.set_set]
  | markThen l k ih =>
    refine (ih (t := V.set (History.record l (V.get t)) t)).trans ?_
    rw [V.get_set]
    exact exists_congr fun s' => and_congr_right fun _ => by rw [V.set_set]

/-- What the block leaves alone of the part is left alone of the whole. -/
theorem within_zoom {P : σ → σ → Prop} {P' : τ → τ → Prop}
    (h : ∀ s t, P (V.get t) s → P' t (V.set s t)) {x : Block ε R L σ α} (hx : x.Within P) :
    (x.zoom V row : Block ε R' L' τ α).Within P' := by
  induction x with
  | done a => trivial
  | fail e => trivial
  | lockThen r k ih => exact ih hx
  | readThen k ih => exact fun t => ih (V.get t) (hx _)
  | writeThen g k ih => exact ⟨fun t => h _ t (hx.1 _), ih hx.2⟩
  | freshThen k ih => exact fun n => ih n (hx n)
  | markThen l k ih => exact ⟨fun t => h _ t (hx.1 _), ih hx.2⟩

end Block

end ArkanGold
