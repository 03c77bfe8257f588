import ArkanGold.Lib.Table
import ArkanGold.Lib.Interleaving

/-!
# Statements on the tables of a database

A `Relation` says where a table stands in the state and how its rows are locked. The
statements of a client library are blocks over it: an update waits for the row and
locks it, a new row is locked by the transaction that inserts it, and what is written
becomes visible to the others with the commit.

For each statement there is a rule `ok_*` for the transaction that runs alone and a
rule `wp_*` for the one that runs among others.
-/

namespace ArkanGold

/-- A table of the state `σ`, with the names of its row locks. -/
structure Relation (R σ ρ : Type) (key : ρ → ℕ) where
  get : σ → Table ρ key
  set : Table ρ key → σ → σ
  row : ℕ → R

namespace Relation

variable {ε R L σ ρ : Type} {key : ρ → ℕ}

/-- Insert a row under a new id; `own` names the lock on a row that others do not see
yet, and the id must not be taken. -/
def create (T : Relation R σ ρ key) (own : ℕ → R) (taken : ε) (mk : ℕ → ρ) :
    Block ε R L σ ℕ := do
  let n ← Block.fresh
  Block.lock (own n)
  let s ← Block.get
  Block.check ((T.get s).find? n).isNone taken
  Block.write fun s => T.set ((T.get s).insert (mk n)) s
  pure n

/-- Update the row with the id `k`. -/
def update (T : Relation R σ ρ key) (missing : ε) (k : ℕ) (f : ρ → ρ)
    (hf : ∀ r, key (f r) = key r := by intro _; rfl) : Block ε R L σ Unit := do
  Block.lock (T.row k)
  let s ← Block.get
  Block.check ((T.get s).find? k).isSome missing
  Block.write fun s => T.set ((T.get s).update k f hf) s

/-- The ids of the rows that satisfy `p`. -/
def keysOf (T : Relation R σ ρ key) (p : ρ → Bool) (s : σ) : List ℕ :=
  ((T.get s).rows.filter p).map key

/-- Update the rows that satisfy `p`: the rows found are locked, and those of them that
still satisfy `p` are written. -/
def updateMany (T : Relation R σ ρ key) (p : ρ → Bool) (f : ρ → ρ)
    (hf : ∀ r, key (f r) = key r := by intro _; rfl) : Block ε R L σ Unit := do
  let s ← Block.get
  Block.lockAll ((T.keysOf p s).map T.row)
  Block.write fun t =>
    T.set ((T.get t).updateWhere (fun r => (T.keysOf p s).contains (key r) && p r) f hf) t

/-- Delete the rows that satisfy `p`. -/
def deleteMany (T : Relation R σ ρ key) (p : ρ → Bool) : Block ε R L σ Unit := do
  let s ← Block.get
  Block.lockAll ((T.keysOf p s).map T.row)
  Block.write fun t =>
    T.set ((T.get t).deleteWhere fun r => (T.keysOf p s).contains (key r) && p r) t

/-! ## Running alone -/

section Alone

variable [Supply σ] [History L σ] (T : Relation R σ ρ key) {s s' : σ}

@[simp] theorem ok_create {own : ℕ → R} {taken : ε} {mk : ℕ → ρ} {n : ℕ} :
    (T.create own taken mk : Block ε R L σ ℕ).Ok s n s' ↔
      n = Supply.next s ∧ (T.get (Supply.bump s)).find? n = none ∧
        s' = T.set ((T.get (Supply.bump s)).insert (mk n)) (Supply.bump s) := by
  simp only [create, Block.ok_bind, Block.ok_fresh, Block.ok_lock, Block.ok_get, Block.ok_check,
    Block.ok_write, Block.ok_pure, Option.isNone_iff_eq_none]
  constructor
  · rintro ⟨_, _, ⟨rfl, rfl⟩, _, _, rfl, _, _, ⟨rfl, rfl⟩, _, _, ⟨h, rfl⟩, _, _, rfl, rfl, rfl⟩
    exact ⟨rfl, h, rfl⟩
  · rintro ⟨rfl, h, rfl⟩
    exact ⟨_, _, ⟨rfl, rfl⟩, (), _, rfl, _, _, ⟨rfl, rfl⟩, (), _, ⟨h, rfl⟩, (), _, rfl, rfl, rfl⟩

@[simp] theorem ok_update {missing : ε} {k : ℕ} {f : ρ → ρ} {hf : ∀ r, key (f r) = key r}
    {u : Unit} : (T.update missing k f hf : Block ε R L σ Unit).Ok s u s' ↔
      (∃ r, (T.get s).find? k = some r) ∧ s' = T.set ((T.get s).update k f hf) s := by
  simp only [update, Block.ok_bind, Block.ok_lock, Block.ok_get, Block.ok_check,
    Block.ok_write, Option.isSome_iff_exists]
  constructor
  · rintro ⟨_, _, rfl, _, _, ⟨rfl, rfl⟩, _, _, ⟨h, rfl⟩, rfl⟩
    exact ⟨h, rfl⟩
  · rintro ⟨h, rfl⟩
    exact ⟨(), _, rfl, _, _, ⟨rfl, rfl⟩, (), _, ⟨h, rfl⟩, rfl⟩

@[simp] theorem ok_updateMany {p : ρ → Bool} {f : ρ → ρ} {hf : ∀ r, key (f r) = key r}
    {u : Unit} : (T.updateMany p f hf : Block ε R L σ Unit).Ok s u s' ↔
      s' = T.set ((T.get s).updateWhere p f hf) s := by
  have hcongr : (T.get s).updateWhere (fun r => (T.keysOf p s).contains (key r) && p r) f hf =
      (T.get s).updateWhere p f hf := by
    refine Table.updateWhere_congr hf fun r hr => ?_
    rw [keysOf, Table.keys_contains_iff hr, Bool.and_self]
  simp only [updateMany, Block.ok_bind, Block.ok_get, Block.ok_lockAll, Block.ok_write]
  constructor
  · rintro ⟨_, _, ⟨rfl, rfl⟩, _, _, rfl, rfl⟩
    rw [hcongr]
  · rintro rfl
    exact ⟨_, _, ⟨rfl, rfl⟩, (), _, rfl, by rw [hcongr]⟩

@[simp] theorem ok_deleteMany {p : ρ → Bool} {u : Unit} :
    (T.deleteMany p : Block ε R L σ Unit).Ok s u s' ↔
      s' = T.set ((T.get s).deleteWhere p) s := by
  have hcongr : ((T.get s).deleteWhere fun r => (T.keysOf p s).contains (key r) && p r) =
      (T.get s).deleteWhere p := by
    refine Table.deleteWhere_congr fun r hr => ?_
    rw [keysOf, Table.keys_contains_iff hr, Bool.and_self]
  simp only [deleteMany, Block.ok_bind, Block.ok_get, Block.ok_lockAll, Block.ok_write]
  constructor
  · rintro ⟨_, _, ⟨rfl, rfl⟩, _, _, rfl, rfl⟩
    rw [hcongr]
  · rintro rfl
    exact ⟨_, _, ⟨rfl, rfl⟩, (), _, rfl, by rw [hcongr]⟩

end Alone

/-! ## Running among others -/

section Among

variable [Supply σ] [History L σ] (T : Relation R σ ρ key) {D : Discipline R L σ}
  {held : List R} {pend : σ → σ} {s : σ}

/-- The new id is the next number of the supply, and one that nobody else can take: its lock
is held. The supply is no row. -/
theorem wp_create_next {own : ℕ → R} {taken : ε} {mk : ℕ → ρ}
    {post : ℕ → List R → (σ → σ) → σ → Prop}
    (h : ∀ s₁ s', D.rely held s s₁ → D.rely held (Supply.bump s₁) s' →
      (T.get (pend s')).find? (Supply.next s₁) = none →
      post (Supply.next s₁) (own (Supply.next s₁) :: held)
        ((fun s => T.set ((T.get s).insert (mk (Supply.next s₁))) s) ∘ pend) s') :
    (T.create own taken mk : Block ε R L σ ℕ).wp D held pend post s := by
  simp only [create, Block.wp_bind, Block.wp_fresh, Block.wp_lock, Block.wp_get, Block.wp_check,
    Block.wp_write, Block.wp_pure, Option.isNone_iff_eq_none]
  intro s₁ h₁ s₂ h₂ s₃ h₃ hnone
  have h₃' : D.rely held s₂ s₃ :=
    Discipline.rely_mono (fun r hr => List.mem_cons_of_mem _ hr) h₃
  exact h s₁ s₃ h₁ (Discipline.rely_trans h₂ h₃') hnone

theorem wp_create {own : ℕ → R} {taken : ε} {mk : ℕ → ρ}
    {post : ℕ → List R → (σ → σ) → σ → Prop}
    (hbump : ∀ s, D.trans s (Supply.bump s) ∧ ∀ r, D.frame r s (Supply.bump s))
    (h : ∀ n s', D.rely held s s' → (T.get (pend s')).find? n = none →
      post n (own n :: held) ((fun s => T.set ((T.get s).insert (mk n)) s) ∘ pend) s') :
    (T.create own taken mk : Block ε R L σ ℕ).wp D held pend post s := by
  refine T.wp_create_next fun s₁ s' h₁ h₂ hnone => h _ s' ?_ hnone
  have hb : D.rely held s₁ (Supply.bump s₁) :=
    Discipline.rely_step (hbump s₁).1 fun r _ => (hbump s₁).2 r
  exact Discipline.rely_trans h₁ (Discipline.rely_trans hb h₂)

theorem wp_update {missing : ε} {k : ℕ} {f : ρ → ρ} {hf : ∀ r, key (f r) = key r}
    {post : Unit → List R → (σ → σ) → σ → Prop}
    (h : ∀ s' r, D.rely held s s' → (T.get (pend s')).find? k = some r →
      post () (T.row k :: held) ((fun s => T.set ((T.get s).update k f hf) s) ∘ pend) s') :
    (T.update missing k f hf : Block ε R L σ Unit).wp D held pend post s := by
  simp only [update, Block.wp_bind, Block.wp_lock, Block.wp_get, Block.wp_check, Block.wp_write,
    Option.isSome_iff_exists]
  rintro s₁ h₁ s₂ h₂ ⟨r, hr⟩
  refine h s₂ r ?_ hr
  exact Discipline.rely_trans h₁
    (Discipline.rely_mono (fun r hr => List.mem_cons_of_mem _ hr) h₂)

/-- The rows of a statement on many rows are locked one after the other. -/
theorem wp_lockedWrite {ks : List ℕ} {g : σ → σ} {post : Unit → List R → (σ → σ) → σ → Prop}
    (h : ∀ s', D.rely held s s' → post () ((ks.map T.row).reverse ++ held) (g ∘ pend) s') :
    (do Block.lockAll (ks.map T.row); Block.write g : Block ε R L σ Unit).wp D held pend post s := by
  simp only [Block.wp_bind, Block.wp_write]
  exact Block.wp_lockAll h

theorem wp_updateMany {p : ρ → Bool} {f : ρ → ρ} {hf : ∀ r, key (f r) = key r}
    {post : Unit → List R → (σ → σ) → σ → Prop}
    (h : ∀ (ks : List ℕ) s', D.rely held s s' → post () ((ks.map T.row).reverse ++ held)
      ((fun t => T.set ((T.get t).updateWhere (fun r => ks.contains (key r) && p r) f hf) t) ∘
        pend) s') :
    (T.updateMany p f hf : Block ε R L σ Unit).wp D held pend post s := by
  rw [updateMany, Block.wp_bind, Block.wp_get]
  intro s₁ h₁
  refine T.wp_lockedWrite fun s₂ h₂ => h _ s₂ (Discipline.rely_trans h₁ h₂)

theorem wp_deleteMany {p : ρ → Bool} {post : Unit → List R → (σ → σ) → σ → Prop}
    (h : ∀ (ks : List ℕ) s', D.rely held s s' → post () ((ks.map T.row).reverse ++ held)
      ((fun t => T.set ((T.get t).deleteWhere fun r => ks.contains (key r) && p r) t) ∘
        pend) s') :
    (T.deleteMany p : Block ε R L σ Unit).wp D held pend post s := by
  rw [deleteMany, Block.wp_bind, Block.wp_get]
  intro s₁ h₁
  refine T.wp_lockedWrite fun s₂ h₂ => h _ s₂ (Discipline.rely_trans h₁ h₂)

end Among

end Relation

end ArkanGold
