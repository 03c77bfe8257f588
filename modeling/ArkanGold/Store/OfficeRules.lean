import ArkanGold.Accounting.ControlAccount
import ArkanGold.Store.OfficeDatabase

/-!
# The statements of the office among others

Rules for the statements of `OfficeStmt` in a transaction that others interrupt: what may
be assumed when they are executed, and what they add to the pending writes. `within_*`
covers the statements of which a proof only needs to know what they leave alone.
-/

namespace ArkanGold

namespace Stmt

variable {Q : Db → Db → Prop}

theorem within_create {ρ : Type} {key : ρ → ℕ} {T : Relation Row Db ρ key}
    (h : ∀ t s, Q s (T.set t s)) (mk : ℕ → ρ) : (create T mk).Within Q := T.within_create h

theorem within_lockWalletOf (userId : ℕ) : (lockWalletOf userId).Within Q :=
  Block.within_bind Block.within_get fun s => by
    cases s.walletOf userId with
    | none => exact Block.within_pure
    | some w => exact Block.within_lock

theorem within_updateWallet (h : ∀ t s, Q s (Db.setWallets t s)) {k : ℕ} {f : Wallet → Wallet}
    {hf : ∀ w, (f w).id = w.id} : (updateWallet k f hf).Within Q :=
  Block.within_bind Block.within_lock fun _ => Block.within_bind Block.within_get fun _ =>
    Block.within_bind Block.within_getOrFail fun _ => Block.within_bind Block.within_check fun _ =>
      Block.within_write.mpr fun s => h _ s

end Stmt

namespace OfficeStmt

open AccountingService

@[simp] theorem onStore_get : onStore Block.get = (do pure (← Block.get).store : OfficeStmt Db) := rfl

@[simp] theorem onStore_bind {α β : Type} {x : Stmt α} {f : α → Stmt β} :
    onStore (x >>= f) = onStore x >>= fun a => onStore (f a) := Block.zoom_bind

section Within

variable {P : OfficeDb → OfficeDb → Prop} {α : Type} {ρ : Type} {key : ρ → ℕ}
  {T : Relation OfficeRow OfficeDb ρ key}

theorem within_create (h : ∀ t s, P s (T.set t s)) (mk : ℕ → ρ) : (create T mk).Within P :=
  T.within_create h

theorem within_update (h : ∀ t s, P s (T.set t s)) {k : ℕ} {f : ρ → ρ}
    {hf : ∀ r, key (f r) = key r} : (update T k f hf).Within P :=
  T.within_update h

theorem within_createUnique (h : ∀ t s, P s (T.set t s)) {name : OfficeRow}
    {free : OfficeDb → Bool} {mk : ℕ → ρ} : (createUnique T name free mk).Within P :=
  Block.within_bind Block.within_lock fun _ => Block.within_bind Block.within_get fun _ =>
    Block.within_bind Block.within_check fun _ => within_create h mk

theorem within_onStore {Q : Db → Db → Prop} (h : ∀ s t, Q t.store s → P t (t.setStore s))
    {x : Stmt α} (hx : x.Within Q) : (onStore x).Within P :=
  Block.within_zoom h hx

theorem within_nextNumber
    (h : ∀ (f : String → ℕ) (t : OfficeDb), P t (t.setStore (t.store.setDocumentSequences f)))
    (cal : Calendar) (label : String) : (nextNumber cal label).Within P := by
  refine Block.within_bind Block.within_get fun _ => Block.within_bind Block.within_lock fun _ => ?_
  refine Block.within_bind Block.within_get fun _ => ?_
  exact Block.within_bind (Block.within_write.mpr fun t => h _ t) fun _ => Block.within_pure

theorem within_postJournal {params : JournalInput} {link : ℕ → OfficeDb → OfficeDb}
    (h : ∀ n b t, P t (link n (t.setStore (t.store.setBooks b)))) :
    (postJournal params link).Within P :=
  Block.within_bind Block.within_get fun _ => Block.within_bind Block.within_ofExcept fun _ =>
    Block.within_bind (Block.within_lockAll _) fun _ => Block.within_write.mpr fun t => h _ _ t

end Within

section Among

variable {D : Discipline OfficeRow OfficeMark OfficeDb} {held : List OfficeRow}
  {pend : OfficeDb → OfficeDb} {s : OfficeDb}

/-- The rows a posting locks. -/
def accountRows (posted : List PostedLine) : List OfficeRow :=
  posted.map fun x => .store (.account x.account.id)

/-- What a posting writes, whatever the books are by then. -/
def posting (now : ℤ) (params : JournalInput) (posted : List PostedLine)
    (link : ℕ → OfficeDb → OfficeDb) (t : OfficeDb) : OfficeDb :=
  link t.books.journals.next
    (t.setStore (t.store.setBooks (Stmt.writeJournal now params posted t.books)))

/-- The journal is checked on the books as the transaction sees them, and written to those
of the commit. -/
theorem wp_postJournal {params : JournalInput} {link : ℕ → OfficeDb → OfficeDb}
    {post : Unit → List OfficeRow → (OfficeDb → OfficeDb) → OfficeDb → Prop}
    (h : ∀ s₁ posted s₂, D.rely held s s₁ → Posting (pend s₁).books params posted →
      D.rely held s₁ s₂ → post () ((accountRows posted).reverse ++ held)
        (posting (pend s₁).now params posted link ∘ pend) s₂) :
    (postJournal params link).wp D held pend post s := by
  simp only [postJournal, Block.wp_bind, Block.wp_get, Block.wp_ofExcept]
  intro s₁ h₁ posted hrun
  refine Block.wp_lockAll fun s₂ h₂ => ?_
  exact h s₁ posted s₂ h₁ (checkJournal_ok (Tx.ok_run hrun)).1 h₂

/-- The journal is looked up, and its reversal checked and written. -/
theorem wp_reverseJournal {journalId : ℕ} {opts : ReversalOptions}
    {link : ℕ → OfficeDb → OfficeDb}
    {post : Unit → List OfficeRow → (OfficeDb → OfficeDb) → OfficeDb → Prop}
    (h : ∀ s₀ original s₁ posted s₂, D.rely held s s₀ →
      (pend s₀).books.journals.find? journalId = some original → D.rely held s₀ s₁ →
      Posting (pend s₁).books (reversalOf (pend s₀).books original opts) posted →
      D.rely held s₁ s₂ → post () ((accountRows posted).reverse ++ held)
        (posting (pend s₁).now (reversalOf (pend s₀).books original opts) posted link ∘ pend) s₂) :
    (reverseJournal journalId opts link).wp D held pend post s := by
  simp only [reverseJournal, Block.wp_bind, Block.wp_get, Block.wp_getOrFail, Block.wp_check]
  intro s₀ h₀ original horiginal _ _
  refine wp_postJournal fun s₁ posted s₂ h₁ hposting h₂ => ?_
  exact h s₀ original s₁ posted s₂ h₀ horiginal h₁ hposting h₂

/-- A wallet is locked and written. -/
theorem wp_updateWallet {k : ℕ} {f : Wallet → Wallet} {hf : ∀ w, (f w).id = w.id}
    {post : Unit → List OfficeRow → (OfficeDb → OfficeDb) → OfficeDb → Prop}
    (h : ∀ s' w, D.rely held s s' → (pend s').store.wallets.find? k = some w →
      0 ≤ (f w).rialBalance ∧ 0 ≤ (f w).goldBalanceGrams →
      post () (.store (.wallet k) :: held) ((fun t =>
        t.setStore (t.store.setWallets (t.store.wallets.update k f hf))) ∘ pend) s') :
    (onStore (Stmt.updateWallet k f hf)).wp D held pend post s := by
  simp only [onStore, Stmt.updateWallet, Block.zoom_bind, Block.zoom_lock, Block.zoom_get,
    Block.zoom_getOrFail, Block.zoom_check, Block.zoom_write, Block.wp_bind, Block.wp_lock,
    Block.wp_get, Block.wp_pure, Block.wp_getOrFail, Block.wp_check, Block.wp_write,
    decide_eq_true_eq]
  intro s₁ h₁ s₂ h₂ w hw hfits
  refine h s₂ w ?_ hw hfits
  exact Discipline.rely_trans h₁
    (Discipline.rely_mono (fun r hr => List.mem_cons_of_mem _ hr) h₂)

end Among

end OfficeStmt

end ArkanGold
