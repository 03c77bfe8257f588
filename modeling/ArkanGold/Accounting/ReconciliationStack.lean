import ArkanGold.Accounting.BankReconciliation

/-!
# Reconciliations form a stack

What an account looks like to reconciliation is its `View`: the marks of its entries and
its stored reconciliations. A reconciliation pushes (`Pushed`), `undoLast` takes back what
was pushed last (`undone_of_pushed`), and nothing else changes the view. So along every run
the view of an account is the one that its pending reconciliations have built up
(`Stacked`), and undoing gives back the view from before the last of them.
-/

namespace ArkanGold

namespace BankReconciliationService

variable {s s' : BankDb} {a : ℕ}

/-! ## What the calls do -/

theorem ok_bankAccount {code : String} {acc : AccountRef}
    (h : (bankAccount code).Ok s acc s') :
    s' = s ∧ accountIdOf s code = some acc.id := by
  simp only [bankAccount, Tx.ok_bind, Tx.ok_check, Tx.ok_get, Tx.ok_getOrFail] at h
  obtain ⟨_, _, ⟨-, rfl⟩, t, _, ⟨rfl, rfl⟩, hfind, rfl⟩ := h
  exact ⟨rfl, by rw [accountIdOf, hfind]; rfl⟩

/-- What was checked of the entries that a reconciliation selects. -/
def Selected (accountId : ℕ) (till : ℤ) (ids : List ℕ) (s : BankDb) : Prop :=
  ∀ e ∈ s.entries.rows, e.id ∈ ids →
    e.accountId = accountId ∧ e.reconciledAt = none ∧ e.entryDate ≤ till

theorem ok_reconcile {adminId : ℕ} {dto : BankReconcileDto} {r : String × ℕ}
    (h : (reconcile adminId dto).Ok s r s') :
    ∃ accountId till balance ids, accountIdOf s dto.accountCode = some accountId ∧
      Selected accountId till ids s ∧
      s' = storeReconciliation (newReconciliation adminId dto accountId till balance ids s)
        (fun _ => rfl) ids s := by
  simp only [reconcile, Tx.ok_bind, Tx.ok_check, Tx.ok_get, Tx.ok_getOrFail, Tx.ok_ofExcept,
    Tx.ok_modify, Tx.ok_pure] at h
  obtain ⟨acc, s₁, hacc, balance, s₂, ⟨-, rfl⟩, -, s₃, ⟨-, rfl⟩, till, s₄, ⟨-, rfl⟩, t, s₅,
    ⟨rfl, rfl⟩, -, s₆, ⟨-, rfl⟩, _, s₇, ⟨herr, rfl⟩, -, s₈, ⟨-, rfl⟩, -, s₉, ⟨-, rfl⟩, -, s₁₀,
    rfl, -, rfl⟩ := h
  obtain ⟨rfl, hid⟩ := ok_bankAccount hacc
  refine ⟨acc.id, till, balance.num, dto.entryIds.dedup, hid, ?_, rfl⟩
  intro e he hmem
  have hnone : entryError acc.id till e = none := by
    split at herr
    · cases herr
    · rename_i hnone
      rw [List.findSome?_eq_none_iff] at hnone
      exact hnone e (List.mem_filter.mpr ⟨he, List.contains_iff_mem.mpr hmem⟩)
  unfold entryError at hnone
  split_ifs at hnone with haccount hcleared hdate
  exact ⟨not_not.mp haccount, by simpa using hcleared, not_lt.mp hdate⟩

theorem ok_undoLast {code : String} {r : String} (h : (undoLast code).Ok s r s') :
    ∃ accountId last, accountIdOf s code = some accountId ∧
      lastReconciliation accountId s = some last ∧ s' = dropReconciliation last.id s := by
  simp only [undoLast, Tx.ok_bind, Tx.ok_get, Tx.ok_getOrFail, Tx.ok_modify, Tx.ok_pure] at h
  obtain ⟨acc, s₁, hacc, t, s₂, ⟨rfl, rfl⟩, last, s₃, ⟨hlast, rfl⟩, -, s₄, rfl, -, rfl⟩ := h
  obtain ⟨rfl, hid⟩ := ok_bankAccount hacc
  exact ⟨acc.id, last, hid, hlast, rfl⟩

/-! ## The balances of a reconciliation -/

theorem sum_balance {book cleared selected debit credit : BankEntry → ℤ} {rows : List BankEntry}
    (h : ∀ e ∈ rows, book e - (cleared e + selected e) = debit e - credit e) :
    (rows.map book).sum - ((rows.map cleared).sum + (rows.map selected).sum) =
      (rows.map debit).sum - (rows.map credit).sum := by
  induction rows with
  | nil => rfl
  | cons e rows ih =>
    have he := h e (List.mem_cons_self ..)
    have ih := ih fun x hx => h x (List.mem_cons_of_mem _ hx)
    simp only [List.map_cons, List.sum_cons]
    linarith

/-- The entries that stay open make up the difference between the books and what is
cleared. -/
theorem balance_newReconciliation {adminId : ℕ} {dto : BankReconcileDto} {accountId : ℕ}
    {till balance : ℤ} {ids : List ℕ} (h : Selected accountId till ids s) (id : ℕ) :
    let row := newReconciliation adminId dto accountId till balance ids s id
    row.bookBalanceRial - row.clearedBalanceRial =
      row.outstandingDebitRial - row.outstandingCreditRial := by
  simp only [newReconciliation, sumSql, outstanding, entriesUntil, List.filter_filter,
    Table.sum_map_filter]
  refine sum_balance fun e he => ?_
  by_cases hid : e.id ∈ ids
  · -- a selected entry is in the books, and it is cleared now
    obtain ⟨haccount, hmark, hdate⟩ := h e he hid
    simp [haccount, hmark, hdate, hid]
  · by_cases hin : e.accountId = accountId ∧ e.entryDate ≤ till
    · cases hmark : e.reconciledAt with
      | none => cases hside : e.side <;> simp [hin, hid, BankEntry.signed, hside]
      | some t => simp [hin, hid]
    · simp [hin, hid]

/-! ## The view of an account -/

/-- No mark. -/
def unmarked : ClearedMark := (none, none)

/-- The mark that the entry `i` of the account `a` has in a state. -/
def markIn (a : ℕ) (s : BankDb) (i : ℕ) : ClearedMark :=
  match s.entries.find? i with
  | some e => if e.accountId = a then e.mark else unmarked
  | none => unmarked

/-- The stored reconciliations of an account. -/
def reconciliationsOf (a : ℕ) (s : BankDb) : List BankReconciliation :=
  s.reconciliations.rows.filter fun r => r.accountId == a

/-- What reconciliation sees of an account. -/
structure View where
  marks : ℕ → ClearedMark
  reconciliations : List BankReconciliation

/-- The view of the account `a`. -/
def viewOf (a : ℕ) (s : BankDb) : View := ⟨markIn a s, reconciliationsOf a s⟩

/-- A view without the reconciliation `r` and its marks. -/
def View.undo (v : View) (r : BankReconciliation) : View where
  marks i := if (v.marks i).2 = some r.id then unmarked else v.marks i
  reconciliations := v.reconciliations.filter fun q => q.id ≠ r.id

/-- The reconciliation `r` has been pushed on a view. -/
structure Pushed (v v' : View) (r : BankReconciliation) : Prop where
  reconciliations : v'.reconciliations = v.reconciliations ++ [r]
  newest : ∀ q ∈ v.reconciliations, q.id ≠ r.id ∧ q.createdAt < r.createdAt
  marks : ∀ i, (v'.marks i).2 ≠ some r.id → v'.marks i = v.marks i
  fresh : ∀ i, (v'.marks i).2 = some r.id → v.marks i = unmarked

/-- Undoing is the inverse of pushing. -/
theorem Pushed.undo {v v' : View} {r : BankReconciliation} (h : Pushed v v' r) : v'.undo r = v := by
  obtain ⟨marks, recs⟩ := v
  unfold View.undo
  congr 1
  · funext i
    split
    · rename_i hi
      exact (h.fresh i hi).symm
    · rename_i hi
      exact h.marks i hi
  · rw [h.reconciliations, List.filter_append, List.filter_eq_self.mpr]
    · simp
    · intro q hq
      simpa using (h.newest q hq).1

/-- The view is what the pending reconciliations have built up. -/
def Stacked (a : ℕ) : View → List BankDb → Prop
  | v, [] => v.reconciliations = [] ∧ ∀ i, v.marks i = unmarked
  | v, before :: rest => (∃ r, Pushed (viewOf a before) v r) ∧ Stacked a (viewOf a before) rest

/-! ## What holds along a run -/

/-- What is true after every call. -/
structure Consistent (calls : List BankCall) (s : BankDb) : Prop where
  balanced : ∀ r ∈ s.reconciliations.rows,
    r.bookBalanceRial - r.clearedBalanceRial = r.outstandingDebitRial - r.outstandingCreditRial
  past : ∀ r ∈ s.reconciliations.rows, r.createdAt ≤ s.now
  open_ : ∀ e ∈ s.entries.rows, e.reconciledAt = none ↔ e.reconciliationId = none
  cleared : ∀ e ∈ s.entries.rows, ∀ k ∈ e.reconciliationId,
    ∃ r ∈ s.reconciliations.rows, r.id = k ∧ r.accountId = e.accountId
  stacked : ∀ a, Stacked a (viewOf a s) (pending a calls)

variable {calls : List BankCall} {c : BankCall}

/-- A call that changes no view and stores nothing. -/
theorem Consistent.of_views (h : Consistent calls s)
    (hrows : s'.reconciliations.rows = s.reconciliations.rows) (hnow : s.now ≤ s'.now)
    (hentries : ∀ e ∈ s'.entries.rows, e ∈ s.entries.rows ∨ e.mark = unmarked)
    (hview : ∀ a, viewOf a s' = viewOf a s) (hpending : ∀ a, pending a (calls ++ [c]) = pending a calls) :
    Consistent (calls ++ [c]) s' where
  balanced r hr := h.balanced r (hrows ▸ hr)
  past r hr := (h.past r (hrows ▸ hr)).trans hnow
  open_ e he := by
    rcases hentries e he with he | he
    · exact h.open_ e he
    · obtain ⟨h₁, h₂⟩ := Prod.mk.inj he
      rw [h₁, h₂]
      simp
  cleared e he k hk := by
    rcases hentries e he with he | he
    · rw [hrows]
      exact h.cleared e he k hk
    · obtain ⟨-, h₂⟩ := Prod.mk.inj he
      rw [h₂] at hk
      cases hk
  stacked a := by
    rw [hview, hpending]
    exact h.stacked a

theorem pending_append (a : ℕ) (calls : List BankCall) (c : BankCall) :
    pending a (calls ++ [c]) = pendingStep a (pending a calls) c := by
  simp [pending]

theorem postEntry_entries (l : NewEntry) (s : BankDb) :
    (∀ e ∈ (postEntry s l).entries.rows, e ∈ s.entries.rows ∨ e.mark = unmarked) ∧
      ∀ a, viewOf a (postEntry s l) = viewOf a s := by
  constructor
  · intro e he
    rcases Table.mem_create.mp he with he | rfl
    · exact .inl he
    · exact .inr rfl
  · intro a
    have hmarks : markIn a (postEntry s l) = markIn a s := by
      funext i
      unfold markIn postEntry
      dsimp only
      by_cases hi : i = s.entries.next
      · subst hi
        rw [Table.find?_create_self _ _ fun _ => rfl, Table.find?_ge_next le_rfl]
        simp [BankEntry.mark, unmarked]
      · rw [Table.find?_create_of_ne _ _ (fun _ => rfl) hi]
    rw [viewOf, hmarks]
    rfl

/-- Posting marks nothing. -/
theorem postEntries_entries (lines : List NewEntry) (s : BankDb) :
    (postEntries lines s).reconciliations = s.reconciliations ∧
      (postEntries lines s).now = s.now ∧
      (∀ e ∈ (postEntries lines s).entries.rows, e ∈ s.entries.rows ∨ e.mark = unmarked) ∧
      ∀ a, viewOf a (postEntries lines s) = viewOf a s := by
  induction lines generalizing s with
  | nil => exact ⟨rfl, rfl, fun _ he => .inl he, fun _ => rfl⟩
  | cons l lines ih =>
    obtain ⟨hrows, hnow, hentries, hview⟩ := ih (postEntry s l)
    obtain ⟨hentries₁, hview₁⟩ := postEntry_entries l s
    refine ⟨hrows, hnow, fun e he => ?_, fun a => (hview a).trans (hview₁ a)⟩
    rcases hentries e he with he | he
    · exact hentries₁ e he
    · exact .inr he

/-- The marks after an update of marks. -/
theorem markIn_updateWhere {p : BankEntry → Bool} {m : ClearedMark} (a i : ℕ)
    (hs' : s'.entries = s.entries.updateWhere p (BankEntry.withMark m) (BankEntry.id_withMark m)) :
    markIn a s' i = match s.entries.find? i with
      | some e => if e.accountId = a then (if p e then m else e.mark) else unmarked
      | none => unmarked := by
  unfold markIn
  rw [hs', Table.find?_updateWhere]
  cases s.entries.find? i with
  | none => rfl
  | some e =>
    by_cases haccount : e.accountId = a <;> cases hp : p e <;> simp [hp, haccount]

section Reconcile

variable {adminId : ℕ} {dto : BankReconcileDto} {accountId : ℕ} {till balance : ℤ} {ids : List ℕ}

/-- The state after a reconciliation. -/
abbrev reconciled (adminId : ℕ) (dto : BankReconcileDto) (accountId : ℕ) (till balance : ℤ)
    (ids : List ℕ) (s : BankDb) : BankDb :=
  storeReconciliation (newReconciliation adminId dto accountId till balance ids s)
    (fun _ => rfl) ids s

theorem mem_reconciled {r : BankReconciliation} :
    r ∈ (reconciled adminId dto accountId till balance ids s).reconciliations.rows ↔
      r ∈ s.reconciliations.rows ∨
        r = newReconciliation adminId dto accountId till balance ids s s.reconciliations.next :=
  @Table.mem_create _ _ s.reconciliations _ (fun _ => rfl) r

theorem mem_entries_reconciled {e : BankEntry} :
    e ∈ (reconciled adminId dto accountId till balance ids s).entries.rows ↔
      ∃ e₀ ∈ s.entries.rows, (if ids.contains e₀.id then
        e₀.withMark (some s.now, some s.reconciliations.next) else e₀) = e :=
  @Table.mem_updateWhere _ _ s.entries _ _ (BankEntry.id_withMark _) e

theorem find?_entry {i : ℕ} {e : BankEntry} (h : s.entries.find? i = some e) :
    e ∈ s.entries.rows ∧ e.id = i := Table.find?_eq_some.mp h

/-- The account that is reconciled: the new row and its marks are pushed. -/
theorem pushed_reconciled (h : Consistent calls s) (hselected : Selected accountId till ids s)
    (hnow : ∀ r ∈ s.reconciliations.rows, r.createdAt < s.now) :
    Pushed (viewOf accountId s) (viewOf accountId (reconciled adminId dto accountId till balance ids s))
      (newReconciliation adminId dto accountId till balance ids s s.reconciliations.next) := by
  have hmark (i : ℕ) := (@markIn_updateWhere s (reconciled adminId dto accountId till balance ids s)) accountId i rfl
  have hnext : ∀ e ∈ s.entries.rows, e.reconciliationId ≠ some s.reconciliations.next := by
    intro e he hid
    obtain ⟨r, hr, hrid, -⟩ := h.cleared e he _ hid
    exact absurd (s.reconciliations.lt_next r hr) (by omega)
  refine ⟨?_, ?_, ?_, ?_⟩
  · simp [viewOf, reconciliationsOf, reconciled, storeReconciliation, Table.create,
      newReconciliation]
  · intro q hq
    have hmem := (List.mem_filter.mp hq).1
    exact ⟨(s.reconciliations.lt_next q hmem).ne, hnow q hmem⟩
  · intro i hi
    simp only [viewOf, hmark, newReconciliation] at hi ⊢
    unfold markIn
    cases hfind : s.entries.find? i with
    | none => rfl
    | some e =>
      simp only [hfind] at hi ⊢
      split_ifs at hi ⊢ <;> simp_all
  · intro i hi
    simp only [viewOf, hmark, newReconciliation] at hi ⊢
    unfold markIn
    cases hfind : s.entries.find? i with
    | none => rfl
    | some e =>
      obtain ⟨he, -⟩ := find?_entry hfind
      simp only [hfind] at hi ⊢
      split_ifs at hi ⊢ with haccount hid
      · -- a selected entry had no mark
        have hnone := (hselected e he (List.contains_iff_mem.mp hid)).2.1
        rw [BankEntry.mark, hnone, (h.open_ e he).mp hnone]
        rfl
      · exact absurd hi (hnext e he)
      · rfl

/-- The other accounts look as before. -/
theorem viewOf_reconciled_of_ne (hselected : Selected accountId till ids s) {a : ℕ}
    (ha : a ≠ accountId) :
    viewOf a (reconciled adminId dto accountId till balance ids s) = viewOf a s := by
  have hmarks : markIn a (reconciled adminId dto accountId till balance ids s) = markIn a s := by
    funext i
    rw [markIn_updateWhere (s := s) a i rfl]
    unfold markIn
    cases hfind : s.entries.find? i with
    | none => rfl
    | some e =>
      obtain ⟨he, -⟩ := find?_entry hfind
      dsimp only
      split_ifs with haccount hid
      · exact absurd (haccount.symm.trans (hselected e he (List.contains_iff_mem.mp hid)).1) ha
      · rfl
      · rfl
  unfold viewOf
  rw [hmarks]
  simp [reconciliationsOf, reconciled, storeReconciliation, Table.create, newReconciliation,
    ha.symm]

theorem Consistent.reconcile (h : Consistent calls s) (hselected : Selected accountId till ids s)
    (hnow : ∀ r ∈ s.reconciliations.rows, r.createdAt < s.now)
    (hpending : ∀ a, pending a (calls ++ [c]) =
      if a = accountId then s :: pending a calls else pending a calls) :
    Consistent (calls ++ [c]) (reconciled adminId dto accountId till balance ids s) where
  balanced r hr := by
    rcases mem_reconciled.mp hr with hr | rfl
    · exact h.balanced r hr
    · exact balance_newReconciliation hselected _
  past r hr := by
    rcases mem_reconciled.mp hr with hr | rfl
    · exact h.past r hr
    · exact le_refl s.now
  open_ e he := by
    obtain ⟨e₀, he₀, rfl⟩ := mem_entries_reconciled.mp he
    split
    · simp [BankEntry.withMark]
    · exact h.open_ e₀ he₀
  cleared e he k hk := by
    obtain ⟨e₀, he₀, rfl⟩ := mem_entries_reconciled.mp he
    by_cases hid : ids.contains e₀.id = true
    · rw [if_pos hid] at hk ⊢
      refine ⟨_, mem_reconciled.mpr (.inr rfl), Option.some.inj hk, ?_⟩
      exact (hselected e₀ he₀ (List.contains_iff_mem.mp hid)).1.symm
    · rw [if_neg hid] at hk ⊢
      obtain ⟨r, hr, hkey, haccount⟩ := h.cleared e₀ he₀ k hk
      exact ⟨r, mem_reconciled.mpr (.inl hr), hkey, haccount⟩
  stacked a := by
    rw [hpending]
    split
    · rename_i ha
      subst ha
      exact ⟨⟨_, pushed_reconciled h hselected hnow⟩, h.stacked a⟩
    · rename_i ha
      rw [viewOf_reconciled_of_ne hselected ha]
      exact h.stacked a

end Reconcile

/-! ## Undoing -/

/-- The reconciliation that was pushed is the one that `findFirst` gives. -/
theorem lastReconciliation_of_pushed {v : View} {r : BankReconciliation}
    (h : Pushed v (viewOf a s) r) : lastReconciliation a s = some r := by
  have hrows : reconciliationsOf a s = v.reconciliations ++ [r] := h.reconciliations
  let newer (x y : BankReconciliation) : Prop := y.createdAt ≤ x.createdAt
  have htotal : Std.Total newer := ⟨fun x y => le_total y.createdAt x.createdAt⟩
  have htrans : IsTrans BankReconciliation newer := ⟨fun x y z hxy hyz => le_trans hyz hxy⟩
  have hsorted := List.pairwise_insertionSort newer (reconciliationsOf a s)
  have hperm := List.perm_insertionSort newer (reconciliationsOf a s)
  show ((reconciliationsOf a s).insertionSort newer).head? = some r
  have hr : r ∈ (reconciliationsOf a s).insertionSort newer :=
    hperm.mem_iff.mpr (hrows ▸ List.mem_append_right _ (List.mem_singleton_self r))
  cases hl : (reconciliationsOf a s).insertionSort newer with
  | nil =>
    rw [hl] at hr
    cases hr
  | cons x xs =>
    rw [hl] at hr hsorted hperm
    have hx : x ∈ v.reconciliations ++ [r] :=
      hrows ▸ hperm.mem_iff.mp (List.mem_cons_self ..)
    rcases List.mem_append.mp hx with hx | hx
    · -- an older one cannot come before `r`
      have hlt := (h.newest x hx).2
      rcases List.mem_cons.mp hr with rfl | hr
      · exact absurd hlt (lt_irrefl _)
      · exact absurd ((List.pairwise_cons.mp hsorted).1 r hr) (not_le.mpr hlt)
    · rw [List.mem_singleton.mp hx]
      rfl

/-- Dropping a reconciliation of the account is what undoing its view means. -/
theorem viewOf_dropReconciliation (s : BankDb) (a : ℕ) (r : BankReconciliation) :
    viewOf a (dropReconciliation r.id s) = (viewOf a s).undo r := by
  unfold viewOf View.undo
  congr 1
  · funext i
    rw [markIn_updateWhere (s := s) a i rfl]
    unfold markIn
    cases hfind : s.entries.find? i with
    | none => simp [hfind, unmarked]
    | some e =>
      by_cases haccount : e.accountId = a
      · simp [hfind, haccount, BankEntry.mark, unmarked]
      · simp [hfind, haccount, unmarked]
  · simp only [reconciliationsOf, dropReconciliation, Table.deleteWhere, List.filter_filter]
    refine List.filter_congr fun q _ => ?_
    by_cases hq : q.id = r.id <;> simp [hq, Bool.and_comm]

/-- An account without the reconciliation looks as before. -/
theorem viewOf_dropReconciliation_of_ne (h : Consistent calls s) {r : BankReconciliation}
    (hr : r ∈ s.reconciliations.rows) (ha : a ≠ r.accountId) :
    viewOf a (dropReconciliation r.id s) = viewOf a s := by
  have hsame {q : BankReconciliation} (hq : q ∈ s.reconciliations.rows) (hid : q.id = r.id) :
      q = r := List.inj_on_of_nodup_map s.reconciliations.nodup hq hr hid
  rw [viewOf_dropReconciliation]
  unfold viewOf View.undo
  congr 1
  · funext i
    dsimp only
    split
    · rename_i hi
      unfold markIn at hi
      split at hi
      · rename_i e hfind
        split at hi
        · rename_i haccount
          obtain ⟨q, hq, hid, hqa⟩ := h.cleared e (find?_entry hfind).1 r.id hi
          rw [hsame hq hid] at hqa
          exact absurd (haccount.symm.trans hqa.symm) ha
        · cases hi
      · cases hi
    · rfl
  · rw [List.filter_eq_self]
    intro q hq
    obtain ⟨hmem, hqa⟩ := List.mem_filter.mp hq
    simp only [beq_iff_eq] at hqa
    have hne : q.id ≠ r.id := fun hid => ha (hsame hmem hid ▸ hqa.symm)
    simpa using hne

theorem mem_dropReconciliation {id : ℕ} {r : BankReconciliation} :
    r ∈ (dropReconciliation id s).reconciliations.rows ↔
      r ∈ s.reconciliations.rows ∧ r.id ≠ id := by
  simp only [dropReconciliation, Table.mem_deleteWhere, beq_eq_false_iff_ne]

theorem mem_entries_dropReconciliation {id : ℕ} {e : BankEntry} :
    e ∈ (dropReconciliation id s).entries.rows ↔
      ∃ e₀ ∈ s.entries.rows, (if e₀.reconciliationId == some id then
        e₀.withMark (none, none) else e₀) = e :=
  @Table.mem_updateWhere _ _ s.entries _ _ (BankEntry.id_withMark _) e

theorem Consistent.undo (h : Consistent calls s) {r : BankReconciliation}
    {rest : List BankDb} {before : BankDb} (hr : r ∈ s.reconciliations.rows)
    (hstack : pending r.accountId calls = before :: rest)
    (hpushed : Pushed (viewOf r.accountId before) (viewOf r.accountId s) r)
    (hpending : ∀ a, pending a (calls ++ [c]) =
      if a = r.accountId then (pending a calls).tail else pending a calls) :
    Consistent (calls ++ [c]) (dropReconciliation r.id s) where
  balanced q hq := h.balanced q (mem_dropReconciliation.mp hq).1
  past q hq := h.past q (mem_dropReconciliation.mp hq).1
  open_ e he := by
    obtain ⟨e₀, he₀, rfl⟩ := mem_entries_dropReconciliation.mp he
    split
    · simp [BankEntry.withMark]
    · exact h.open_ e₀ he₀
  cleared e he k hk := by
    obtain ⟨e₀, he₀, rfl⟩ := mem_entries_dropReconciliation.mp he
    by_cases hid : (e₀.reconciliationId == some r.id) = true
    · rw [if_pos hid] at hk
      cases hk
    · rw [if_neg hid] at hk ⊢
      obtain ⟨q, hq, hkey, haccount⟩ := h.cleared e₀ he₀ k hk
      refine ⟨q, mem_dropReconciliation.mpr ⟨hq, fun heq => hid ?_⟩, hkey, haccount⟩
      rw [← heq, hkey, beq_iff_eq]
      exact hk
  stacked a := by
    rw [hpending]
    split
    · rename_i ha
      subst ha
      have hstacked := h.stacked r.accountId
      rw [hstack] at hstacked ⊢
      rw [viewOf_dropReconciliation, hpushed.undo]
      exact hstacked.2
    · rename_i ha
      rw [viewOf_dropReconciliation_of_ne h hr ha]
      exact h.stacked a

/-- A reconciliation that can be undone was pushed last. -/
theorem pushed_of_last (h : Consistent calls s) {last : BankReconciliation}
    (hlast : lastReconciliation a s = some last) :
    last ∈ s.reconciliations.rows ∧ last.accountId = a ∧
      ∃ before rest, pending a calls = before :: rest ∧
        Pushed (viewOf a before) (viewOf a s) last := by
  have hmem : last ∈ reconciliationsOf a s :=
    (List.perm_insertionSort _ _).mem_iff.mp (List.mem_of_mem_head? hlast)
  obtain ⟨hrow, haccount⟩ := List.mem_filter.mp hmem
  refine ⟨hrow, by simpa using haccount, ?_⟩
  have hstacked := h.stacked a
  cases hstack : pending a calls with
  | nil =>
    rw [hstack] at hstacked
    have hnil : reconciliationsOf a s = [] := hstacked.1
    rw [hnil] at hmem
    cases hmem
  | cons before rest =>
    rw [hstack] at hstacked
    obtain ⟨r, hpushed⟩ := hstacked.1
    have hr := lastReconciliation_of_pushed hpushed
    rw [hlast, Option.some.injEq] at hr
    exact ⟨before, rest, rfl, hr ▸ hpushed⟩

/-! ## Runs -/

/-- No entry is marked and nothing is stored. -/
structure NoReconciliations (s : BankDb) : Prop where
  reconciliations : s.reconciliations.rows = []
  entries : ∀ e ∈ s.entries.rows, e.mark = unmarked

theorem NoReconciliations.consistent (h : NoReconciliations s) : Consistent [] s where
  balanced r hr := absurd (h.reconciliations ▸ hr) List.not_mem_nil
  past r hr := absurd (h.reconciliations ▸ hr) List.not_mem_nil
  open_ e he := by
    obtain ⟨h₁, h₂⟩ := Prod.mk.inj (h.entries e he)
    rw [h₁, h₂]
    simp
  cleared e he k hk := by
    obtain ⟨-, h₂⟩ := Prod.mk.inj (h.entries e he)
    rw [h₂] at hk
    cases hk
  stacked a := by
    refine ⟨by simp [viewOf, reconciliationsOf, h.reconciliations], fun i => ?_⟩
    simp only [viewOf, markIn]
    split
    · rename_i e hfind
      rw [h.entries e (find?_entry hfind).1]
      split <;> rfl
    · rfl

/-- Time passes. -/
theorem Consistent.at (h : Consistent calls s) {t : ℤ} (ht : s.now < t) :
    Consistent calls (s.at t) ∧ ∀ r ∈ (s.at t).reconciliations.rows, r.createdAt < (s.at t).now :=
  ⟨⟨h.balanced, fun r hr => (h.past r hr).trans ht.le, h.open_, h.cleared, h.stacked⟩,
    fun r hr => (h.past r hr).trans_lt ht⟩

/-- A call that throws. -/
theorem Consistent.thrown (h : Consistent calls s) (action : BankAction) (e : ApiError) :
    Consistent (calls ++ [⟨s, action, .error e⟩]) s := by
  refine h.of_views rfl le_rfl (fun e he => .inl he) (fun _ => rfl) fun a => ?_
  rw [pending_append]
  unfold pendingStep
  cases action <;> rfl

/-- Every call keeps the state consistent. -/
theorem consistent_run {s₀ : BankDb} (hfresh : NoReconciliations s₀) (hrun : BankRun s₀ calls s) :
    Consistent calls s := by
  induction hrun with
  | start => exact hfresh.consistent
  | @call calls s _ t ht action ih =>
    obtain ⟨hat, hnow⟩ := ih.at ht
    generalize s.at t = s at hat hnow
    cases action with
    | post lines =>
      obtain ⟨hrows, hclock, hentries, hview⟩ := postEntries_entries lines s
      refine hat.of_views (congrArg Table.rows hrows) hclock.ge hentries hview fun a => ?_
      rw [pending_append]
      rfl
    | reconcile adminId dto =>
      rcases Tx.atomic_run (reconcile adminId dto >>= fun r => pure r.1) s with
        ⟨m, s', hok, hrun⟩ | ⟨e, hrun⟩
      · simp only [BankAction.perform, hrun]
        simp only [Tx.ok_bind, Tx.ok_pure] at hok
        obtain ⟨r, s₁, hok, rfl, rfl⟩ := hok
        obtain ⟨accountId, till, balance, ids, haccount, hselected, rfl⟩ := ok_reconcile hok
        refine hat.reconcile hselected hnow fun a => ?_
        rw [pending_append]
        simp only [pendingStep, haccount, Option.some.injEq, eq_comm (a := a)]
      · simp only [BankAction.perform, hrun]
        exact hat.thrown _ e
    | undoLast code =>
      rcases Tx.atomic_run (undoLast code) s with ⟨m, s', hok, hrun⟩ | ⟨e, hrun⟩
      · simp only [BankAction.perform, hrun]
        obtain ⟨accountId, last, haccount, hlast, rfl⟩ := ok_undoLast hok
        obtain ⟨hrow, hid, before, rest, hstack, hpushed⟩ := pushed_of_last hat hlast
        subst hid
        refine hat.undo hrow hstack hpushed fun a => ?_
        rw [pending_append]
        simp only [pendingStep, haccount, Option.some.injEq, eq_comm (a := a)]
      · simp only [BankAction.perform, hrun]
        exact hat.thrown _ e

/-- What `undoLast` does to the rows of an account: the last reconciliation goes, and the
entries have the marks from before it. -/
theorem undo_restores (h : Consistent calls s) {last : BankReconciliation}
    (hlast : lastReconciliation a s = some last) :
    ∃ before rest, pending a calls = before :: rest ∧
      reconciliationsOf a s = reconciliationsOf a before ++ [last] ∧
      (dropReconciliation last.id s).reconciliations.rows =
        s.reconciliations.rows.filter (fun r => r.id ≠ last.id) ∧
      (dropReconciliation last.id s).entries.rows = s.entries.rows.map fun e =>
        if e.accountId = a then e.withMark (markIn a before e.id) else e := by
  obtain ⟨hrow, rfl, before, rest, hstack, hpushed⟩ := pushed_of_last h hlast
  refine ⟨before, rest, hstack, hpushed.reconciliations, ?_, ?_⟩
  · refine List.filter_congr fun r _ => ?_
    by_cases hr : r.id = last.id <;> simp [hr]
  · refine List.map_congr_left fun e he => ?_
    split_ifs with hid haccount haccount
    · -- the mark is the one of the view from before
      have hview := (viewOf_dropReconciliation s last.accountId last).trans hpushed.undo
      have hmark := congrFun (congrArg View.marks hview) e.id
      simp only [viewOf] at hmark
      rw [← hmark, markIn_updateWhere (s := s) last.accountId e.id rfl,
        Table.find?_of_mem he]
      simp [haccount, hid]
    · obtain ⟨q, hq, hqid, hqa⟩ := h.cleared e he last.id (by simpa using hid)
      rw [List.inj_on_of_nodup_map s.reconciliations.nodup hq hrow hqid] at hqa
      exact absurd hqa.symm haccount
    · have hview := (viewOf_dropReconciliation s last.accountId last).trans hpushed.undo
      have hmark := congrFun (congrArg View.marks hview) e.id
      simp only [viewOf] at hmark
      rw [← hmark, markIn_updateWhere (s := s) last.accountId e.id rfl,
        Table.find?_of_mem he]
      simp [haccount, hid]
    · rfl

end BankReconciliationService

open AccountingService BankReconciliationService

/-- Cash with one entry of 1000 rials. -/
def oneEntryBank : BankDb where
  accounts := [⟨1, "1010"⟩]
  entries := Table.empty.create fun id => ⟨id, 1, .debit, 1000, 0, none, none⟩
  reconciliations := .empty
  now := 0

/-- A statement over 1000 rials that ticks off the entry. -/
def cashStatement : BankReconcileDto where
  accountCode := "1010"
  statementDate := .day 0
  statementBalanceRial := some 1000
  entryIds := [0]
  note := none
  allowDifference := false

/-- `oneEntryBank` once the statement is reconciled. -/
def cashReconciled : BankDb :=
  ((BankAction.reconcile 7 cashStatement).perform.run (oneEntryBank.at 1)).2

end ArkanGold
