import ArkanGold.Accounting.Reversal

/-!
# Reversals stand in pairs

Whatever is posted and reversed, and whatever happens to settings, years and the activation of
accounts in between, every reversal among the journals has the entries of one other journal on the
opposite sides. That journal is no reversal itself, no second one reverses it, and the two say
nothing together about any account. Amounts need not fit the columns for this: a reversal is made
from the stored entries. Only `reverseJournal` names the journal that a posting reverses
(`NamesNoReversal`).
-/

namespace ArkanGold

namespace AccountingService

/-- A posting from outside is no reversal. -/
def NamesNoReversal (_ : Books) (e : LedgerEvent) : Prop :=
  match e with
  | .post params => params.reversalOfId = none
  | _ => True

/-- `r` has the entries of `o` on the opposite sides. -/
structure Mirrors (o r : JournalEntry) : Prop where
  original : o.reversalOfId = none
  entries : r.ledgerEntries = o.ledgerEntries.map reversedEntry

/-- The invariant: entries have their accounts, and reversals their originals. -/
structure ReversalsPaired (s : Books) : Prop where
  covered : ∀ j ∈ s.journals.rows, ∀ e ∈ j.ledgerEntries,
    ∃ a, s.accounts.find? e.accountId = some a
  paired : ∀ r ∈ s.journals.rows, ∀ k, r.reversalOfId = some k →
    ∃ o ∈ s.journals.rows, o.id = k ∧ Mirrors o r
  once : ∀ r ∈ s.journals.rows, ∀ r' ∈ s.journals.rows, ∀ k, r.reversalOfId = some k →
    r'.reversalOfId = some k → r' = r

theorem mem_journals_of_write {params : JournalInput} {posted : List PostedLine} {s : Books} :
    ∃ new : JournalEntry, new.reversalOfId = params.reversalOfId ∧
      new.ledgerEntries = posted.map ledgerEntry ∧
      ∀ j, j ∈ (write params posted s).journals.rows ↔ j ∈ s.journals.rows ∨ j = new :=
  ⟨_, rfl, rfl, fun _ => Table.mem_create⟩

/-- Accounts stay under their ids when balances move. -/
theorem find?_account_write {params : JournalInput} {posted : List PostedLine} {s : Books} {k : ℕ}
    (h : ∃ a, s.accounts.find? k = some a) :
    ∃ a, (write params posted s).accounts.find? k = some a := by
  obtain ⟨a, ha⟩ := h
  rw [accounts_write, find?_updateBalances, ha]
  exact ⟨_, rfl⟩

namespace ReversalsPaired

variable {s s' : Books}

/-- A posting keeps the pairs if it is no reversal, or the first one of a journal that is none. -/
theorem write {params : JournalInput} {posted : List PostedLine} (h : ReversalsPaired s)
    (hposting : Posting s params posted)
    (hnew : ∀ k, params.reversalOfId = some k →
      (∀ j ∈ s.journals.rows, j.reversalOfId ≠ some k) ∧
        ∃ o ∈ s.journals.rows, o.id = k ∧ o.reversalOfId = none ∧
          posted.map ledgerEntry = o.ledgerEntries.map reversedEntry) :
    ReversalsPaired (AccountingService.write params posted s) := by
  obtain ⟨new, hnames, hentries, hrows⟩ := @mem_journals_of_write params posted s
  constructor
  · intro j hj e he
    rcases (hrows j).mp hj with hj | rfl
    · exact find?_account_write (h.covered j hj e he)
    · rw [hentries] at he
      obtain ⟨x, hx, rfl⟩ := List.mem_map.mp he
      exact find?_account_write ⟨x.account, hposting.find?_account hx⟩
  · intro r hr k hk
    rcases (hrows r).mp hr with hr | rfl
    · obtain ⟨o, ho, hid, hmirrors⟩ := h.paired r hr k hk
      exact ⟨o, (hrows o).mpr (.inl ho), hid, hmirrors⟩
    · obtain ⟨-, o, ho, hid, horiginal, hreversed⟩ := hnew k (hnames ▸ hk)
      exact ⟨o, (hrows o).mpr (.inl ho), hid, horiginal, hentries.trans hreversed⟩
  · intro r hr r' hr' k hk hk'
    rcases (hrows r).mp hr with hr | rfl
    · rcases (hrows r').mp hr' with hr' | rfl
      · exact h.once r hr r' hr' k hk hk'
      · exact absurd hk ((hnew k (hnames ▸ hk')).1 r hr)
    · rcases (hrows r').mp hr' with hr' | rfl
      · exact absurd hk' ((hnew k (hnames ▸ hk)).1 r' hr')
      · rfl

/-- What happens around the ledger moves no account to another id. -/
theorem sameLedger (h : ReversalsPaired s) (hsame : SameLedger s s') : ReversalsPaired s' := by
  obtain ⟨hjournals, hrows⟩ := hsame
  have hids : s'.accounts.rows.map Account.id = s.accounts.rows.map Account.id := by
    have := congrArg (List.map Prod.fst) hrows
    simpa [List.map_map, Function.comp_def] using this
  constructor
  · intro j hj e he
    rw [hjournals] at hj
    obtain ⟨a, ha⟩ := h.covered j hj e he
    have hmem : e.accountId ∈ s'.accounts.rows.map Account.id := by
      rw [hids, ← Table.key_of_find? ha]
      exact List.mem_map_of_mem (Table.mem_of_find? ha)
    obtain ⟨a', ha', hid⟩ := List.mem_map.mp hmem
    exact ⟨a', hid ▸ Chart.find?_of_mem ha'⟩
  · rw [hjournals]
    exact h.paired
  · rw [hjournals]
    exact h.once

/-- **Step lemma**: every step keeps the pairs. -/
theorem step {e : LedgerEvent} (h : ReversalsPaired s) (hnames : NamesNoReversal s e)
    (hstep : LedgerStep s e s') : ReversalsPaired s' := by
  cases e with
  | post params =>
    obtain ⟨id, hok⟩ := hstep
    obtain ⟨posted, hposting, -, rfl⟩ := postJournal_ok hok
    refine h.write hposting fun k hk => ?_
    rw [show params.reversalOfId = none from hnames] at hk
    cases hk
  | reverse journalId opts =>
    obtain ⟨id, hok⟩ := hstep
    obtain ⟨original, posted, hfind, horiginal, hfree, hposting, -, rfl⟩ := reverseJournal_ok hok
    have hmem := Table.mem_of_find? hfind
    have hid : original.id = journalId := Table.key_of_find? hfind
    refine h.write hposting fun k hk => ?_
    obtain rfl : original.id = k := Option.some.inj hk
    refine ⟨hid ▸ hfree, original, hmem, rfl, horiginal, ?_⟩
    exact entries_of_reversal hposting (h.covered original hmem)
  | environment => exact h.sameLedger hstep

end ReversalsPaired

/-- Along every run each reversal mirrors a journal that is none, the two cancel out in rials and
in grams on every account, and no other journal reverses that journal. -/
theorem reversals_cancel {s s' : Books} (hempty : s.journals.rows = [])
    (hrun : Runs LedgerStep NamesNoReversal s s') {r : JournalEntry} (hr : r ∈ s'.journals.rows)
    {k : ℕ} (hk : r.reversalOfId = some k) :
    (∃ o ∈ s'.journals.rows, o.id = k ∧ Mirrors o r ∧
      ∀ c account, moved c s' (o.ledgerEntries ++ r.ledgerEntries) account = 0) ∧
    ∀ r' ∈ s'.journals.rows, r'.reversalOfId = some k → r' = r := by
  have hstart : ReversalsPaired s := by
    constructor <;> simp [hempty]
  have hpaired := hrun.invariant hstart fun _ _ _ h hnames hstep => h.step hnames hstep
  obtain ⟨o, ho, hid, hmirrors⟩ := hpaired.paired r hr k hk
  refine ⟨⟨o, ho, hid, hmirrors, fun c account => ?_⟩, fun r' hr' hk' =>
    hpaired.once r hr r' hr' k hk hk'⟩
  have happend : moved c s' (o.ledgerEntries ++ r.ledgerEntries) account =
      moved c s' o.ledgerEntries account + moved c s' r.ledgerEntries account :=
    DoubleEntry.balance_append ..
  rw [happend, hmirrors.entries, moved_reversed, add_neg_cancel]

/-- The books after the withdrawal of one rial was reversed. -/
def reversedBooks : Books := ((reverseJournal 0).run oneRialBooks).2

/-- `reversals_cancel` for a withdrawal that is taken back. -/
theorem reversals_cancel_oneRial : ∃ r ∈ reversedBooks.journals.rows, r.reversalOfId = some 0 ∧
    (∃ o ∈ reversedBooks.journals.rows, o.id = 0 ∧ Mirrors o r ∧
      ∀ c account, moved c reversedBooks (o.ledgerEntries ++ r.ledgerEntries) account = 0) ∧
    ∀ r' ∈ reversedBooks.journals.rows, r'.reversalOfId = some 0 → r' = r := by
  have hreversed : LedgerStep oneRialBooks (.reverse 0 {}) reversedBooks :=
    ⟨1, Tx.ok_run (by decide +kernel)⟩
  have hrun : Runs LedgerStep NamesNoReversal cashBooks reversedBooks :=
    .tail (.single (e := .post (transferJournal "2010" "1010" 1)) rfl step_oneRialBooks)
      (e := .reverse 0 {}) trivial hreversed
  have hany : (reversedBooks.journals.rows.any fun r => r.reversalOfId == some 0) = true := by
    decide +kernel
  obtain ⟨r, hr, hk⟩ := List.any_eq_true.mp hany
  exact ⟨r, hr, beq_iff_eq.mp hk, reversals_cancel rfl hrun hr (beq_iff_eq.mp hk)⟩

end AccountingService

end ArkanGold
