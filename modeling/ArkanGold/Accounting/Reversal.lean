import ArkanGold.Accounting.LedgerIntegrity

/-!
# What a reversal takes back

`reverseJournal` posts the lines of a journal with the sides exchanged.

- `balanceAt_write`: a posting moves each balance by what its entries say.
- `balanceAt_reversal`: the posting of a reversal moves it by the opposite of what the
  entries of the original say, in rial and in grams.
- `checkJournal_reversal`: the books admit the reversal of a balanced journal exactly when
  its accounts are active and it has not been reversed.
-/

namespace ArkanGold

open DoubleEntry

namespace AccountingService

/-- The stored balance of the account with the id `k`. -/
def balanceAt (c : Commodity) (s : Books) (k : ℕ) : ℤ :=
  ((s.accounts.find? k).map c.balance).getD 0

/-- What entries say about the account with the id `k`. -/
def moved (c : Commodity) (s : Books) (entries : List LedgerEntry) (k : ℕ) : ℤ :=
  entryBalance c ((s.codeOf k).getD "") entries k

variable (c : Commodity)

theorem moved_eq_zero {s : Books} {entries : List LedgerEntry} {k : ℕ}
    (h : ∀ e ∈ entries, e.accountId ≠ k) : moved c s entries k = 0 :=
  balance_eq_zero _ _ _ _ h

/-- Entries say the same wherever their accounts have the same codes. -/
theorem moved_congr {s s' : Books} {entries : List LedgerEntry}
    (h : ∀ e ∈ entries, s'.codeOf e.accountId = s.codeOf e.accountId) (k : ℕ) :
    moved c s' entries k = moved c s entries k := by
  by_cases hk : ∃ e ∈ entries, e.accountId = k
  · obtain ⟨e, he, rfl⟩ := hk
    rw [moved, moved, h e he]
  · have hne : ∀ e ∈ entries, e.accountId ≠ k := fun e he hek => hk ⟨e, he, hek⟩
    rw [moved_eq_zero c hne, moved_eq_zero c hne]

/-- The account of a posted line stands in the chart under its id and its code. -/
theorem Posting.find?_account {s : Books} {params : JournalInput} {posted : List PostedLine}
    (h : Posting s params posted) {x : PostedLine} (hx : x ∈ posted) :
    s.accounts.find? x.account.id = some x.account :=
  Chart.find?_of_findByCode (h.found x hx)

/-- A posting whose amounts fit moves each balance by what its entries say. -/
theorem balanceAt_write {s : Books} {params params' : JournalInput} {posted : List PostedLine}
    (h : Posting s params posted)
    (hfits : ∀ l ∈ params.lines, Numeric.Fits c.scale (c.lineAmount l)) (k : ℕ) :
    balanceAt c (write params' posted s) k =
      balanceAt c s k + moved c s (posted.map ledgerEntry) k := by
  simp only [balanceAt, accounts_write, find?_updateBalances]
  cases hk : s.accounts.find? k with
  | none =>
    have hne : ∀ e ∈ posted.map ledgerEntry, e.accountId ≠ k := by
      intro e he hek
      obtain ⟨x, hx, rfl⟩ := List.mem_map.mp he
      have hfind := h.find?_account hx
      rw [show x.account.id = k from hek, hk] at hfind
      cases hfind
    simp [moved_eq_zero c hne]
  | some a =>
    have hid : a.id = k := Table.key_of_find? hk
    have hcode : ∀ x ∈ posted, x.account.id = a.id → x.account.code = a.code := by
      intro x hx hxa
      have hfind := h.find?_account hx
      rw [hxa, hid, hk, Option.some.injEq] at hfind
      rw [hfind]
    have hfoldl := balance_foldl_receive c posted a (balanced_entries c h hfits).1 hcode
    simp only [Option.map_some, Option.getD_some, hfoldl, hid]
    rw [moved, Books.codeOf, hk, Option.map_some, Option.getD_some]

/-! ## The entries of a reversal -/

/-- An entry on the other side. -/
def reversedEntry (e : LedgerEntry) : LedgerEntry := { e with side := e.side.opposite }

theorem moved_reversed (s : Books) (entries : List LedgerEntry) (k : ℕ) :
    moved c s (entries.map reversedEntry) k = -moved c s entries k := by
  refine balance_reverse _ _ _ _ reversedEntry (fun _ _ => rfl) (fun _ _ => rfl) (fun e _ => ?_) k
  exact c.amount_side e _

/-- The lines of a reversal go to the accounts of the entries. -/
theorem entries_of_reversal {s : Books} {original : JournalEntry} {opts : ReversalOptions}
    {posted : List PostedLine} (h : Posting s (reversalOf s original opts) posted)
    (hfound : ∀ e ∈ original.ledgerEntries, ∃ a, s.accounts.find? e.accountId = some a) :
    posted.map ledgerEntry = original.ledgerEntries.map reversedEntry := by
  have hlines : posted.map PostedLine.line = reversedLines s original := h.lines
  have hlen : posted.length = original.ledgerEntries.length := by
    simpa [reversedLines] using congrArg List.length hlines
  refine List.ext_getElem (by simpa using hlen) fun i hi hi' => ?_
  rw [List.length_map] at hi hi'
  obtain ⟨a, ha⟩ := hfound _ (List.getElem_mem hi')
  have hline : posted[i].line =
      { accountCode := (s.codeOf original.ledgerEntries[i].accountId).getD ""
        side := original.ledgerEntries[i].side.opposite
        amountRial := Numeric.ofScale rialScale original.ledgerEntries[i].amountRial
        amountGrams := Numeric.ofScale gramScale original.ledgerEntries[i].amountGrams
        description := original.ledgerEntries[i].description } := by
    have hget := congrArg (fun l => l[i]?) hlines
    simpa [reversedLines, hi, hi'] using hget
  have hcode : posted[i].line.accountCode = a.code := by
    rw [hline, Books.codeOf, ha]
    rfl
  have hacc : posted[i].account = a := by
    have hfind := h.found _ (List.getElem_mem hi)
    rw [hcode, Chart.findByCode_eq_some.mpr ⟨Table.mem_of_find? ha, rfl⟩] at hfind
    exact (Option.some.inj hfind).symm
  rw [List.getElem_map, List.getElem_map, ledgerEntry, hacc, hline]
  simp [reversedEntry, show a.id = _ from Table.key_of_find? ha]

/-- **The posting of a reversal** moves each balance by the opposite of what the original
says. -/
theorem balanceAt_reversal {s : Books} {original : JournalEntry} {opts : ReversalOptions}
    {params' : JournalInput} {posted : List PostedLine}
    (h : Posting s (reversalOf s original opts) posted)
    (hfound : ∀ e ∈ original.ledgerEntries, ∃ a, s.accounts.find? e.accountId = some a)
    (hc : ∀ l, Numeric.Fits rialScale l.amountRial → Numeric.Fits gramScale l.amountGrams →
      Numeric.Fits c.scale (c.lineAmount l)) (k : ℕ) :
    balanceAt c (write params' posted s) k =
      balanceAt c s k - moved c s original.ledgerEntries k := by
  have hfits : ∀ l ∈ (reversalOf s original opts).lines,
      Numeric.Fits c.scale (c.lineAmount l) := fun l hl =>
    hc l (fits_reversedLines s original l hl).1 (fits_reversedLines s original l hl).2
  rw [balanceAt_write c h hfits, entries_of_reversal h hfound, moved_reversed, sub_eq_add_neg]

/-! ## When the books admit a reversal -/

/-- The accounts of the entries are in the chart, and active. -/
def AccountsActive (s : Books) (entries : List LedgerEntry) : Prop :=
  ∀ e ∈ entries, ∃ a, s.accounts.find? e.accountId = some a ∧ a.isActive = true

/-- No journal reverses the journal with this id. -/
def NotReversed (s : Books) (journalId : ℕ) : Prop :=
  ∀ j ∈ s.journals.rows, j.reversalOfId ≠ some journalId

instance (s : Books) (journalId : ℕ) : Decidable (NotReversed s journalId) :=
  inferInstanceAs (Decidable (∀ j ∈ s.journals.rows, _))

theorem getRequiredAccounts_of_found {chart : Chart} {codes : List String}
    (h : ∀ code ∈ codes, ∃ a, chart.findByCode code = some a) :
    ∃ accounts, getRequiredAccounts chart codes = .ok accounts := by
  induction codes with
  | nil => exact ⟨[], rfl⟩
  | cons code codes ih =>
    obtain ⟨accounts, hrest⟩ := ih fun code' hc => h code' (List.mem_cons_of_mem code hc)
    obtain ⟨a, ha⟩ := h code List.mem_cons_self
    exact ⟨a :: accounts, by rw [getRequiredAccounts, ha, hrest]; rfl⟩

theorem assertActive_of {accounts : List Account} (h : ∀ a ∈ accounts, a.isActive = true) :
    assertActive accounts = .ok () := by
  induction accounts with
  | nil => rfl
  | cons a as ih =>
    rw [assertActive, if_pos (h a List.mem_cons_self)]
    exact ih fun b hb => h b (List.mem_cons_of_mem a hb)

/-- Every account that is required was required for some code. -/
theorem mem_getRequiredAccounts {chart : Chart} {codes : List String} {accounts : List Account}
    (h : getRequiredAccounts chart codes = .ok accounts) {a : Account} (ha : a ∈ accounts) :
    a.code ∈ codes := by
  induction codes generalizing accounts with
  | nil =>
    cases h
    cases ha
  | cons code codes ih =>
    rw [getRequiredAccounts] at h
    cases hf : chart.findByCode code with
    | none =>
      rw [hf] at h
      cases h
    | some b =>
      rw [hf] at h
      cases hr : getRequiredAccounts chart codes with
      | error e =>
        rw [hr] at h
        cases h
      | ok rest =>
        rw [hr] at h
        cases h
        rcases List.mem_cons.mp ha with rfl | ha
        · exact List.mem_cons.mpr (.inl (Chart.code_of_findByCode hf))
        · exact List.mem_cons_of_mem code (ih hr ha)

/-- The converse of `checkJournal_ok`. -/
theorem checkJournal_of {params : JournalInput} {s : Books}
    (hbal : assertBalanced params.lines = true)
    (hdate : ∀ d, checksDate params = some d → assertPostingDateAllowed s d = .ok ())
    (hacc : ∀ l ∈ redirectedLines s params,
      ∃ a, s.accounts.findByCode l.accountCode = some a ∧ a.isActive = true)
    (hfree : reversalFree s params = true) : ∃ posted, (checkJournal params).Ok s posted s := by
  have hcodes : ∀ code ∈ ((redirectedLines s params).map LedgerLineInput.accountCode).eraseDups,
      ∃ l ∈ redirectedLines s params, l.accountCode = code := by
    intro code hcode
    rw [List.mem_eraseDups] at hcode
    exact List.mem_map.mp hcode
  obtain ⟨accounts, haccounts⟩ := (@getRequiredAccounts_of_found s.accounts)
    fun code hcode => by
      obtain ⟨l, hl, rfl⟩ := hcodes code hcode
      obtain ⟨a, ha, -⟩ := hacc l hl
      exact ⟨a, ha⟩
  have hactive : assertActive accounts = .ok () := by
    refine assertActive_of fun a ha => ?_
    obtain ⟨l, hl, hcode⟩ := hcodes _ (mem_getRequiredAccounts haccounts ha)
    obtain ⟨b, hb, hb'⟩ := hacc l hl
    rw [hcode, (getRequiredAccounts_ok haccounts).2 a ha, Option.some.injEq] at hb
    rwa [hb]
  refine ⟨attachAccounts accounts (redirectedLines s params), ?_⟩
  simp only [checkJournal, redirectCash_eq, Tx.ok_bind, Tx.ok_check, Tx.ok_get, Tx.ok_ofExcept,
    Tx.ok_pure, Except.ok.injEq]
  refine ⟨(), s, ⟨hbal, rfl⟩, s, s, ⟨rfl, rfl⟩, _, s, ⟨rfl, rfl⟩, (), s, ⟨?_, rfl⟩, accounts, s,
    ⟨haccounts, rfl⟩, (), s, ⟨hactive, rfl⟩, (), s, ⟨hfree, rfl⟩, rfl, rfl⟩
  split
  · rename_i d hd
    exact hdate d hd
  · rfl

/-- The lines of a reversal are balanced if the entries are. -/
theorem assertBalanced_reversedLines (s : Books) {original : JournalEntry}
    (hrial : Balanced LedgerEntry.side LedgerEntry.amountRial original.ledgerEntries)
    (hgrams : Balanced LedgerEntry.side LedgerEntry.amountGrams original.ledgerEntries) :
    assertBalanced (reversedLines s original) = true := by
  -- in decimals the entries are balanced as well, and the lines are these on the other side
  have decimals : ∀ (scale : ℕ) (amount : LedgerEntry → ℤ),
      Balanced LedgerEntry.side amount original.ledgerEntries →
      Balanced LedgerEntry.side (fun e => Numeric.ofScale scale (amount e))
        original.ledgerEntries := by
    intro scale amount h
    have hmap := congrArg (Numeric.ofScaleHom scale) h
    rwa [map_total, map_total] at hmap
  have h₁ : Balanced LedgerLineInput.side LedgerLineInput.amountRial (reversedLines s original) :=
    balanced_reverse _ _ _ (fun _ _ => rfl) (fun _ _ => rfl) (decimals rialScale _ hrial)
  have h₂ : Balanced LedgerLineInput.side LedgerLineInput.amountGrams (reversedLines s original) :=
    balanced_reverse _ _ _ (fun _ _ => rfl) (fun _ _ => rfl) (decimals gramScale _ hgrams)
  simp only [assertBalanced, Bool.and_eq_true, beq_iff_eq]
  exact ⟨h₁, h₂⟩

/-- **Admission of a reversal**: of a balanced journal whose accounts are in the chart,
exactly when these are active and no journal reverses it already. -/
theorem checkJournal_reversal {s : Books} {original : JournalEntry} {opts : ReversalOptions}
    (hrial : Balanced LedgerEntry.side LedgerEntry.amountRial original.ledgerEntries)
    (hgrams : Balanced LedgerEntry.side LedgerEntry.amountGrams original.ledgerEntries)
    (hfound : ∀ e ∈ original.ledgerEntries, ∃ a, s.accounts.find? e.accountId = some a) :
    (∃ posted, (checkJournal (reversalOf s original opts)).Ok s posted s) ↔
      AccountsActive s original.ledgerEntries ∧ NotReversed s original.id := by
  have hfree : reversalFree s (reversalOf s original opts) = true ↔ NotReversed s original.id := by
    simp [reversalFree, reversalOf, NotReversed]
  constructor
  · rintro ⟨posted, h⟩
    obtain ⟨hposting, -⟩ := checkJournal_ok h
    refine ⟨fun e he => ?_, hfree.mp hposting.fresh⟩
    obtain ⟨a, ha⟩ := hfound e he
    have hentry : reversedEntry e ∈ posted.map ledgerEntry := by
      rw [entries_of_reversal hposting hfound]
      exact List.mem_map_of_mem he
    obtain ⟨x, hx, hxe⟩ := List.mem_map.mp hentry
    have hid : x.account.id = e.accountId := congrArg LedgerEntry.accountId hxe
    have hfind := hposting.find?_account hx
    rw [hid, ha, Option.some.injEq] at hfind
    exact ⟨a, ha, hfind ▸ hposting.active x hx⟩
  · rintro ⟨hactive, hnot⟩
    refine checkJournal_of (assertBalanced_reversedLines s hrial hgrams) (fun d hd => ?_)
      (fun l hl => ?_) (hfree.mpr hnot)
    · simp [checksDate, reversalOf] at hd
    · have hl : l ∈ reversedLines s original := hl
      obtain ⟨e, he, rfl⟩ := List.mem_map.mp hl
      obtain ⟨a, ha, hact⟩ := hactive e he
      refine ⟨a, ?_, hact⟩
      rw [Books.codeOf, ha]
      exact Chart.findByCode_eq_some.mpr ⟨Table.mem_of_find? ha, rfl⟩

end AccountingService

end ArkanGold
