import ArkanGold.Accounting.Reversal

/-!
# Control accounts

Some accounts of the general ledger are controlled by a ledger of their own: what the
partners owe, what the agents' wallets hold. The account is named by its code, and a
journal may have been checked on older books than those it is written to.

- `ChartKept`: accounts are not renumbered.
- `entryEffect` and `lineEffect`: what entries, and lines before they are posted, do to the
  account with a code.
- `balanceOf_write`: the balance of that account moves by the effect of the entries.
- `BooksGrow`: journals keep their entries and sound ones are added; `JournalAdded` is the
  addition of one journal.
-/

namespace ArkanGold

open DoubleEntry

namespace AccountingService

variable (c : Commodity) {b b' b'' : Books} {posted : List PostedLine}

/-- The stored balance of the account with a code. -/
def balanceOf (b : Books) (code : String) : ℤ :=
  ((b.accounts.findByCode code).map c.balance).getD 0

/-- What an amount does to an account with the code. -/
def sideEffect (code : String) (side : LedgerSide) (amount : ℤ) : ℤ :=
  if side = natureOf code then amount else -amount

/-- What entries do to the account with a code. -/
def entryEffect (b : Books) (code : String) (entries : List LedgerEntry) : ℤ :=
  (entries.map fun e =>
    if b.codeOf e.accountId = some code then sideEffect code e.side (c.amount e) else 0).sum

/-- What lines do to the account with a code. -/
def lineEffect (code : String) (lines : List LedgerLineInput) : ℤ :=
  (lines.map fun l => if l.accountCode = code then
    sideEffect code l.side (Numeric.toScale c.scale (c.lineAmount l)) else 0).sum

/-- The accounts keep their codes. -/
def ChartKept (b b' : Books) : Prop := ∀ k code, b.codeOf k = some code → b'.codeOf k = some code

theorem ChartKept.refl (b : Books) : ChartKept b b := fun _ _ h => h

theorem ChartKept.trans (h : ChartKept b b') (h' : ChartKept b' b'') : ChartKept b b'' :=
  fun k code hk => h' k code (h k code hk)

/-- The lines of a posting stand under accounts of the chart. -/
def InChart (b : Books) (posted : List PostedLine) : Prop :=
  ∀ x ∈ posted, b.codeOf x.account.id = some x.line.accountCode ∧
    x.account.code = x.line.accountCode

theorem Posting.inChart {params : JournalInput} (h : Posting b params posted) :
    InChart b posted := by
  intro x hx
  have hcode := Chart.code_of_findByCode (h.found x hx)
  refine ⟨?_, hcode⟩
  rw [Books.codeOf, h.find?_account hx, Option.map_some, hcode]

theorem InChart.kept (h : InChart b posted) (hkept : ChartKept b b') : InChart b' posted :=
  fun x hx => ⟨hkept _ _ (h x hx).1, (h x hx).2⟩

/-- Two ids with one code are one account. -/
theorem id_of_code {b : Books} {code : String} {a : Account}
    (ha : b.accounts.findByCode code = some a) {k : ℕ} :
    b.codeOf k = some code ↔ k = a.id := by
  have hfind := Chart.find?_of_findByCode ha
  have hcode := Chart.code_of_findByCode ha
  constructor
  · intro h
    obtain ⟨a', ha', hcode'⟩ := Option.map_eq_some_iff.mp h
    have hby : b.accounts.findByCode code = some a' :=
      Chart.findByCode_eq_some.mpr ⟨Table.mem_of_find? ha', hcode'⟩
    rw [ha, Option.some.injEq] at hby
    rw [hby]
    exact (Table.key_of_find? ha').symm
  · rintro rfl
    rw [Books.codeOf, hfind, Option.map_some, hcode]

theorem no_code {b : Books} {code : String} (h : b.accounts.findByCode code = none) (k : ℕ) :
    b.codeOf k ≠ some code := by
  intro hk
  obtain ⟨a, ha, hcode⟩ := Option.map_eq_some_iff.mp hk
  rw [Chart.findByCode_eq_some.mpr ⟨Table.mem_of_find? ha, hcode⟩] at h
  cases h

/-- On the account itself, the effect is the balance over the entries. -/
theorem entryEffect_eq {b : Books} {code : String} {a : Account}
    (ha : b.accounts.findByCode code = some a) (entries : List LedgerEntry) :
    entryEffect c b code entries = entryBalance c a.code entries a.id := by
  rw [entryEffect, entryBalance, balance, Chart.code_of_findByCode ha]
  congr 1
  refine List.map_congr_left fun e _ => ?_
  simp only [id_of_code ha]
  rfl

/-- **The balance of the account moves by the effect of the entries.** -/
theorem balanceOf_write {params' : JournalInput} (hchart : InChart b posted)
    (hfits : ∀ x ∈ posted, Numeric.Fits c.scale (c.lineAmount x.line)) (code : String) :
    balanceOf c (write params' posted b) code =
      balanceOf c b code + entryEffect c b code (posted.map ledgerEntry) := by
  rw [balanceOf, balanceOf, accounts_write, findByCode_updateBalances]
  cases ha : b.accounts.findByCode code with
  | none =>
    have hzero : entryEffect c b code (posted.map ledgerEntry) = 0 := by
      rw [entryEffect, List.sum_eq_zero]
      intro x hx
      obtain ⟨e, -, rfl⟩ := List.mem_map.mp hx
      exact if_neg (no_code ha _)
    simp [hzero]
  | some a =>
    have hcode : ∀ x ∈ posted, x.account.id = a.id → x.account.code = a.code := by
      intro x hx hid
      have hx' := hchart x hx
      rw [hid, (id_of_code ha).mpr rfl, Option.some.injEq] at hx'
      rw [hx'.2, ← hx'.1, Chart.code_of_findByCode ha]
    simp only [Option.map_some, Option.getD_some]
    rw [balance_foldl_receive c posted a hfits hcode, entryEffect_eq c ha]

/-- Before and after the posting the effect is that of the lines. -/
theorem entryEffect_posted (hchart : InChart b posted) (code : String) :
    entryEffect c b code (posted.map ledgerEntry) =
      lineEffect c code (posted.map PostedLine.line) := by
  rw [entryEffect, lineEffect, List.map_map, List.map_map]
  congr 1
  refine List.map_congr_left fun x hx => ?_
  have hcode : b.codeOf (ledgerEntry x).accountId = some x.line.accountCode := (hchart x hx).1
  simp only [Function.comp_apply, hcode, Option.some.injEq, c.amount_ledgerEntry]
  rfl

/-- The entries of a posting are its lines, on any books that have the accounts. -/
theorem entries_posted {params : JournalInput} (h : Posting b params posted) (hkept : ChartKept b b') :
    (posted.map ledgerEntry).map
        (fun e => (b'.codeOf e.accountId, e.side, e.amountRial, e.amountGrams)) =
      (redirectedLines b params).map fun l => (some l.accountCode, l.side,
        Numeric.toScale rialScale l.amountRial, Numeric.toScale gramScale l.amountGrams) := by
  rw [← h.lines, List.map_map, List.map_map]
  refine List.map_congr_left fun x hx => ?_
  have hcode : b'.codeOf (ledgerEntry x).accountId = some x.line.accountCode :=
    hkept _ _ (h.inChart x hx).1
  simp only [Function.comp_apply, hcode]
  rfl

/-- The operating bank account is one of cash and banks, whoever chooses it. -/
theorem startsWith_of_resolved {explicit configKey : Option String} {code : String}
    (h : resolveBankAccount b explicit configKey = .ok code) :
    code.startsWith CASH_ROOT_CODE = true := by
  unfold resolveBankAccount at h
  dsimp only at h
  split at h
  · exact Except.ok.inj h ▸ operatingBankAccount_startsWith b configKey
  · split at h
    · cases h
    · rename_i hbank
      split at h
      · cases h
      · split at h
        · cases h
        · split at h
          · cases h
          · obtain rfl := Except.ok.inj h
            rw [Bool.not_eq_true, Bool.not_eq_false', isBankCode, Bool.and_eq_true] at hbank
            exact hbank.1

/-- Cash that is redirected does not reach an account that is no cash account. -/
theorem lineEffect_redirected (b : Books) (params : JournalInput) {code : String}
    (hcode : code.startsWith CASH_ROOT_CODE = false) :
    lineEffect c code (redirectedLines b params) = lineEffect c code params.lines := by
  obtain ⟨redirect, hredirect, hlines⟩ := redirectedLines_eq_map b params
  rw [hlines, lineEffect, lineEffect, List.map_map]
  congr 1
  refine List.map_congr_left fun l _ => ?_
  simp only [Function.comp_apply, c.lineAmount_code]
  rcases hredirect l.accountCode with h | ⟨h, hcash⟩
  · rw [h]
  · have hne : redirect l.accountCode ≠ code := by
      intro heq
      rw [heq, hcode] at hcash
      cases hcash
    have hne' : l.accountCode ≠ code := by
      rintro rfl
      have hroot : CASH_ROOT_CODE.startsWith CASH_ROOT_CODE = true := by decide +kernel
      rw [h, hroot] at hcode
      cases hcode
    rw [if_neg hne, if_neg hne']

/-- What a posting does to an account that is no cash account, whatever books it reaches. -/
theorem balanceOf_posting {params params' : JournalInput} (h : Posting b params posted)
    (hkept : ChartKept b b')
    (hfits : ∀ l ∈ params.lines, Numeric.Fits c.scale (c.lineAmount l)) {code : String}
    (hcode : code.startsWith CASH_ROOT_CODE = false) :
    balanceOf c (write params' posted b') code =
      balanceOf c b' code + lineEffect c code params.lines := by
  have hchart := h.inChart.kept hkept
  rw [balanceOf_write c hchart (balanced_entries c h hfits).1, entryEffect_posted c hchart, h.lines,
    lineEffect_redirected c b params hcode]

/-- Reversed entries have the opposite effect. -/
theorem entryEffect_reversed (b : Books) (code : String) (entries : List LedgerEntry) :
    entryEffect c b code (entries.map reversedEntry) = -entryEffect c b code entries := by
  induction entries with
  | nil => rfl
  | cons e entries ih =>
    have hamount : c.amount (reversedEntry e) = c.amount e := c.amount_side e _
    have heffect : sideEffect code e.side.opposite (c.amount e) =
        -sideEffect code e.side (c.amount e) := by
      unfold sideEffect
      cases e.side <;> cases natureOf code <;> simp [Side.opposite]
    have hcons : ∀ (e : LedgerEntry) es, entryEffect c b code (e :: es) =
        (if b.codeOf e.accountId = some code then sideEffect code e.side (c.amount e) else 0) +
          entryEffect c b code es := fun _ _ => List.sum_cons
    rw [List.map_cons, hcons, hcons, ih, hamount, neg_add]
    congr 1
    simp only [reversedEntry, heffect]
    split <;> simp

/-- Entries have the same effect as long as their accounts are there. -/
theorem entryEffect_kept {code : String} {entries : List LedgerEntry} (hkept : ChartKept b b')
    (hcovered : ∀ e ∈ entries, ∃ code, b.codeOf e.accountId = some code) :
    entryEffect c b' code entries = entryEffect c b code entries := by
  rw [entryEffect, entryEffect]
  congr 1
  refine List.map_congr_left fun e he => ?_
  obtain ⟨code', hcode'⟩ := hcovered e he
  rw [hcode', hkept _ _ hcode']

/-- A posting keeps the chart. -/
theorem chartKept_write (params' : JournalInput) (posted : List PostedLine) (b : Books) :
    ChartKept b (write params' posted b) := by
  intro k code hk
  rw [Books.codeOf, accounts_write, find?_updateBalances]
  obtain ⟨a, ha, hcode⟩ := Option.map_eq_some_iff.mp hk
  obtain ⟨rial, grams, h⟩ := foldl_receive posted a
  rw [ha, Option.map_some, Option.map_some, h, ← hcode]

/-! ## What a posting leaves alone -/

/-- Lines of other accounts do not reach an account. -/
theorem findByCode_write (params' : JournalInput) (hchart : InChart b posted) {code : String}
    (hothers : ∀ x ∈ posted, x.line.accountCode ≠ code) :
    (write params' posted b).accounts.findByCode code = b.accounts.findByCode code := by
  rw [accounts_write, findByCode_updateBalances]
  cases ha : b.accounts.findByCode code with
  | none => rfl
  | some a =>
    have hkeep : posted.foldl receive a = a := by
      refine List.foldlRecOn posted receive (motive := fun a' => a' = a) rfl fun a' ha' x hx => ?_
      have hne : a.id ≠ x.account.id := fun hid =>
        hothers x hx (Option.some.inj ((hchart x hx).1.symm.trans ((id_of_code ha).mpr hid.symm)))
      rw [ha', receive, if_neg hne]
    rw [Option.map_some, hkeep]

/-- Lines without grams move no grams. -/
theorem balanceOf_grams_write (params' : JournalInput)
    (hzero : ∀ x ∈ posted, x.line.amountGrams = 0) (code : String) :
    balanceOf .grams (write params' posted b) code = balanceOf .grams b code := by
  have hkeep : ∀ a : Account, (posted.foldl receive a).balanceGrams = a.balanceGrams := by
    intro a
    refine List.foldlRecOn posted receive (motive := fun a' => a'.balanceGrams = a.balanceGrams)
      rfl fun a' ha' x hx => ?_
    rw [← ha', receive]
    split
    · simp [credited, deltaGrams, hzero x hx]
    · rfl
  rw [balanceOf, balanceOf, accounts_write, findByCode_updateBalances]
  cases b.accounts.findByCode code with
  | none => rfl
  | some a => exact hkeep a

/-! ## Books that grow -/

/-- Entries of accounts of the chart, balanced in rials and in grams. -/
structure SoundEntries (b : Books) (entries : List LedgerEntry) : Prop where
  covered : ∀ e ∈ entries, ∃ code, b.codeOf e.accountId = some code
  rial : Balanced LedgerEntry.side LedgerEntry.amountRial entries
  grams : Balanced LedgerEntry.side LedgerEntry.amountGrams entries

theorem SoundEntries.kept {entries : List LedgerEntry} (h : SoundEntries b entries)
    (hkept : ChartKept b b') : SoundEntries b' entries where
  covered e he := (h.covered e he).imp fun _ hcode => hkept _ _ hcode
  rial := h.rial
  grams := h.grams

theorem SoundEntries.reversed {entries : List LedgerEntry} (h : SoundEntries b entries) :
    SoundEntries b (entries.map reversedEntry) where
  covered e he := by
    obtain ⟨e₀, he₀, rfl⟩ := List.mem_map.mp he
    exact h.covered e₀ he₀
  rial := balanced_reverse _ _ reversedEntry (fun _ _ => rfl) (fun _ _ => rfl) h.rial
  grams := balanced_reverse _ _ reversedEntry (fun _ _ => rfl) (fun _ _ => rfl) h.grams

/-- Accounts keep their codes and journals their entries, and the entries that come are sound. -/
structure BooksGrow (b b' : Books) : Prop where
  chart : ChartKept b b'
  kept : ∀ k j, b.journals.find? k = some j →
    ∃ j', b'.journals.find? k = some j' ∧ j'.ledgerEntries = j.ledgerEntries
  added : ∀ j' ∈ b'.journals.rows, (∃ j ∈ b.journals.rows, j'.ledgerEntries = j.ledgerEntries) ∨
    SoundEntries b' j'.ledgerEntries

theorem BooksGrow.refl (b : Books) : BooksGrow b b :=
  ⟨.refl b, fun _ j h => ⟨j, h, rfl⟩, fun j h => .inl ⟨j, h, rfl⟩⟩

theorem BooksGrow.trans (h : BooksGrow b b') (h' : BooksGrow b' b'') : BooksGrow b b'' := by
  refine ⟨h.chart.trans h'.chart, fun k j hj => ?_, fun j₂ hj₂ => ?_⟩
  · obtain ⟨j₁, hj₁, hentries₁⟩ := h.kept k j hj
    obtain ⟨j₂, hj₂, hentries₂⟩ := h'.kept k j₁ hj₁
    exact ⟨j₂, hj₂, hentries₂.trans hentries₁⟩
  · rcases h'.added j₂ hj₂ with ⟨j₁, hj₁, hentries₁⟩ | hsound
    · rcases h.added j₁ hj₁ with ⟨j, hj, hentries⟩ | hsound
      · exact .inl ⟨j, hj, hentries₁.trans hentries⟩
      · exact .inr (hentries₁ ▸ hsound.kept h'.chart)
    · exact .inr hsound

/-- Every journal of the books is sound. -/
def SoundBooks (b : Books) : Prop := ∀ j ∈ b.journals.rows, SoundEntries b j.ledgerEntries

theorem SoundBooks.grow (h : SoundBooks b) (hgrow : BooksGrow b b') : SoundBooks b' := by
  intro j' hj'
  rcases hgrow.added j' hj' with ⟨j, hj, hentries⟩ | hsound
  · rw [hentries]
    exact (h j hj).kept hgrow.chart
  · exact hsound

/-- The journal `j` has been added to the books and its entries to the balances. -/
structure JournalAdded (b b' : Books) (j : JournalEntry) : Prop where
  rows : b'.journals.rows = b.journals.rows ++ [j]
  id : j.id = b.journals.next
  chart : ChartKept b b'
  sound : SoundEntries b j.ledgerEntries
  balance : ∀ code, balanceOf .rial b' code =
    balanceOf .rial b code + entryEffect .rial b code j.ledgerEntries

theorem JournalAdded.find?_self {j : JournalEntry} (h : JournalAdded b b' j) :
    b'.journals.find? b.journals.next = some j :=
  Table.find?_eq_some.mpr ⟨h.rows ▸ List.mem_append_right _ (List.mem_singleton_self j), h.id⟩

theorem JournalAdded.grow {j : JournalEntry} (h : JournalAdded b b' j) : BooksGrow b b' := by
  refine ⟨h.chart, fun k j₀ hj₀ => ⟨j₀, ?_, rfl⟩, fun j' hj' => ?_⟩
  · obtain ⟨hmem, hkey⟩ := Table.find?_eq_some.mp hj₀
    exact Table.find?_eq_some.mpr ⟨h.rows ▸ List.mem_append_left _ hmem, hkey⟩
  · rw [h.rows, List.mem_append, List.mem_singleton] at hj'
    rcases hj' with hj' | rfl
    · exact .inl ⟨j', hj', rfl⟩
    · exact .inr (h.sound.kept h.chart)

/-- A posting adds a journal, to whatever books it reaches. -/
theorem journalAdded_write (params' : JournalInput) {params : JournalInput}
    (h : Posting b params posted) (hkept : ChartKept b b')
    (hfits : ∀ l ∈ params.lines,
      Numeric.Fits rialScale l.amountRial ∧ Numeric.Fits gramScale l.amountGrams) :
    ∃ j, JournalAdded b' (write params' posted b') j ∧
      j.ledgerEntries = posted.map ledgerEntry := by
  have hchart := h.inChart.kept hkept
  have hrial := balanced_entries .rial h fun l hl => (hfits l hl).1
  have hgrams := balanced_entries .grams h fun l hl => (hfits l hl).2
  have hcovered : ∀ e ∈ posted.map ledgerEntry, ∃ code, b'.codeOf e.accountId = some code := by
    intro e he
    obtain ⟨x, hx, rfl⟩ := List.mem_map.mp he
    exact ⟨_, (hchart x hx).1⟩
  exact ⟨_, ⟨rfl, rfl, chartKept_write _ _ _, ⟨hcovered, hrial.2, hgrams.2⟩,
    balanceOf_write .rial hchart hrial.1⟩, rfl⟩

/-- A reversal looks its accounts up in any books that have them. -/
theorem reversalOf_kept {original : JournalEntry} (opts : ReversalOptions) (hkept : ChartKept b b')
    (hcovered : ∀ e ∈ original.ledgerEntries, ∃ code, b.codeOf e.accountId = some code) :
    reversalOf b' original opts = reversalOf b original opts := by
  have hlines : reversedLines b' original = reversedLines b original := by
    refine List.map_congr_left fun e he => ?_
    obtain ⟨code, hcode⟩ := hcovered e he
    rw [hcode, hkept _ _ hcode]
  rw [reversalOf, reversalOf, hlines]

/-- The posting of a reversal adds a journal with the reversed entries. -/
theorem journalAdded_reversal (params' : JournalInput) {original : JournalEntry}
    {opts : ReversalOptions} (h : Posting b' (reversalOf b original opts) posted)
    (hcovered : ∀ e ∈ original.ledgerEntries, ∃ code, b.codeOf e.accountId = some code)
    (hkept : ChartKept b b') (hkept' : ChartKept b' b'') :
    ∃ j, JournalAdded b'' (write params' posted b'') j ∧
      j.ledgerEntries = original.ledgerEntries.map reversedEntry := by
  obtain ⟨j, hadded, hentries⟩ := journalAdded_write params' h hkept'
    (fits_reversedLines b original)
  rw [← reversalOf_kept opts hkept hcovered] at h
  refine ⟨j, hadded, hentries.trans (entries_of_reversal h fun e he => ?_)⟩
  obtain ⟨code, hcode⟩ := hcovered e he
  obtain ⟨a, ha, -⟩ := Option.map_eq_some_iff.mp (hkept _ _ hcode)
  exact ⟨a, ha⟩

end AccountingService

end ArkanGold
