import ArkanGold.Lib.Runs
import ArkanGold.Accounting.Posting

/-!
# The ledger over whole runs

Any sequence of postings and reversals, with whatever happens to the settings, the
clock and the activation of accounts in between.

- `BalancesAgree`: the stored balance of every account is the sum of its ledger
  entries, signed by the nature of its code.
- `TrialBalance`: accounts of debit nature hold as much as those of credit nature.

The balance check of `postJournal` sees the decimals of the caller while entries and
balances are columns. `Exact` asks that a posting only has amounts that the columns
hold as they are; along runs of such postings both properties are kept
(`ledger_integrity`), and half a rial is enough to lose them.

Rial and grams are two readings of the same rows: `Commodity` collects what a reading
consists of, and everything is proved once for both.
-/

namespace ArkanGold

open AccountingService DoubleEntry

/-- A unit of account: where its amounts and balances stand, and how the columns
store them. -/
structure Commodity where
  scale : ℕ
  lineAmount : LedgerLineInput → ℚ
  amount : LedgerEntry → ℤ
  balance : Account → ℤ
  lineAmount_code : ∀ l code, lineAmount { l with accountCode := code } = lineAmount l
  amount_ledgerEntry : ∀ x, amount (ledgerEntry x) = Numeric.toScale scale (lineAmount x.line)
  amount_side : ∀ e d, amount { e with side := d } = amount e
  balance_credited : ∀ x a, balance (credited x a) =
    Numeric.increment scale (balance a)
      (lineAmount x.line * deltaSign x.account.code x.line.side)
  balanced : ∀ lines, assertBalanced lines = true →
    Balanced LedgerLineInput.side lineAmount lines

namespace Commodity

/-- Rials. -/
def rial : Commodity where
  scale := rialScale
  lineAmount := LedgerLineInput.amountRial
  amount := LedgerEntry.amountRial
  balance := Account.balanceRial
  lineAmount_code _ _ := rfl
  amount_ledgerEntry _ := rfl
  amount_side _ _ := rfl
  balance_credited _ _ := rfl
  balanced _ h := by
    simp only [assertBalanced, Bool.and_eq_true, beq_iff_eq] at h
    exact h.1

/-- Grams of gold. -/
def grams : Commodity where
  scale := gramScale
  lineAmount := LedgerLineInput.amountGrams
  amount := LedgerEntry.amountGrams
  balance := Account.balanceGrams
  lineAmount_code _ _ := rfl
  amount_ledgerEntry _ := rfl
  amount_side _ _ := rfl
  balance_credited _ _ := rfl
  balanced _ h := by
    simp only [assertBalanced, Bool.and_eq_true, beq_iff_eq] at h
    exact h.2

end Commodity

/-! ## What is to be kept -/

/-- The signed sum of the ledger entries of an account. -/
def postedTo (c : Commodity) (s : Books) (a : Account) : ℤ :=
  ((s.entries.filter fun e => e.accountId = a.id).map fun e =>
    deltaSign a.code e.side * c.amount e).sum

/-- The stored balances are what the ledger entries say. -/
def BalancesAgree (s : Books) : Prop :=
  ∀ a ∈ s.accounts.rows,
    a.balanceRial = postedTo .rial s a ∧ a.balanceGrams = postedTo .grams s a

/-- The total of the balances on one side of the books. -/
def sideTotal (c : Commodity) (s : Books) (nature : LedgerSide) : ℤ :=
  ((s.accounts.rows.filter fun a => natureOf a.code = nature).map c.balance).sum

/-- The two sides of the books are equal. -/
def TrialBalance (s : Books) : Prop :=
  sideTotal .rial s .debit = sideTotal .rial s .credit ∧
    sideTotal .grams s .debit = sideTotal .grams s .credit

/-- No journal has been posted and every stored balance is zero. -/
structure Fresh (s : Books) : Prop where
  journals : s.journals.rows = []
  zero : ∀ a ∈ s.accounts.rows, a.balanceRial = 0 ∧ a.balanceGrams = 0

instance (s : Books) : Decidable (BalancesAgree s) :=
  inferInstanceAs (Decidable (∀ a ∈ s.accounts.rows, _))

/-! ## Runs -/

/-- What can happen to the books. -/
inductive LedgerEvent where
  | post (params : JournalInput)
  | reverse (journalId : ℕ) (opts : ReversalOptions)
  | environment

/-- Neither journals nor balances differ; settings, fiscal years, the clock and the
activation of accounts may. -/
def SameLedger (s s' : Books) : Prop :=
  s'.journals = s.journals ∧
    s'.accounts.rows.map (fun a => (a.id, a.code, a.balanceRial, a.balanceGrams)) =
      s.accounts.rows.map (fun a => (a.id, a.code, a.balanceRial, a.balanceGrams))

/-- One successful call, or a change around the ledger. -/
def LedgerStep (s : Books) (e : LedgerEvent) (s' : Books) : Prop :=
  match e with
  | .post params => ∃ id, (postJournal params).Ok s id s'
  | .reverse journalId opts => ∃ id, (reverseJournal journalId opts).Ok s id s'
  | .environment => SameLedger s s'

/-- Every amount of a posting is one the columns can hold: whole rials and multiples
of `0.0001` g. -/
def Exact (_ : Books) (e : LedgerEvent) : Prop :=
  match e with
  | .post params => ∀ l ∈ params.lines,
      Numeric.Fits rialScale l.amountRial ∧ Numeric.Fits gramScale l.amountGrams
  | _ => True

/-! ## One posting -/

section Posting

variable (c : Commodity)

/-- Where an account stands on the books, by its id. -/
def natureAt (s : Books) (k : ℕ) : LedgerSide := natureOf ((s.codeOf k).getD "")

/-- The balance of an account over entries, with the account's own nature. -/
abbrev entryBalance (code : String) (entries : List LedgerEntry) (k : ℕ) : ℤ :=
  balance LedgerEntry.accountId LedgerEntry.side c.amount (fun _ => natureOf code) entries k

/-- The invariant, in one unit of account. -/
structure LedgerInv (s : Books) : Prop where
  covered : ∀ e ∈ s.entries, e.accountId ∈ s.accounts.rows.map Account.id
  agree : ∀ a ∈ s.accounts.rows, c.balance a = entryBalance c a.code s.entries a.id
  balanced : Balanced LedgerEntry.side c.amount s.entries

theorem postedTo_eq (s : Books) (a : Account) :
    postedTo c s a = entryBalance c a.code s.entries a.id := by
  unfold postedTo
  rw [entryBalance, balance_eq_filter]
  congr 1
  refine List.map_congr_left fun e _ => ?_
  rw [deltaSign_eq]
  unfold effect
  split <;> simp

/-- The effect of a line on the stored balance of its account, when its amount fits. -/
theorem balance_credited_of_fits {x : PostedLine} (a : Account)
    (h : Numeric.Fits c.scale (c.lineAmount x.line)) :
    c.balance (credited x a) =
      c.balance a + deltaSign x.account.code x.line.side * c.amount (ledgerEntry x) := by
  rw [c.balance_credited, c.amount_ledgerEntry, deltaSign_eq]
  split
  · rw [Int.cast_one, mul_one, one_mul, Numeric.increment_of_fits _ h]
  · rw [Int.cast_neg, Int.cast_one, mul_neg_one, Numeric.increment_of_fits _ (Numeric.fits_neg h),
      Numeric.toScale_neg_of_fits h, neg_one_mul]

/-- The lines of one posting move the stored balance of an account by what their
entries say. -/
theorem balance_foldl_receive (posted : List PostedLine) (a : Account)
    (hfits : ∀ x ∈ posted, Numeric.Fits c.scale (c.lineAmount x.line))
    (hcode : ∀ x ∈ posted, x.account.id = a.id → x.account.code = a.code) :
    c.balance (posted.foldl receive a) =
      c.balance a + entryBalance c a.code (posted.map ledgerEntry) a.id := by
  induction posted generalizing a with
  | nil => simp [entryBalance]
  | cons x posted ih =>
    have hrec : (receive a x).id = a.id ∧ (receive a x).code = a.code := by
      unfold receive credited
      split <;> simp
    have ih' := ih (receive a x) (fun y hy => hfits y (List.mem_cons_of_mem x hy))
      fun y hy => by
        rw [hrec.1, hrec.2]
        exact hcode y (List.mem_cons_of_mem x hy)
    rw [hrec.1, hrec.2] at ih'
    rw [List.foldl_cons, ih', List.map_cons, entryBalance, entryBalance, balance_cons, ← add_assoc]
    congr 1
    unfold receive
    by_cases hid : a.id = x.account.id
    · have hxa := hcode x List.mem_cons_self hid.symm
      rw [if_pos hid, if_pos (show (ledgerEntry x).accountId = a.id from hid.symm),
        balance_credited_of_fits c a (hfits x List.mem_cons_self), deltaSign_eq, hxa]
      unfold effect
      split <;> rename_i hs
      · rw [one_mul, if_pos (show (ledgerEntry x).side = natureOf a.code from hs)]
      · rw [neg_one_mul, if_neg (show ¬(ledgerEntry x).side = natureOf a.code from hs)]
    · rw [if_neg hid, if_neg (show ¬(ledgerEntry x).accountId = a.id from Ne.symm hid), add_zero]

/-- The entries of a balanced posting with amounts that fit are balanced. -/
theorem balanced_entries {s : Books} {params : JournalInput} {posted : List PostedLine}
    (h : Posting s params posted)
    (hfits : ∀ l ∈ params.lines, Numeric.Fits c.scale (c.lineAmount l)) :
    (∀ x ∈ posted, Numeric.Fits c.scale (c.lineAmount x.line)) ∧
      Balanced LedgerEntry.side c.amount (posted.map ledgerEntry) := by
  obtain ⟨code, -, hmap⟩ := redirectedLines_eq_map s params
  have hlines : posted.map PostedLine.line =
      params.lines.map fun l => { l with accountCode := code l.accountCode } := by
    rw [h.lines, hmap]
  have hfits' : ∀ x ∈ posted, Numeric.Fits c.scale (c.lineAmount x.line) := by
    intro x hx
    have hxl : x.line ∈ posted.map PostedLine.line := List.mem_map_of_mem hx
    rw [hlines] at hxl
    obtain ⟨l, hl, hlx⟩ := List.mem_map.mp hxl
    rw [← hlx, c.lineAmount_code]
    exact hfits l hl
  refine ⟨hfits', ?_⟩
  -- in decimals, the totals of the entries are those of the lines that were checked
  have key : ∀ d, Numeric.ofScale c.scale
      (total LedgerEntry.side c.amount d (posted.map ledgerEntry)) =
        total LedgerLineInput.side c.lineAmount d params.lines := by
    intro d
    calc Numeric.ofScale c.scale (total LedgerEntry.side c.amount d (posted.map ledgerEntry))
        = total LedgerEntry.side (fun e => Numeric.ofScale c.scale (c.amount e)) d
            (posted.map ledgerEntry) := map_total _ _ (Numeric.ofScaleHom c.scale) _ _
      _ = total (fun x : PostedLine => x.line.side) (fun x => c.lineAmount x.line) d posted :=
          total_map _ _ ledgerEntry d posted (fun _ _ => rfl) fun x hx => by
            rw [c.amount_ledgerEntry, hfits' x hx]
      _ = total LedgerLineInput.side c.lineAmount d (posted.map PostedLine.line) :=
          (total_map _ _ PostedLine.line d posted (fun _ _ => rfl) fun _ _ => rfl).symm
      _ = total LedgerLineInput.side c.lineAmount d params.lines := by
          rw [hlines]
          exact total_map _ _ _ d params.lines (fun _ _ => rfl) fun l _ => c.lineAmount_code l _
  refine Numeric.ofScale_injective c.scale ?_
  rw [key, key]
  exact c.balanced _ h.balanced

/-- **Step lemma**: a posting whose amounts fit keeps the invariant. -/
theorem ledgerInv_write {s : Books} {params : JournalInput} {posted : List PostedLine}
    (hinv : LedgerInv c s) (h : Posting s params posted)
    (hfits : ∀ l ∈ params.lines, Numeric.Fits c.scale (c.lineAmount l)) :
    LedgerInv c (write params posted s) := by
  obtain ⟨hfits', hbal⟩ := balanced_entries c h hfits
  have hmem : ∀ x ∈ posted, x.account ∈ s.accounts.rows := fun x hx =>
    Chart.mem_of_findByCode (h.found x hx)
  have hids : (write params posted s).accounts.rows.map Account.id =
      s.accounts.rows.map Account.id :=
    map_updateBalances Account.id (fun _ _ _ => rfl) posted s.accounts
  refine ⟨?_, ?_, ?_⟩
  · intro e he
    rw [entries_write, List.mem_append] at he
    rw [hids]
    rcases he with he | he
    · exact hinv.covered e he
    · obtain ⟨x, hx, rfl⟩ := List.mem_map.mp he
      exact List.mem_map_of_mem (hmem x hx)
  · intro a' ha'
    rw [accounts_write, rows_updateBalances] at ha'
    obtain ⟨a, ha, rfl⟩ := List.mem_map.mp ha'
    obtain ⟨rial, grams, hrec⟩ := foldl_receive posted a
    have hcode : ∀ x ∈ posted, x.account.id = a.id → x.account.code = a.code := by
      intro x hx hid
      rw [List.inj_on_of_nodup_map s.accounts.table.nodup (hmem x hx) ha hid]
    rw [balance_foldl_receive c posted a hfits' hcode, hinv.agree a ha, entries_write, hrec]
    exact (balance_append ..).symm
  · rw [entries_write]
    exact balanced_append _ _ hinv.balanced hbal

end Posting

/-! ## Runs of postings -/

/-- Lines read back from the columns fit them. -/
theorem fits_reversedLines (s : Books) (original : JournalEntry) :
    ∀ l ∈ reversedLines s original,
      Numeric.Fits rialScale l.amountRial ∧ Numeric.Fits gramScale l.amountGrams := by
  intro l hl
  obtain ⟨e, -, rfl⟩ := List.mem_map.mp hl
  exact ⟨Numeric.fits_ofScale _ _, Numeric.fits_ofScale _ _⟩

theorem ledgerInv_sameLedger (c : Commodity)
    (hc : ∀ a b : Account, a.balanceRial = b.balanceRial → a.balanceGrams = b.balanceGrams →
      c.balance a = c.balance b) {s s' : Books} (hinv : LedgerInv c s) (h : SameLedger s s') :
    LedgerInv c s' := by
  obtain ⟨hj, hrows⟩ := h
  have hentries : s'.entries = s.entries := by rw [Books.entries, Books.entries, hj]
  refine ⟨?_, ?_, ?_⟩
  · have hids : s'.accounts.rows.map Account.id = s.accounts.rows.map Account.id := by
      have := congrArg (List.map Prod.fst) hrows
      simpa [List.map_map, Function.comp_def] using this
    rw [hentries, hids]
    exact hinv.covered
  · intro a' ha'
    have hmem : (a'.id, a'.code, a'.balanceRial, a'.balanceGrams) ∈
        s.accounts.rows.map fun a => (a.id, a.code, a.balanceRial, a.balanceGrams) := by
      rw [← hrows]
      exact List.mem_map_of_mem ha'
    obtain ⟨a, ha, heq⟩ := List.mem_map.mp hmem
    simp only [Prod.mk.injEq] at heq
    obtain ⟨hid, hcode, hr, hg⟩ := heq
    rw [hentries, ← hc a a' hr hg, ← hid, ← hcode]
    exact hinv.agree a ha
  · rw [hentries]
    exact hinv.balanced

/-- **Step lemma** for the ledger: every step with exact amounts keeps the invariant in
both units. -/
theorem ledgerInv_step {s s' : Books} {e : LedgerEvent}
    (hinv : LedgerInv .rial s ∧ LedgerInv .grams s) (hexact : Exact s e)
    (hstep : LedgerStep s e s') : LedgerInv .rial s' ∧ LedgerInv .grams s' := by
  cases e with
  | post params =>
    obtain ⟨id, hok⟩ := hstep
    obtain ⟨posted, hpost, -, rfl⟩ := postJournal_ok hok
    exact ⟨ledgerInv_write _ hinv.1 hpost fun l hl => (hexact l hl).1,
      ledgerInv_write _ hinv.2 hpost fun l hl => (hexact l hl).2⟩
  | reverse journalId opts =>
    obtain ⟨id, hok⟩ := hstep
    obtain ⟨original, posted, -, -, -, hpost, -, rfl⟩ := reverseJournal_ok hok
    exact ⟨ledgerInv_write _ hinv.1 hpost fun l hl => (fits_reversedLines s original l hl).1,
      ledgerInv_write _ hinv.2 hpost fun l hl => (fits_reversedLines s original l hl).2⟩
  | environment =>
    exact ⟨ledgerInv_sameLedger _ (fun _ _ h _ => h) hinv.1 hstep,
      ledgerInv_sameLedger _ (fun _ _ _ h => h) hinv.2 hstep⟩

theorem ledgerInv_fresh {s : Books} (h : Fresh s) :
    LedgerInv .rial s ∧ LedgerInv .grams s := by
  have hentries : s.entries = [] := by rw [Books.entries, h.journals, List.flatMap_nil]
  refine ⟨⟨?_, ?_, ?_⟩, ⟨?_, ?_, ?_⟩⟩
  · simp [hentries]
  · intro a ha
    rw [hentries]
    exact (h.zero a ha).1
  · rw [hentries]
    exact balanced_nil _ _
  · simp [hentries]
  · intro a ha
    rw [hentries]
    exact (h.zero a ha).2
  · rw [hentries]
    exact balanced_nil _ _

/-- The invariant makes the two sides of the books equal. -/
theorem sideTotal_eq {c : Commodity} {s : Books} (h : LedgerInv c s) :
    sideTotal c s .debit = sideTotal c s .credit := by
  have hnature : ∀ a ∈ s.accounts.rows, natureAt s a.id = natureOf a.code := by
    intro a ha
    simp [natureAt, Books.codeOf, Chart.find?_of_mem ha]
  have hside : ∀ d, sideTotal c s d =
      (((s.accounts.rows.map Account.id).filter fun k => natureAt s k = d).map
        (balance LedgerEntry.accountId LedgerEntry.side c.amount (natureAt s) s.entries)).sum := by
    intro d
    rw [sideTotal, List.filter_map, List.map_map]
    have hfilter : (s.accounts.rows.filter fun a => natureOf a.code = d) =
        s.accounts.rows.filter ((fun k => decide (natureAt s k = d)) ∘ Account.id) := by
      refine List.filter_congr fun a ha => ?_
      simp only [Function.comp_apply, hnature a ha]
    rw [hfilter]
    congr 1
    refine List.map_congr_left fun a ha => ?_
    have ha' := (List.mem_filter.mp ha).1
    rw [h.agree a ha', Function.comp_apply]
    exact balance_congr _ _ _ _ (hnature a ha').symm _
  rw [hside, hside]
  exact trialBalance _ _ _ _ s.accounts.table.nodup h.covered h.balanced

/-- A chart with the cash account and the account of the users' rials. -/
def cashChart : Chart where
  table :=
    { rows := [
        { id := 0, code := "1010", name := "موجودی نقد و بانک (ریال)", type := .asset,
          balanceRial := 0, balanceGrams := 0, parentId := none, isActive := true },
        { id := 1, code := "2010", name := "بدهی ریالی به کاربران",
          type := .liability, balanceRial := 0, balanceGrams := 0, parentId := none,
          isActive := true }]
      next := 2
      nodup := by decide
      lt_next := by decide }
  code_nodup := by decide

/-- Books on that chart before the first journal. -/
def cashBooks : Books where
  accounts := cashChart
  journals := .empty
  nextReference := 1
  fiscalYears := .empty
  lockedUntil := none
  systemConfig _ := none
  now := 0

/-- A journal that moves rials from one account to another. -/
def transferJournal (debit credit : String) (rial : ℚ) : JournalInput where
  description := "جابه‌جایی"
  totalRial := rial
  totalGrams := 0
  lines := [{ accountCode := debit, side := .debit, amountRial := rial },
    { accountCode := credit, side := .credit, amountRial := rial }]

/-- The books after a withdrawal of one rial. -/
def oneRialBooks : Books := ((postJournal (transferJournal "2010" "1010" 1)).run cashBooks).2

/-- The books after half a rial has come back. -/
def halfRialBooks : Books :=
  ((postJournal (transferJournal "1010" "2010" (1 / 2))).run oneRialBooks).2

theorem fresh_cashBooks : Fresh cashBooks := ⟨rfl, by decide⟩

theorem step_oneRialBooks : LedgerStep cashBooks
    (.post (transferJournal "2010" "1010" 1)) oneRialBooks :=
  ⟨0, Tx.ok_run (by decide +kernel)⟩

end ArkanGold
