import ArkanGold.Accounting.ClosedBooks

/-!
# Permanent numbers

`finalizeJournals` hands out permanent numbers in batches: the journals of a year that
have none, up to a day, in the order of date and reference number, numbered on from the
greatest number given. What a run owes (`FaithfulNumbering`):

- the numbers of a year are `1, …, n`;
- a numbered journal lies in the real range of its year;
- numbers follow the order of date and reference number.

Within a batch the order is that of `ROW_NUMBER`. Across batches it needs a frontier: no
journal without a number stands before a numbered one of a year that covers it. The lock
that `finalizeJournals` sets keeps dated postings behind the frontier, the clock the
undated ones. `setLockDate` may take the lock back, and a closing entry is posted past
it; `KeepsFrontier` is the condition on these two steps.
-/

namespace ArkanGold

open AccountingService AccountingManageService

/-- The journal has a permanent number. -/
def JournalEntry.Numbered (j : JournalEntry) : Prop := j.permanentNumber.isSome = true

instance (j : JournalEntry) : Decidable j.Numbered := inferInstanceAs (Decidable (_ = _))

/-- In one year, the journal later in date and reference number has the greater number. -/
def IncreasingNumbers (s : Books) : Prop :=
  ∀ j ∈ s.journals.rows, ∀ k ∈ s.journals.rows, j.fiscalYearId = k.fiscalYearId →
    journalKey j < journalKey k → ∀ m ∈ j.permanentNumber, ∀ n ∈ k.permanentNumber, m < n

instance (s : Books) : Decidable (IncreasingNumbers s) :=
  inferInstanceAs (Decidable (∀ j ∈ s.journals.rows, _))

/-- The permanent numbers are a faithful order of the journals of each year. -/
structure FaithfulNumbering (tz : TehranZone) (s : Books) : Prop where
  gapless : ∀ yearId, ∃ n, (numbersOf s yearId).Perm (List.range' 1 n)
  inRange : ∀ j ∈ s.journals.rows, j.Numbered →
    ∃ y ∈ s.fiscalYears.rows, j.fiscalYearId = some y.id ∧ y.covers tz j.entryDate
  increasing : IncreasingNumbers s

/-- Numbered journals stay as they are. -/
def NumbersKept (s s' : Books) : Prop :=
  ∀ j ∈ s.journals.rows, j.Numbered → j ∈ s'.journals.rows

/-- No journal has a number yet; the reference numbers come from their sequence. -/
structure NoNumbers (s : Books) : Prop where
  unnumbered : ∀ j ∈ s.journals.rows, j.permanentNumber = none
  refs_nodup : (s.journals.rows.map JournalEntry.referenceNumber).Nodup
  refs_lt : ∀ j ∈ s.journals.rows, j.referenceNumber < s.nextReference

/-- A lock set by hand still covers the numbered journals, and no numbered journal of a
year that covers the closing instant of a year is dated after that instant. -/
def KeepsFrontier (tz : TehranZone) (s : Books) (e : PeriodEvent) : Prop :=
  match e with
  | .setLockDate date => ∀ j ∈ s.journals.rows, j.Numbered →
      ∃ d, date = some d ∧ j.entryDate ≤ utcEndOfDay d
  | .closeFiscalYear _ id => ∀ year, s.fiscalYears.find? id = some year →
      ∀ j ∈ s.journals.rows, j.Numbered → ∀ y ∈ s.fiscalYears.rows, j.fiscalYearId = some y.id →
        y.covers tz ((fiscalYearRange tz year).lt - 1) →
          j.entryDate ≤ (fiscalYearRange tz year).lt - 1
  | _ => True

/-- The closing instant of a whole-day year lies in no other whole-day year that does not
overlap it. -/
theorem not_covers_closing (tz : TehranZone) {y z : FiscalYear} (hy : WholeDays y)
    (hz : WholeDays z) (hdisjoint : y.endDate < z.startDate ∨ z.endDate < y.startDate)
    (hvalid : y.startDate < y.endDate) : ¬z.covers tz ((fiscalYearRange tz y).lt - 1) := by
  rintro ⟨hgte, hlt⟩
  have hzgte : (fiscalYearRange tz z).gte = tz.tehranDayStart (storedDay z.startDate) := by
    simp [fiscalYearRange, hz.1]
  rw [hzgte, range_lt_of_wholeDays tz hy] at hgte
  rw [range_lt_of_wholeDays tz hy, range_lt_of_wholeDays tz hz] at hlt
  have hyend := utcEndOfDay_storedDay hy.2
  have hystart := utcMidnight_storedDay hy.1
  have hzstart := utcMidnight_storedDay hz.1
  have hzend := utcEndOfDay_storedDay hz.2
  simp only [utcEndOfDay, utcMidnight, dayMs] at hyend hystart hzstart hzend
  rcases hdisjoint with h | h
  · have := tz.tehranDayStart_mono
      (show storedDay y.endDate + 1 ≤ storedDay z.startDate by omega)
    omega
  · have := tz.tehranDayStart_lt
      (show storedDay z.endDate + 1 < storedDay y.endDate + 1 by omega)
    omega

/-! ## The invariant -/

/-- A numbering with its frontier. -/
structure Numbering (tz : TehranZone) (s : Books) : Prop where
  refs_nodup : (s.journals.rows.map JournalEntry.referenceNumber).Nodup
  refs_lt : ∀ j ∈ s.journals.rows, j.referenceNumber < s.nextReference
  faithful : FaithfulNumbering tz s
  frontier : ∀ k ∈ s.journals.rows, k.Numbered → ∀ y ∈ s.fiscalYears.rows,
    k.fiscalYearId = some y.id → ∀ j ∈ s.journals.rows, j.permanentNumber = none →
      y.covers tz j.entryDate → journalKey k < journalKey j

/-- The numbered journals lie behind the lock and in the past. -/
structure NumberingInv (tz : TehranZone) (s : Books) : Prop extends Numbering tz s where
  locked : ∀ k ∈ s.journals.rows, k.Numbered →
    ∃ d, s.lockedUntil = some d ∧ k.entryDate ≤ utcEndOfDay d
  past : ∀ k ∈ s.journals.rows, k.Numbered → k.entryDate < s.now

theorem journalKey_lt {j k : JournalEntry} : journalKey j < journalKey k ↔
    j.entryDate < k.entryDate ∨
      j.entryDate = k.entryDate ∧ j.referenceNumber < k.referenceNumber :=
  Prod.Lex.toLex_lt_toLex

theorem Numbering.keys_nodup {tz : TehranZone} {s : Books} (h : Numbering tz s) :
    (s.journals.rows.map journalKey).Nodup := by
  refine List.Nodup.of_map (fun k => (ofLex k).2) ?_
  rw [List.map_map]
  exact h.refs_nodup

section Invariant

variable {tz : TehranZone} {s s' : Books}

/-! ### Postings -/

/-- A new journal has no number; if it is not dated before a numbered journal of a year
that covers it, the frontier holds. -/
theorem Numbering.write (hinv : Numbering tz s) {params : JournalInput}
    {posted : List PostedLine}
    (hdate : ∀ k ∈ s.journals.rows, k.Numbered → ∀ y ∈ s.fiscalYears.rows,
      k.fiscalYearId = some y.id → y.covers tz (params.entryDate.getD s.now) →
        k.entryDate ≤ params.entryDate.getD s.now) :
    Numbering tz (AccountingService.write params posted s) := by
  have hold : ∀ j ∈ (AccountingService.write params posted s).journals.rows, j.Numbered →
      j ∈ s.journals.rows := by
    intro j hj hnum
    rcases mem_journals_write hj with hj | ⟨hnone, -⟩
    · exact hj
    · rw [JournalEntry.Numbered, hnone] at hnum
      cases hnum
  have hnumbers : ∀ yearId,
      numbersOf (AccountingService.write params posted s) yearId = numbersOf s yearId := by
    intro yearId
    simp [numbersOf, AccountingService.write, createJournal, Table.create,
      List.filterMap_append]
  refine ⟨?_, ?_, ⟨?_, ?_, ?_⟩, ?_⟩
  · show ((s.journals.rows ++ [_]).map JournalEntry.referenceNumber).Nodup
    rw [List.map_append, List.map_singleton]
    refine List.nodup_append.mpr ⟨hinv.refs_nodup, List.nodup_singleton _, ?_⟩
    intro a ha b hb
    obtain ⟨j, hj, rfl⟩ := List.mem_map.mp ha
    rw [List.mem_singleton] at hb
    rw [hb]
    exact (hinv.refs_lt j hj).ne
  · intro j hj
    show j.referenceNumber < s.nextReference + 1
    rcases mem_journals_write hj with hj | ⟨-, -, -, href⟩
    · exact (hinv.refs_lt j hj).trans (Nat.lt_succ_self _)
    · rw [href]
      exact Nat.lt_succ_self _
  · intro yearId
    rw [hnumbers]
    exact hinv.faithful.gapless yearId
  · exact fun j hj hnum => hinv.faithful.inRange j (hold j hj hnum) hnum
  · intro j hj k hk hyear hkey m hm n hn
    have hj' := hold j hj (by rw [JournalEntry.Numbered, hm]; rfl)
    have hk' := hold k hk (by rw [JournalEntry.Numbered, hn]; rfl)
    exact hinv.faithful.increasing j hj' k hk' hyear hkey m hm n hn
  · intro k hk hnum y hy hyear j hj hnone hcov
    have hk' := hold k hk hnum
    rcases mem_journals_write hj with hj | ⟨-, -, hdated, href⟩
    · exact hinv.frontier k hk' hnum y hy hyear j hj hnone hcov
    · rw [hdated] at hcov
      have hle := hdate k hk' hnum y hy hyear hcov
      have hlt := hinv.refs_lt k hk'
      rw [journalKey_lt, hdated, href]
      omega

theorem numbersKept_write (params : JournalInput) (posted : List PostedLine) (s : Books) :
    NumbersKept s (AccountingService.write params posted s) := fun _ hj _ =>
  List.mem_append_left _ hj

/-- A posting keeps the numbered journals behind the lock and in the past. -/
theorem NumberingInv.write (hinv : NumberingInv tz s) {params : JournalInput}
    {posted : List PostedLine}
    (hdate : ∀ k ∈ s.journals.rows, k.Numbered → ∀ y ∈ s.fiscalYears.rows,
      k.fiscalYearId = some y.id → y.covers tz (params.entryDate.getD s.now) →
        k.entryDate ≤ params.entryDate.getD s.now) :
    NumberingInv tz (AccountingService.write params posted s) := by
  have hold : ∀ j ∈ (AccountingService.write params posted s).journals.rows, j.Numbered →
      j ∈ s.journals.rows := by
    intro j hj hnum
    rcases mem_journals_write hj with hj | ⟨hnone, -⟩
    · exact hj
    · rw [JournalEntry.Numbered, hnone] at hnum
      cases hnum
  exact ⟨hinv.toNumbering.write hdate, fun k hk hnum => hinv.locked k (hold k hk hnum) hnum,
    fun k hk hnum => hinv.past k (hold k hk hnum) hnum⟩

/-- The lock keeps checked dates, and the clock the undated journals, behind all numbered
journals. -/
theorem NumberingInv.admitted (hinv : NumberingInv tz s) {params : JournalInput}
    {posted : List PostedLine} (h : Posting s params posted)
    (hchecked : checksDate params = params.entryDate) :
    ∀ k ∈ s.journals.rows, k.Numbered → k.entryDate ≤ params.entryDate.getD s.now := by
  intro k hk hnum
  cases hdate : params.entryDate with
  | none => exact (hinv.past k hk hnum).le
  | some d =>
    obtain ⟨hlock, -⟩ := assertPostingDateAllowed_ok (h.dated d (hchecked.trans hdate))
    obtain ⟨l, hl, hle⟩ := hinv.locked k hk hnum
    have := hlock l hl
    show k.entryDate ≤ d
    omega

/-! ### Batches -/

theorem finalizable_iff {untilExcl : ℤ} {y : FiscalYear} {j : JournalEntry} :
    finalizable tz untilExcl y j = true ↔
      j.permanentNumber = none ∧ y.covers tz j.entryDate ∧ j.entryDate < untilExcl := by
  simp only [finalizable, FiscalYear.covers, Bool.and_eq_true, Option.isNone_iff_eq_none,
    decide_eq_true_eq, lt_min_iff]
  tauto

theorem mem_batchOf {untilExcl : ℤ} {y : FiscalYear} {j : JournalEntry} :
    j ∈ batchOf tz untilExcl y s ↔ j ∈ s.journals.rows ∧ j.permanentNumber = none ∧
      y.covers tz j.entryDate ∧ j.entryDate < untilExcl := by
  rw [batchOf, List.mem_filter, finalizable_iff]

/-- After a batch a journal is one it left alone, or one of the batch under its number. -/
theorem mem_finalizeYear {untilExcl : ℤ} {y : FiscalYear} {j : JournalEntry}
    (h : j ∈ (finalizeYear tz untilExcl y s).journals.rows) :
    (j ∈ s.journals.rows ∧ j ∉ batchOf tz untilExcl y s) ∨
      ∃ j₀ ∈ batchOf tz untilExcl y s, j = finalizedAs tz untilExcl y s j₀ := by
  obtain ⟨j₀, hj₀, rfl⟩ := List.mem_map.mp h
  by_cases hfin : finalizable tz untilExcl y j₀ = true
  · rw [if_pos hfin]
    exact .inr ⟨j₀, List.mem_filter.mpr ⟨hj₀, hfin⟩, rfl⟩
  · rw [if_neg hfin]
    exact .inl ⟨hj₀, fun hmem => hfin (List.mem_filter.mp hmem).2⟩

theorem numbersOf_finalizeYear (untilExcl : ℤ) (y : FiscalYear) (yearId : ℕ) :
    (numbersOf (finalizeYear tz untilExcl y s) yearId).Perm
      (if yearId = y.id then
        numbersOf s y.id ++ (batchOf tz untilExcl y s).map fun j =>
          (numbersOf s y.id).foldl max 0 + Rank.rank journalKey (batchOf tz untilExcl y s) j
      else numbersOf s yearId) := by
  by_cases hid : yearId = y.id
  · subst hid
    rw [if_pos rfl]
    refine Rank.perm_filterMap_map _ _ _ _ _ ?_ ?_
    · intro j _ hfin
      have hnone := (finalizable_iff.mp hfin).1
      rw [hnone]
      exact ite_self none
    · intro j _ _
      exact if_pos rfl
  · rw [if_neg hid]
    refine List.Perm.of_eq ?_
    simp only [numbersOf, finalizeYear, Table.updateWhere, List.filterMap_map]
    refine List.filterMap_congr fun j _ => ?_
    simp only [Function.comp_apply]
    by_cases hfin : finalizable tz untilExcl y j = true
    · have hne : ¬some y.id = some yearId := fun h => hid (Option.some.inj h).symm
      rw [if_pos hfin, (finalizable_iff.mp hfin).1, ite_self]
      exact if_neg hne
    · rw [if_neg hfin]

theorem le_foldl_numbersOf {j : JournalEntry} {yearId n : ℕ} (hj : j ∈ s.journals.rows)
    (hyear : j.fiscalYearId = some yearId) (hn : j.permanentNumber = some n) :
    n ≤ (numbersOf s yearId).foldl max 0 := by
  refine Rank.le_foldl_max _ _ _ (.inl (List.mem_filterMap.mpr ⟨j, hj, ?_⟩))
  rw [if_pos hyear, hn]

/-- **Batch lemma**: numbering the next batch of a year keeps a numbering with its
frontier. -/
theorem Numbering.finalizeYear (hinv : Numbering tz s) (untilExcl : ℤ) {y : FiscalYear}
    (hy : y ∈ s.fiscalYears.rows) :
    Numbering tz (AccountingManageService.finalizeYear tz untilExcl y s) := by
  have hbatch : ((batchOf tz untilExcl y s).map journalKey).Nodup :=
    hinv.keys_nodup.sublist (List.filter_sublist.map _)
  refine ⟨?_, ?_, ⟨?_, ?_, ?_⟩, ?_⟩
  · have hrefs : (AccountingManageService.finalizeYear tz untilExcl y s).journals.rows.map
        JournalEntry.referenceNumber = s.journals.rows.map JournalEntry.referenceNumber := by
      simp only [AccountingManageService.finalizeYear, Table.updateWhere, List.map_map]
      refine List.map_congr_left fun j _ => ?_
      simp only [Function.comp_apply]
      split <;> rfl
    rw [hrefs]
    exact hinv.refs_nodup
  · intro j hj
    rcases mem_finalizeYear hj with ⟨hj, -⟩ | ⟨j₀, hj₀, rfl⟩
    · exact hinv.refs_lt j hj
    · exact hinv.refs_lt j₀ (mem_batchOf.mp hj₀).1
  · intro yearId
    have hperm := (@numbersOf_finalizeYear tz s) untilExcl y yearId
    by_cases hid : yearId = y.id
    · rw [if_pos hid] at hperm
      obtain ⟨n, hn⟩ := hinv.faithful.gapless y.id
      rw [Rank.foldl_max_of_perm hn] at hperm
      exact ⟨_, hperm.trans (Rank.perm_append_rank journalKey hbatch hn)⟩
    · rw [if_neg hid] at hperm
      obtain ⟨n, hn⟩ := hinv.faithful.gapless yearId
      exact ⟨n, hperm.trans hn⟩
  · intro j hj hnum
    rcases mem_finalizeYear hj with ⟨hj, -⟩ | ⟨j₀, hj₀, rfl⟩
    · exact hinv.faithful.inRange j hj hnum
    · exact ⟨y, hy, rfl, (mem_batchOf.mp hj₀).2.2.1⟩
  · intro j hj k hk hyear hkey m hm n hn
    rcases mem_finalizeYear hj with ⟨hj, -⟩ | ⟨j₀, hj₀, rfl⟩ <;>
      rcases mem_finalizeYear hk with ⟨hk, -⟩ | ⟨k₀, hk₀, rfl⟩
    · exact hinv.faithful.increasing j hj k hk hyear hkey m hm n hn
    · -- an old number is at most the greatest one, a new one above it
      have hle := le_foldl_numbersOf hj hyear hm
      have hpos := Rank.rank_pos journalKey hk₀
      cases hn
      omega
    · -- a batch journal before a numbered one would lie behind the frontier
      obtain ⟨hj₀s, hnone, hcov, -⟩ := mem_batchOf.mp hj₀
      have hback := hinv.frontier k hk (by rw [JournalEntry.Numbered, hn]; rfl) y hy hyear.symm
        j₀ hj₀s hnone hcov
      exact absurd (hkey.trans hback) (lt_irrefl _)
    · have hrank := Rank.rank_lt_rank journalKey hk₀ (show journalKey j₀ < journalKey k₀ from hkey)
      cases hm
      cases hn
      omega
  · intro k hk hnum z hz hyear j hj hnone hcov
    rcases mem_finalizeYear hj with ⟨hjs, hout⟩ | ⟨j₀, -, rfl⟩
    · rcases mem_finalizeYear hk with ⟨hks, -⟩ | ⟨k₀, hk₀, rfl⟩
      · exact hinv.frontier k hks hnum z hz hyear j hjs hnone hcov
      · -- what the batch of the year left over is dated at the cut-off or later
        have hzy : z = y :=
          List.inj_on_of_nodup_map s.fiscalYears.nodup hz hy (Option.some.inj hyear).symm
        subst hzy
        have hk₀' := (mem_batchOf.mp hk₀).2.2.2
        have hj' : ¬j.entryDate < untilExcl := fun hlt =>
          hout (mem_batchOf.mpr ⟨hjs, hnone, hcov, hlt⟩)
        rw [journalKey_lt]
        exact .inl (show k₀.entryDate < j.entryDate by omega)
    · cases hnone

theorem numbersKept_finalizeYear (untilExcl : ℤ) (y : FiscalYear) :
    NumbersKept s (AccountingManageService.finalizeYear tz untilExcl y s) := by
  intro j hj hnum
  refine List.mem_map.mpr ⟨j, hj, if_neg fun hfin => ?_⟩
  rw [JournalEntry.Numbered, (finalizable_iff.mp hfin).1] at hnum
  cases hnum

theorem NumbersKept.trans {s'' : Books} (h₁ : NumbersKept s s') (h₂ : NumbersKept s' s'') :
    NumbersKept s s'' := fun j hj hnum => h₂ j (h₁ j hj hnum) hnum

theorem numbersKept_finalizeYears (untilExcl : ℤ) (years : List FiscalYear) :
    NumbersKept s (years.foldl
      (fun s y => AccountingManageService.finalizeYear tz untilExcl y s) s) := by
  induction years generalizing s with
  | nil => exact fun _ hj _ => hj
  | cons y ys ih => exact (numbersKept_finalizeYear untilExcl y).trans ih

/-- All batches of a finalization; what they number is dated before the cut-off. -/
theorem Numbering.finalizeYears (hinv : Numbering tz s) (untilExcl : ℤ)
    {years : List FiscalYear} (hyears : ∀ y ∈ years, y ∈ s.fiscalYears.rows) :
    Numbering tz (years.foldl
      (fun s y => AccountingManageService.finalizeYear tz untilExcl y s) s) ∧
    ∀ k ∈ (years.foldl (fun s y => AccountingManageService.finalizeYear tz untilExcl y s)
      s).journals.rows, k.Numbered →
        (k ∈ s.journals.rows ∧ k.Numbered) ∨ k.entryDate < untilExcl := by
  induction years generalizing s with
  | nil => exact ⟨hinv, fun k hk hnum => .inl ⟨hk, hnum⟩⟩
  | cons y ys ih =>
    obtain ⟨ih₁, ih₂⟩ := ih (hinv.finalizeYear untilExcl (hyears y List.mem_cons_self))
      fun z hz => hyears z (List.mem_cons_of_mem y hz)
    refine ⟨ih₁, ?_⟩
    intro k hk hnum
    rcases ih₂ k hk hnum with ⟨hk', -⟩ | hlt
    · rcases mem_finalizeYear hk' with ⟨hk', -⟩ | ⟨k₀, hk₀, rfl⟩
      · exact .inl ⟨hk', hnum⟩
      · exact .inr (mem_batchOf.mp hk₀).2.2.2
    · exact .inr hlt

/-! ### The other steps -/

/-- A numbering only sees the journals and the dates of the years. -/
theorem Numbering.congr (hinv : Numbering tz s) (hjournals : s'.journals = s.journals)
    (href : s'.nextReference = s.nextReference)
    (hyears : s'.fiscalYears.rows.map (fun y => (y.id, y.startDate, y.endDate)) =
      s.fiscalYears.rows.map (fun y => (y.id, y.startDate, y.endDate))) : Numbering tz s' := by
  have hsame : ∀ rows rows' : List FiscalYear,
      rows'.map (fun y => (y.id, y.startDate, y.endDate)) =
        rows.map (fun y => (y.id, y.startDate, y.endDate)) →
      ∀ y' ∈ rows', ∃ y ∈ rows, y.id = y'.id ∧ ∀ t, y.covers tz t ↔ y'.covers tz t := by
    intro rows rows' h y' hy'
    have hmem : (y'.id, y'.startDate, y'.endDate) ∈
        rows.map fun y => (y.id, y.startDate, y.endDate) := by
      rw [← h]
      exact List.mem_map_of_mem hy'
    obtain ⟨y, hy, heq⟩ := List.mem_map.mp hmem
    simp only [Prod.mk.injEq] at heq
    obtain ⟨hid, hstart, hend⟩ := heq
    refine ⟨y, hy, hid, fun t => ?_⟩
    rw [FiscalYear.covers, FiscalYear.covers, fiscalYearRange_congr tz hstart hend]
  refine ⟨?_, ?_, ⟨?_, ?_, ?_⟩, ?_⟩
  · rw [hjournals]
    exact hinv.refs_nodup
  · rw [hjournals, href]
    exact hinv.refs_lt
  · intro yearId
    rw [numbersOf, hjournals]
    exact hinv.faithful.gapless yearId
  · intro j hj hnum
    rw [hjournals] at hj
    obtain ⟨y, hy, hyear, hcov⟩ := hinv.faithful.inRange j hj hnum
    obtain ⟨y', hy', hid, hcov'⟩ := hsame _ _ hyears.symm y hy
    exact ⟨y', hy', by rw [hyear, hid], (hcov' _).mpr hcov⟩
  · rw [IncreasingNumbers, hjournals]
    exact hinv.faithful.increasing
  · rw [hjournals]
    intro k hk hnum y' hy' hyear j hj hnone hcov
    obtain ⟨y, hy, hid, hcov'⟩ := hsame _ _ hyears y' hy'
    exact hinv.frontier k hk hnum y hy (by rw [hyear, hid]) j hj hnone ((hcov' _).mpr hcov)

/-- A new year has no numbered journal. -/
theorem Numbering.addFiscalYear (hinv : Numbering tz s) (title : String)
    (startDate endDate : ℤ) :
    Numbering tz (AccountingManageService.addFiscalYear title startDate endDate s) := by
  refine ⟨hinv.refs_nodup, hinv.refs_lt,
    ⟨hinv.faithful.gapless, ?_, hinv.faithful.increasing⟩, ?_⟩
  · intro j hj hnum
    obtain ⟨y, hy, hyear⟩ := hinv.faithful.inRange j hj hnum
    exact ⟨y, List.mem_append_left _ hy, hyear⟩
  · intro k hk hnum y hy hyear
    rcases mem_addFiscalYear hy with hy | rfl
    · exact hinv.frontier k hk hnum y hy hyear
    · obtain ⟨z, hz, hzyear, -⟩ := hinv.faithful.inRange k hk hnum
      have hlt := s.fiscalYears.lt_next z hz
      rw [hzyear] at hyear
      exact absurd (Option.some.inj hyear) hlt.ne

theorem map_markClosed (adminId id : ℕ) (journalId : Option ℕ) (s : Books) :
    (markClosed adminId id journalId s).fiscalYears.rows.map
        (fun y => (y.id, y.startDate, y.endDate)) =
      s.fiscalYears.rows.map (fun y => (y.id, y.startDate, y.endDate)) := by
  simp only [markClosed, Table.update, Table.updateWhere, List.map_map]
  refine List.map_congr_left fun y _ => ?_
  simp only [Function.comp_apply]
  split <;> rfl

/-- Finalizing raises the lock over what it numbers. -/
theorem NumberingInv.finalizeJournals (hinv : NumberingInv tz s) {upTo : ℤ} {n : ℕ}
    (h : (AccountingManageService.finalizeJournals tz upTo).Ok s n s') :
    NumberingInv tz s' := by
  obtain ⟨years, hmem, hnow, rfl⟩ := finalizeJournals_ok h
  obtain ⟨hnumbering, hnew⟩ := hinv.toNumbering.finalizeYears
    (tz.tehranDayStart (addDays upTo 1)) hmem
  obtain ⟨hyears, -, hclock, hlock, -⟩ := finalizeYears_frame tz
    (tz.tehranDayStart (addDays upTo 1)) years s
  obtain ⟨l, hl, hle, hold⟩ := raisedLock_spec upTo s.lockedUntil
  refine ⟨hnumbering.congr rfl rfl rfl, ?_, ?_⟩
  · intro k hk hnum
    refine ⟨l, by rw [raiseLock, hlock, hl], ?_⟩
    rcases hnew k hk hnum with ⟨hks, -⟩ | hlt
    · obtain ⟨d, hd, hkd⟩ := hinv.locked k hks hnum
      have := hold d hd
      simp only [utcEndOfDay, utcMidnight, dayMs] at *
      omega
    · have := tz.tehranDayStart_le (addDays upTo 1)
      simp only [utcEndOfDay, utcMidnight, dayMs, addDays] at *
      omega
  · intro k hk hnum
    show k.entryDate < (years.foldl _ s).now
    rw [hclock]
    rcases hnew k hk hnum with ⟨hks, -⟩ | hlt
    · exact hinv.past k hks hnum
    · omega

/-- Closing a year keeps the frontier where its closing instant does. -/
theorem NumberingInv.closeFiscalYear (hinv : NumberingInv tz s) {adminId id : ℕ}
    {r : ClosingResult} (hok : KeepsFrontier tz s (.closeFiscalYear adminId id))
    (h : (AccountingManageService.closeFiscalYear tz adminId id).Ok s r s') :
    NumberingInv tz s' := by
  obtain ⟨year, mid, journalId, hfind, -, -, -, hposted, rfl⟩ := closeFiscalYear_ok h
  have hmid : NumberingInv tz mid := by
    cases hposted with
    | none => exact hinv
    | entry posted _ => exact hinv.write (hok year hfind)
  refine ⟨hmid.toNumbering.congr rfl rfl (map_markClosed adminId id journalId mid), ?_, hmid.past⟩
  intro k hk hnum
  obtain ⟨d, hd, hkd⟩ := hmid.locked k hk hnum
  -- the lock only moves forward
  unfold lockUpToEnd
  cases hfind' : (markClosed adminId id journalId mid).fiscalYears.find? id with
  | none => exact ⟨d, hd, hkd⟩
  | some year' =>
    obtain ⟨l, hl, -, hold⟩ := raisedLock_spec (storedDay year'.endDate) mid.lockedUntil
    refine ⟨l, hl, ?_⟩
    have := hold d hd
    simp only [utcEndOfDay, utcMidnight, dayMs] at *
    omega

/-- **Step lemma**: every step that keeps the frontier keeps the invariant. -/
theorem numberingInv_step {e : PeriodEvent} (hinv : NumberingInv tz s)
    (hok : KeepsFrontier tz s e) (hstep : PeriodStep tz s e s') : NumberingInv tz s' := by
  cases e with
  | post params =>
    obtain ⟨hchecked, id, hpost⟩ := hstep
    obtain ⟨posted, hposting, -, rfl⟩ := postJournal_ok hpost
    exact hinv.write fun k hk hnum _ _ _ _ => hinv.admitted hposting hchecked k hk hnum
  | reverse journalId opts =>
    obtain ⟨id, hrev⟩ := hstep
    obtain ⟨original, posted, -, -, -, hposting, -, rfl⟩ := reverseJournal_ok hrev
    exact hinv.write fun k hk hnum _ _ _ _ => hinv.admitted hposting rfl k hk hnum
  | createFiscalYear dto =>
    obtain ⟨id, hcreate⟩ := hstep
    obtain ⟨startDate, endDate, -, -, -, -, rfl⟩ := createFiscalYear_ok hcreate
    exact ⟨hinv.toNumbering.addFiscalYear _ _ _, hinv.locked, hinv.past⟩
  | setLockDate date =>
    rw [setLockDate_ok hstep]
    exact ⟨hinv.toNumbering.congr rfl rfl rfl, hok, hinv.past⟩
  | finalizeJournals upTo =>
    obtain ⟨n, hfin⟩ := hstep
    exact hinv.finalizeJournals hfin
  | closeFiscalYear adminId id =>
    obtain ⟨r, hclose⟩ := hstep
    exact hinv.closeFiscalYear hok hclose
  | environment =>
    refine ⟨hinv.toNumbering.congr hstep.journals hstep.reference (by rw [hstep.years]), ?_, ?_⟩
    · rw [hstep.journals, hstep.lock]
      exact hinv.locked
    · rw [hstep.journals]
      exact fun k hk hnum => (hinv.past k hk hnum).trans_le hstep.clock

/-- No step touches a numbered journal. -/
theorem numbersKept_step {e : PeriodEvent} (hstep : PeriodStep tz s e s') :
    NumbersKept s s' := by
  cases e with
  | post params =>
    obtain ⟨-, id, hpost⟩ := hstep
    obtain ⟨posted, -, -, rfl⟩ := postJournal_ok hpost
    exact numbersKept_write params posted s
  | reverse journalId opts =>
    obtain ⟨id, hrev⟩ := hstep
    obtain ⟨original, posted, -, -, -, -, -, rfl⟩ := reverseJournal_ok hrev
    exact numbersKept_write _ posted s
  | createFiscalYear dto =>
    obtain ⟨id, hcreate⟩ := hstep
    obtain ⟨startDate, endDate, -, -, -, -, rfl⟩ := createFiscalYear_ok hcreate
    exact fun _ hj _ => hj
  | setLockDate date =>
    rw [setLockDate_ok hstep]
    exact fun _ hj _ => hj
  | finalizeJournals upTo =>
    obtain ⟨n, hfin⟩ := hstep
    obtain ⟨years, -, -, rfl⟩ := finalizeJournals_ok hfin
    exact numbersKept_finalizeYears _ years
  | closeFiscalYear adminId id =>
    obtain ⟨r, hclose⟩ := hstep
    obtain ⟨year, mid, journalId, -, -, -, -, hposted, rfl⟩ := closeFiscalYear_ok hclose
    cases hposted with
    | none => exact fun _ hj _ => hj
    | entry posted _ => exact numbersKept_write _ posted s
  | environment =>
    intro j hj _
    rw [hstep.journals]
    exact hj

theorem numberingInv_noNumbers (h : NoNumbers s) : NumberingInv tz s := by
  have hnone : ∀ j ∈ s.journals.rows, ¬j.Numbered := by
    intro j hj hnum
    rw [JournalEntry.Numbered, h.unnumbered j hj] at hnum
    cases hnum
  refine ⟨⟨h.refs_nodup, h.refs_lt, ⟨?_, ?_, ?_⟩, ?_⟩, ?_, ?_⟩
  · intro yearId
    refine ⟨0, List.Perm.of_eq (List.filterMap_eq_nil_iff.mpr fun j hj => ?_)⟩
    rw [h.unnumbered j hj]
    exact ite_self none
  · exact fun j hj hnum => absurd hnum (hnone j hj)
  · intro j hj k _ _ _ m hm
    rw [h.unnumbered j hj] at hm
    cases hm
  · exact fun k hk hnum => absurd hnum (hnone k hk)
  · exact fun k hk hnum => absurd hnum (hnone k hk)
  · exact fun k hk hnum => absurd hnum (hnone k hk)

end Invariant

/-- A sale of one rial in the year 1403, dated on the day `d`. -/
def saleOn (d : ℤ) : JournalInput where
  description := "فروش"
  totalRial := 1
  totalGrams := 0
  source := .manual
  entryDate := some (utcMidnight d)
  lines := [{ accountCode := "1010", side := .debit, amountRial := 1 },
    { accountCode := "4010", side := .credit, amountRial := 1 }]

/-- The year 1403 with one sale in June 2024, numbered. -/
def numberedBooks : Books :=
  ((finalizeJournals .standard 19880).run
    ((postJournal (saleOn 19875)).run (yearDefined year1403 feeBooks)).2).2

/-- Without a lock, a sale is posted six days earlier and numbered. -/
def renumberedBooks : Books :=
  ((finalizeJournals .standard 19880).run
    ((postJournal (saleOn 19869)).run ((setLockDate none).run numberedBooks).2).2).2

theorem noNumbers_feeBooks : NoNumbers feeBooks :=
  ⟨by decide, by decide, by decide⟩

theorem runs_numberedBooks :
    Runs (PeriodStep .standard) (KeepsFrontier .standard) feeBooks numberedBooks := by
  have hdefine : PeriodStep .standard feeBooks (.createFiscalYear year1403)
      (yearDefined year1403 feeBooks) := Tx.exists_ok_run (by decide)
  have hsale : PeriodStep .standard (yearDefined year1403 feeBooks) (.post (saleOn 19875))
      ((postJournal (saleOn 19875)).run (yearDefined year1403 feeBooks)).2 :=
    ⟨rfl, Tx.exists_ok_run (by decide +kernel)⟩
  have hfinalize : PeriodStep .standard
      ((postJournal (saleOn 19875)).run (yearDefined year1403 feeBooks)).2
      (.finalizeJournals 19880) numberedBooks := Tx.exists_ok_run (by decide +kernel)
  exact ((Runs.single (e := .createFiscalYear year1403) trivial hdefine).tail
    (e := .post (saleOn 19875)) trivial hsale).tail (e := .finalizeJournals 19880) trivial hfinalize

end ArkanGold
