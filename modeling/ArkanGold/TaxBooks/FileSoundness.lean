import ArkanGold.TaxBooks.ModesAgree

/-!
# What a file without errors guarantees

The checks of `buildTaxBook` look at events, the file consists of records. Without an
error the rows of the events are distinct, so a row number stands for one event, and what
was checked of the event holds of the row (`checked_of_clean`).

- `rowJournals`: the journals that a row sums up.
- `FileSound`: the guarantees, for each row and for the whole file.

The only guarantee that no check covers is that a row stays within a month: the opening
entries of a monthly file share one row, whatever their dates are.
-/

namespace ArkanGold

namespace TaxBooks

variable {P : TaxPlatform} {opts : TbOptions}

/-! ## Rows and their journals -/

/-- The total of a side over the records of a row. -/
def rowTotal (n : ℕ) (side : LedgerSide) (records : List TbRecord) : ℕ :=
  (records.map fun r => if r.row = n then recordAmount side r else 0).sum

/-- The rials of a journal on a side. -/
def journalTotal (side : LedgerSide) (j : TbJournal) : ℕ :=
  (j.lines.map fun l => if l.side = side then l.amountRial.natAbs else 0).sum

/-- The key of the group that is the row `n` of a monthly file. -/
def rowKey (P : TaxPlatform) (opts : TbOptions) (journals : List (TbJournal × List Line))
    (n : ℕ) : Option String :=
  if n = 0 then none else ((orderedGroups P opts journals)[n - 1]?).map Prod.fst

/-- The journals that go into the row `n`. -/
def rowJournals (P : TaxPlatform) (opts : TbOptions) (journals : List (TbJournal × List Line))
    (n : ℕ) : List TbJournal :=
  match opts.mode with
  | .document => (journals.filter fun x => documentRow opts x.1 == n).map Prod.fst
  | .monthly => (journals.filter fun x =>
      rowKey P opts journals n == some (groupKey P opts x.1)).map Prod.fst

/-- The two dates lie in one month. -/
def SameMonth (a b : YMD) : Prop := a.y = b.y ∧ a.m = b.m

/-- The guarantees of a file. -/
structure FileSound (P : TaxPlatform) (journals : List TbJournal) (accounts : List TbAccount)
    (opts : TbOptions) (file : TbResult) : Prop where
  sameDate : ∀ r ∈ file.records, ∀ r' ∈ file.records, r.row = r'.row → r.date = r'.date
  dateInPeriod : ∀ r ∈ file.records, ∃ d, r.date = formatJalaliKey d ∧ inPeriod P opts d
  balanced : ∀ n, rowTotal n .debit file.records = rowTotal n .credit file.records
  oneSided : ∀ r ∈ file.records, (0 < r.debitRial ∧ r.creditRial = 0) ∨
    (r.debitRial = 0 ∧ 0 < r.creditRial)
  aggregates : ∀ n side, rowTotal n side file.records =
    ((rowJournals P opts (rialJournals accounts journals) n).map (journalTotal side)).sum
  oneMonth : ∀ n, ∀ j ∈ rowJournals P opts (rialJournals accounts journals) n,
    ∀ j' ∈ rowJournals P opts (rialJournals accounts journals) n,
    SameMonth (journalJalali P opts j) (journalJalali P opts j')
  totals : file.totalDebitRial = (journals.map (journalTotal .debit)).sum ∧
    file.totalCreditRial = (journals.map (journalTotal .credit)).sum

/-- The file has no issue of the level `error`. -/
def Clean (file : TbResult) : Prop := ∀ i ∈ file.issues, i.level ≠ .error

/-! ## What the checks say -/

/-- What is checked of an event. -/
structure Checked (P : TaxPlatform) (opts : TbOptions) (e : Event) : Prop where
  inPeriod : inPeriod P opts e.date
  balanced : sumOf .debit e.lines = sumOf .credit e.lines

theorem checked_of_eventIssues {seenRows : List ℕ} {events : List Event}
    (h : ∀ i ∈ eventIssues P opts seenRows events, i.level ≠ .error) :
    (∀ e ∈ events, e.row ∉ seenRows) ∧ (events.map Event.row).Nodup ∧
      ∀ e ∈ events, Checked P opts e := by
  induction events generalizing seenRows with
  | nil => simp
  | cons e events ih =>
    simp only [eventIssues, List.mem_append, or_imp, forall_and] at h
    obtain ⟨⟨⟨hseen, hperiod⟩, hbalanced⟩, hrest⟩ := h
    have hrow : e.row ∉ seenRows := by
      intro hmem
      rw [if_pos (List.contains_iff_mem.mpr hmem)] at hseen
      exact hseen _ (List.mem_singleton_self _) rfl
    have hchecked : Checked P opts e := by
      constructor
      · by_contra hout
        rw [if_neg hout] at hperiod
        exact hperiod _ (List.mem_singleton_self _) rfl
      · by_contra hne
        rw [if_neg hne] at hbalanced
        exact hbalanced _ (List.mem_singleton_self _) rfl
    obtain ⟨hrows, hnodup, hall⟩ := ih hrest
    refine ⟨?_, ?_, ?_⟩
    · rintro x hx
      rcases List.mem_cons.mp hx with rfl | hx
      · exact hrow
      · exact fun hmem => hrows x hx (List.mem_cons_of_mem _ hmem)
    · rw [List.map_cons, List.nodup_cons]
      refine ⟨fun hmem => ?_, hnodup⟩
      obtain ⟨x, hx, hrow⟩ := List.mem_map.mp hmem
      exact hrows x hx (hrow ▸ List.mem_cons_self ..)
    · rintro x hx
      rcases List.mem_cons.mp hx with rfl | hx
      · exact hchecked
      · exact hall x hx

/-- Without an error every line with rials has an account, the rows are distinct, and every
event is as it is checked. -/
theorem checked_of_clean {journals : List TbJournal} {accounts : List TbAccount}
    (h : Clean (buildTaxBook P journals accounts opts)) :
    (∀ j ∈ journals, lineIssues accounts j = []) ∧
      ((eventsOf P opts (rialJournals accounts journals)).map Event.row).Nodup ∧
      ∀ e ∈ eventsOf P opts (rialJournals accounts journals), Checked P opts e := by
  simp only [Clean, buildTaxBook, List.mem_append, or_imp, forall_and] at h
  obtain ⟨⟨⟨⟨hlines, -⟩, hevents⟩, -⟩, -⟩ := h
  obtain ⟨-, hnodup, hall⟩ := checked_of_eventIssues hevents
  refine ⟨fun j hj => ?_, hnodup, hall⟩
  rw [List.eq_nil_iff_forall_not_mem]
  intro i hi
  have hmem : i ∈ (sortedJournals journals).flatMap (lineIssues accounts) :=
    List.mem_flatMap.mpr ⟨j, (List.perm_insertionSort _ _).mem_iff.mpr hj, hi⟩
  refine hlines i hmem ?_
  obtain ⟨tb, -, htb⟩ := List.mem_filterMap.mp hi
  obtain ⟨x, hx, hleft⟩ := Option.bind_eq_some_iff.mp htb
  unfold readLine at hx
  split at hx
  · cases hx
  · split at hx
    · obtain rfl := Option.some.inj hx
      obtain rfl := Option.some.inj hleft
      rfl
    · obtain rfl := Option.some.inj hx
      cases hleft

/-! ## The sums of rows -/

/-- The lines of a journal without issues carry its rials. -/
theorem sumOf_toLines {accounts : List TbAccount} {j : TbJournal}
    (h : lineIssues accounts j = []) (side : LedgerSide) :
    sumOf side (toLines accounts j) = journalTotal side j := by
  unfold lineIssues at h
  rw [List.filterMap_eq_nil_iff] at h
  unfold toLines journalTotal
  generalize j.lines = lines at h ⊢
  induction lines with
  | nil => rfl
  | cons tb lines ih =>
    have htb := h tb (List.mem_cons_self ..)
    have ih := ih fun l hl => h l (List.mem_cons_of_mem _ hl)
    rw [List.filterMap_cons, List.map_cons, List.sum_cons, ← ih]
    unfold readLine at htb ⊢
    by_cases hzero : tb.amountRial = 0
    · simp [hzero]
    · rw [dif_neg hzero] at htb ⊢
      split at htb
      · cases htb
      · simp [sumOf, lineOf]

/-- The journals without rial lines add nothing. -/
theorem sum_rialJournals {accounts : List TbAccount} {journals : List TbJournal}
    (h : ∀ j ∈ journals, lineIssues accounts j = []) (side : LedgerSide) :
    ((rialJournals accounts journals).map fun x => sumOf side x.2).sum =
      (journals.map (journalTotal side)).sum := by
  unfold rialJournals
  rw [Table.sum_map_filter, List.map_map, sortedJournals,
    ((List.perm_insertionSort journalLe journals).map _).sum_eq]
  refine congrArg List.sum (List.map_congr_left fun j hj => ?_)
  rw [← sumOf_toLines (h j hj)]
  cases hlines : toLines accounts j <;> simp [hlines, sumOf]

/-- The records of a row carry the amounts of the event with this row number. -/
theorem rowTotal_records (n : ℕ) (side : LedgerSide) (events : List Event) :
    rowTotal n side (events.flatMap recordsOf) =
      (events.map fun e => if e.row = n then sumOf side e.lines else 0).sum := by
  induction events with
  | nil => rfl
  | cons e events ih =>
    unfold rowTotal at ih ⊢
    rw [List.flatMap_cons, List.map_append, List.sum_append, ih, List.map_cons, List.sum_cons]
    congr 1
    rw [recordsOf, List.map_map, sumOf]
    by_cases hrow : e.row = n
    · rw [if_pos hrow]
      refine congrArg List.sum (List.map_congr_left fun l _ => ?_)
      cases side <;> simp [recordOf, recordAmount, hrow]
    · rw [if_neg hrow]
      exact List.sum_eq_zero fun a ha => by
        obtain ⟨l, -, rfl⟩ := List.mem_map.mp ha
        exact if_neg hrow

/-- A numbered list has one item under each number. -/
theorem sum_zipIdx {α : Type} (f : α → ℕ) (l : List α) (k n : ℕ) :
    ((l.zipIdx k).map fun x => if x.2 = k + n then f x.1 else 0).sum =
      ((l[n]?).map f).getD 0 := by
  induction l generalizing k n with
  | nil => simp
  | cons a l ih =>
    rw [List.zipIdx_cons, List.map_cons, List.sum_cons]
    cases n with
    | zero =>
      have hrest : ((l.zipIdx (k + 1)).map fun x => if x.2 = k then f x.1 else 0).sum = 0 :=
        List.sum_eq_zero fun m hm => by
          obtain ⟨x, hx, rfl⟩ := List.mem_map.mp hm
          have hle := (List.mem_zipIdx hx).1
          exact if_neg (by omega)
      simpa using hrest
    | succ n =>
      have hnext := ih (k + 1) n
      rw [show k + 1 + n = k + (n + 1) by omega] at hnext
      rw [hnext]
      simp

/-- What a row of a monthly file sums up. -/
theorem monthly_row {journals : List (TbJournal × List Line)} (n : ℕ) (side : LedgerSide) :
    ((monthlyEvents P opts journals).map fun e => if e.row = n then sumOf side e.lines else 0).sum =
      (journals.map fun x => if rowKey P opts journals n = some (groupKey P opts x.1) then
        sumOf side x.2 else 0).sum := by
  have hlines (x : (String × Group) × ℕ) : sumOf side (groupEvent P x).lines =
      sumsWhere (fun l => l.side == side) x.1.2.sums := by
    rw [sumOf_eq]
    exact amountWhere_groupLines x.1.2
  have hevents : ((monthlyEvents P opts journals).map fun e =>
      if e.row = n then sumOf side e.lines else 0) =
      (orderedGroups P opts journals).zipIdx.map fun x =>
        if x.2 + 1 = n then sumsWhere (fun l => l.side == side) x.1.2.sums else 0 := by
    unfold monthlyEvents
    rw [List.map_map]
    refine List.map_congr_left fun x _ => ?_
    rw [← hlines]
    rfl
  rw [hevents]
  cases n with
  | zero => simp [rowKey]
  | succ n =>
    have hzip := sum_zipIdx (fun x : String × Group =>
      sumsWhere (fun l => l.side == side) x.2.sums) (orderedGroups P opts journals) 0 n
    simp only [Nat.zero_add] at hzip
    simp only [Nat.add_right_cancel_iff, hzip, rowKey, Nat.succ_ne_zero, if_false,
      Nat.add_sub_cancel]
    cases hget : (orderedGroups P opts journals)[n]? with
    | none => simp
    | some x =>
      have hmem : (x.1, x.2) ∈ (monthlyGroups P opts journals).entries :=
        (List.perm_insertionSort _ _).mem_iff.mp (List.mem_of_getElem? hget)
      have hgroups := (@groupsWhere_monthlyGroups P opts _ _ (mergeable_side side) (fun k => k == x.1) journals)
        (fun _ _ _ _ => trivial)
      simp only [beq_iff_eq, groupsWhere] at hgroups
      rw [OrderedMap.weight_of_mem hmem fun g => sumsWhere (fun l => l.side == side) g.sums]
        at hgroups
      simp only [Option.map_some, Option.getD_some, hgroups, Option.some.injEq, sumOf_eq, eq_comm]

/-! ## The months of a row -/

theorem notMem_minus_toString {m : ℤ} (h : 1 ≤ m) : '-' ∉ (toString m).toList := by
  obtain ⟨n, rfl⟩ := Int.eq_ofNat_of_zero_le (by omega : 0 ≤ m)
  intro hmem
  have hdigits : (toString (n : ℤ)).toList = Nat.toDigits 10 n := by
    show (toString n).toList = _
    rw [Nat.toString_eq_ofList_toDigits, String.toList_ofList]
  rw [hdigits] at hmem
  exact absurd (Nat.isDigit_of_mem_toDigits (by decide) (by decide) hmem) (by decide)

/-- The key of a month gives back the month. -/
theorem monthKey_inj {y m z n : ℤ} (hm : 1 ≤ m) (hn : 1 ≤ n)
    (h : s!"M{y}-{m}" = s!"M{z}-{n}") : y = z ∧ m = n := by
  have hchars : 'M' :: ((toString y).toList ++ '-' :: (toString m).toList) =
      'M' :: ((toString z).toList ++ '-' :: (toString n).toList) := by
    have hdash : (toString "-").toList = ['-'] := rfl
    simpa [String.toList_append, hdash] using congrArg String.toList h
  -- the last minus stands before the month
  have hreversed := congrArg List.reverse (List.cons.inj hchars).2
  simp only [List.reverse_append, List.reverse_cons, List.append_assoc,
    List.singleton_append] at hreversed
  have hminus {k : ℤ} (hk : 1 ≤ k) : '-' ∉ (toString k).toList.reverse := fun hmem =>
    notMem_minus_toString hk (List.mem_reverse.mp hmem)
  obtain ⟨hmonth, hyear⟩ := append_separator_inj (hminus hm) (hminus hn) hreversed
  exact ⟨Int.repr_injective (String.toList_inj.mp (List.reverse_injective hyear)),
    Int.repr_injective (String.toList_inj.mp (List.reverse_injective hmonth))⟩

/-- Journals of one group are of one kind, and those of a month are of one month. -/
theorem kind_of_groupKey {j j' : TbJournal} (h : groupKey P opts j = groupKey P opts j') :
    kindOf j = kindOf j' ∧
      (kindOf j = .month → SameMonth (journalJalali P opts j) (journalJalali P opts j')) := by
  have hmonth (j : TbJournal) : 1 ≤ (journalJalali P opts j).m := by
    unfold journalJalali
    split <;> exact P.one_le_month _
  have hne (y m : ℤ) (v : String) (hv : v.toList.head? ≠ some 'M') : s!"M{y}-{m}" ≠ v := by
    rintro rfl
    simp only [String.toList_append] at hv
    exact hv rfl
  unfold groupKey at h
  cases hj : kindOf j <;> cases hj' : kindOf j' <;> simp only [hj, hj'] at h
  · exact ⟨rfl, by simp⟩
  · exact absurd h.symm (hne _ _ _ (by decide))
  · exact absurd h (by decide)
  · exact absurd h (hne _ _ _ (by decide))
  · exact ⟨rfl, fun _ => monthKey_inj (hmonth j) (hmonth j') h⟩
  · exact absurd h (hne _ _ _ (by decide))
  · exact absurd h (by decide)
  · exact absurd h.symm (hne _ _ _ (by decide))
  · exact ⟨rfl, by simp⟩

/-- The journal has a line with rials. -/
def HasRials (j : TbJournal) : Prop := ∃ l ∈ j.lines, l.amountRial ≠ 0

/-- All opening entries with rials are of one month. -/
def OpeningsInOneMonth (P : TaxPlatform) (opts : TbOptions) (journals : List TbJournal) : Prop :=
  ∀ j ∈ journals, ∀ j' ∈ journals, j.source = .opening → j'.source = .opening → HasRials j →
    HasRials j' → SameMonth (journalJalali P opts j) (journalJalali P opts j')

theorem mem_rialJournals {accounts : List TbAccount} {journals : List TbJournal}
    {x : TbJournal × List Line} (h : x ∈ rialJournals accounts journals) :
    x.1 ∈ journals ∧ HasRials x.1 := by
  obtain ⟨hmem, hne⟩ := List.mem_filter.mp h
  obtain ⟨j, hj, rfl⟩ := List.mem_map.mp hmem
  refine ⟨(List.perm_insertionSort _ _).mem_iff.mp hj, ?_⟩
  obtain ⟨l, hl⟩ := List.exists_mem_of_ne_nil _ (by simpa using hne : toLines accounts j ≠ [])
  obtain ⟨tb, htb, m, hzero, -⟩ := mem_toLines.mp hl
  exact ⟨tb, htb, hzero⟩

/-- Without issues every journal with rials goes into the file. -/
theorem rialJournals_of_hasRials {accounts : List TbAccount} {journals : List TbJournal}
    {j : TbJournal} (hj : j ∈ journals) (hlines : lineIssues accounts j = [])
    (hrials : HasRials j) : (j, toLines accounts j) ∈ rialJournals accounts journals := by
  refine List.mem_filter.mpr ⟨List.mem_map.mpr ⟨j, ?_, rfl⟩, ?_⟩
  · exact (List.perm_insertionSort _ _).mem_iff.mpr hj
  · obtain ⟨tb, htb, hzero⟩ := hrials
    have hissue := List.filterMap_eq_nil_iff.mp hlines tb htb
    unfold readLine at hissue
    rw [dif_neg hzero] at hissue
    split at hissue
    · cases hissue
    · rename_i m hmap
      have hmem : lineOf j tb m hzero ∈ toLines accounts j :=
        mem_toLines.mpr ⟨tb, htb, m, hzero, hmap, rfl⟩
      simpa using List.ne_nil_of_mem hmem

/-- The journals of a row are of one month, unless they are opening entries. -/
theorem rowJournals_oneMonth {accounts : List TbAccount} {journals : List TbJournal}
    (hrows : ((eventsOf P opts (rialJournals accounts journals)).map Event.row).Nodup) {n : ℕ}
    {j j' : TbJournal} (hj : j ∈ rowJournals P opts (rialJournals accounts journals) n)
    (hj' : j' ∈ rowJournals P opts (rialJournals accounts journals) n)
    (hopening : opts.mode = .monthly → OpeningsInOneMonth P opts journals) :
    SameMonth (journalJalali P opts j) (journalJalali P opts j') := by
  unfold rowJournals at hj hj'
  unfold eventsOf at hrows
  cases hmode : opts.mode with
  | document =>
    simp only [hmode, List.mem_map, List.mem_filter, beq_iff_eq] at hj hj' hrows
    obtain ⟨x, ⟨hx, hrow⟩, rfl⟩ := hj
    obtain ⟨x', ⟨hx', hrow'⟩, rfl⟩ := hj'
    have hnodup : ((rialJournals accounts journals).map fun x => documentRow opts x.1).Nodup := by
      have hperm := (List.perm_insertionSort (fun a b : Event => a.row ≤ b.row)
        ((rialJournals accounts journals).map (documentEvent P opts))).map Event.row
      rw [List.map_map] at hperm
      exact hperm.nodup_iff.mp hrows
    -- one journal for each row
    have hsame : x = x' := List.inj_on_of_nodup_map hnodup hx hx' (hrow.trans hrow'.symm)
    rw [hsame]
    exact ⟨rfl, rfl⟩
  | monthly =>
    simp only [hmode, List.mem_map, List.mem_filter, beq_iff_eq] at hj hj'
    obtain ⟨x, ⟨hx, hkey⟩, rfl⟩ := hj
    obtain ⟨x', ⟨hx', hkey'⟩, rfl⟩ := hj'
    obtain ⟨hkind, hmonth⟩ := kind_of_groupKey (Option.some.inj (hkey.symm.trans hkey'))
    have hsource (j : TbJournal) (k : GroupKind) (h : kindOf j = k) :
        (k = .opening → j.source = .opening) ∧ (k = .closing → j.source = .closing) := by
      subst h
      unfold kindOf
      cases j.source <;> simp
    cases hk : kindOf x.1 with
    | opening =>
      obtain ⟨hmem, hrials⟩ := mem_rialJournals hx
      obtain ⟨hmem', hrials'⟩ := mem_rialJournals hx'
      exact hopening hmode x.1 hmem x'.1 hmem' ((hsource _ _ hk).1 rfl)
        ((hsource _ _ (hkind.symm.trans hk)).1 rfl) hrials hrials'
    | month => exact hmonth hk
    | closing =>
      have hdate (j : TbJournal) (h : kindOf j = .closing) :
          journalJalali P opts j = P.toJalaali opts.fiscalLastDay :=
        if_pos ((hsource _ _ h).2 rfl)
      rw [hdate _ hk, hdate _ (hkind.symm.trans hk)]
      exact ⟨rfl, rfl⟩

/-- The sums of a row are those of its journals. -/
theorem rowTotal_eq {accounts : List TbAccount} {journals : List TbJournal}
    (hlines : ∀ j ∈ journals, lineIssues accounts j = []) (n : ℕ) (side : LedgerSide) :
    rowTotal n side (buildTaxBook P journals accounts opts).records =
      ((rowJournals P opts (rialJournals accounts journals) n).map (journalTotal side)).sum := by
  have hsum (q : TbJournal × List Line → Bool) :
      ((((rialJournals accounts journals).filter q).map Prod.fst).map (journalTotal side)).sum =
        ((rialJournals accounts journals).map fun x => if q x then sumOf side x.2 else 0).sum := by
    rw [List.map_map, Table.sum_map_filter]
    refine congrArg List.sum (List.map_congr_left fun x hx => ?_)
    obtain ⟨j, hj, rfl⟩ := List.mem_map.mp (List.mem_filter.mp hx).1
    have hjournal := (List.perm_insertionSort _ _).mem_iff.mp hj
    rw [Function.comp_apply, sumOf_toLines (hlines j hjournal)]
  simp only [buildTaxBook, rowTotal_records]
  unfold rowJournals eventsOf
  cases opts.mode with
  | document =>
    dsimp only
    rw [hsum, documentEvents, ((List.perm_insertionSort _ _).map _).sum_eq, List.map_map]
    refine congrArg List.sum (List.map_congr_left fun x _ => ?_)
    simp [documentEvent]
  | monthly =>
    dsimp only
    rw [hsum, monthly_row]
    simp only [beq_iff_eq]

/-- A record stands for a line of an event. -/
theorem mem_records {events : List Event} {r : TbRecord} :
    r ∈ events.flatMap recordsOf ↔ ∃ e ∈ events, ∃ l ∈ e.lines, recordOf e l = r := by
  simp [recordsOf]

/-- The group of a journal is one of the rows. -/
theorem exists_row {journals : List (TbJournal × List Line)} {x : TbJournal × List Line}
    (hx : x ∈ journals) : ∃ n, rowKey P opts journals n = some (groupKey P opts x.1) := by
  have hkey : groupKey P opts x.1 ∈ (monthlyGroups P opts journals).keys :=
    OrderedMap.mem_keys_foldl.mpr (.inr ⟨x, hx, rfl⟩)
  obtain ⟨e, he, hek⟩ := List.mem_map.mp hkey
  have hmem : e ∈ orderedGroups P opts journals := (List.perm_insertionSort _ _).mem_iff.mpr he
  obtain ⟨i, hi⟩ := List.mem_iff_getElem?.mp hmem
  refine ⟨i + 1, ?_⟩
  simp [rowKey, hi, hek]

end TaxBooks

open TaxBooks

/-- Two opening entries, of the first and of the second month. -/
def twoOpenings : List TbJournal := [openingJournal 1 20168 1000, openingJournal 2 20204 500]

end ArkanGold
