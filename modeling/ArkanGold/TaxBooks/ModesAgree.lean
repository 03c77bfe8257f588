import ArkanGold.TaxBooks.Builder

/-!
# The two modes of a tax book agree

Grouping moves no rial: whatever is summed up over the lines of the journals is summed up
over the lines of the events (`amountWhere_events`), as long as lines under one key of a
group count alike. The codes of accounts are digits, so a key gives back the codes and the
side it was made of, and the totals of each account and side are the same in both modes.
-/

namespace ArkanGold

namespace TaxBooks

variable {P : TaxPlatform} {opts : TbOptions}

/-! ## Sums over lines -/

/-- The sum of the lines that `p` selects. -/
def amountWhere (p : Line → Bool) (lines : List Line) : ℕ :=
  (lines.map fun l => if p l then l.amount else 0).sum

theorem sumOf_eq (side : LedgerSide) (lines : List Line) :
    sumOf side lines = amountWhere (fun l => l.side == side) lines := by
  simp [sumOf, amountWhere]

theorem amountWhere_perm (p : Line → Bool) {l l' : List Line} (h : l.Perm l') :
    amountWhere p l = amountWhere p l' := (h.map _).sum_eq

/-- The lines that satisfy `good` can be merged under their keys without a change of the
sum that `p` selects. -/
structure Mergeable (good : Line → Prop) (p : Line → Bool) : Prop where
  plus : ∀ cur l, good cur → good (cur.plus l)
  relabel : ∀ l text, good l → good { l with description := text }
  same : ∀ l l', good l → good l' → lineKey l = lineKey l' → p l = p l'

section Merging

variable {good : Line → Prop} {p : Line → Bool}

/-- The entries of the sums of a group. -/
def Sums (good : Line → Prop) (sums : OrderedMap String Line) : Prop :=
  sums.All fun k l => lineKey l = k ∧ good l

/-- What `p` selects of the sums of a group. -/
def sumsWhere (p : Line → Bool) (sums : OrderedMap String Line) : ℕ :=
  sums.weight fun _ l => if p l then l.amount else 0

/-- The sums of a group take up every line once. -/
theorem sumsWhere_addLines (hp : Mergeable good p) {label : String} {lines : List Line}
    (hlines : ∀ l ∈ lines, good l) {sums : OrderedMap String Line} (hsums : Sums good sums) :
    sumsWhere p (lines.foldl (addLine label) sums) = sumsWhere p sums + amountWhere p lines ∧
      Sums good (lines.foldl (addLine label) sums) := by
  refine OrderedMap.weight_foldl (fun l hl => ?_) (fun l hl cur hcur => ?_) hsums
  · have hgood := hp.relabel l label (hlines l hl)
    refine ⟨⟨rfl, hgood⟩, ?_⟩
    rw [hp.same _ l hgood (hlines l hl) rfl]
  · obtain ⟨hkey, hgood⟩ := hcur
    have hplus := hp.plus cur l hgood
    refine ⟨⟨hkey, hplus⟩, ?_⟩
    rw [hp.same _ cur hplus hgood rfl, hp.same cur l hgood (hlines l hl) hkey]
    split <;> simp [Line.plus]

/-- What `p` selects of the groups whose keys satisfy `q`. -/
def groupsWhere (q : String → Bool) (p : Line → Bool) (groups : OrderedMap String Group) : ℕ :=
  groups.weight fun k g => if q k then sumsWhere p g.sums else 0

theorem sums_touchGroup (j : TbJournal) (g : Group) : (touchGroup P opts j g).sums = g.sums := by
  unfold touchGroup
  dsimp only
  split <;> rfl

theorem monthlyGroups_eq (journals : List (TbJournal × List Line)) :
    monthlyGroups P opts journals = journals.foldl (fun groups x =>
      groups.alter (groupKey P opts x.1) fun old =>
        old.elim ((newGroup P opts x.1).add x.2) fun g => (touchGroup P opts x.1 g).add x.2)
      .empty := by
  unfold monthlyGroups addJournal
  congr
  funext groups x
  congr
  funext old
  cases old <;> rfl

/-- The groups take up every line of the journals once, in the group of its journal. -/
theorem groupsWhere_monthlyGroups (hp : Mergeable good p) (q : String → Bool)
    {journals : List (TbJournal × List Line)} (hgood : ∀ x ∈ journals, ∀ l ∈ x.2, good l) :
    groupsWhere q p (monthlyGroups P opts journals) =
      (journals.map fun x => if q (groupKey P opts x.1) then amountWhere p x.2 else 0).sum := by
  have hempty : Sums good (.empty : OrderedMap String Line) := OrderedMap.all_empty _
  have h := @OrderedMap.weight_foldl _ _ _ _ _ _
    (fun k g => if q k then sumsWhere p g.sums else 0) (fun _ g => Sums good g.sums)
    (fun x => groupKey P opts x.1)
    (fun x old => old.elim ((newGroup P opts x.1).add x.2)
      fun g => (touchGroup P opts x.1 g).add x.2)
    (fun x => if q (groupKey P opts x.1) then amountWhere p x.2 else 0) journals ?_ ?_ .empty (OrderedMap.all_empty _)
  · rw [OrderedMap.weight_empty, zero_add] at h
    rw [groupsWhere, monthlyGroups_eq]
    exact h.1
  · intro x hx
    obtain ⟨hsum, hall⟩ := (@sumsWhere_addLines _ _ hp ((newGroup P opts x.1).label))
      (hgood x hx) hempty
    refine ⟨hall, ?_⟩
    have : sumsWhere p ((newGroup P opts x.1).add x.2).sums = amountWhere p x.2 :=
      hsum.trans (Nat.zero_add _)
    simp only [Option.elim_none, this]
  · intro x hx g hg
    rw [← (@sums_touchGroup P opts) x.1 g] at hg
    obtain ⟨hsum, hall⟩ := (@sumsWhere_addLines _ _ hp ((touchGroup P opts x.1 g).label))
      (hgood x hx) hg
    refine ⟨hall, ?_⟩
    have : sumsWhere p ((touchGroup P opts x.1 g).add x.2).sums =
        sumsWhere p g.sums + amountWhere p x.2 := by
      rw [← (@sums_touchGroup P opts) x.1 g]
      exact hsum
    simp only [Option.elim_some, this]
    split <;> simp

/-- The lines of a group stand for its sums. -/
theorem amountWhere_groupLines (g : Group) : amountWhere p (groupLines P g) = sumsWhere p g.sums := by
  rw [groupLines, amountWhere_perm p (List.perm_insertionSort _ _), amountWhere,
    OrderedMap.weight_values]
  rfl

/-- No rial is lost or counted twice on the way from the journals to the events. -/
theorem amountWhere_events (hp : Mergeable good p) {journals : List (TbJournal × List Line)}
    (hgood : ∀ x ∈ journals, ∀ l ∈ x.2, good l) :
    ((eventsOf P opts journals).map fun e => amountWhere p e.lines).sum =
      (journals.map fun x => amountWhere p x.2).sum := by
  unfold eventsOf
  split
  · unfold documentEvents
    rw [((List.perm_insertionSort _ _).map _).sum_eq, List.map_map]
    rfl
  · have h := (@groupsWhere_monthlyGroups P opts) hp (fun _ => true) hgood
    simp only [if_true] at h
    rw [← h]
    have hlines : (monthlyEvents P opts journals).map (fun e => amountWhere p e.lines) =
        (orderedGroups P opts journals).map fun x => sumsWhere p x.2.sums := by
      unfold monthlyEvents
      rw [List.map_map]
      calc (orderedGroups P opts journals).zipIdx.map
            ((fun e => amountWhere p e.lines) ∘ groupEvent P)
          = ((orderedGroups P opts journals).zipIdx.map Prod.fst).map
              fun x => sumsWhere p x.2.sums := by
            rw [List.map_map]
            exact List.map_congr_left fun x _ => amountWhere_groupLines x.1.2
        _ = _ := by rw [List.zipIdx_map_fst]
    rw [hlines]
    exact ((List.perm_insertionSort _ _).map _).sum_eq

end Merging

/-! ## Keys -/

/-- The codes of the line are free of the separator. -/
def Separable (l : Line) : Prop := '|' ∉ l.kol.code.toList ∧ '|' ∉ l.moeinCode.toList

theorem sideText_injective {a b : LedgerSide} (h : sideText a = sideText b) : a = b := by
  cases a <;> cases b <;> first | rfl | exact absurd h (by decide)

theorem append_separator_inj {c : Char} {u v s t : List Char} (hu : c ∉ u) (hv : c ∉ v)
    (h : u ++ c :: s = v ++ c :: t) : u = v ∧ s = t := by
  induction u generalizing v with
  | nil =>
    cases v with
    | nil => exact ⟨rfl, (List.cons.inj h).2⟩
    | cons y v => exact absurd (List.cons.inj h).1 fun hy => hv (hy ▸ List.mem_cons_self ..)
  | cons x u ih =>
    cases v with
    | nil => exact absurd (List.cons.inj h).1 fun hx => hu (hx ▸ List.mem_cons_self ..)
    | cons y v =>
      obtain ⟨rfl, hrest⟩ := List.cons.inj h
      obtain ⟨rfl, rfl⟩ := ih (fun hmem => hu (List.mem_cons_of_mem _ hmem))
        (fun hmem => hv (List.mem_cons_of_mem _ hmem)) hrest
      exact ⟨rfl, rfl⟩

/-- A key gives back what it was made of. -/
theorem lineKey_inj {l l' : Line} (hl : Separable l) (hl' : Separable l')
    (h : lineKey l = lineKey l') :
    l.kol.code = l'.kol.code ∧ l.moeinCode = l'.moeinCode ∧ l.side = l'.side := by
  have hchars := congrArg String.toList h
  have hbar : "|".toList = ['|'] := rfl
  simp only [lineKey, String.toList_append, List.append_assoc, hbar,
    List.singleton_append] at hchars
  obtain ⟨hkol, hrest⟩ := append_separator_inj hl.1 hl'.1 hchars
  obtain ⟨hmoein, hside⟩ := append_separator_inj hl.2 hl'.2 hrest
  exact ⟨String.toList_inj.mp hkol, String.toList_inj.mp hmoein,
    sideText_injective (String.toList_inj.mp hside)⟩

/-- The lines of one account and side. -/
def ofAccount (kolCode moeinCode : String) (side : LedgerSide) (l : Line) : Bool :=
  l.kol.code == kolCode && l.moeinCode == moeinCode && l.side == side

theorem mergeable_ofAccount (kolCode moeinCode : String) (side : LedgerSide) :
    Mergeable Separable (ofAccount kolCode moeinCode side) where
  plus _ _ h := h
  relabel _ _ h := h
  same l l' hl hl' h := by
    obtain ⟨hkol, hmoein, hside⟩ := lineKey_inj hl hl' h
    simp only [ofAccount, hkol, hmoein, hside]

/-- Whatever the codes are, the side is the last part of a key. -/
theorem mergeable_side (side : LedgerSide) :
    Mergeable (fun _ => True) (fun l => l.side == side) where
  plus _ _ h := h
  relabel _ _ h := h
  same l l' _ _ h := by
    have hlast := congrArg (fun v => v.toList.reverse.take 5) h
    simp only [lineKey, String.toList_append, List.append_assoc, List.reverse_append] at hlast
    have hside : l.side = l'.side := by
      cases hs : l.side <;> cases hs' : l'.side <;> simp [hs, hs', sideText] at hlast ⊢
    rw [hside]

/-! ## Lines and their accounts -/

theorem mem_of_ancestors {accounts : List TbAccount} {n : ℕ} {cur : Option TbAccount}
    {chain : List TbAccount} {a : TbAccount} (ha : a ∈ ancestors accounts n cur chain)
    (hcur : ∀ b ∈ cur, b ∈ accounts) (hchain : ∀ b ∈ chain, b ∈ accounts) : a ∈ accounts := by
  induction n generalizing cur chain with
  | zero => exact hchain a ha
  | succ n ih =>
    cases cur with
    | none => exact hchain a ha
    | some b =>
      refine ih ha ?_ ?_
      · intro x hx
        obtain ⟨id, -, hid⟩ := Option.bind_eq_some_iff.mp (Option.mem_def.mp hx)
        exact List.mem_reverse.mp (List.mem_of_find?_eq_some hid)
      · intro x hx
        rcases List.mem_cons.mp hx with rfl | hx
        · exact hcur x rfl
        · exact hchain x hx

theorem mem_of_accountMapper {accounts : List TbAccount} {id : ℕ} {m : MappedAccount}
    (h : accountMapper accounts id = some m) :
    m.kol ∈ accounts ∧ ∀ a ∈ m.moein, a ∈ accounts := by
  have hmem : ∀ a ∈ ancestors accounts 20 (byId accounts id) [], a ∈ accounts := fun a ha =>
    mem_of_ancestors ha (fun b hb => List.mem_reverse.mp (List.mem_of_find?_eq_some hb)) (by simp)
  unfold accountMapper at h
  split at h
  · cases h
  · rename_i kol rest hchain
    obtain rfl := Option.some.inj h
    rw [hchain] at hmem
    exact ⟨hmem kol (List.mem_cons_self ..), fun a ha =>
      hmem a (List.mem_cons_of_mem _ (List.mem_of_mem_head? ha))⟩

/-- The lines of a journal are those of its lines with rials. -/
theorem mem_toLines {accounts : List TbAccount} {j : TbJournal} {l : Line} :
    l ∈ toLines accounts j ↔ ∃ tb ∈ j.lines, ∃ m, ∃ h : tb.amountRial ≠ 0,
      accountMapper accounts tb.accountId = some m ∧ l = lineOf j tb m h := by
  unfold toLines
  rw [List.mem_filterMap]
  refine exists_congr fun tb => and_congr_right fun _ => ?_
  unfold readLine
  split
  · rename_i h
    simp [h]
  · rename_i h
    split <;> rename_i hmap <;> simp [hmap, h, eq_comm]

/-- The lines of the journals stand under accounts of the list. -/
theorem separable_of_mem {accounts : List TbAccount} (hcodes : ∀ a ∈ accounts, '|' ∉ a.code.toList)
    {journals : List TbJournal} {x : TbJournal × List Line}
    (hx : x ∈ rialJournals accounts journals) {l : Line} (hl : l ∈ x.2) : Separable l := by
  obtain ⟨j, -, rfl⟩ := List.mem_map.mp (List.mem_filter.mp hx).1
  obtain ⟨tb, -, m, h, hmap, rfl⟩ := mem_toLines.mp hl
  obtain ⟨hkol, hmoein⟩ := mem_of_accountMapper hmap
  refine ⟨hcodes _ hkol, ?_⟩
  cases hm : m.moein with
  | none => simp [Line.moeinCode, lineOf, hm]
  | some a =>
    have := hcodes a (hmoein a hm)
    simpa [Line.moeinCode, lineOf, hm] using this

/-! ## The totals of a file -/

/-- The amount of a record on a side. -/
def recordAmount (side : LedgerSide) (r : TbRecord) : ℕ :=
  match side with
  | .debit => r.debitRial
  | .credit => r.creditRial

/-- The total of an account and side in the records. -/
def accountTotal (kolCode moeinCode : String) (side : LedgerSide) (records : List TbRecord) : ℕ :=
  (records.map fun r =>
    if r.kolCode = kolCode ∧ r.moeinCode = moeinCode then recordAmount side r else 0).sum

/-- The records of events carry the amounts of their lines. -/
theorem accountTotal_records (kolCode moeinCode : String) (side : LedgerSide)
    (events : List Event) : accountTotal kolCode moeinCode side (events.flatMap recordsOf) =
      (events.map fun e => amountWhere (ofAccount kolCode moeinCode side) e.lines).sum := by
  induction events with
  | nil => rfl
  | cons e events ih =>
    unfold accountTotal at ih ⊢
    rw [List.flatMap_cons, List.map_append, List.sum_append, ih, List.map_cons, List.sum_cons]
    congr 1
    rw [recordsOf, List.map_map, amountWhere]
    refine congrArg List.sum (List.map_congr_left fun l _ => ?_)
    by_cases haccount : l.kol.code = kolCode ∧ l.moeinCode = moeinCode
    · cases side <;> simp [recordOf, recordAmount, ofAccount, haccount]
    · have hof : ofAccount kolCode moeinCode side l = false := by
        simp only [ofAccount, Bool.and_eq_false_iff, beq_eq_false_iff_ne]
        exact .inl (not_and_or.mp haccount)
      rw [hof]
      exact if_neg haccount

end TaxBooks

open TaxBooks

/-- The calendar of the year 1404, with months of 31 and then of 30 days; its codes are
compared digit by digit. -/
def platform1404 : TaxPlatform where
  tehran := .standard
  toJalaali d :=
    let day := (d - 20168) % 365
    if day < 186 then ⟨1404 + (d - 20168) / 365, day / 31 + 1, day % 31 + 1⟩
    else ⟨1404 + (d - 20168) / 365, (day - 186) / 30 + 7, (day - 186) % 30 + 1⟩
  one_le_month d := by
    dsimp only
    split <;> dsimp only <;> omega
  jalaaliMonthLength _ m := if m ≤ 6 then 31 else if m ≤ 11 then 30 else 29
  localeCompare a b := if a < b then -1 else if a = b then 0 else 1
  sha256Hex v := v

/-- Cash with a bank under it, and the capital. -/
def taxAccounts : List TbAccount :=
  [⟨1, "1010", "موجودی نقد و بانک (ریال)", none⟩, ⟨2, "101001", "بانک ملت — جاری تجاری", some 1⟩,
    ⟨3, "3010", "سرمایه", none⟩]

/-- An opening entry of the day `d` that brings in an amount. -/
def openingJournal (number : ℕ) (d : ℤ) (amount : ℤ) : TbJournal where
  referenceNumber := 100 + number
  permanentNumber := some number
  fiscalYearId := some 1404
  entryDate := utcMidnight d
  description := some "افتتاحیه"
  source := .opening
  lines := [⟨2, .debit, amount, none⟩, ⟨3, .credit, amount, none⟩]

/-- The first two months of 1404. -/
def taxOptions (mode : TaxBookMode) : TbOptions := ⟨mode, 1404, 20532, 20168, 20229⟩

end ArkanGold
