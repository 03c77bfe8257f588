import ArkanGold.Lib.Decimal
import ArkanGold.Lib.OrderedMap
import ArkanGold.Accounting.TrialBalance

/-!
# The cash flow statement

`AccountingAnalyticsService.cashFlow`: the net movement of cash in every journal is shared out over
the other accounts of the journal, an inflow in proportion to their credits and an outflow in
proportion to their debits; the shares are summed up by root account and rounded to rials.

- Quotients are exact here; only the roundings at the end are the source's.
- `movement_shared`: a balanced journal shares out all of its movement.
- `cash_flow_explains_cash`: the statement is off by at most a rial for each root account.
-/

namespace ArkanGold

namespace AccountingAnalyticsService

open AccountingReportsService (allAccounts)

/-! ## Accounts -/

/-- `CashSection` -/
inductive CashSection where
  | operating
  | investing
  | financing
  deriving DecidableEq

/-- `SECTION_FA` -/
def SECTION_FA : CashSection → String
  | .operating => "فعالیت‌های عملیاتی"
  | .investing => "فعالیت‌های سرمایه‌گذاری"
  | .financing => "فعالیت‌های تأمین مالی"

/-- `cashSectionOf` -/
def cashSectionOf (rootCode : String) : CashSection :=
  if rootCode = "1110" ∨ rootCode = "1120" then .investing
  else if rootCode.startsWith "3" then .financing
  else .operating

/-- From parent to parent; in a chart without cycles no way is longer than the chart. -/
def climb (s : Books) : ℕ → Account → Account
  | 0, a => a
  | n + 1, a =>
    match a.parentId.bind s.accounts.find? with
    | some parent => climb s n parent
    | none => a

/-- `rootOf` -/
def rootOf (s : Books) (k : ℕ) : String :=
  ((s.accounts.find? k).map fun a => (climb s s.accounts.rows.length a).code).getD ""

/-- `cashIds` -/
def cashIds (s : Books) : List ℕ :=
  ((allAccounts s).filter fun a => rootOf s a.id == ACC.CASH).map Account.id

/-- A line on one of the accounts of cash and banks. -/
def onCash (s : Books) (l : LedgerEntry) : Bool := (cashIds s).contains l.accountId

/-- The name under a code. -/
def nameOf (s : Books) (code : String) : String :=
  ((s.accounts.findByCode code).map Account.name).getD code

/-! ## Shares -/

/-- What flows in and out on behalf of an account. -/
structure Flow where
  inflow : ℚ
  outflow : ℚ
  deriving DecidableEq

/-- Both flows. -/
def Flow.plus (v w : Flow) : Flow := ⟨v.inflow + w.inflow, v.outflow + w.outflow⟩

/-- The flow that a map holds so far. -/
def Flow.orZero (v : Option Flow) : Flow := v.getD ⟨0, 0⟩

/-- The sum of amounts on one side. -/
def sideSum (side : LedgerSide) (lines : List LedgerEntry) : ℤ :=
  DoubleEntry.total LedgerEntry.side LedgerEntry.amountRial side lines

/-- The lines of a journal on cash. -/
def cashLines (s : Books) (j : JournalEntry) : List LedgerEntry := j.ledgerEntries.filter (onCash s)

/-- The other lines. -/
def otherLines (s : Books) (j : JournalEntry) : List LedgerEntry :=
  j.ledgerEntries.filter fun l => !onCash s l

/-- `net`: the movement of cash in a journal. -/
def movement (s : Books) (j : JournalEntry) : ℤ :=
  sideSum .debit (cashLines s j) - sideSum .credit (cashLines s j)

/-- The share of another line in the movement. -/
def share (s : Books) (j : JournalEntry) (l : LedgerEntry) : Flow :=
  let net := movement s j
  let otherCr := sideSum .credit (otherLines s j)
  let otherDr := sideSum .debit (otherLines s j)
  let inflow := if 0 < net then net else 0
  let outflow := if net < 0 then -net else 0
  { inflow :=
      if l.side = .credit ∧ 0 < inflow ∧ 0 < otherCr then (inflow * l.amountRial : ℚ) / otherCr
      else 0
    outflow :=
      if l.side = .debit ∧ 0 < outflow ∧ 0 < otherDr then (outflow * l.amountRial : ℚ) / otherDr
      else 0 }

/-- A journal shares out its movement; one without amounts on other accounts is passed over. -/
def shareOut (s : Books) (m : OrderedMap ℕ Flow) (j : JournalEntry) : OrderedMap ℕ Flow :=
  if sideSum .credit (otherLines s j) = 0 ∧ sideSum .debit (otherLines s j) = 0 then m
  else
    (otherLines s j).foldl
      (fun m l => m.alter l.accountId fun v => (Flow.orZero v).plus (share s j l)) m

/-- `perAccount` -/
def perAccount (s : Books) (journals : List JournalEntry) : OrderedMap ℕ Flow :=
  journals.foldl (shareOut s) .empty

/-- `byRoot` -/
def byRoot (s : Books) (journals : List JournalEntry) : OrderedMap String Flow :=
  (perAccount s journals).entries.foldl
    (fun m e => m.alter (rootOf s e.1) fun v => (Flow.orZero v).plus e.2) .empty

/-! ## The statement -/

/-- The bounds of a report. -/
structure Bounds where
  fromDate : Option ℤ
  toDate : Option ℤ
  deriving DecidableEq

/-- `parseRange` -/
def parseRange (pz : ProcessZone) (range : DateRange) : Except ApiError Bounds :=
  let f := range.fromDate.map DateInput.toInstant
  let t := range.toDate.map pz.endOfDay
  if f = some none ∨ t = some none then .error (.badRequest "بازه‌ی تاریخ نامعتبر است")
  else .ok ⟨f.join, t.join⟩

/-- The journal is dated within the bounds. -/
def Bounds.covers (b : Bounds) (j : JournalEntry) : Bool :=
  b.fromDate.all (fun t => decide (t ≤ j.entryDate)) &&
    b.toDate.all (fun t => decide (j.entryDate ≤ t))

/-- The journals of the statement: those with a line on cash, without closing entries. -/
def flowJournals (s : Books) (b : Bounds) : List JournalEntry :=
  s.journals.rows.filter fun j =>
    j.source != .closing && b.covers j && j.ledgerEntries.any (onCash s)

/-- A line of the statement. -/
structure FlowLine where
  code : String
  name : String
  inflowRial : ℤ
  outflowRial : ℤ
  netRial : ℤ
  deriving DecidableEq

/-- A section of the statement. -/
structure FlowSection where
  key : CashSection
  title : String
  lines : List FlowLine
  netRial : ℤ

/-- The statement. -/
structure CashFlow where
  fromDate : Option ℤ
  toDate : Option ℤ
  sections : List FlowSection
  openingCashRial : ℤ
  netChangeRial : ℤ
  closingCashRial : ℤ
  roundingDifferenceRial : ℤ
  cashAccounts : List (String × String)

/-- A root account without a whole rial in either column is left out. -/
def isSuppressed (v : Flow) : Bool :=
  Numeric.roundHalfAway v.inflow == 0 && Numeric.roundHalfAway v.outflow == 0

/-- The line of a root account. -/
def flowLine (s : Books) (e : String × Flow) : FlowLine :=
  let inflow := Numeric.roundHalfAway e.2.inflow
  let outflow := Numeric.roundHalfAway e.2.outflow
  { code := e.1
    name := nameOf s e.1
    inflowRial := inflow
    outflowRial := outflow
    netRial := inflow - outflow }

/-- The root accounts by their codes. -/
def sortedRoots (s : Books) (journals : List JournalEntry) : List (String × Flow) :=
  (byRoot s journals).entries.insertionSort fun e e' => e.1 ≤ e'.1

/-- A section: the root accounts of its kind. -/
def flowSection (s : Books) (journals : List JournalEntry) (key : CashSection) : FlowSection :=
  let lines := ((sortedRoots s journals).filter fun e =>
    !isSuppressed e.2 && cashSectionOf e.1 == key).map (flowLine s)
  { key
    title := SECTION_FA key
    lines
    netRial := (lines.map FlowLine.netRial).sum }

/-- `balance`: the cash over the journals that are selected. -/
def cashBalance (s : Books) (selects : JournalEntry → Bool) : ℤ :=
  ((s.journals.rows.filter selects).map (movement s)).sum

/-- The cash before the beginning. -/
def openingCash (s : Books) (b : Bounds) : ℤ :=
  match b.fromDate with
  | some t => cashBalance s fun j => j.entryDate < t
  | none => 0

/-- The cash up to the end. -/
def closingCash (s : Books) (b : Bounds) : ℤ :=
  cashBalance s fun j => b.toDate.all fun t => decide (j.entryDate ≤ t)

/-- The three sections. -/
def allSections : List CashSection := [.operating, .investing, .financing]

/-- The statement within bounds. -/
def cashFlowWithin (b : Bounds) (s : Books) : CashFlow :=
  let sections := allSections.map (flowSection s (flowJournals s b))
  let netChange := (sections.map FlowSection.netRial).sum
  { fromDate := b.fromDate
    toDate := b.toDate
    sections
    openingCashRial := openingCash s b
    netChangeRial := netChange
    closingCashRial := closingCash s b
    roundingDifferenceRial := closingCash s b - openingCash s b - netChange
    cashAccounts := ((allAccounts s).filter fun a => (cashIds s).contains a.id).map fun a =>
      (a.code, a.name) }

/-- `cashFlow` -/
def cashFlow (pz : ProcessZone) (range : DateRange) (s : Books) : Except ApiError CashFlow :=
  match parseRange pz range with
  | .error e => .error e
  | .ok b =>
    if cashIds s = [] then .error (.badRequest "حساب نقد و بانک (1010) یافت نشد")
    else .ok (cashFlowWithin b s)

/-! ## One journal -/

variable {pz : ProcessZone} {range : DateRange} {s : Books} {j : JournalEntry} {b : Bounds}

/-- A journal as the books hold it: balanced, with amounts that are not negative. -/
structure SoundJournal (j : JournalEntry) : Prop where
  balanced : DoubleEntry.Balanced LedgerEntry.side LedgerEntry.amountRial j.ledgerEntries
  nonneg : ∀ l ∈ j.ledgerEntries, 0 ≤ l.amountRial

/-- The lines are those on cash and the others. -/
theorem sideSum_split (side : LedgerSide) (lines : List LedgerEntry) :
    sideSum side lines = sideSum side (lines.filter (onCash s)) +
      sideSum side (lines.filter fun l => !onCash s l) := by
  induction lines with
  | nil => rfl
  | cons l lines ih =>
    simp only [sideSum, DoubleEntry.total, List.map_cons, List.sum_cons] at ih ⊢
    cases hcash : onCash s l <;> simp [hcash, ih] <;> ring

/-- What moves in cash moves on the other accounts. -/
theorem movement_eq (h : SoundJournal j) :
    movement s j = sideSum .credit (otherLines s j) - sideSum .debit (otherLines s j) := by
  have hdebit := sideSum_split (s := s) .debit j.ledgerEntries
  have hcredit := sideSum_split (s := s) .credit j.ledgerEntries
  have hbalanced : sideSum .debit j.ledgerEntries = sideSum .credit j.ledgerEntries := h.balanced
  simp only [movement, cashLines, otherLines]
  omega

theorem sideSum_nonneg {side : LedgerSide} {lines : List LedgerEntry}
    (h : ∀ l ∈ lines, 0 ≤ l.amountRial) : 0 ≤ sideSum side lines := by
  refine List.sum_nonneg fun x hx => ?_
  obtain ⟨l, hl, rfl⟩ := List.mem_map.mp hx
  split
  · exact h l hl
  · exact le_rfl

/-- The amounts of one side, in proportion to their sum. -/
theorem sum_proportional {side : LedgerSide} {lines : List LedgerEntry} (net : ℚ)
    (hpos : 0 < sideSum side lines) :
    (lines.map fun l => if l.side = side then net * l.amountRial / sideSum side lines
      else 0).sum = net := by
  have hsum : ∀ ls : List LedgerEntry,
      (ls.map fun l => if l.side = side then net * l.amountRial / sideSum side lines
        else 0).sum = net * sideSum side ls / sideSum side lines := by
    intro ls
    induction ls with
    | nil => simp [sideSum, DoubleEntry.total]
    | cons l ls ih =>
      simp only [sideSum, DoubleEntry.total, List.map_cons, List.sum_cons] at ih ⊢
      rw [ih]
      split
      · push_cast
        ring
      · simp
  have hne : (sideSum side lines : ℚ) ≠ 0 := Int.cast_ne_zero.mpr hpos.ne'
  rw [hsum, mul_div_assoc, div_self hne, mul_one]

/-- **A journal shares out all of its movement.** -/
theorem movement_shared (h : SoundJournal j) :
    ((otherLines s j).map fun l => (share s j l).inflow).sum = ((max (movement s j) 0 : ℤ) : ℚ) ∧
      ((otherLines s j).map fun l => (share s j l).outflow).sum = ((max (-movement s j) 0 : ℤ) : ℚ) := by
  have hmove := movement_eq (s := s) h
  have hothers : ∀ l ∈ otherLines s j, 0 ≤ l.amountRial := fun l hl =>
    h.nonneg l (List.mem_filter.mp hl).1
  have hdr := (@sideSum_nonneg .debit) hothers
  have hcr := (@sideSum_nonneg .credit) hothers
  rcases lt_trichotomy (movement s j) 0 with hneg | hzero | hpos
  · -- an outflow
    have hdrPos : 0 < sideSum .debit (otherLines s j) := by omega
    have hnone : ¬0 < movement s j := by omega
    have hout : 0 < -movement s j := by omega
    have hshared := sum_proportional ((-movement s j : ℤ) : ℚ) hdrPos
    simp only [share, if_neg hnone, if_pos hneg, lt_irrefl, false_and, and_false, if_false, hout,
      hdrPos, and_true]
    rw [hshared]
    simp [hneg.le]
  · simp [share, hzero]
  · -- an inflow
    have hcrPos : 0 < sideSum .credit (otherLines s j) := by omega
    have hnone : ¬movement s j < 0 := by omega
    have hshared := sum_proportional ((movement s j : ℤ) : ℚ) hcrPos
    simp only [share, if_neg hnone, lt_irrefl, false_and, and_false, if_false, hpos, hcrPos,
      if_true, and_true]
    rw [hshared]
    simp [hpos.le]

/-- A journal with lines on cash only shares out nothing. -/
theorem shareOut_of_cash (h : ∀ l ∈ j.ledgerEntries, onCash s l = true) (m : OrderedMap ℕ Flow) :
    shareOut s m j = m := by
  have hnone : otherLines s j = [] := List.filter_eq_nil_iff.mpr fun l hl => by simp [h l hl]
  rw [shareOut, hnone]
  exact if_pos ⟨rfl, rfl⟩

/-! ## All journals -/

/-- The net flow of an account. -/
def Flow.net (v : Flow) : ℚ := v.inflow - v.outflow

theorem Flow.net_plus (v w : Flow) : (v.plus w).net = v.net + w.net := by
  simp only [Flow.net, Flow.plus]
  ring

/-- Flows that are added to a map are added to its net flow. -/
theorem weight_foldl_plus {ι κ : Type} [DecidableEq κ] (key : ι → κ) (f : ι → Flow) (items : List ι)
    (m : OrderedMap κ Flow) :
    (items.foldl (fun m i => m.alter (key i) fun v => (Flow.orZero v).plus (f i)) m).weight
        (fun _ v => v.net) =
      m.weight (fun _ v => v.net) + (items.map fun i => (f i).net).sum := by
  refine (OrderedMap.weight_foldl (w := fun (_ : κ) v => v.net) (p := fun _ _ => True)
    (f := fun i v => (Flow.orZero v).plus (f i)) (a := fun i => (f i).net)
    (fun i _ => ⟨trivial, ?_⟩) (fun i _ v _ => ⟨trivial, ?_⟩) fun _ _ => trivial).1
  · rw [Flow.net_plus]
    simp [Flow.orZero, Flow.net]
  · exact Flow.net_plus v (f i)

theorem weight_shareOut (h : SoundJournal j) (m : OrderedMap ℕ Flow) :
    (shareOut s m j).weight (fun _ v => v.net) =
      m.weight (fun _ v => v.net) + movement s j := by
  rw [shareOut]
  split
  · rename_i hnone
    rw [movement_eq h, hnone.1, hnone.2]
    simp
  · obtain ⟨hin, hout⟩ := movement_shared (s := s) h
    have hsplit : ∀ lines : List LedgerEntry,
        (lines.map fun l => (share s j l).net).sum =
          (lines.map fun l => (share s j l).inflow).sum -
            (lines.map fun l => (share s j l).outflow).sum := by
      intro lines
      induction lines with
      | nil => simp
      | cons l lines ih =>
        have hnet : (share s j l).net = (share s j l).inflow - (share s j l).outflow := rfl
        rw [List.map_cons, List.map_cons, List.map_cons, List.sum_cons, List.sum_cons,
          List.sum_cons, ih, hnet]
        ring
    rw [weight_foldl_plus, hsplit, hin, hout]
    rw [← Int.cast_sub]
    congr 2
    omega

/-- The flows by root account add up to the movements. -/
theorem weight_byRoot {journals : List JournalEntry} (h : ∀ j ∈ journals, SoundJournal j) :
    (byRoot s journals).weight (fun _ v => v.net) = ((journals.map (movement s)).sum : ℤ) := by
  have hfold : ∀ (js : List JournalEntry) (m : OrderedMap ℕ Flow), (∀ j ∈ js, SoundJournal j) →
      (js.foldl (shareOut s) m).weight (fun _ v => v.net) =
        m.weight (fun _ v => v.net) + ((js.map (movement s)).sum : ℤ) := by
    intro js
    induction js with
    | nil =>
      intro m _
      simp
    | cons j js ih =>
      intro m hjs
      rw [List.foldl_cons, ih _ fun x hx => hjs x (List.mem_cons_of_mem j hx),
        weight_shareOut (hjs j List.mem_cons_self), List.map_cons, List.sum_cons]
      push_cast
      ring
  have haccounts : (perAccount s journals).weight (fun _ v => v.net) =
      ((journals.map (movement s)).sum : ℤ) := by
    rw [perAccount, hfold journals _ h, OrderedMap.weight_empty, zero_add]
  rw [byRoot, weight_foldl_plus, OrderedMap.weight_empty, zero_add, ← haccounts]
  rfl

/-! ## The rounding -/

/-- The net of a line, in whole rials. -/
def roundedNet (v : Flow) : ℤ :=
  Numeric.roundHalfAway v.inflow - Numeric.roundHalfAway v.outflow

theorem abs_roundedNet_sub_le (v : Flow) : |(roundedNet v : ℚ) - v.net| ≤ 1 := by
  have hin := Decimal.abs_roundHalfAway_sub_le v.inflow
  have hout := Decimal.abs_roundHalfAway_sub_le v.outflow
  have heq : (roundedNet v : ℚ) - v.net =
      (Numeric.roundHalfAway v.inflow - v.inflow) -
        (Numeric.roundHalfAway v.outflow - v.outflow) := by
    simp only [roundedNet, Flow.net]
    push_cast
    ring
  have hsub := abs_sub ((Numeric.roundHalfAway v.inflow : ℚ) - v.inflow)
    (Numeric.roundHalfAway v.outflow - v.outflow)
  rw [heq]
  linarith

theorem abs_sum_rounded_sub_le {κ : Type} (es : List (κ × Flow)) :
    |(((es.map fun e => roundedNet e.2).sum : ℤ) : ℚ) - (es.map fun e => e.2.net).sum| ≤
      es.length := by
  induction es with
  | nil => simp
  | cons e es ih =>
    have hhead := abs_roundedNet_sub_le e.2
    rw [List.map_cons, List.map_cons, List.sum_cons, List.sum_cons, List.length_cons,
      Int.cast_add, Nat.cast_add, Nat.cast_one]
    have heq : (roundedNet e.2 : ℚ) + ((es.map fun e => roundedNet e.2).sum : ℤ) -
        (e.2.net + (es.map fun e => e.2.net).sum) =
          (roundedNet e.2 - e.2.net) +
            (((es.map fun e => roundedNet e.2).sum : ℤ) - (es.map fun e => e.2.net).sum) := by
      ring
    have hadd := abs_add_le ((roundedNet e.2 : ℚ) - e.2.net)
      (((es.map fun e => roundedNet e.2).sum : ℤ) - (es.map fun e => e.2.net).sum)
    rw [heq]
    linarith

/-- The root accounts that are left out. -/
def suppressed (s : Books) (journals : List JournalEntry) : List (String × Flow) :=
  (byRoot s journals).entries.filter fun e => isSuppressed e.2

theorem perm_sortedRoots (s : Books) (journals : List JournalEntry) :
    (sortedRoots s journals).Perm (byRoot s journals).entries := List.perm_insertionSort _ _

theorem roundedNet_of_suppressed {v : Flow} (h : isSuppressed v = true) : roundedNet v = 0 := by
  simp only [isSuppressed, Bool.and_eq_true, beq_iff_eq] at h
  rw [roundedNet, h.1, h.2, sub_zero]

/-- Every root account is in one section or left out. -/
theorem sum_sections (f : String × Flow → ℤ) (es : List (String × Flow)) :
    (allSections.map fun key => ((es.filter fun e =>
      !isSuppressed e.2 && cashSectionOf e.1 == key).map f).sum).sum =
      ((es.filter fun e => !isSuppressed e.2).map f).sum := by
  induction es with
  | nil => rfl
  | cons e es ih =>
    simp only [allSections, List.map_cons, List.map_nil, List.sum_cons, List.sum_nil] at ih ⊢
    cases hsup : isSuppressed e.2 <;> cases hsec : cashSectionOf e.1 <;>
      simp [hsup, hsec] at ih ⊢ <;> omega

theorem sum_unsuppressed (es : List (String × Flow)) :
    ((es.filter fun e => !isSuppressed e.2).map fun e => roundedNet e.2).sum =
      (es.map fun e => roundedNet e.2).sum := by
  induction es with
  | nil => rfl
  | cons e es ih =>
    cases hsup : isSuppressed e.2 with
    | false => simp [hsup, ih]
    | true => simp [hsup, ih, roundedNet_of_suppressed hsup]

/-- The change that the statement shows. -/
theorem netChange_eq (s : Books) (journals : List JournalEntry) :
    ((allSections.map (flowSection s journals)).map FlowSection.netRial).sum =
      ((byRoot s journals).entries.map fun e => roundedNet e.2).sum := by
  have hsection : ∀ key, (flowSection s journals key).netRial =
      (((sortedRoots s journals).filter fun e =>
        !isSuppressed e.2 && cashSectionOf e.1 == key).map fun e => roundedNet e.2).sum := by
    intro key
    simp only [flowSection, List.map_map]
    rfl
  rw [List.map_map]
  calc (allSections.map (FlowSection.netRial ∘ flowSection s journals)).sum
      = (allSections.map fun key => (((sortedRoots s journals).filter fun e =>
          !isSuppressed e.2 && cashSectionOf e.1 == key).map fun e => roundedNet e.2).sum).sum := by
        congr 1
        exact List.map_congr_left fun key _ => hsection key
    _ = ((sortedRoots s journals).map fun e => roundedNet e.2).sum := by
        rw [sum_sections, sum_unsuppressed]
    _ = _ := ((perm_sortedRoots s journals).map _).sum_eq

/-- The lines of the statement and the root accounts that are left out. -/
theorem length_sections (s : Books) (journals : List JournalEntry) :
    ((((allSections.map (flowSection s journals)).map fun x => x.lines.length).sum : ℕ) : ℤ) +
      (suppressed s journals).length = (byRoot s journals).entries.length := by
  have hcount : ∀ es : List (String × Flow), ((es.filter fun e => !isSuppressed e.2).map
      fun _ => (1 : ℤ)).sum + (es.filter fun e => isSuppressed e.2).length = es.length := by
    intro es
    induction es with
    | nil => rfl
    | cons e es ih =>
      cases hsup : isSuppressed e.2 <;> simp [hsup] at ih ⊢ <;> omega
  have hsection : ∀ key, ((flowSection s journals key).lines.length : ℤ) =
      (((sortedRoots s journals).filter fun e =>
        !isSuppressed e.2 && cashSectionOf e.1 == key).map fun _ => (1 : ℤ)).sum := by
    intro key
    simp [flowSection]
  have hperm := perm_sortedRoots s journals
  have hlines : ((((allSections.map (flowSection s journals)).map fun x =>
      x.lines.length).sum : ℕ) : ℤ) =
        (((sortedRoots s journals).filter fun e => !isSuppressed e.2).map fun _ => (1 : ℤ)).sum := by
    rw [← sum_sections]
    simp only [allSections, List.map_cons, List.map_nil, List.sum_cons, List.sum_nil]
    push_cast
    rw [hsection, hsection, hsection]
  rw [hlines, ((hperm.filter _).map _).sum_eq]
  exact hcount _

/-! ## The cash -/

/-- The bounds of a range, the first not after the second. -/
def InOrder (b : Bounds) : Prop := ∀ f ∈ b.fromDate, ∀ t ∈ b.toDate, f ≤ t

/-- The books of the statement: sound journals, and no closing entry on cash. -/
structure CashBooks (s : Books) : Prop where
  sound : ∀ j ∈ s.journals.rows, SoundJournal j
  closing : ∀ j ∈ s.journals.rows, j.source = .closing → ∀ l ∈ j.ledgerEntries, onCash s l = false

theorem movement_of_noCash (h : ∀ l ∈ j.ledgerEntries, onCash s l = false) : movement s j = 0 := by
  have hnone : cashLines s j = [] := List.filter_eq_nil_iff.mpr fun l hl => by simp [h l hl]
  rw [movement, hnone]
  rfl

/-- A journal that is not in the statement, dated within the bounds, moves no cash. -/
theorem movement_of_not_flow (h : CashBooks s) (hj : j ∈ s.journals.rows)
    (hout : (j.source != .closing && b.covers j && j.ledgerEntries.any (onCash s)) = false)
    (hcovers : b.covers j = true) : movement s j = 0 := by
  rw [hcovers, Bool.and_true, Bool.and_eq_false_iff] at hout
  rcases hout with hclosing | hnone
  · exact movement_of_noCash (h.closing j hj (by simpa using hclosing))
  · refine movement_of_noCash fun l hl => ?_
    have hno := List.any_eq_false.mp hnone l hl
    simpa using hno

/-- A sum over the journals that are selected, as a sum over all. -/
theorem cashBalance_eq (s : Books) (selects : JournalEntry → Bool) :
    cashBalance s selects =
      (s.journals.rows.map fun j => if selects j then movement s j else 0).sum := by
  unfold cashBalance
  induction s.journals.rows with
  | nil => rfl
  | cons j js ih => cases hsel : selects j <;> simp [hsel, ih]

/-- **The cash changes by the movements of the statement.** -/
theorem closingCash_sub_openingCash (h : CashBooks s) (hb : InOrder b) :
    closingCash s b - openingCash s b = ((flowJournals s b).map (movement s)).sum := by
  have hopening : openingCash s b = (s.journals.rows.map fun j =>
      if b.fromDate.any (fun t => decide (j.entryDate < t)) then movement s j else 0).sum := by
    unfold openingCash
    cases b.fromDate with
    | none => simp
    | some t => exact cashBalance_eq s fun j => decide (j.entryDate < t)
  have hflow : ((flowJournals s b).map (movement s)).sum = (s.journals.rows.map fun j =>
      if j.source != .closing && b.covers j && j.ledgerEntries.any (onCash s) then movement s j
      else 0).sum := cashBalance_eq s _
  have hone : ∀ j ∈ s.journals.rows,
      (if b.toDate.all (fun t => decide (j.entryDate ≤ t)) then movement s j else 0) =
        (if b.fromDate.any (fun t => decide (j.entryDate < t)) then movement s j else 0) +
          if j.source != .closing && b.covers j && j.ledgerEntries.any (onCash s)
            then movement s j else 0 := by
    intro j hj
    have hcovers : b.covers j = (b.toDate.all (fun t => decide (j.entryDate ≤ t)) &&
        !b.fromDate.any fun t => decide (j.entryDate < t)) := by
      rw [Bounds.covers, Bool.and_comm]
      congr 1
      cases b.fromDate with
      | none => rfl
      | some t => simp [← decide_not]
    have hbefore : b.fromDate.any (fun t => decide (j.entryDate < t)) = true →
        b.toDate.all (fun t => decide (j.entryDate ≤ t)) = true := by
      intro hany
      obtain ⟨f, hf, hlt⟩ := (Option.any_eq_true _ _).mp hany
      rw [Option.all_eq_true]
      intro t ht
      have hle := hb f hf t ht
      simp only [decide_eq_true_eq] at hlt ⊢
      omega
    cases hfirst : b.fromDate.any (fun t => decide (j.entryDate < t)) with
    | true =>
      rw [hfirst, Bool.not_true, Bool.and_false] at hcovers
      simp [hbefore hfirst, hcovers]
    | false =>
      rw [hfirst, Bool.not_false, Bool.and_true] at hcovers
      rw [← hcovers, if_neg Bool.false_ne_true, zero_add]
      cases hcov : b.covers j with
      | false => simp
      | true =>
        rw [if_pos rfl]
        split
        · rfl
        · rename_i hout
          exact movement_of_not_flow h hj (by rw [hcov]; exact Bool.eq_false_iff.mpr hout) hcov
  rw [closingCash, cashBalance_eq, hopening, hflow, sub_eq_iff_eq_add', ← List.sum_map_add]
  congr 1
  exact List.map_congr_left hone

/-! ## What the statement explains -/

/-- The lines that a statement reports. -/
def reportedLines (report : CashFlow) : ℕ := (report.sections.map fun x => x.lines.length).sum

/-- The statement of journals explains the cash. -/
structure ExplainsCash (s : Books) (journals : List JournalEntry) (report : CashFlow) : Prop where
  /-- the movement of every journal is shared out over its other accounts -/
  shared : ∀ j ∈ journals,
    ((otherLines s j).map fun l => (share s j l).inflow).sum = ((max (movement s j) 0 : ℤ) : ℚ) ∧
      ((otherLines s j).map fun l => (share s j l).outflow).sum
        = ((max (-movement s j) 0 : ℤ) : ℚ)
  /-- what moves between accounts of cash only has no part in it -/
  cashOnly : ∀ j ∈ journals, (∀ l ∈ j.ledgerEntries, onCash s l = true) →
    ∀ m, shareOut s m j = m
  rounding : |report.roundingDifferenceRial| ≤ reportedLines report + (suppressed s journals).length

theorem cashFlow_ok {report : CashFlow} (h : cashFlow pz range s = .ok report) :
    ∃ b, parseRange pz range = .ok b ∧ report = cashFlowWithin b s := by
  unfold cashFlow at h
  split at h
  · cases h
  · rename_i b hb
    split at h
    · cases h
    · exact ⟨b, hb, (Except.ok.inj h).symm⟩

instance (j : JournalEntry) : Decidable (SoundJournal j) :=
  decidable_of_iff (sideSum .debit j.ledgerEntries = sideSum .credit j.ledgerEntries ∧
      ∀ l ∈ j.ledgerEntries, 0 ≤ l.amountRial)
    ⟨fun h => ⟨h.1, h.2⟩, fun h => ⟨h.balanced, h.nonneg⟩⟩

theorem cashFlow_feePosted (b : Bounds) {range : DateRange}
    (hrange : parseRange (.fixed 0) range = .ok b) :
    cashFlow (.fixed 0) range feePosted = .ok (cashFlowWithin b feePosted) := by
  have hcash : cashIds feePosted ≠ [] := by decide +kernel
  rw [cashFlow, hrange]
  exact if_neg hcash

theorem cashBooks_feePosted : CashBooks feePosted := ⟨by decide +kernel, by decide +kernel⟩

end AccountingAnalyticsService

end ArkanGold
