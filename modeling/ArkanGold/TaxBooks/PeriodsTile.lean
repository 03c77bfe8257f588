import ArkanGold.Lib.Tiling
import ArkanGold.Accounting.LedgerIntegrity
import ArkanGold.TaxBooks.ModesAgree
import ArkanGold.TaxBooks.ExportDiscipline

/-!
# The periods of the exports tile the fiscal year

The next period follows the last one (`nextStart_spec`) and a replacement has the period of
the export it replaces, so every commit keeps the tiling (`Consistent.step`), and the periods
of the ACTIVE exports tile the year after every run whose replacements find the replaced
export still ACTIVE. Two replacements of one export that overlap leave two ACTIVE exports for
one period (`replaced_twice`).
-/

namespace ArkanGold

namespace TaxBooksService

variable {P : TaxPlatform} {s s' : TaxDb}

/-! ## The tiling -/

/-- The period of an export as it is stored. -/
def periodText (e : TaxBookExport) : String × String := (e.periodStart, e.periodEnd)

/-- A segment as the period of an export. -/
def segmentText (p : Segment) : String × String := (formatIsoDay p.first, formatIsoDay p.last)

/-- The segments are the periods of the ACTIVE exports of the year. -/
def Periods (y : FiscalYear) (s : TaxDb) (l : List Segment) : Prop :=
  (activeExports y.id s).map periodText = l.map segmentText

/-- The export has exactly one successor, with the same period. -/
def Succeeded (s : TaxDb) (e : TaxBookExport) : Prop :=
  ∃ r ∈ s.exports.rows, e.supersededById = some r.id ∧ place r = place e ∧
    ∀ k, (e.id, k) ∈ s.replacements ↔ k = r.id

/-- The ACTIVE exports tile the year, and the other ones have been succeeded. -/
structure PeriodsTile (P : TaxPlatform) (y : FiscalYear) (s : TaxDb) : Prop where
  tiled : ∃ l, Periods y s l ∧ Tiles (fiscalYearRange P.tehran y).firstDay
    (fiscalYearRange P.tehran y).lastDay l
  succeeded : ∀ e ∈ s.exports.rows, e.fiscalYearId = y.id → e.status = .superseded → Succeeded s e

/-- The days of the year are written with four digits for the year. -/
def FourDigits (P : TaxPlatform) (y : FiscalYear) : Prop :=
  FourDigitYear (fiscalYearRange P.tehran y).firstDay ∧
    FourDigitYear (fiscalYearRange P.tehran y).lastDay

section Tiling

variable {y : FiscalYear} {l : List Segment}

theorem fourDigit_of_mem (hy : FourDigits P y) (h : Tiles (fiscalYearRange P.tehran y).firstDay
    (fiscalYearRange P.tehran y).lastDay l) {p : Segment} (hp : p ∈ l) :
    FourDigitYear p.first ∧ FourDigitYear p.last := by
  have h₁ := h.le_first p hp
  have h₂ := h.within p hp
  have h₃ := p.first_le_last
  exact ⟨hy.1.of_mem hy.2 h₁ (h₃.trans h₂), hy.1.of_mem hy.2 (h₁.trans h₃) h₂⟩

/-- An ACTIVE export has one of the periods, which can be read off it. -/
theorem mem_periods (hy : FourDigits P y) (hl : Periods y s l)
    (h : Tiles (fiscalYearRange P.tehran y).firstDay (fiscalYearRange P.tehran y).lastDay l)
    {e : TaxBookExport} (he : e ∈ activeExports y.id s) : ∃ p ∈ l,
      periodText e = segmentText p ∧ parseIsoDay e.periodStart = some p.first ∧
        parseIsoDay e.periodEnd = some p.last := by
  have hmem : periodText e ∈ l.map segmentText := hl ▸ List.mem_map_of_mem he
  obtain ⟨p, hp, htext⟩ := List.mem_map.mp hmem
  obtain ⟨hfirst, hlast⟩ := fourDigit_of_mem hy h hp
  obtain ⟨h₁, h₂⟩ := Prod.mk.inj htext
  exact ⟨p, hp, htext.symm, by rw [← h₁, parseIsoDay_formatIsoDay hfirst],
    by rw [← h₂, parseIsoDay_formatIsoDay hlast]⟩

/-- The next period begins the year, or follows the period that ends last. -/
theorem nextStart_spec (hy : FourDigits P y) (hl : Periods y s l)
    (h : Tiles (fiscalYearRange P.tehran y).firstDay (fiscalYearRange P.tehran y).lastDay l) :
    let d := nextStart y.id (fiscalYearRange P.tehran y).firstDay s
    l = [] ∧ d = (fiscalYearRange P.tehran y).firstDay ∨
      ∃ q ∈ l, q.last + 1 = d ∧ ∀ r ∈ l, r.last ≤ q.last := by
  unfold nextStart
  cases hmax : (activeExports y.id s).argmax TaxBookExport.periodEnd with
  | none =>
    left
    rw [List.argmax_eq_none] at hmax
    rw [Periods, hmax, List.map_nil, eq_comm, List.map_eq_nil_iff] at hl
    exact ⟨hl, rfl⟩
  | some last =>
    right
    have hlast := List.argmax_mem hmax
    obtain ⟨q, hq, htext, -, hparse⟩ := mem_periods hy hl h hlast
    refine ⟨q, hq, ?_, fun r hr => ?_⟩
    · simp only [hparse, addDays]
    · -- the texts sort as the days
      have hmem : segmentText r ∈ (activeExports y.id s).map periodText := by
        rw [show (activeExports y.id s).map periodText = _ from hl]
        exact List.mem_map_of_mem hr
      obtain ⟨e, he, hetext⟩ := List.mem_map.mp hmem
      have hle := List.le_of_mem_argmax he hmax
      rw [(Prod.mk.inj hetext).2, (Prod.mk.inj htext).2,
        formatIsoDay_le_iff (fourDigit_of_mem hy h hr).2 (fourDigit_of_mem hy h hq).2] at hle
      exact hle

/-- A new period after the others. -/
theorem tiled_extend (hy : FourDigits P y) (hl : Periods y s l)
    (h : Tiles (fiscalYearRange P.tehran y).firstDay (fiscalYearRange P.tehran y).lastDay l)
    {first last : ℤ} {row : TaxBookExport} (hle : first ≤ last)
    (hlast : last ≤ (fiscalYearRange P.tehran y).lastDay)
    (hfirst : nextStart y.id (fiscalYearRange P.tehran y).firstDay s = first)
    (hrow : NewRow s y first last row)
    (hactive : activeExports y.id s' = activeExports y.id s ++ [row]) :
    ∃ l, Periods y s' l ∧ Tiles (fiscalYearRange P.tehran y).firstDay
      (fiscalYearRange P.tehran y).lastDay l := by
  subst hfirst
  refine ⟨l ++ [⟨_, last, hle⟩], ?_, h.push hlast (nextStart_spec hy hl h)⟩
  rw [Periods, hactive, List.map_append, List.map_append, show _ = l.map segmentText from hl]
  simp [periodText, segmentText, hrow.periodStart, hrow.periodEnd]

/-- A row in the place of another one. -/
theorem tiled_replace (hl : Periods y s l)
    (h : Tiles (fiscalYearRange P.tehran y).firstDay (fiscalYearRange P.tehran y).lastDay l)
    {old row : TaxBookExport} {before after : List TaxBookExport}
    (hsplit : activeExports y.id s = before ++ old :: after)
    (hactive : activeExports y.id s' = before ++ after ++ [row])
    (htext : periodText row = periodText old) :
    ∃ l, Periods y s' l ∧ Tiles (fiscalYearRange P.tehran y).firstDay
      (fiscalYearRange P.tehran y).lastDay l := by
  rw [Periods, hsplit, List.map_append, List.map_cons, eq_comm] at hl
  obtain ⟨l₁, l₂, rfl, h₁, h₂⟩ := List.map_eq_append_iff.mp hl
  obtain ⟨p, l₃, rfl, hp, h₃⟩ := List.map_eq_cons_iff.mp h₂
  refine ⟨l₁ ++ l₃ ++ [p], ?_, h.perm ?_⟩
  · simp [Periods, hactive, h₁, h₃, hp, htext]
  · exact List.perm_middle.trans (List.perm_append_singleton p (l₁ ++ l₃)).symm

end Tiling

/-! ## Every run -/

/-- What is true after every commit. -/
structure Consistent (P : TaxPlatform) (s : TaxDb) : Prop where
  known : ∀ e ∈ s.exports.rows, ∃ y, s.books.fiscalYears.find? e.fiscalYearId = some y
  marked : ∀ x ∈ s.replacements, ∃ e ∈ s.exports.rows, e.id = x.1
  unmarked : ∀ e ∈ s.exports.rows, e.status = .active → ∀ k, (e.id, k) ∉ s.replacements
  tile : ∀ y, Dated s y → FourDigits P y → PeriodsTile P y s

theorem range_eq_of_dated {y y₁ : FiscalYear} (h : Dated s y) (h₁ : Dated s y₁)
    (hid : y.id = y₁.id) : fiscalYearRange P.tehran y = fiscalYearRange P.tehran y₁ := by
  obtain ⟨y', hy', hstart, hend⟩ := h
  obtain ⟨y'', hy'', hstart₁, hend₁⟩ := h₁
  rw [hid, hy'', Option.some.injEq] at hy'
  subst hy'
  exact fiscalYearRange_congr (hstart.symm.trans hstart₁) (hend.symm.trans hend₁)

/-- A year that has its row now had it before, if it had exports. -/
theorem Consistent.tile_before (h : Consistent P s) (hyears : YearsKept s s') {y : FiscalYear}
    (hdated : Dated s' y) (hy : FourDigits P y) : PeriodsTile P y s := by
  by_cases hany : ∃ e ∈ s.exports.rows, e.fiscalYearId = y.id
  · obtain ⟨e, he, heyear⟩ := hany
    obtain ⟨y₀, hy₀⟩ := h.known e he
    have hid : y₀.id = y.id := (Table.find?_eq_some.mp hy₀).2.trans heyear
    obtain ⟨y₁, hy₁, hstart₁, hend₁⟩ := hyears y₀ ⟨y₀, by rw [hid, ← heyear]; exact hy₀, rfl, rfl⟩
    obtain ⟨y₂, hy₂, hstart₂, hend₂⟩ := hdated
    rw [hid, hy₂, Option.some.injEq] at hy₁
    subst hy₁
    exact h.tile y ⟨y₀, heyear ▸ hy₀, hstart₁.symm.trans hstart₂, hend₁.symm.trans hend₂⟩ hy
  · simp only [not_exists, not_and] at hany
    refine ⟨⟨[], ?_, Tiles.nil⟩, fun e he heyear => absurd heyear (hany e he)⟩
    rw [Periods, activeExports, List.filter_eq_nil_iff.mpr]
    · rfl
    · exact fun e he => by simp [hany e he]

theorem known_of_kept (hkept : Kept s s') {id : ℕ}
    (h : ∃ y, s.books.fiscalYears.find? id = some y) :
    ∃ y, s'.books.fiscalYears.find? id = some y := by
  obtain ⟨y, hy⟩ := h
  have hid : y.id = id := (Table.find?_eq_some.mp hy).2
  obtain ⟨y', hy', -⟩ := hkept.1 y ⟨y, hid ▸ hy, rfl, rfl⟩
  exact ⟨y', hid ▸ hy'⟩

theorem Consistent.quiet (h : Consistent P s) (hyears : YearsKept s s')
    (hexports : s'.exports = s.exports) (hreplacements : s'.replacements = s.replacements) :
    Consistent P s' where
  known e he := by
    rw [hexports] at he
    exact known_of_kept ⟨hyears, fun k e he => ⟨e, hexports ▸ he, rfl⟩⟩ (h.known e he)
  marked := by
    rw [hexports, hreplacements]
    exact h.marked
  unmarked := by
    rw [hexports, hreplacements]
    exact h.unmarked
  tile y hdated hy := by
    obtain ⟨htiled, hsucceeded⟩ := h.tile_before hyears hdated hy
    refine ⟨?_, ?_⟩
    · simpa only [Periods, activeExports, hexports] using htiled
    · simpa only [Succeeded, hexports, hreplacements] using hsucceeded

theorem Consistent.extend (h : Consistent P s) (hstep : TaxStep P s s') {y : FiscalYear}
    {first last : ℤ} {row : TaxBookExport} (hdated : Dated s y) (hle : first ≤ last)
    (hlast : last ≤ (fiscalYearRange P.tehran y).lastDay)
    (hfirst : nextStart y.id (fiscalYearRange P.tehran y).firstDay s = first)
    (hrow : NewRow s y first last row) (hexports : s'.exports = s.exports.insert row)
    (hreplacements : s'.replacements = s.replacements) : Consistent P s' := by
  have hkept := kept_step hstep
  have hmem (e : TaxBookExport) : e ∈ s'.exports.rows ↔ e ∈ s.exports.rows ∨ e = row := by
    rw [hexports, Table.rows_insert hrow.new, List.mem_append, List.mem_singleton]
  have hnone : ∀ k, (row.id, k) ∉ s.replacements := by
    intro k hk
    obtain ⟨e, he, hid⟩ := h.marked _ hk
    exact Table.find?_eq_none.mp hrow.new e he hid
  refine ⟨fun e he => ?_, fun x hx => ?_, fun e he hactive => ?_, fun y₁ hdated₁ hy₁ => ?_⟩
  · refine known_of_kept hkept ?_
    rcases (hmem e).mp he with he | rfl
    · exact h.known e he
    · obtain ⟨y', hy', -⟩ := hdated
      exact ⟨y', hrow.year ▸ hy'⟩
  · obtain ⟨e, he, hid⟩ := h.marked x (hreplacements ▸ hx)
    exact ⟨e, (hmem e).mpr (.inl he), hid⟩
  · rw [hreplacements]
    rcases (hmem e).mp he with he | rfl
    · exact h.unmarked e he hactive
    · exact hnone
  · have htile := h.tile_before hkept.1 hdated₁ hy₁
    obtain ⟨l, hl, htiles⟩ := htile.tiled
    refine ⟨?_, fun e he heyear hsuper => ?_⟩
    · by_cases hyear : y.id = y₁.id
      · rw [range_eq_of_dated (hkept.1 y hdated) hdated₁ hyear] at hlast hfirst
        rw [hyear] at hfirst
        have hrow₁ : NewRow s y₁ first last row := { hrow with year := hrow.year.trans hyear }
        refine tiled_extend hy₁ hl htiles hle hlast hfirst hrow₁ ?_
        simp [activeExports, hexports, Table.rows_insert hrow.new, hrow₁.year, hrow.active]
      · refine ⟨l, ?_, htiles⟩
        rw [Periods, activeExports, hexports, Table.rows_insert hrow.new, List.filter_append]
        simpa [hrow.year, hyear, Periods, activeExports] using hl
    · rcases (hmem e).mp he with he | rfl
      · obtain ⟨r, hr, hby, hplace, hone⟩ := htile.succeeded e he heyear hsuper
        exact ⟨r, (hmem r).mpr (.inl hr), hby, hplace, hreplacements ▸ hone⟩
      · rw [hrow.active] at hsuper
        cases hsuper

/-- The ACTIVE exports after a replacement. -/
theorem activeExports_replaceIn {id : ℕ} {y : FiscalYear} {first last : ℤ}
    {old row : TaxBookExport} (hold : s.exports.find? old.id = some old)
    (hrow : NewRow s y first last row) (hexports : s'.exports = replaceIn s.exports old.id row) :
    activeExports id s' = (activeExports id s).erase old ++ if y.id = id then [row] else [] := by
  have hne : row.id ≠ old.id := fun heq =>
    Table.find?_eq_none.mp hrow.new old (Table.find?_eq_some.mp hold).1 heq.symm
  have hnodup : (activeExports id s).Nodup := (List.Nodup.of_map _ s.exports.nodup).filter _
  rw [activeExports, hexports, replaceIn, Table.update, Table.filter_updateWhere,
    Table.rows_insert hrow.new, List.filter_append, hnodup.erase_eq_filter, activeExports,
    List.filter_filter]
  · congr 1
    · refine List.filter_congr fun e he => ?_
      have hkey : (e.id == old.id) = (e == old) := by
        rw [Bool.eq_iff_iff, beq_iff_eq, beq_iff_eq]
        refine ⟨fun hid => ?_, fun heq => heq ▸ rfl⟩
        have hfind := Table.find?_of_mem he
        rw [hid, hold] at hfind
        exact (Option.some.inj hfind).symm
      rw [hkey, Bool.and_comm]
      rfl
    · by_cases hyear : y.id = id <;> simp [hrow.year, hrow.active, hne, hyear]
  · intro e he hid
    simp [supersede]

theorem Consistent.replace (h : Consistent P s) (hstep : TaxStep P s s') {y : FiscalYear}
    {first last : ℤ} {old row : TaxBookExport} (hdated : Dated s y)
    (hold : s.exports.find? old.id = some old) (hactive : old.status = .active)
    (holdYear : old.fiscalYearId = y.id) (hfirst : parseIsoDay old.periodStart = some first)
    (hlast : parseIsoDay old.periodEnd = some last) (hrow : NewRow s y first last row)
    (hexports : s'.exports = replaceIn s.exports old.id row)
    (hreplacements : s'.replacements = s.replacements ++ [(old.id, row.id)]) :
    Consistent P s' := by
  have hkept := kept_step hstep
  have holdMem := (Table.find?_eq_some.mp hold).1
  have hne : row.id ≠ old.id := fun heq => Table.find?_eq_none.mp hrow.new old holdMem heq.symm
  have hmem (e : TaxBookExport) : e ∈ s'.exports.rows ↔ ∃ e₀, (e₀ ∈ s.exports.rows ∨ e₀ = row) ∧
      (if e₀.id = old.id then supersede row.id e₀ else e₀) = e := by
    rw [hexports]
    exact mem_replaceIn hrow.new
  have hnone : ∀ k, (row.id, k) ∉ s.replacements := by
    intro k hk
    obtain ⟨e, he, hid⟩ := h.marked _ hk
    exact Table.find?_eq_none.mp hrow.new e he hid
  have hrep (i k : ℕ) : (i, k) ∈ s'.replacements ↔
      (i, k) ∈ s.replacements ∨ i = old.id ∧ k = row.id := by
    rw [hreplacements, List.mem_append, List.mem_singleton, Prod.mk.injEq]
  refine ⟨fun e he => ?_, fun x hx => ?_, fun e he hstatus k hk => ?_, fun y₁ hdated₁ hy₁ => ?_⟩
  · refine known_of_kept hkept ?_
    obtain ⟨e₀, he₀, rfl⟩ := (hmem e).mp he
    have hyear : (if e₀.id = old.id then supersede row.id e₀ else e₀).fiscalYearId =
        e₀.fiscalYearId := by split <;> rfl
    rw [hyear]
    rcases he₀ with he₀ | rfl
    · exact h.known e₀ he₀
    · obtain ⟨y', hy', -⟩ := hdated
      exact ⟨y', hrow.year ▸ hy'⟩
  · have hid : ∃ e ∈ s.exports.rows, e.id = x.1 := by
      rcases (hrep x.1 x.2).mp hx with hx | ⟨hid, -⟩
      · exact h.marked x hx
      · exact ⟨old, holdMem, hid.symm⟩
    obtain ⟨e, he, hid⟩ := hid
    refine ⟨_, (hmem _).mpr ⟨e, .inl he, rfl⟩, ?_⟩
    split <;> exact hid
  · obtain ⟨e₀, he₀, rfl⟩ := (hmem e).mp he
    split_ifs at hstatus hk with hid
    · cases hstatus
    · rcases (hrep e₀.id k).mp hk with hk | ⟨heq, -⟩
      · rcases he₀ with he₀ | rfl
        · exact h.unmarked e₀ he₀ hstatus k hk
        · exact hnone k hk
      · exact hid heq
  · have htile := h.tile_before hkept.1 hdated₁ hy₁
    obtain ⟨l, hl, htiles⟩ := htile.tiled
    have hactives := (@activeExports_replaceIn _ _ y₁.id) hold hrow hexports
    -- what is read off the old export is written into the new one
    have htext (hyear : y.id = y₁.id) : periodText row = periodText old := by
      have hin : old ∈ activeExports y₁.id s :=
        List.mem_filter.mpr ⟨holdMem, by simp [holdYear, hyear, hactive]⟩
      obtain ⟨p, hp, hptext, hpfirst, hplast⟩ := mem_periods hy₁ hl htiles hin
      rw [hpfirst, Option.some.injEq] at hfirst
      rw [hplast, Option.some.injEq] at hlast
      rw [hptext, periodText, hrow.periodStart, hrow.periodEnd, ← hfirst, ← hlast]
      rfl
    refine ⟨?_, fun e he heyear hsuper => ?_⟩
    · by_cases hyear : y.id = y₁.id
      · have hin : old ∈ activeExports y₁.id s :=
          List.mem_filter.mpr ⟨holdMem, by simp [holdYear, hyear, hactive]⟩
        obtain ⟨before, after, -, hsplit, herase⟩ := List.exists_erase_eq hin
        rw [herase, if_pos hyear] at hactives
        exact tiled_replace hl htiles hsplit hactives (htext hyear)
      · refine ⟨l, ?_, htiles⟩
        rw [if_neg hyear, List.append_nil, List.erase_of_not_mem] at hactives
        · rw [Periods, hactives]
          exact hl
        · simp [activeExports, holdYear, hyear]
    · obtain ⟨e₀, he₀, rfl⟩ := (hmem e).mp he
      by_cases hid : e₀.id = old.id
      · -- the export replaced: its successor is the new row
        rw [if_pos hid] at heyear ⊢
        have he₀ : e₀ = old := by
          rcases he₀ with he₀ | rfl
          · have hfind := Table.find?_of_mem he₀
            rw [hid, hold] at hfind
            exact (Option.some.inj hfind).symm
          · exact absurd hid hne
        subst he₀
        have hplace : place row = place e₀ := by
          obtain ⟨h₁, h₂⟩ := Prod.mk.inj (htext (holdYear.symm.trans heyear))
          rw [place, place, h₁, h₂, hrow.year, holdYear]
        refine ⟨row, (hmem row).mpr ⟨row, .inr rfl, if_neg hne⟩, rfl, hplace, fun k => ?_⟩
        rw [id_supersede, hrep]
        exact ⟨fun hk => hk.elim (fun hk => absurd hk (h.unmarked e₀ holdMem hactive k)) And.right,
          fun hk => .inr ⟨rfl, hk⟩⟩
      · rw [if_neg hid] at heyear hsuper ⊢
        rcases he₀ with he₀ | rfl
        · obtain ⟨r, hr, hby, hplace, hone⟩ := htile.succeeded e₀ he₀ heyear hsuper
          refine ⟨_, (hmem _).mpr ⟨r, .inl hr, rfl⟩, ?_, ?_, fun k => ?_⟩
          · rw [hby]
            split <;> rfl
          · rw [← hplace]
            split <;> rfl
          · rw [hrep, hone]
            have : (if r.id = old.id then supersede row.id r else r).id = r.id := by
              split <;> rfl
            rw [this]
            exact ⟨fun hk => hk.resolve_right fun hk => hid hk.1, .inl⟩
        · rw [hrow.active] at hsuper
          cases hsuper

theorem Consistent.step (h : Consistent P s) (hstep : TaxStep P s s') : Consistent P s' := by
  cases hstep with
  | quiet hyears hexports hreplacements => exact h.quiet hyears hexports hreplacements
  | extend y first last row hyears hdated hle hlast hfirst hrow hexports hreplacements =>
    exact h.extend (.extend y first last row hyears hdated hle hlast hfirst hrow hexports
      hreplacements) hdated hle hlast hfirst hrow hexports hreplacements
  | replace y first last old row hyears hdated hold hactive hyear hfirst hlast hrow hexports
      hreplacements =>
    exact h.replace (.replace y first last old row hyears hdated hold hactive hyear hfirst hlast
      hrow hexports hreplacements) hdated hold hactive hyear hfirst hlast hrow hexports
      hreplacements

theorem Consistent.run (h : Consistent P s) (hrun : Relation.ReflTransGen (TaxStep P) s s') :
    Consistent P s' := by
  induction hrun with
  | refl => exact h
  | tail _ hlast ih => exact ih.step hlast

end TaxBooksService

open TaxBooksService

/-- The rest of the application: fiscal years are added and closed but keep their dates, and
nothing else writes the exports. -/
structure TaxOutside (s s' : TaxDb) : Prop where
  years : YearsKept s s'
  exports : s'.exports = s.exports
  replacements : s'.replacements = s.replacements

theorem quiet_outside {P : TaxPlatform} (s s' : TaxDb) (h : TaxOutside s s') :
    (taxDiscipline P).trans s s' ∧ ∀ r, (taxDiscipline P).frame r s s' := by
  refine ⟨.quiet h.years h.exports h.replacements, fun r => ?_⟩
  cases r with
  | fiscalYear id =>
    show exportsOf id s' = exportsOf id s
    rw [exportsOf, exportsOf, h.exports]
  | taxBookExport id => trivial
  | own n => exact fun hn => h.exports.symm ▸ hn

/-- Along every interleaving of exports, with transactions aborted at any point, the periods
of the ACTIVE exports of a fiscal year tile it and every SUPERSEDED export has exactly one
successor, as long as an export that is replaced is still ACTIVE when it is. -/
theorem tax_book_periods_tile (P : TaxPlatform) {s₀ : TaxDb} (hexports : s₀.exports.rows = [])
    (hreplacements : s₀.replacements = [])
    {w : World (ℕ × TaxBookExportRequest) ApiError TaxRow TaxMark TaxDb ExportResult}
    (hrun : Runs (World.Step (serve P) TaxOutside) (World.Allowed StillActive) ⟨s₀, []⟩ w)
    {y : FiscalYear} (hy : w.db.books.fiscalYears.find? y.id = some y) (hdigits : FourDigits P y) :
    PeriodsTile P y w.db := by
  have hidle : World.Inv (α := ExportResult) (taxDiscipline P)
      (fun (_ : ℕ × TaxBookExportRequest) (_ : Except ApiError ExportResult) _ => True) ⟨s₀, []⟩ :=
    World.inv_idle
  have hreach := (World.refines quiet_bump quiet_outside (fun q s _ => safe_serve q) hidle hrun).1
  have hinit : Consistent P s₀ :=
    ⟨by simp [hexports], by simp [hreplacements], by simp [hexports], fun y _ _ =>
      ⟨⟨[], by simp [Periods, activeExports, hexports], Tiles.nil⟩, by simp [hexports]⟩⟩
  exact (hinit.run hreach).tile y ⟨y, hy, rfl, rfl⟩ hdigits

/-! ## The year 1404 -/

/-- The fiscal year 1404. -/
def taxYear1404 : FiscalYear where
  id := 1404
  title := "1404"
  startDate := utcMidnight 20168
  endDate := utcEndOfDay 20532
  status := .open
  closedAt := none
  closedByAdminId := none
  closingJournalId := none

/-- The opening entry of the first day, with its permanent number. -/
def opening1404 : JournalEntry where
  id := 0
  description := "افتتاحیه"
  totalRial := 1000
  totalGrams := 0
  source := .opening
  referenceType := none
  referenceId := none
  createdByAdminId := some 7
  reversalOfId := none
  transactionId := none
  entryDate := utcMidnight 20168
  referenceNumber := 1
  permanentNumber := some 1
  fiscalYearId := some 1404
  finalizedAt := none
  ledgerEntries := [⟨0, .debit, 1000, 0, none⟩, ⟨1, .credit, 1000, 0, none⟩]

/-- The database half a year later, before the first export. -/
def taxDb1404 : TaxDb where
  books := { cashBooks with
    fiscalYears := Table.empty.insert taxYear1404
    journals := Table.empty.insert opening1404
    now := utcMidnight 20350 }
  exports := .empty
  replacements := []
  nextId := 1

/-- A request for the first month, or for a new file in the place of the export `old`. -/
def firstMonth (old : Option ℕ) : ℕ × TaxBookExportRequest :=
  (7, { fiscalYearId := 1404, endDate := some "2025-04-20", mode := .document,
        includeClosing := none, replaceExportId := old, trackingCode := "123", format := .xlsx,
        lockPeriod := some false, note := none })

/-- A session executes `n` statements. -/
def statements (n i : ℕ) : List (WorldEvent (ℕ × TaxBookExportRequest) ApiError TaxDb) :=
  List.replicate n (.advance i)

/-- The first month is exported, and exported again in the place of that. -/
def correctedMonth : List (WorldEvent (ℕ × TaxBookExportRequest) ApiError TaxDb) :=
  .start (firstMonth none) :: statements 28 0 ++ .start (firstMonth (some 1)) :: statements 34 1

/-- Two replacements of one export: the second one is stored between the check of the first
one and its transaction. -/
def twoReplacements : List (WorldEvent (ℕ × TaxBookExportRequest) ApiError TaxDb) :=
  .start (firstMonth none) :: statements 28 0 ++ .start (firstMonth (some 1)) :: statements 21 1 ++
    .start (firstMonth (some 1)) :: statements 34 2 ++ statements 13 1

/-- Whether an export that is replaced is still ACTIVE. -/
def stillActive : TaxMark → TaxDb → Bool
  | .replaced id _, s => (s.exports.find? id).map TaxBookExport.status == some .active

theorem stillActive_sound (l : TaxMark) (s : TaxDb) (h : stillActive l s = true) :
    StillActive l s := by
  obtain ⟨id, by_⟩ := l
  simpa [stillActive, StillActive] using h

/-- The world after the events, as long as the marks passed meet the condition. -/
def played (cond : TaxMark → TaxDb → Bool)
    (es : List (WorldEvent (ℕ × TaxBookExportRequest) ApiError TaxDb)) :
    Option (World (ℕ × TaxBookExportRequest) ApiError TaxRow TaxMark TaxDb ExportResult) :=
  World.playAllowed (serve platform1404) cond ⟨taxDb1404, []⟩ es

theorem fourDigits_taxYear1404 : FourDigits platform1404 taxYear1404 := by
  constructor <;> decide

/-- `tax_book_periods_tile` for a month and its correction. -/
theorem tax_book_periods_tile_corrected : ∃ w, played stillActive correctedMonth = some w ∧
    w.db.exports.rows.length = 2 ∧ PeriodsTile platform1404 taxYear1404 w.db := by
  obtain ⟨w, hw⟩ := Option.isSome_iff_exists.mp
    (show (played stillActive correctedMonth).isSome = true by decide +kernel)
  have hlength : ((played stillActive correctedMonth).map fun w => w.db.exports.rows.length) =
      some 2 := by decide +kernel
  have hyear : ((played stillActive correctedMonth).map fun w =>
      w.db.books.fiscalYears.find? 1404) = some (some taxYear1404) := by decide +kernel
  rw [hw, Option.map_some, Option.some.injEq] at hlength hyear
  have hrun : Runs (World.Step (serve platform1404) TaxOutside) (World.Allowed StillActive)
      ⟨taxDb1404, []⟩ w :=
    World.runs_of_playAllowed stillActive_sound hw (by simp [correctedMonth, statements])
  exact ⟨w, hw, hlength, tax_book_periods_tile platform1404 rfl rfl hrun hyear fourDigits_taxYear1404⟩

/-- Without the condition two exports stay ACTIVE for one period. -/
theorem replaced_twice : taxDb1404.exports.rows = [] ∧ taxDb1404.replacements = [] ∧
    FourDigits platform1404 taxYear1404 ∧
    ∃ w, Runs (World.Step (serve platform1404) TaxOutside) always ⟨taxDb1404, []⟩ w ∧
      w.db.books.fiscalYears.find? taxYear1404.id = some taxYear1404 ∧
      ¬PeriodsTile platform1404 taxYear1404 w.db := by
  refine ⟨rfl, rfl, fourDigits_taxYear1404, ?_⟩
  obtain ⟨w, hw⟩ := Option.isSome_iff_exists.mp
    (show (played (fun _ _ => true) twoReplacements).isSome = true by decide +kernel)
  have hyear : ((played (fun _ _ => true) twoReplacements).map fun w =>
      w.db.books.fiscalYears.find? 1404) = some (some taxYear1404) := by decide +kernel
  have hperiods : ((played (fun _ _ => true) twoReplacements).map fun w =>
      (activeExports 1404 w.db).map periodText) =
      some [("2025-03-21", "2025-04-20"), ("2025-03-21", "2025-04-20")] := by decide +kernel
  rw [hw, Option.map_some, Option.some.injEq] at hyear hperiods
  have hrun : Runs (World.Step (serve platform1404) TaxOutside)
      (World.Allowed fun _ _ => True) ⟨taxDb1404, []⟩ w :=
    World.runs_of_playAllowed (fun _ _ _ => trivial) hw (by simp [twoReplacements, statements])
  refine ⟨w, hrun.mono fun _ _ _ => trivial, hyear, fun htile => ?_⟩
  obtain ⟨l, hl, htiles⟩ := htile.tiled
  rw [Periods, show (activeExports taxYear1404.id w.db).map periodText = _ from hperiods, eq_comm,
    List.map_eq_cons_iff] at hl
  obtain ⟨p, l', rfl, hp, hl⟩ := hl
  obtain ⟨q, l'', rfl, hq, -⟩ := List.map_eq_cons_iff.mp hl
  have hsame := Prod.mk.inj (hp.trans hq.symm)
  -- equal texts stand for equal days
  have hpdigits := fourDigit_of_mem fourDigits_taxYear1404 htiles (p := p) (by simp)
  have hqdigits := fourDigit_of_mem fourDigits_taxYear1404 htiles (p := q) (by simp)
  have hfirst := (formatIsoDay_le_iff hqdigits.1 hpdigits.1).mp hsame.1.ge
  have hlast := (formatIsoDay_le_iff hqdigits.2 hpdigits.2).mp hsame.2.ge
  have hapart : p.Apart q := (List.pairwise_cons.mp htiles.disjoint).1 q (by simp)
  have hpq := p.first_le_last
  have hqq := q.first_le_last
  have hfirst' := (formatIsoDay_le_iff hpdigits.1 hqdigits.1).mp hsame.1.le
  rcases hapart with h | h
  · omega
  · omega

end ArkanGold
