import ArkanGold.TaxBooks.TaxBooksService

/-!
# What an export commits

A commit of `store` adds an export for the period after the last ACTIVE one, or puts an
export in the place of another (`TaxStep`). The lock of the fiscal year keeps the exports of
the year as they are until then, but nothing in the transaction looks at the status of a
replaced export again: that it is still ACTIVE is the condition on the mark (`StillActive`).
-/

namespace ArkanGold

namespace TaxBooksService

variable {P : TaxPlatform} {s s' s'' : TaxDb}

/-! ## What stays -/

/-- A fiscal year has its row, with the dates of `y`. -/
def Dated (s : TaxDb) (y : FiscalYear) : Prop :=
  ∃ y', s.books.fiscalYears.find? y.id = some y' ∧ y'.startDate = y.startDate ∧
    y'.endDate = y.endDate

/-- The fiscal years keep their dates. -/
def YearsKept (s s' : TaxDb) : Prop := ∀ y, Dated s y → Dated s' y

/-- The period of an export and its year. -/
def place (e : TaxBookExport) : ℕ × String × String := (e.fiscalYearId, e.periodStart, e.periodEnd)

/-- No export disappears or moves to another period. -/
def ExportsKept (s s' : TaxDb) : Prop :=
  ∀ k e, s.exports.find? k = some e → ∃ e', s'.exports.find? k = some e' ∧ place e' = place e

/-- What a built file relies on, later as well. -/
def Kept (s s' : TaxDb) : Prop := YearsKept s s' ∧ ExportsKept s s'

theorem Kept.refl (s : TaxDb) : Kept s s := ⟨fun _ h => h, fun _ e h => ⟨e, h, rfl⟩⟩

theorem Kept.trans (h : Kept s s') (h' : Kept s' s'') : Kept s s'' := by
  refine ⟨fun y hy => h'.1 y (h.1 y hy), fun k e he => ?_⟩
  obtain ⟨e₁, he₁, hplace₁⟩ := h.2 k e he
  obtain ⟨e₂, he₂, hplace₂⟩ := h'.2 k e₁ he₁
  exact ⟨e₂, he₂, hplace₂.trans hplace₁⟩

theorem fiscalYearRange_congr {y y' : FiscalYear} (hstart : y'.startDate = y.startDate)
    (hend : y'.endDate = y.endDate) : fiscalYearRange P.tehran y' = fiscalYearRange P.tehran y := by
  simp only [fiscalYearRange, hstart, hend]

/-! ## What a commit does -/

/-- A new ACTIVE export of the year `y` for the days from `first` to `last`. -/
structure NewRow (s : TaxDb) (y : FiscalYear) (first last : ℤ) (row : TaxBookExport) : Prop where
  year : row.fiscalYearId = y.id
  periodStart : row.periodStart = formatIsoDay first
  periodEnd : row.periodEnd = formatIsoDay last
  active : row.status = .active
  new : s.exports.find? row.id = none

/-- The table with the row of a replacement, the export replaced marked. -/
def replaceIn (t : Table TaxBookExport TaxBookExport.id) (old : ℕ) (row : TaxBookExport) :
    Table TaxBookExport TaxBookExport.id :=
  (t.insert row).update old (supersede row.id) (id_supersede row.id)

/-- What a commit does: nothing to the exports, the next period, or a replacement of an
export that is still ACTIVE. -/
inductive TaxStep (P : TaxPlatform) (s s' : TaxDb) : Prop where
  | quiet (hyears : YearsKept s s') (hexports : s'.exports = s.exports)
      (hreplacements : s'.replacements = s.replacements)
  | extend (y : FiscalYear) (first last : ℤ) (row : TaxBookExport) (hyears : YearsKept s s')
      (hdated : Dated s y) (hle : first ≤ last)
      (hlast : last ≤ (fiscalYearRange P.tehran y).lastDay)
      (hfirst : nextStart y.id (fiscalYearRange P.tehran y).firstDay s = first)
      (hrow : NewRow s y first last row) (hexports : s'.exports = s.exports.insert row)
      (hreplacements : s'.replacements = s.replacements)
  | replace (y : FiscalYear) (first last : ℤ) (old row : TaxBookExport) (hyears : YearsKept s s')
      (hdated : Dated s y) (hold : s.exports.find? old.id = some old)
      (hactive : old.status = .active) (hyear : old.fiscalYearId = y.id)
      (hfirst : parseIsoDay old.periodStart = some first)
      (hlast : parseIsoDay old.periodEnd = some last)
      (hrow : NewRow s y first last row) (hexports : s'.exports = replaceIn s.exports old.id row)
      (hreplacements : s'.replacements = s.replacements ++ [(old.id, row.id)])

/-- The exports of a fiscal year. -/
def exportsOf (fiscalYearId : ℕ) (s : TaxDb) : List TaxBookExport :=
  s.exports.rows.filter fun e => e.fiscalYearId = fiscalYearId

/-- What a lock protects: the exports of a fiscal year, or the absence of the row that is
being inserted. -/
def taxFrame (r : TaxRow) (s s' : TaxDb) : Prop :=
  match r with
  | .fiscalYear id => exportsOf id s' = exportsOf id s
  | .taxBookExport _ => True
  | .own n => s.exports.find? n = none → s'.exports.find? n = none

/-- An export that is replaced is still ACTIVE. -/
def StillActive : TaxMark → TaxDb → Prop
  | .replaced id _, s => ∃ e, s.exports.find? id = some e ∧ e.status = .active

/-- The discipline of the exports. -/
def taxDiscipline (P : TaxPlatform) : Discipline TaxRow TaxMark TaxDb where
  trans := TaxStep P
  frame := taxFrame
  cond := StillActive
  trans_refl _ := .quiet (fun _ h => h) rfl rfl
  frame_refl r _ := by cases r <;> simp [taxFrame]
  frame_trans r s s' s'' h h' := by
    cases r with
    | fiscalYear id => exact h'.trans h
    | taxBookExport id => trivial
    | own n => exact fun hn => h' (h hn)

theorem mem_replaceIn {t : Table TaxBookExport TaxBookExport.id} {old : ℕ}
    {row e : TaxBookExport} (hnew : t.find? row.id = none) :
    e ∈ (replaceIn t old row).rows ↔
      ∃ e₀, (e₀ ∈ t.rows ∨ e₀ = row) ∧ (if e₀.id = old then supersede row.id e₀ else e₀) = e := by
  unfold replaceIn
  rw [Table.mem_update, Table.rows_insert hnew]
  simp only [List.mem_append, List.mem_singleton]

theorem find?_insert_of_some {t : Table TaxBookExport TaxBookExport.id} {row e : TaxBookExport}
    {k : ℕ} (hnew : t.find? row.id = none) (he : t.find? k = some e) :
    (t.insert row).find? k = some e := by
  have hne : k ≠ row.id := by
    rintro rfl
    rw [hnew] at he
    cases he
  rw [Table.find?_insert_of_ne _ hne, he]

theorem kept_step (h : TaxStep P s s') : Kept s s' := by
  cases h with
  | quiet hyears hexports _ => exact ⟨hyears, fun k e he => ⟨e, hexports ▸ he, rfl⟩⟩
  | extend y first last row hyears _ _ _ _ hrow hexports _ =>
    exact ⟨hyears, fun k e he => ⟨e, hexports ▸ find?_insert_of_some hrow.new he, rfl⟩⟩
  | replace y first last old row hyears _ _ _ _ _ _ hrow hexports _ =>
    refine ⟨hyears, fun k e he => ?_⟩
    have hinsert := find?_insert_of_some hrow.new he
    simp only [hexports, replaceIn, Table.update, Table.find?_updateWhere, hinsert, Option.map_some]
    refine ⟨_, rfl, ?_⟩
    split <;> rfl

theorem kept_rely {held : List TaxRow} (h : (taxDiscipline P).rely held s s') : Kept s s' :=
  Discipline.rely_of Kept.refl (fun _ _ _ => Kept.trans) (fun _ _ => kept_step) h

theorem exportsOf_rely {held : List TaxRow} {id : ℕ} (h : (taxDiscipline P).rely held s s')
    (hid : TaxRow.fiscalYear id ∈ held) : exportsOf id s' = exportsOf id s := by
  have hframe : taxFrame (.fiscalYear id) s s' := Discipline.rely_frame h hid
  exact hframe

theorem absent_rely {held : List TaxRow} {n : ℕ} (h : (taxDiscipline P).rely held s s')
    (hn : TaxRow.own n ∈ held) (hnone : s.exports.find? n = none) : s'.exports.find? n = none := by
  have hframe : taxFrame (.own n) s s' := Discipline.rely_frame h hn
  exact hframe hnone

theorem activeExports_eq (id : ℕ) (s : TaxDb) :
    activeExports id s = (exportsOf id s).filter fun e => e.status = .active := by
  simp [activeExports, exportsOf, List.filter_filter, Bool.and_comm]

theorem nextStart_congr {id : ℕ} {d : ℤ} (h : exportsOf id s' = exportsOf id s) :
    nextStart id d s' = nextStart id d s := by
  rw [nextStart, nextStart, activeExports_eq, activeExports_eq, h]

/-- An export of a locked year can be looked up later as before. -/
theorem find?_of_exportsOf {id k : ℕ} {e : TaxBookExport} (h : exportsOf id s' = exportsOf id s)
    (he : s.exports.find? k = some e) (hid : e.fiscalYearId = id) :
    s'.exports.find? k = some e := by
  obtain ⟨hmem, hkey⟩ := Table.find?_eq_some.mp he
  have hof : e ∈ exportsOf id s := List.mem_filter.mpr ⟨hmem, by simpa using hid⟩
  rw [← h] at hof
  exact Table.find?_eq_some.mpr ⟨(List.mem_filter.mp hof).1, hkey⟩

/-! ## The calls keep to the discipline -/

theorem guar_extend {held : List TaxRow} {y : FiscalYear} {first last : ℤ} {row : TaxBookExport}
    (hyear : TaxRow.fiscalYear y.id ∈ held) (hown : TaxRow.own row.id ∈ held) (hdated : Dated s y)
    (hle : first ≤ last) (hlast : last ≤ (fiscalYearRange P.tehran y).lastDay)
    (hfirst : nextStart y.id (fiscalYearRange P.tehran y).firstDay s = first)
    (hrow : NewRow s y first last row) (hbooks : s'.books = s.books)
    (hexports : s'.exports = s.exports.insert row) (hreplacements : s'.replacements = s.replacements) :
    (taxDiscipline P).guar held s s' := by
  have hyears : YearsKept s s' := fun y hy => by
    unfold Dated
    rw [hbooks]
    exact hy
  refine ⟨.extend y first last row hyears hdated hle hlast hfirst hrow hexports hreplacements,
    fun r hr => ?_⟩
  cases r with
  | fiscalYear id =>
    have hne : row.fiscalYearId ≠ id := by
      rintro rfl
      exact hr (hrow.year ▸ hyear)
    show exportsOf id s' = exportsOf id s
    simp [exportsOf, hexports, Table.rows_insert hrow.new, hne]
  | taxBookExport id => trivial
  | own n =>
    have hne : n ≠ row.id := fun h => hr (h ▸ hown)
    intro hn
    rw [hexports, Table.find?_insert_of_ne _ hne, hn]

theorem guar_replace {held : List TaxRow} {y : FiscalYear} {first last : ℤ}
    {old row : TaxBookExport} (hyear : TaxRow.fiscalYear y.id ∈ held)
    (hown : TaxRow.own row.id ∈ held) (hdated : Dated s y)
    (hold : s.exports.find? old.id = some old) (hactive : old.status = .active)
    (holdYear : old.fiscalYearId = y.id) (hfirst : parseIsoDay old.periodStart = some first)
    (hlast : parseIsoDay old.periodEnd = some last) (hrow : NewRow s y first last row)
    (hbooks : s'.books = s.books) (hexports : s'.exports = replaceIn s.exports old.id row)
    (hreplacements : s'.replacements = s.replacements ++ [(old.id, row.id)]) :
    (taxDiscipline P).guar held s s' := by
  have hyears : YearsKept s s' := fun y hy => by
    unfold Dated
    rw [hbooks]
    exact hy
  refine ⟨.replace y first last old row hyears hdated hold hactive holdYear hfirst hlast hrow
    hexports hreplacements, fun r hr => ?_⟩
  cases r with
  | fiscalYear id =>
    have hne : y.id ≠ id := fun h => hr (h ▸ hyear)
    -- the row replaced is one of the locked year
    have hrows : ∀ e ∈ (s.exports.insert row).rows, e.id = old.id → e.fiscalYearId = y.id := by
      intro e he hid
      have hfind := Table.find?_of_mem he
      rw [hid, find?_insert_of_some hrow.new hold] at hfind
      rw [← Option.some.inj hfind, holdYear]
    show exportsOf id s' = exportsOf id s
    rw [exportsOf, exportsOf, hexports, replaceIn, Table.update, Table.filter_updateWhere,
      Table.rows_insert hrow.new, List.filter_append]
    · have hrow' : row.fiscalYearId ≠ id := hrow.year ▸ hne
      simp only [List.filter_cons, hrow', decide_false, Bool.false_and, Bool.false_eq_true,
        if_false, List.filter_nil, List.append_nil]
      refine List.filter_congr fun e he => ?_
      have hmem : e ∈ (s.exports.insert row).rows := Table.mem_insert_of_mem he
      by_cases hid : e.id = old.id
      · simp [hrows e hmem hid, hne]
      · simp [hid]
    · intro e he hid
      simp [supersede, hrows e he (by simpa using hid), hne]
  | taxBookExport id => trivial
  | own n =>
    have hne : n ≠ row.id := fun h => hr (h ▸ hown)
    intro hn
    simp only [hexports, replaceIn, Table.update, Table.find?_updateWhere,
      Table.find?_insert_of_ne _ hne, hn, Option.map_none]

/-- What is true of a file that was built, then and later. -/
structure BuiltFor (P : TaxPlatform) (req : TaxBookRequest) (s : TaxDb) (b : Built) : Prop where
  year : Dated s b.year
  fiscalFirst : b.fiscalFirst = (fiscalYearRange P.tehran b.year).firstDay
  first_le_last : b.first ≤ b.last
  within : b.last ≤ (fiscalYearRange P.tehran b.year).lastDay
  replaced : ∀ k, req.replaceExportId = some k → ∃ e, s.exports.find? k = some e ∧
    e.fiscalYearId = b.year.id ∧ parseIsoDay e.periodStart = some b.first ∧
    parseIsoDay e.periodEnd = some b.last

theorem BuiltFor.kept {req : TaxBookRequest} {b : Built} (h : BuiltFor P req s b)
    (hkept : Kept s s') : BuiltFor P req s' b where
  year := hkept.1 _ h.year
  fiscalFirst := h.fiscalFirst
  first_le_last := h.first_le_last
  within := h.within
  replaced k hk := by
    obtain ⟨e, he, hyear, hfirst, hlast⟩ := h.replaced k hk
    obtain ⟨e', he', hplace⟩ := hkept.2 k e he
    simp only [place, Prod.mk.injEq] at hplace
    exact ⟨e', he', hplace.1.trans hyear, by rw [hplace.2.1, hfirst], by rw [hplace.2.2, hlast]⟩

/-- The period belongs to the year, whose row is still there. -/
def PeriodFor (replaceExportId : Option ℕ) (y : FiscalYear) (r : Except ApiError (ℤ × ℤ))
    (s : TaxDb) : Prop :=
  Dated s y ∧ ∀ x, r = .ok x → ∀ k, replaceExportId = some k →
    ∃ e, s.exports.find? k = some e ∧ e.fiscalYearId = y.id ∧
      parseIsoDay e.periodStart = some x.1 ∧ parseIsoDay e.periodEnd = some x.2

theorem safe_periodOf {req : TaxBookRequest} {y : FiscalYear} (hy : Dated s y) :
    (periodOf P req y).Safe (taxDiscipline P) (PeriodFor req.replaceExportId y) s := by
  have herr {k : Option ℕ} (e : ApiError) (t : TaxDb) (ht : (taxDiscipline P).rely [] s t) :
      PeriodFor k y (.error e) t := ⟨(kept_rely ht).1 y hy, fun x hx => by cases hx⟩
  unfold periodOf
  cases req.replaceExportId with
  | none =>
    refine Call.safe_get_bind (fun e t => herr e t) fun t s₁ h₀ h₁ => ?_
    have hs₁ := Discipline.rely_trans h₀ h₁
    refine Call.safe_getOrFail_bind (fun t h₂ => herr _ t (Discipline.rely_trans hs₁ h₂))
      fun last _ => ?_
    exact Call.safe_pure fun t h₂ =>
      ⟨(kept_rely (Discipline.rely_trans hs₁ h₂)).1 y hy, fun x _ k hk => by cases hk⟩
  | some id =>
    refine Call.safe_get_bind (fun e t => herr e t) fun t s₁ h₀ h₁ => ?_
    have hs₁ := Discipline.rely_trans h₀ h₁
    refine Call.safe_getOrFail_bind (fun t h₂ => herr _ t (Discipline.rely_trans hs₁ h₂))
      fun prev hprev => ?_
    obtain ⟨hfind, hyear⟩ := Option.filter_eq_some_iff.mp hprev
    refine Call.safe_getOrFail (fun x hx s₂ h₂ => ?_)
      fun t h₂ => herr _ t (Discipline.rely_trans hs₁ h₂)
    refine ⟨(kept_rely (Discipline.rely_trans hs₁ h₂)).1 y hy, ?_⟩
    obtain ⟨first, hfirst, hrest⟩ := Option.bind_eq_some_iff.mp hx
    obtain ⟨last, hlast, hpair⟩ := Option.bind_eq_some_iff.mp hrest
    rintro x' hx' k hk
    cases hx'
    cases hk
    cases hpair
    obtain ⟨e, he, hplace⟩ := (kept_rely (Discipline.rely_trans h₁ h₂)).2 id prev hfind
    simp only [place, Prod.mk.injEq] at hplace
    exact ⟨e, he, hplace.1.trans (by simpa using hyear), by rw [hplace.2.1, hfirst],
      by rw [hplace.2.2, hlast]⟩

theorem safe_build {req : TaxBookRequest} : (build P req).Safe (taxDiscipline P)
    (fun r s => ∀ b, r = .ok b → BuiltFor P req s b) s := by
  refine Call.safe_get_bind (fun e t _ b hb => by cases hb) fun t s₁ _ h₁ => ?_
  refine Call.safe_getOrFail_bind (fun t _ b hb => by cases hb) fun y hy => ?_
  have hid : y.id = req.fiscalYearId := (Table.find?_eq_some.mp hy).2
  have hdated : Dated s₁ y := (kept_rely h₁).1 y ⟨y, hid ▸ hy, rfl, rfl⟩
  refine Call.safe_bind (Call.safe_mono ?_ (safe_periodOf hdated))
  rintro r s₂ ⟨hdated, hperiod⟩
  cases r with
  | error e => exact fun b hb => by cases hb
  | ok x =>
    obtain ⟨first, last⟩ := x
    refine Call.safe_check_bind (fun t _ b hb => by cases hb) fun _ => ?_
    refine Call.safe_check_bind (fun t _ b hb => by cases hb) fun hle => ?_
    refine Call.safe_check_bind (fun t _ b hb => by cases hb) fun hwithin => ?_
    have hbuilt (includeClosing : Bool) (result : TbResult) (headers : List String) :
        BuiltFor P req s₂ ⟨y, first, last, (fiscalYearRange P.tehran y).firstDay, includeClosing,
          req.mode, result, headers⟩ :=
      ⟨hdated, rfl, of_decide_eq_true hle, of_decide_eq_true hwithin, hperiod _ rfl⟩
    refine Call.safe_get_bind (fun e t _ b hb => by cases hb) fun _ s₃ h₂ h₃ => ?_
    refine Call.safe_check_bind (fun t _ b hb => by cases hb) fun _ => ?_
    refine Call.safe_get_bind (fun e t _ b hb => by cases hb) fun _ s₄ h₄ h₅ => ?_
    refine Call.safe_get_bind (fun e t _ b hb => by cases hb) fun _ s₅ h₆ h₇ => ?_
    refine Call.safe_get_bind (fun e t _ b hb => by cases hb) fun _ s₆ h₈ h₉ => ?_
    refine Call.safe_pure fun s₇ h₁₀ b hb => ?_
    cases hb
    have h₃ := (kept_rely h₂).trans (kept_rely h₃)
    have h₅ := (kept_rely h₄).trans (kept_rely h₅)
    have h₇ := (kept_rely h₆).trans (kept_rely h₇)
    have h₉ := (kept_rely h₈).trans (kept_rely h₉)
    exact (hbuilt _ _ _).kept (h₃.trans (h₅.trans (h₇.trans (h₉.trans (kept_rely h₁₀)))))

theorem quiet_bump (s : TaxDb) : (taxDiscipline P).trans s (Supply.bump s) ∧
    ∀ r, (taxDiscipline P).frame r s (Supply.bump s) := by
  refine ⟨.quiet (fun _ h => h) rfl rfl, fun r => ?_⟩
  cases r with
  | fiscalYear id => exact rfl
  | taxBookExport id => trivial
  | own n => exact fun hn => hn

/-- The row of an export, whose id is new. -/
theorem newRow_newExport {adminId : ℕ} {req : TaxBookExportRequest} {trackingCode : String}
    {b : Built} {createdAt : ℤ} {id : ℕ} (hnew : s.exports.find? id = none) :
    NewRow s b.year b.first b.last (newExport P adminId req trackingCode b createdAt id) :=
  ⟨rfl, rfl, rfl, rfl, hnew⟩

theorem safe_store {adminId : ℕ} {req : TaxBookExportRequest} {trackingCode : String} {b : Built}
    (hb : BuiltFor P req.toTaxBookRequest s b) :
    (Call.transaction (store P adminId req trackingCode b)).Safe (taxDiscipline P)
      (fun _ _ => True) s := by
  refine Call.safe_transaction ?_ fun _ _ _ => trivial
  intro s₀ h₀
  simp only [store, lockYear, Block.wp_bind, Block.wp_get, id_eq]
  intro s₁ h₁
  have hb₁ := hb.kept ((kept_rely h₀).trans (kept_rely h₁))
  obtain ⟨y', hy', -⟩ := hb₁.year
  simp only [hy']
  intro s₂ h₂
  cases hreq : req.replaceExportId with
  | none =>
    simp only [Block.wp_bind, Block.wp_get, Block.wp_check, Block.wp_pure]
    intro s₃ h₃ hnext s₄ h₄
    refine TaxDb.exportRows.wp_create quiet_bump fun n s₅ h₅ hnew s₆ h₆ => ?_
    refine ⟨?_, fun _ _ => trivial⟩
    have hyear : exportsOf b.year.id s₆ = exportsOf b.year.id s₃ := by
      rw [exportsOf_rely h₆ (by simp), exportsOf_rely h₅ (by simp), exportsOf_rely h₄ (by simp)]
    have hnew₆ : s₆.exports.find? n = none := absent_rely h₆ (by simp) hnew
    have hb₆ := hb₁.kept ((kept_rely h₂).trans ((kept_rely h₃).trans ((kept_rely h₄).trans
      ((kept_rely h₅).trans (kept_rely h₆)))))
    refine guar_extend (y := b.year) (by simp) (by simp [newExport]) hb₆.year hb₆.first_le_last hb₆.within ?_
      (newRow_newExport hnew₆) rfl rfl rfl
    rw [nextStart_congr hyear, ← hb₆.fiscalFirst]
    exact of_decide_eq_true hnext
  | some old =>
    simp only [Block.wp_bind, Block.wp_get, Block.wp_pure]
    intro s₃ h₃
    refine TaxDb.exportRows.wp_create quiet_bump fun n s₄ h₄ hnew => ?_
    simp only [Block.wp_mark]
    intro s₅ h₅ hmark
    refine TaxDb.exportRows.wp_update fun s₆ r h₆ hr s₇ h₇ => ?_
    refine ⟨?_, fun _ _ => trivial⟩
    have hyear : exportsOf b.year.id s₇ = exportsOf b.year.id s₅ := by
      rw [exportsOf_rely h₇ (by simp), exportsOf_rely h₆ (by simp)]
    have hnew₅ : s₅.exports.find? n = none := absent_rely h₅ (by simp) hnew
    have hnew₇ : s₇.exports.find? n = none :=
      absent_rely h₇ (by simp) (absent_rely h₆ (by simp) hnew₅)
    have hb₅ := hb₁.kept ((kept_rely h₂).trans ((kept_rely h₃).trans ((kept_rely h₄).trans
      (kept_rely h₅))))
    have hb₇ := hb₅.kept ((kept_rely h₆).trans (kept_rely h₇))
    -- the export that the mark has found ACTIVE is there until the commit
    obtain ⟨e, he, heyear, hfirst, hlast⟩ := hb₅.replaced old hreq
    obtain ⟨e', he', hactive⟩ := hmark
    obtain rfl : e = e' := by
      have hinsert := (@find?_insert_of_some _ (newExport P adminId req trackingCode b
        s₃.books.now n)) hnew₅ he
      exact Option.some.inj (hinsert.symm.trans he')
    obtain rfl : e.id = old := (Table.find?_eq_some.mp he).2
    exact guar_replace (y := b.year) (by simp) (by simp [newExport]) hb₇.year
      (find?_of_exportsOf hyear he heyear) hactive heyear hfirst hlast (newRow_newExport hnew₇)
      rfl rfl rfl

theorem safe_lockPeriod {last : ℤ} :
    (lockPeriod last).Safe (taxDiscipline P) (fun _ _ => True) s := by
  refine Call.safe_get_bind (fun _ _ _ => trivial) fun t s₁ _ _ => ?_
  split
  · refine Call.safe_bind (Call.safe_transaction ?_ fun _ _ _ => trivial)
    intro s₂ _ s₃ _
    refine ⟨⟨.quiet (fun _ h => h) rfl rfl, fun r _ => ?_⟩, fun _ _ _ _ => trivial⟩
    cases r with
    | fiscalYear id => exact rfl
    | taxBookExport id => trivial
    | own n => exact fun hn => hn
  · exact fun _ _ => trivial

theorem safe_checkReplaced {id : Option ℕ} :
    (checkReplaced id).Safe (taxDiscipline P) (fun _ _ => True) s := by
  cases id with
  | none => exact fun _ _ => trivial
  | some id =>
    refine Call.safe_get_bind (fun _ _ _ => trivial) fun t s₁ _ _ => ?_
    exact Call.safe_check (fun _ _ _ => trivial) fun _ _ => trivial

theorem safe_render {α : Type} {b : Built} {format : TaxBookFormat} {f : Unit → TaxCall α}
    (h : (f ()).Safe (taxDiscipline P) (fun _ _ => True) s) :
    (render b format >>= f).Safe (taxDiscipline P) (fun _ _ => True) s := by
  cases format with
  | csv => exact Call.safe_check_bind (fun _ _ => trivial) fun _ => h
  | xlsx => exact Call.safe_check_bind (fun _ _ => trivial) fun _ => h

/-- Every call keeps to the discipline. -/
theorem safe_serve (q : ℕ × TaxBookExportRequest) :
    (serve P q).Safe (taxDiscipline P) (fun _ _ => True) s := by
  obtain ⟨adminId, req⟩ := q
  refine Call.safe_check_bind (fun _ _ => trivial) fun _ => ?_
  refine Call.safe_bind (Call.safe_mono ?_ safe_checkReplaced)
  intro r s₁ _
  cases r with
  | error e => trivial
  | ok _ =>
    refine Call.safe_bind (Call.safe_mono ?_ safe_build)
    intro r s₂ hbuilt
    cases r with
    | error e => trivial
    | ok b =>
      refine Call.safe_check_bind (fun _ _ => trivial) fun _ => ?_
      refine Call.safe_check_bind (fun _ _ => trivial) fun _ => ?_
      refine safe_render ?_
      refine Call.safe_bind (Call.safe_mono ?_ (safe_store (hbuilt b rfl)))
      intro r s₃ _
      cases r with
      | error e => trivial
      | ok id =>
        dsimp only
        split
        · refine Call.safe_bind (Call.safe_mono ?_ safe_lockPeriod)
          intro r s₄ _
          cases r with
          | error e => trivial
          | ok locked => exact fun _ _ => trivial
        · exact fun _ _ => trivial

end TaxBooksService

end ArkanGold
