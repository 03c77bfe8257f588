import ArkanGold.Lib.Csv
import ArkanGold.Lib.Table
import ArkanGold.Lib.Xml
import ArkanGold.TaxBooks.TaxBooksService

/-!
# The files of tax books

What `toCsv` and `toXlsx` write for the same records.

- Texts are lists of characters. A cell of the sheet has a reference, `colName` of its column and
  the number of its row.
- `sheetXml` is the worksheet in the archive of `toXlsx`; the archive and its other files are the
  same for all records.
- The files are read by `Csv.parse` and `Xml.document`. In the sheet, what a reference leads to is
  the text of the cell or the digits of its value; without the cell it is empty.

`lossless_iff`: both files give the table back exactly if there is a header and every text consists
of characters that XML has and has no carriage return.
-/

namespace ArkanGold

namespace BookFiles

/-! ## Records -/

/-- `TbRecord`, each field as the text that goes into its cell. -/
structure BookRow where
  row : List Char
  date : List Char
  kolCode : List Char
  kolName : List Char
  moeinCode : List Char
  moeinName : List Char
  description : List Char
  debitRial : List Char
  creditRial : List Char

/-- `recordCells` -/
def recordCells (r : BookRow) : List (List Char) :=
  [r.row, r.date, r.kolCode, r.kolName, r.moeinCode, r.moeinName, r.description, r.debitRial,
    r.creditRial]

/-! ## CSV -/

/-- `BOM` -/
def BOM : Char := '\uFEFF'

/-- `csvField` -/
def csvField (v : List Char) : List Char := if v.any Csv.isSpecial then Csv.quote v else v

/-- `toCsv` -/
def toCsv (records : List BookRow) (headers : List (List Char)) : List Char :=
  let lines := (headers :: records.map recordCells).map fun cells =>
    List.intercalate [','] (cells.map csvField)
  BOM :: (List.intercalate ['\r', '\n'] lines ++ ['\r', '\n'])

/-- A record as its texts. -/
def ofRecord (r : TbRecord) : BookRow where
  row := (toString r.row).toList
  date := r.date.toList
  kolCode := r.kolCode.toList
  kolName := r.kolName.toList
  moeinCode := r.moeinCode.toList
  moeinName := r.moeinName.toList
  description := r.description.toList
  debitRial := (toString r.debitRial).toList
  creditRial := (toString r.creditRial).toList

theorem toList_csvField (v : String) :
    (TaxBooksService.csvField v).toList = csvField v.toList := by
  have hquote : "\"".toList = ['"'] := by decide
  rw [TaxBooksService.csvField, csvField]
  split_ifs with hspecial hspecial' hspecial'
  · rw [String.toList_append, String.toList_append, hquote, String.toList_ofList]
    rfl
  · exact absurd hspecial hspecial'
  · exact absurd hspecial' hspecial
  · rfl

/-- The text that is measured before an export is the file. -/
theorem toList_toCsv (records : List TbRecord) (headers : List String) :
    (TaxBooksService.toCsv records headers).toList =
      toCsv (records.map ofRecord) (headers.map String.toList) := by
  have hcomma : ",".toList = [','] := by decide
  have hcrlf : "\r\n".toList = ['\r', '\n'] := by decide
  have hbom : "\uFEFF".toList = [BOM] := by decide
  have hline : ∀ cells : List String,
      (String.intercalate "," (cells.map TaxBooksService.csvField)).toList =
        List.intercalate [','] ((cells.map String.toList).map csvField) := by
    intro cells
    rw [String.toList_intercalate, hcomma, List.map_map, List.map_map]
    congr 1
    exact List.map_congr_left fun v _ => toList_csvField v
  rw [TaxBooksService.toCsv, toCsv, String.toList_append, String.toList_append, hbom, hcrlf,
    String.toList_intercalate, hcrlf, List.map_map, List.singleton_append, List.cons_append]
  congr 3
  rw [List.map_cons, List.map_cons, List.map_map, List.map_map, List.map_map]
  refine List.cons_eq_cons.mpr ⟨by simpa using hline headers, ?_⟩
  rw [List.map_map]
  exact List.map_congr_left fun r _ => hline (TaxBooksService.recordCells r)

/-! ## The sheet -/

/-- `v.replace(/c/g, w)` -/
def replaceAll (c : Char) (w : String) (v : List Char) : List Char :=
  v.flatMap fun d => if d = c then w.toList else [d]

/-- `xmlEscape` -/
def xmlEscape (v : List Char) : List Char :=
  replaceAll '"' "&quot;" (replaceAll '>' "&gt;" (replaceAll '<' "&lt;" (replaceAll '&' "&amp;" v)))

/-- The loop of `colName`. -/
def colLoop (n : ℕ) (s : List Char) : List Char :=
  if 0 < n then colLoop ((n - 1) / 26) (Char.ofNat (65 + (n - 1) % 26) :: s) else s
termination_by n

/-- `colName` -/
def colName (i : ℕ) : List Char := colLoop (i + 1) []

/-- `NUMERIC_COLS` -/
def NUMERIC_COLS : List ℕ := [0, 2, 4, 7, 8]

/-- `Number.MAX_SAFE_INTEGER` -/
def MAX_SAFE_INTEGER : ℕ := 2 ^ 53 - 1

/-- The text becomes a numeric cell. -/
def isNumeric (v : List Char) : Bool :=
  !v.isEmpty && v.all Char.isDigit && decide (Nat.ofDigitChars 10 v 0 ≤ MAX_SAFE_INTEGER) &&
    decide (v.length < 16)

/-- `cell` -/
def cell (ref v : List Char) (numeric header : Bool) : List Char :=
  let style := if header then " s=\"1\"".toList else []
  if numeric && isNumeric v then
    "<c r=\"".toList ++ ref ++ "\"".toList ++ style ++ "><v>".toList ++ v ++ "</v></c>".toList
  else if v = [] then []
  else
    "<c r=\"".toList ++ ref ++ "\" t=\"inlineStr\"".toList ++ style ++
      "><is><t xml:space=\"preserve\">".toList ++ xmlEscape v ++ "</t></is></c>".toList

/-- A row of the sheet. -/
def rowXml (n : ℕ) (header : Bool) (cells : List (List Char)) : List Char :=
  "<row r=\"".toList ++ Nat.toDigits 10 n ++ "\">".toList ++
    (cells.zipIdx.flatMap fun c =>
      cell (colName c.2 ++ Nat.toDigits 10 n) c.1 (!header && NUMERIC_COLS.contains c.2) header) ++
    "</row>".toList

/-- `widths` -/
def widths : List ℕ := [8, 12, 12, 32, 14, 32, 60, 20, 20]

/-- The columns of the sheet. -/
def colsXml : List Char :=
  widths.zipIdx.flatMap fun w =>
    "<col min=\"".toList ++ Nat.toDigits 10 (w.2 + 1) ++ "\" max=\"".toList ++
      Nat.toDigits 10 (w.2 + 1) ++ "\" width=\"".toList ++ Nat.toDigits 10 w.1 ++
      "\" customWidth=\"1\"/>".toList

/-- What is before the rows. -/
def openingXml : List Char :=
  "<worksheet xmlns=\"http://schemas.openxmlformats.org/spreadsheetml/2006/main\"".toList ++
    " xmlns:r=\"http://schemas.openxmlformats.org/officeDocument/2006/relationships\">".toList ++
    "<sheetViews><sheetView workbookViewId=\"0\" rightToLeft=\"1\">".toList ++
    "<pane ySplit=\"1\" topLeftCell=\"A2\" activePane=\"bottomLeft\" state=\"frozen\"/>".toList ++
    "</sheetView></sheetViews>".toList ++ "<cols>".toList ++ colsXml ++ "</cols>".toList ++
    "<sheetData>".toList

/-- `sheet` of `toXlsx` -/
def sheetXml (records : List BookRow) (headers : List (List Char)) : List Char :=
  "<?xml version=\"1.0\" encoding=\"UTF-8\" standalone=\"yes\"?>".toList ++
    (openingXml ++ (rowXml 1 true headers ++
      ((records.zipIdx.flatMap fun r => rowXml (r.2 + 2) false (recordCells r.1)) ++
        "</sheetData></worksheet>".toList)))

/-! ## The table of a sheet -/

open Xml

/-- `worksheet` -/
def WORKSHEET : List Char := "worksheet".toList

/-- `sheetViews` -/
def SHEET_VIEWS : List Char := "sheetViews".toList

/-- `cols` -/
def COLS : List Char := "cols".toList

/-- `sheetData` -/
def SHEET_DATA : List Char := "sheetData".toList

/-- `row` -/
def ROW : List Char := "row".toList

/-- `inlineStr` -/
def INLINE_STR : List Char := "inlineStr".toList

/-- `xml:space` -/
def XML_SPACE : List Char := "xml:space".toList

/-- `preserve` -/
def PRESERVE : List Char := "preserve".toList

/-- The elements of a name, with their attributes. -/
def elements (name : List Char) : Content → List (Attributes × Content)
  | .nil => []
  | .text _ rest => elements name rest
  | .void n attributes rest =>
    if n = name then (attributes, .nil) :: elements name rest else elements name rest
  | .element n attributes children rest =>
    if n = name then (attributes, children) :: elements name rest else elements name rest

/-- The text of an element. -/
def textOf : Content → List Char
  | .nil => []
  | .text v rest => v ++ textOf rest
  | .void _ _ rest => textOf rest
  | .element _ _ _ rest => textOf rest

/-- The texts of the elements of a name. -/
def textsOf (name : List Char) (t : Content) : List Char :=
  (elements name t).flatMap fun e => textOf e.2

/-- What a cell holds. -/
def valueOf (c : Attributes × Content) : List Char :=
  if c.1.lookup ['t'] = some INLINE_STR then
    (elements ['i', 's'] c.2).flatMap fun is => textsOf ['t'] is.2
  else textsOf ['v'] c.2

/-- The rows of a sheet. -/
def rowsOf (t : Content) : List (Attributes × Content) :=
  (elements WORKSHEET t).flatMap fun w =>
    (elements SHEET_DATA w.2).flatMap fun d => elements ROW d.2

/-- The cells of a sheet, with their references. -/
def cellsOf (t : Content) : List (List Char × List Char) :=
  (rowsOf t).flatMap fun r =>
    (elements ['c'] r.2).map fun c => ((c.1.lookup ['r']).getD [], valueOf c)

/-- What the sheet has at a reference. -/
def cellAt (t : Content) (ref : List Char) : List Char := ((cellsOf t).lookup ref).getD []

/-- The reference of a cell, the columns and the rows counted from 0. -/
def refOf (i n : ℕ) : List Char := colName i ++ Nat.toDigits 10 (n + 1)

/-- The text that the table has there. -/
def tableAt (table : List (List (List Char))) (i n : ℕ) : List Char :=
  ((table[n]?).bind fun row => row[i]?).getD []

/-- Both files give the table back. -/
def Lossless (records : List BookRow) (headers : List (List Char)) : Prop :=
  (∃ cs, toCsv records headers = BOM :: cs ∧
      Csv.parse cs = some (headers :: records.map recordCells)) ∧
    ∃ t, document (sheetXml records headers) = some t ∧
      ∀ i n, cellAt t (refOf i n) = tableAt (headers :: records.map recordCells) i n

/-! ## The sheet as content -/

/-- The attributes of a cell. -/
def cellAttributes (ref v : List Char) (numeric header : Bool) : Attributes :=
  (['r'], ref) :: ((if numeric && isNumeric v then [] else [(['t'], INLINE_STR)]) ++
    if header then [(['s'], ['1'])] else [])

/-- What a cell contains. -/
def cellChildren (v : List Char) (numeric : Bool) : Content :=
  if numeric && isNumeric v then .element ['v'] [] (.text v .nil) .nil
  else
    .element ['i', 's'] []
      (.element ['t'] [(XML_SPACE, PRESERVE)] (.text v .nil) .nil) .nil

/-- A cell before others. -/
def cellContent (ref v : List Char) (numeric header : Bool) (rest : Content) : Content :=
  if v = [] then rest
  else .element ['c'] (cellAttributes ref v numeric header) (cellChildren v numeric) rest

/-- The cells of a row. -/
def cellsContent (n : ℕ) (header : Bool) (cells : List (List Char × ℕ)) : Content :=
  cells.foldr (fun c rest => cellContent (colName c.2 ++ Nat.toDigits 10 n) c.1
    (!header && NUMERIC_COLS.contains c.2) header rest) .nil

/-- A row before others. -/
def rowContent (n : ℕ) (header : Bool) (cells : List (List Char)) (rest : Content) : Content :=
  .element ROW [(['r'], Nat.toDigits 10 n)] (cellsContent n header cells.zipIdx) rest

/-- The rows. -/
def rowsContent (records : List BookRow) (headers : List (List Char)) : Content :=
  rowContent 1 true headers (records.zipIdx.foldr
    (fun r rest => rowContent (r.2 + 2) false (recordCells r.1) rest) .nil)

/-- The columns. -/
def colsContent : Content :=
  widths.zipIdx.foldr (fun w rest => .void "col".toList
    [("min".toList, Nat.toDigits 10 (w.2 + 1)), ("max".toList, Nat.toDigits 10 (w.2 + 1)),
      ("width".toList, Nat.toDigits 10 w.1), ("customWidth".toList, ['1'])] rest) .nil

/-- What is before the rows. -/
def viewsContent (rest : Content) : Content :=
  .element SHEET_VIEWS []
    (.element "sheetView".toList
      [("workbookViewId".toList, ['0']), ("rightToLeft".toList, ['1'])]
      (.void "pane".toList
        [("ySplit".toList, ['1']), ("topLeftCell".toList, ['A', '2']),
          ("activePane".toList, "bottomLeft".toList), ("state".toList, "frozen".toList)] .nil)
      .nil)
    (.element COLS [] colsContent rest)

/-- The attributes of the sheet. -/
def sheetAttributes : Attributes :=
  [("xmlns".toList, "http://schemas.openxmlformats.org/spreadsheetml/2006/main".toList),
    ("xmlns:r".toList,
      "http://schemas.openxmlformats.org/officeDocument/2006/relationships".toList)]

/-- The sheet. -/
def sheetContent (records : List BookRow) (headers : List (List Char)) : Content :=
  .element WORKSHEET sheetAttributes
    (viewsContent (.element SHEET_DATA [] (rowsContent records headers) .nil)) .nil

/-! ## The sheet is written from its content -/

theorem xmlEscape_eq (v : List Char) : xmlEscape v = escape v := by
  induction v with
  | nil => rfl
  | cons c v ih =>
    have hcons : xmlEscape (c :: v) = replaceAll '"' "&quot;" (replaceAll '>' "&gt;"
        (replaceAll '<' "&lt;" (if c = '&' then "&amp;".toList else [c]))) ++ xmlEscape v := by
      simp [xmlEscape, replaceAll]
    rw [hcons, ih, escape_cons, escapeChar]
    congr 1
    split_ifs with hamp hlt hgt hquote
    · decide
    · rw [hlt]
      decide
    · rw [hgt]
      decide
    · rw [hquote]
      decide
    · simp [replaceAll, hlt, hgt, hquote]

/-! ### References -/

theorem colLetter : ∀ m < 26, (Char.ofNat (65 + m)).isUpper = true ∧
    (Char.ofNat (65 + m)).toNat = 65 + m := by decide

theorem colLoop_append (n : ℕ) (s : List Char) : colLoop n s = colLoop n [] ++ s := by
  induction n using Nat.strong_induction_on generalizing s with
  | _ n ih =>
    rw [colLoop]
    conv_rhs => rw [colLoop]
    split_ifs with hn
    · rw [ih _ (by omega), ih _ (by omega) [_], List.append_assoc, List.singleton_append]
    · rfl

theorem isUpper_colLoop (n : ℕ) : ∀ c ∈ colLoop n [], c.isUpper = true := by
  induction n using Nat.strong_induction_on with
  | _ n ih =>
    rw [colLoop]
    split_ifs with hn
    · rw [colLoop_append]
      refine List.forall_mem_append.mpr ⟨ih _ (by omega), fun c hc => ?_⟩
      rw [List.mem_singleton.mp hc]
      exact (colLetter _ (Nat.mod_lt _ (by norm_num))).1
    · exact fun c hc => absurd hc List.not_mem_nil

/-- The number of a column, from 1, by its letters. -/
def columnOf (s : List Char) : ℕ := s.foldl (fun n c => n * 26 + (c.toNat - 64)) 0

theorem columnOf_colLoop (n : ℕ) : columnOf (colLoop n []) = n := by
  induction n using Nat.strong_induction_on with
  | _ n ih =>
    rw [colLoop]
    split_ifs with hn
    · have hrest : (colLoop ((n - 1) / 26) []).foldl (fun n c => n * 26 + (c.toNat - 64)) 0 =
          (n - 1) / 26 := ih _ (by omega)
      rw [colLoop_append, columnOf, List.foldl_append, hrest, List.foldl_cons, List.foldl_nil,
        (colLetter _ (Nat.mod_lt _ (by norm_num))).2]
      omega
    · have hzero : n = 0 := by omega
      rw [hzero]
      rfl

theorem isDigit_toDigits (n : ℕ) : ∀ c ∈ Nat.toDigits 10 n, c.isDigit = true :=
  fun _ => Nat.isDigit_of_mem_toDigits (by norm_num) (by norm_num)

theorem notUpper_of_isDigit {c : Char} (h : c.isDigit = true) : c.isUpper = false := by
  have hdigit := Char.isDigit_iff_toNat.mp h
  rw [← Bool.not_eq_true]
  intro hupper
  simp only [Char.isUpper, decide_eq_true_eq, ge_iff_le, UInt32.le_iff_toNat_le] at hupper
  have hval : c.toNat = c.val.toNat := rfl
  have hA : 'A'.val.toNat = 65 := rfl
  have hnine : '9'.toNat = 57 := rfl
  omega

theorem toDigits_injective {m n : ℕ} (h : Nat.toDigits 10 m = Nat.toDigits 10 n) : m = n := by
  have hnumber := congrArg (fun ds => Nat.ofDigitChars 10 ds 0) h
  simpa using hnumber

/-- A reference says which cell it is. -/
theorem refOf_inj {i i' n n' : ℕ} (h : refOf i n = refOf i' n') : i = i' ∧ n = n' := by
  have hspan : ∀ i n, (refOf i n).takeWhile Char.isUpper = colName i ∧
      (refOf i n).dropWhile Char.isUpper = Nat.toDigits 10 (n + 1) := by
    intro i n
    refine span_append (isUpper_colLoop _) ?_
    obtain ⟨c, cs, hcons⟩ := List.exists_cons_of_ne_nil (Nat.toDigits_ne_nil (b := 10) (n := n + 1))
    rw [hcons]
    simp [notUpper_of_isDigit (isDigit_toDigits (n + 1) c (hcons ▸ List.mem_cons_self))]
  obtain ⟨htake, hdrop⟩ := hspan i n
  obtain ⟨htake', hdrop'⟩ := hspan i' n'
  rw [h] at htake hdrop
  have hcolumn := congrArg columnOf (htake.symm.trans htake')
  rw [colName, colName, columnOf_colLoop, columnOf_colLoop] at hcolumn
  have hrow := toDigits_injective (hdrop.symm.trans hdrop')
  omega

/-- Letters and digits. -/
def Plain (v : List Char) : Prop := ∀ c ∈ v, c.isAlphanum = true

theorem plain_refOf (i n : ℕ) : Plain (refOf i n) := by
  refine List.forall_mem_append.mpr ⟨fun c hc => ?_, fun c hc => ?_⟩
  · simp [Char.isAlphanum, Char.isAlpha, isUpper_colLoop _ c hc]
  · simp [Char.isAlphanum, isDigit_toDigits _ c hc]

theorem plain_digits {v : List Char} (h : v.all Char.isDigit = true) : Plain v := by
  intro c hc
  simp [Char.isAlphanum, List.all_eq_true.mp h c hc]

theorem escape_plain {v : List Char} (h : Plain v) : escape v = v := by
  have hne : ∀ {c d : Char}, c.isAlphanum = true → d.isAlphanum = false → c ≠ d := by
    rintro c d hc hd rfl
    exact Bool.false_ne_true (hd.symm.trans hc)
  exact escape_eq_self fun c hc => ⟨hne (h c hc) (by decide), hne (h c hc) (by decide),
    hne (h c hc) (by decide), hne (h c hc) (by decide)⟩

theorem isSpace_plain {v : List Char} (h : Plain v) : ∀ c ∈ v, Xml.isSpace c = true → c = ' ' := by
  intro c hc hspace
  have hname : isNameChar c = true := by simp [isNameChar, h c hc]
  exact absurd hspace (by simp [isSpace_nameChar hname])

/-! ### Writing -/

variable {ref v : List Char} {numeric header : Bool}

theorem plain_toDigits (n : ℕ) : Plain (Nat.toDigits 10 n) :=
  plain_digits (List.all_eq_true.mpr (isDigit_toDigits n))

theorem isNumeric_digits (h : isNumeric v = true) : v ≠ [] ∧ v.all Char.isDigit = true := by
  simp only [isNumeric, Bool.and_eq_true, Bool.not_eq_true', List.isEmpty_eq_false_iff] at h
  exact ⟨h.1.1.1, h.1.1.2⟩

theorem render_cellContent (href : Plain ref) (rest : Content) :
    render (cellContent ref v numeric header rest) =
      cell ref v numeric header ++ render rest := by
  have hescape := escape_plain href
  have hone : escape ['1'] = ['1'] := by decide
  have hstart : "<c r=\"".toList = ['<', 'c', ' ', 'r', '=', '"'] := by decide
  have hquote : "\"".toList = ['"'] := by decide
  have hstyle : " s=\"1\"".toList = [' ', 's', '=', '"', '1', '"'] := by decide
  unfold cell
  rw [cellContent]
  by_cases hnumeric : (numeric && isNumeric v) = true
  · obtain ⟨hne, hdigits⟩ := isNumeric_digits (Bool.and_eq_true_iff.mp hnumeric).2
    have hvalue := escape_plain (plain_digits hdigits)
    have hopen : "><v>".toList = ['>', '<', 'v', '>'] := by decide
    have hclose : "</v></c>".toList = ['<', '/', 'v', '>', '<', '/', 'c', '>'] := by decide
    rw [if_neg hne, if_pos hnumeric, cellAttributes, cellChildren, if_pos hnumeric, if_pos hnumeric,
      hstart, hquote, hopen, hclose, hstyle]
    cases header <;>
      simp only [render, renderAttributes, List.flatMap_cons, List.flatMap_nil, List.append_assoc,
        List.cons_append, List.nil_append, List.append_nil, hescape, hvalue, hone, if_true,
        Bool.false_eq_true, if_false]
  · have hinline : escape INLINE_STR = INLINE_STR := by decide
    have hpreserve : escape PRESERVE = PRESERVE := by decide
    have htype : "\" t=\"inlineStr\"".toList =
        '"' :: ' ' :: 't' :: '=' :: '"' :: (INLINE_STR ++ ['"']) := by decide
    have hopen : "><is><t xml:space=\"preserve\">".toList = '>' :: '<' :: 'i' :: 's' :: '>' ::
        '<' :: 't' :: ' ' :: (XML_SPACE ++ '=' :: '"' :: (PRESERVE ++ ['"', '>'])) := by decide
    have hclose : "</t></is></c>".toList =
        ['<', '/', 't', '>', '<', '/', 'i', 's', '>', '<', '/', 'c', '>'] := by decide
    rw [if_neg hnumeric, cellAttributes, cellChildren, if_neg hnumeric, if_neg hnumeric]
    by_cases hempty : v = []
    · rw [if_pos hempty, if_pos hempty, List.nil_append]
    · rw [if_neg hempty, if_neg hempty, hstart, htype, hopen, hclose, hstyle, xmlEscape_eq]
      cases header <;>
        simp only [render, renderAttributes, List.flatMap_cons, List.flatMap_nil,
          List.append_assoc, List.cons_append, List.nil_append, List.append_nil, hescape, hinline,
          hpreserve, hone, if_true, Bool.false_eq_true, if_false]

theorem render_cellsContent (n : ℕ) (header : Bool) (cells : List (List Char × ℕ)) :
    render (cellsContent (n + 1) header cells) =
      cells.flatMap fun c => cell (colName c.2 ++ Nat.toDigits 10 (n + 1)) c.1
        (!header && NUMERIC_COLS.contains c.2) header := by
  have hstep : ∀ (c : List Char × ℕ) (t : Content),
      render (cellContent (colName c.2 ++ Nat.toDigits 10 (n + 1)) c.1
        (!header && NUMERIC_COLS.contains c.2) header t) =
        cell (colName c.2 ++ Nat.toDigits 10 (n + 1)) c.1
          (!header && NUMERIC_COLS.contains c.2) header ++ render t :=
    fun c t => render_cellContent (plain_refOf c.2 n) t
  rw [cellsContent, render_foldr hstep, render, List.append_nil]

theorem render_rowContent (n : ℕ) (header : Bool) (cells : List (List Char)) (rest : Content) :
    render (rowContent (n + 1) header cells rest) =
      rowXml (n + 1) header cells ++ render rest := by
  have hescape : (Nat.toDigits 10 (n + 1)).flatMap escapeChar = Nat.toDigits 10 (n + 1) :=
    escape_plain (plain_toDigits _)
  have hstart : "<row r=\"".toList = '<' :: (ROW ++ [' ', 'r', '=', '"']) := by decide
  have hclose : "\">".toList = ['"', '>'] := by decide
  have hend : "</row>".toList = '<' :: '/' :: (ROW ++ ['>']) := by decide
  unfold rowXml
  rw [rowContent, render, render_cellsContent, renderAttributes, hstart, hclose, hend]
  simp only [List.flatMap_cons, List.flatMap_nil, escape, hescape, List.append_assoc,
    List.cons_append, List.nil_append]

theorem render_viewsContent (rest : Content) :
    render (viewsContent rest) = render (viewsContent .nil) ++ render rest := by
  simp only [viewsContent, render, List.append_assoc, List.cons_append, List.nil_append]

theorem render_rowsContent (records : List BookRow) (headers : List (List Char)) :
    render (rowsContent records headers) = rowXml 1 true headers ++
      records.zipIdx.flatMap fun r => rowXml (r.2 + 2) false (recordCells r.1) := by
  have hstep : ∀ (r : BookRow × ℕ) (t : Content),
      render (rowContent (r.2 + 2) false (recordCells r.1) t) =
        rowXml (r.2 + 2) false (recordCells r.1) ++ render t :=
    fun r t => render_rowContent (r.2 + 1) false (recordCells r.1) t
  rw [rowsContent, render_rowContent 0, render_foldr hstep, render, List.append_nil]

/-- The sheet is written from its content. -/
theorem sheetXml_eq (records : List BookRow) (headers : List (List Char)) :
    sheetXml records headers = declaration ++ render (sheetContent records headers) := by
  have hopening : openingXml = '<' :: (WORKSHEET ++ (renderAttributes sheetAttributes ++
      '>' :: (render (viewsContent .nil) ++ '<' :: (SHEET_DATA ++ ['>'])))) := by
    decide +kernel
  have hend : "</sheetData></worksheet>".toList =
      '<' :: '/' :: (SHEET_DATA ++ '>' :: '<' :: '/' :: (WORKSHEET ++ ['>'])) := by
    decide
  have hdata : render (.element SHEET_DATA [] (rowsContent records headers) .nil) =
      '<' :: (SHEET_DATA ++ '>' :: (render (rowsContent records headers) ++
        '<' :: '/' :: (SHEET_DATA ++ ['>']))) := by
    simp only [render, renderAttributes, List.flatMap_nil, List.nil_append]
  have hdeclaration :
      "<?xml version=\"1.0\" encoding=\"UTF-8\" standalone=\"yes\"?>".toList = declaration := by
    unfold declaration
    exact Eq.refl _
  unfold sheetXml
  rw [sheetContent, render, render_viewsContent, hdata, render_rowsContent, hopening, hend,
    hdeclaration]
  simp only [render, List.append_assoc, List.cons_append, List.nil_append]

/-! ### Tidiness -/

theorem tidyTag_cellAttributes (href : Plain ref) :
    TidyTag ['c'] (cellAttributes ref v numeric header) := by
  have hspace := isSpace_plain href
  have hplain : Plain INLINE_STR :=
    List.all_eq_true.mp (by decide : INLINE_STR.all Char.isAlphanum = true)
  have hinline := isSpace_plain hplain
  rw [cellAttributes]
  refine ⟨by decide, ?_, ?_, ?_⟩
  · cases (numeric && isNumeric v) <;> cases header <;> simp <;> decide
  · have hone : Xml.isSpace '1' = true → '1' = ' ' := by decide
    cases (numeric && isNumeric v) <;> cases header <;>
      simp only [List.cons_append, List.nil_append, List.append_nil, List.forall_mem_cons,
        List.mem_singleton, forall_eq, if_true, Bool.false_eq_true, if_false]
    · exact ⟨hspace, hinline⟩
    · exact ⟨hspace, hinline, hone⟩
    · exact hspace
    · exact ⟨hspace, hone⟩
  · cases (numeric && isNumeric v) <;> cases header <;> simp

theorem tidy_cellChildren (hv : v ≠ []) : Tidy (cellChildren v numeric) := by
  rw [cellChildren]
  split_ifs
  · exact ⟨tidyTag_of_isTidyTag (by decide), ⟨hv, rfl, trivial⟩, trivial⟩
  · exact ⟨tidyTag_of_isTidyTag (by decide),
      ⟨tidyTag_of_isTidyTag (by decide), ⟨hv, rfl, trivial⟩, trivial⟩, trivial⟩

theorem tidy_cellsContent (n : ℕ) (header : Bool) (cells : List (List Char × ℕ)) :
    Tidy (cellsContent (n + 1) header cells) := by
  induction cells with
  | nil => trivial
  | cons c cells ih =>
    rw [cellsContent, List.foldr_cons, ← cellsContent, cellContent]
    split_ifs with hempty
    · exact ih
    · exact ⟨tidyTag_cellAttributes (plain_refOf c.2 n), tidy_cellChildren hempty, ih⟩

theorem tidy_rowContent (n : ℕ) (header : Bool) (cells : List (List Char)) {rest : Content}
    (hrest : Tidy rest) : Tidy (rowContent (n + 1) header cells rest) := by
  have hspace := isSpace_plain (plain_toDigits (n + 1))
  refine ⟨⟨by decide, ?_, ?_, ?_⟩, tidy_cellsContent n header _, hrest⟩
  · simp
    decide
  · simpa using hspace
  · simp

theorem tidy_sheetContent (records : List BookRow) (headers : List (List Char)) :
    Tidy (sheetContent records headers) := by
  have hrecords : ∀ rs : List (BookRow × ℕ), Tidy (rs.foldr
      (fun r rest => rowContent (r.2 + 2) false (recordCells r.1) rest) .nil) := by
    intro rs
    induction rs with
    | nil => trivial
    | cons r rs ih => exact tidy_rowContent (r.2 + 1) false (recordCells r.1) ih
  have hrows : Tidy (rowsContent records headers) := tidy_rowContent 0 true headers (hrecords _)
  have hviews : Tidy (viewsContent .nil) := tidy_of_isTidy (by decide)
  refine ⟨tidyTag_of_isTidyTag (by decide),
    ⟨hviews.1, hviews.2.1, hviews.2.2.1, hviews.2.2.2.1, ?_⟩, trivial⟩
  exact ⟨tidyTag_of_isTidyTag (by decide), hrows, trivial⟩

/-! ### Characters -/

theorem all_plain (h : Plain v) : v.all isChar = true :=
  List.all_eq_true.mpr fun c hc => isChar_nameChar (by simp [isNameChar, h c hc])

theorem all_cellContent (href : Plain ref) (rest : Content) :
    (cellContent ref v numeric header rest).data.all isChar =
      (v.all isChar && rest.data.all isChar) := by
  have hinline : INLINE_STR.all isChar = true := by decide
  have hpreserve : PRESERVE.all isChar = true := by decide
  have hone : isChar '1' = true := by decide
  rw [cellContent]
  by_cases hempty : v = []
  · rw [if_pos hempty, hempty]
    rfl
  · rw [if_neg hempty, cellAttributes, cellChildren]
    cases (numeric && isNumeric v) <;> cases header <;>
      simp [Content.data, all_plain href, hinline, hpreserve, hone]

theorem all_cellsContent (n : ℕ) (header : Bool) (cells : List (List Char × ℕ)) :
    (cellsContent (n + 1) header cells).data.all isChar =
      cells.all fun c => c.1.all isChar := by
  induction cells with
  | nil => rfl
  | cons c cells ih =>
    have hfirst : (cellsContent (n + 1) header (c :: cells)).data.all isChar =
        (c.1.all isChar && (cellsContent (n + 1) header cells).data.all isChar) :=
      all_cellContent (plain_refOf c.2 n) _
    rw [hfirst, ih, List.all_cons]

theorem all_zipIdx (cells : List (List Char)) :
    (cells.zipIdx.all fun c => c.1.all isChar) = cells.all fun v => v.all isChar := by
  conv_rhs => rw [← List.zipIdx_map_fst 0 cells, List.all_map]
  rfl

theorem all_rowContent (n : ℕ) (header : Bool) (cells : List (List Char)) (rest : Content) :
    (rowContent (n + 1) header cells rest).data.all isChar =
      ((cells.all fun v => v.all isChar) && rest.data.all isChar) := by
  have hnumber := all_plain (plain_toDigits (n + 1))
  simp [rowContent, Content.data, hnumber, all_cellsContent, all_zipIdx]

/-- The rows of the table. -/
def table (records : List BookRow) (headers : List (List Char)) : List (List (List Char)) :=
  headers :: records.map recordCells

/-- The document has no other characters than XML unless a text of the table does. -/
theorem all_sheetContent (records : List BookRow) (headers : List (List Char)) :
    (sheetContent records headers).data.all isChar =
      (table records headers).all fun row => row.all fun v => v.all isChar := by
  have hrecords : ∀ rs : List (BookRow × ℕ), (rs.foldr
      (fun r rest => rowContent (r.2 + 2) false (recordCells r.1) rest) .nil).data.all isChar =
        rs.all fun r => (recordCells r.1).all fun v => v.all isChar := by
    intro rs
    induction rs with
    | nil => rfl
    | cons r rs ih =>
      rw [List.foldr_cons, all_rowContent (r.2 + 1), ih, List.all_cons]
  have hzip : (records.zipIdx.all fun r => (recordCells r.1).all fun v => v.all isChar) =
      records.all fun r => (recordCells r).all fun v => v.all isChar := by
    conv_rhs => rw [← List.zipIdx_map_fst 0 records, List.all_map]
    rfl
  have hopening : (sheetAttributes.flatMap Prod.snd ++ (viewsContent .nil).data).all isChar =
      true := by decide
  have hviews : ∀ t, (viewsContent t).data = (viewsContent .nil).data ++ t.data := by
    intro t
    simp only [viewsContent, Content.data, List.flatMap_nil, List.nil_append, List.append_assoc,
      List.append_nil]
  have hdata : (sheetContent records headers).data = sheetAttributes.flatMap Prod.snd ++
      (viewsContent .nil).data ++ (rowsContent records headers).data := by
    rw [sheetContent, Content.data, hviews]
    simp only [Content.data, List.flatMap_nil, List.nil_append, List.append_nil, List.append_assoc]
  rw [hdata, List.all_append, hopening, Bool.true_and, rowsContent, all_rowContent 0, hrecords,
    hzip, table, List.all_cons, List.all_map]
  rfl

/-! ### Reading -/

variable {f : List Char → List Char} {records : List BookRow} {headers : List (List Char)}

theorem elements_mapText (name : List Char) (t : Content) :
    elements name (t.mapText f) = (elements name t).map fun e => (e.1, e.2.mapText f) := by
  induction t with
  | nil => rfl
  | text v rest ih => exact ih
  | void n attributes rest ih =>
    rw [Content.mapText, elements, elements, ih]
    split_ifs <;> rfl
  | element n attributes children rest ihc ih =>
    rw [Content.mapText, elements, elements, ih]
    split_ifs <;> rfl

theorem rowsOf_mapText (t : Content) :
    rowsOf (t.mapText f) = (rowsOf t).map fun e => (e.1, e.2.mapText f) := by
  simp only [rowsOf, elements_mapText, List.flatMap_map, List.map_flatMap]

/-- The rows of the sheet with their numbers. -/
def sheetRows (records : List BookRow) (headers : List (List Char)) :
    List (ℕ × Bool × List (List Char)) :=
  (1, true, headers) :: records.zipIdx.map fun r => (r.2 + 2, false, recordCells r.1)

theorem rowsOf_sheetContent (records : List BookRow) (headers : List (List Char)) :
    rowsOf (sheetContent records headers) = (sheetRows records headers).map fun r =>
      ([(['r'], Nat.toDigits 10 r.1)], cellsContent r.1 r.2.1 r.2.2.zipIdx) := by
  have hrow : ∀ n header cells rest, elements ROW (rowContent n header cells rest) =
      ([(['r'], Nat.toDigits 10 n)], cellsContent n header cells.zipIdx) ::
        elements ROW rest := by
    intro n header cells rest
    rw [rowContent, elements, if_pos rfl]
  have hrecords : ∀ rs : List (BookRow × ℕ), elements ROW (rs.foldr
      (fun r rest => rowContent (r.2 + 2) false (recordCells r.1) rest) .nil) =
        rs.map fun r => ([(['r'], Nat.toDigits 10 (r.2 + 2))],
          cellsContent (r.2 + 2) false (recordCells r.1).zipIdx) := by
    intro rs
    induction rs with
    | nil => rfl
    | cons r rs ih => rw [List.foldr_cons, hrow, ih, List.map_cons]
  have hsheet : rowsOf (sheetContent records headers) =
      elements ROW (rowsContent records headers) := by
    have hviews : SHEET_VIEWS ≠ SHEET_DATA := by decide
    have hcols : COLS ≠ SHEET_DATA := by decide
    simp only [rowsOf, sheetContent, viewsContent, elements, if_pos, if_neg hviews, if_neg hcols,
      List.flatMap_cons, List.flatMap_nil, List.append_nil]
  rw [hsheet, rowsContent, hrow, hrecords, sheetRows, List.map_cons, List.map_map]
  rfl

theorem valueOf_cell : valueOf (cellAttributes ref v numeric header,
    (cellChildren v numeric).mapText f) = f v := by
  have hlookup : (cellAttributes ref v numeric header).lookup ['t'] =
      if (numeric && isNumeric v) = true then none else some INLINE_STR := by
    rw [cellAttributes]
    cases (numeric && isNumeric v) <;> cases header <;> rfl
  rw [valueOf, hlookup, cellChildren]
  by_cases hnumeric : (numeric && isNumeric v) = true
  · rw [if_pos hnumeric, if_pos hnumeric, if_neg (fun h => nomatch h)]
    simp [textsOf, elements, Content.mapText, textOf]
  · rw [if_neg hnumeric, if_neg hnumeric, if_pos rfl]
    simp [textsOf, elements, Content.mapText, textOf]

/-- The cells of a row, without those that are empty. -/
theorem elements_cellsContent (n : ℕ) (header : Bool) (cells : List (List Char × ℕ)) :
    ((elements ['c'] ((cellsContent n header cells).mapText f)).map fun c =>
        ((c.1.lookup ['r']).getD [], valueOf c)) =
      cells.filterMap fun c =>
        if c.1 = [] then none else some (colName c.2 ++ Nat.toDigits 10 n, f c.1) := by
  induction cells with
  | nil => rfl
  | cons c cells ih =>
    rw [cellsContent, List.foldr_cons, ← cellsContent, cellContent, List.filterMap_cons]
    split_ifs with hempty
    · exact ih
    · rw [Content.mapText, elements, if_pos rfl, List.map_cons, ih, valueOf_cell, cellAttributes]
      rfl

theorem mem_sheetRows {r : ℕ × Bool × List (List Char)} : r ∈ sheetRows records headers ↔
    ∃ n row, (table records headers)[n]? = some row ∧ r = (n + 1, n == 0, row) := by
  rw [sheetRows, List.mem_cons, List.mem_map, table]
  constructor
  · rintro (rfl | ⟨x, hx, rfl⟩)
    · exact ⟨0, headers, rfl, rfl⟩
    · refine ⟨x.2 + 1, recordCells x.1, ?_, rfl⟩
      rw [List.getElem?_cons_succ, List.getElem?_map, List.mem_zipIdx_iff_getElem?.mp hx]
      rfl
  · rintro ⟨n, row, hrow, rfl⟩
    cases n with
    | zero =>
      rw [List.getElem?_cons_zero, Option.some_inj] at hrow
      exact .inl (hrow ▸ rfl)
    | succ n =>
      rw [List.getElem?_cons_succ, List.getElem?_map, Option.map_eq_some_iff] at hrow
      obtain ⟨x, hx, rfl⟩ := hrow
      exact .inr ⟨(x, n), List.mem_zipIdx_iff_getElem?.mpr hx, rfl⟩

/-- The cells of the sheet are the texts of the table that are not empty. -/
theorem mem_cellsOf {k x : List Char} :
    (k, x) ∈ cellsOf ((sheetContent records headers).mapText f) ↔
      ∃ i n row v, (table records headers)[n]? = some row ∧ row[i]? = some v ∧ v ≠ [] ∧
        k = refOf i n ∧ x = f v := by
  rw [cellsOf, rowsOf_mapText, rowsOf_sheetContent, List.map_map, List.flatMap_map,
    List.mem_flatMap]
  constructor
  · rintro ⟨r, hr, hmem⟩
    obtain ⟨n, row, hrow, rfl⟩ := mem_sheetRows.mp hr
    have hcell := (elements_cellsContent (f := f) (n + 1) (n == 0) row.zipIdx) ▸ hmem
    obtain ⟨c, hc, hvalue⟩ := List.mem_filterMap.mp hcell
    split_ifs at hvalue with hempty
    obtain ⟨rfl, rfl⟩ := Prod.mk.inj (Option.some.inj hvalue)
    exact ⟨c.2, n, row, c.1, hrow, List.mem_zipIdx_iff_getElem?.mp hc, hempty, rfl, rfl⟩
  · rintro ⟨i, n, row, v, hrow, hv, hempty, rfl, rfl⟩
    refine ⟨(n + 1, n == 0, row), mem_sheetRows.mpr ⟨n, row, hrow, rfl⟩, ?_⟩
    have hcell : (refOf i n, f v) ∈ row.zipIdx.filterMap fun c : List Char × ℕ =>
        if c.1 = [] then none else some (colName c.2 ++ Nat.toDigits 10 (n + 1), f c.1) :=
      List.mem_filterMap.mpr
        ⟨(v, i), List.mem_zipIdx_iff_getElem?.mpr hv, by rw [if_neg hempty]; rfl⟩
    exact (elements_cellsContent (f := f) (n + 1) (n == 0) row.zipIdx) ▸ hcell

theorem cellAt_mapText (hf : f [] = []) (i n : ℕ) :
    cellAt ((sheetContent records headers).mapText f) (refOf i n) =
      f (tableAt (table records headers) i n) := by
  rw [cellAt, tableAt]
  cases hlookup : (cellsOf ((sheetContent records headers).mapText f)).lookup (refOf i n) with
  | none =>
    rw [List.lookup_eq_none_iff] at hlookup
    rw [Option.getD_none]
    cases hrow : (table records headers)[n]? with
    | none => exact hf.symm
    | some row =>
      rw [Option.bind_some]
      cases hv : row[i]? with
      | none => exact hf.symm
      | some v =>
        rw [Option.getD_some]
        by_cases hempty : v = []
        · rw [hempty, hf]
        · have hmem := mem_cellsOf (f := f).mpr ⟨i, n, row, v, hrow, hv, hempty, rfl, rfl⟩
          exact absurd (hlookup _ hmem) (by simp)
  | some x =>
    obtain ⟨l₁, l₂, hsplit, -⟩ := List.lookup_eq_some_iff.mp hlookup
    have hmem : (refOf i n, x) ∈ cellsOf ((sheetContent records headers).mapText f) := by
      rw [hsplit]
      exact List.mem_append_right _ List.mem_cons_self
    obtain ⟨i', n', row, v, hrow, hv, -, href, rfl⟩ := mem_cellsOf.mp hmem
    obtain ⟨rfl, rfl⟩ := refOf_inj href
    rw [hrow, Option.bind_some, hv, Option.getD_some, Option.getD_some]

/-! ## The files together -/

theorem written_csvField (v : List Char) : Csv.Written v (csvField v) := by
  rw [csvField]
  split_ifs with hspecial
  · exact .quoted
  · exact .plain fun c hc => by
      rw [← Bool.not_eq_true]
      exact fun h => hspecial (List.any_eq_true.mpr ⟨c, hc, h⟩)

theorem toCsv_eq (records : List BookRow) (headers : List (List Char)) :
    toCsv records headers = BOM :: (table records headers).flatMap (Csv.line csvField) := by
  have hjoin : ∀ (x : List Char) (xs : List (List Char)),
      List.intercalate ['\r', '\n'] (x :: xs) ++ ['\r', '\n'] =
        (x :: xs).flatMap fun y => y ++ ['\r', '\n'] := by
    intro x xs
    induction xs generalizing x with
    | nil => simp
    | cons y xs ih =>
      rw [List.intercalate_cons_cons, List.append_assoc, ih]
      rfl
  rw [toCsv, List.map_cons, hjoin, table]
  simp only [List.flatMap_cons, List.flatMap_map]
  rfl

/-- The CSV file gives the table back if there is a header. -/
theorem csv_lossless_iff (records : List BookRow) (headers : List (List Char)) :
    (∃ cs, toCsv records headers = BOM :: cs ∧ Csv.parse cs = some (table records headers)) ↔
      headers ≠ [] := by
  rw [toCsv_eq]
  constructor
  · rintro ⟨cs, hcs, hparse⟩ rfl
    obtain rfl := (List.cons.inj hcs).2
    have hempty : (table records []).flatMap (Csv.line csvField) =
        '\r' :: '\n' :: (records.map recordCells).flatMap (Csv.line csvField) := rfl
    rw [hempty, Csv.parse_empty_line] at hparse
    split_ifs at hparse
    · cases hparse
    · obtain ⟨rows, -, hrows⟩ := Option.map_eq_some_iff.mp hparse
      cases hrows
  · intro hne
    refine ⟨_, rfl, Csv.parse_rows written_csvField ?_⟩
    refine List.forall_mem_cons.mpr ⟨hne, fun row hrow => ?_⟩
    obtain ⟨r, -, rfl⟩ := List.mem_map.mp hrow
    exact List.cons_ne_nil _ _

/-- The text can go into the sheet: XML has its characters, and none is a carriage return. -/
def Fit (v : List Char) : Prop := ∀ c ∈ v, isChar c = true ∧ c ≠ '\r'

/-- The sheet gives the table back if its texts are fit for it. -/
theorem sheet_lossless_iff (records : List BookRow) (headers : List (List Char)) :
    (∃ t, document (sheetXml records headers) = some t ∧
        ∀ i n, cellAt t (refOf i n) = tableAt (table records headers) i n) ↔
      ∀ row ∈ table records headers, ∀ v ∈ row, Fit v := by
  have htidy := tidy_sheetContent records headers
  have hroot : (sheetContent records headers).IsRoot := trivial
  have hall : (table records headers).all (fun row => row.all fun v => v.all isChar) = true ↔
      ∀ row ∈ table records headers, ∀ v ∈ row, ∀ c ∈ v, isChar c = true := by
    simp only [List.all_eq_true]
  rw [sheetXml_eq, document_render htidy hroot, all_render htidy, all_sheetContent]
  constructor
  · rintro ⟨t, hdocument, hcells⟩ row hrow v hv c hc
    split_ifs at hdocument with hchars
    obtain rfl := Option.some.inj hdocument
    refine ⟨hall.mp hchars row hrow v hv c hc, ?_⟩
    rintro rfl
    obtain ⟨n, hn⟩ := List.mem_iff_getElem?.mp hrow
    obtain ⟨i, hi⟩ := List.mem_iff_getElem?.mp hv
    have hcell := hcells i n
    have hvalue : tableAt (table records headers) i n = v := by
      rw [tableAt, hn, Option.bind_some, hi, Option.getD_some]
    rw [cellAt_mapText rfl, hvalue] at hcell
    exact notMem_lineEnds v (hcell.symm ▸ hc)
  · intro hfit
    refine ⟨(sheetContent records headers).mapText lineEnds, ?_, fun i n => ?_⟩
    · rw [if_pos (hall.mpr fun row hrow v hv c hc => (hfit row hrow v hv c hc).1)]
    · rw [cellAt_mapText rfl, tableAt]
      cases hrow : (table records headers)[n]? with
      | none => rfl
      | some row =>
        rw [Option.bind_some]
        cases hv : row[i]? with
        | none => rfl
        | some v =>
          have h := hfit row (List.mem_of_getElem? hrow) v (List.mem_of_getElem? hv)
          exact lineEnds_eq_self fun hcr => (h _ hcr).2 rfl

/-- Both files give the table back exactly if there is a header and every text of the table can go
into the sheet. -/
theorem lossless_iff (records : List BookRow) (headers : List (List Char)) :
    Lossless records headers ↔
      headers ≠ [] ∧ ∀ row ∈ headers :: records.map recordCells, ∀ v ∈ row, Fit v :=
  and_congr (csv_lossless_iff records headers) (sheet_lossless_iff records headers)

/-- An account named with a control character. -/
def controlRow : BookRow where
  row := ['1']
  date := "1404/01/31".toList
  kolCode := "1010".toList
  kolName := ['\x01']
  moeinCode := []
  moeinName := []
  description := []
  debitRial := ['1', '0']
  creditRial := ['0']

/-- With it the sheet is not well formed. -/
theorem control_not_lossless : ¬Lossless [controlRow] [['A']] := by
  rintro ⟨-, hsheet⟩
  have hfit := (sheet_lossless_iff _ _).mp hsheet
  have hrow : recordCells controlRow ∈ [['A']] :: [controlRow].map recordCells := by simp
  have hname : ['\x01'] ∈ recordCells controlRow := by simp [recordCells, controlRow]
  exact absurd (hfit _ hrow _ hname '\x01' List.mem_cons_self).1 (by decide)

end BookFiles

end ArkanGold
