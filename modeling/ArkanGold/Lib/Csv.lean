import Mathlib

/-!
# Comma-separated values

A reader for the format of RFC 4180: records end with CRLF, the last one may do without it; fields
are separated by commas; a field between quotes may have any characters, a quote in it doubled, and
any other field has none of quote, comma, CR and LF.

`parse_rows`: records whose fields are written in either of the two ways are read as they were.
-/

namespace ArkanGold

namespace Csv

/-- Where the reader is: in a field without quotes, between quotes, or after a quote within them. -/
inductive Mode where
  | plain
  | quoted
  | closed

/-- Reading on, with the field and the record so far. -/
def go : Mode → List Char → List (List Char) → List Char → Option (List (List (List Char)))
  | .plain, field, row, [] => some [row ++ [field]]
  | .plain, field, row, '"' :: cs => if field = [] then go .quoted [] row cs else none
  | .plain, field, row, ',' :: cs => go .plain [] (row ++ [field]) cs
  | .plain, field, row, '\r' :: '\n' :: cs =>
    if cs = [] then some [row ++ [field]] else (go .plain [] [] cs).map ((row ++ [field]) :: ·)
  | .plain, _, _, '\r' :: _ => none
  | .plain, _, _, '\n' :: _ => none
  | .plain, field, row, c :: cs => go .plain (field ++ [c]) row cs
  | .quoted, _, _, [] => none
  | .quoted, field, row, '"' :: cs => go .closed field row cs
  | .quoted, field, row, c :: cs => go .quoted (field ++ [c]) row cs
  | .closed, field, row, [] => some [row ++ [field]]
  | .closed, field, row, '"' :: cs => go .quoted (field ++ ['"']) row cs
  | .closed, field, row, ',' :: cs => go .plain [] (row ++ [field]) cs
  | .closed, field, row, '\r' :: '\n' :: cs =>
    if cs = [] then some [row ++ [field]] else (go .plain [] [] cs).map ((row ++ [field]) :: ·)
  | .closed, _, _, _ => none

attribute [local grind =] go

/-- The records of a text. -/
def parse (cs : List Char) : Option (List (List (List Char))) :=
  if cs = [] then some [] else go .plain [] [] cs

/-- Characters that a field without quotes does not have. -/
def isSpecial (c : Char) : Bool := ['"', ',', '\r', '\n'].contains c

/-- A field between quotes. -/
def quote (v : List Char) : List Char :=
  '"' :: (v.flatMap (fun c => if c = '"' then ['"', '"'] else [c]) ++ ['"'])

/-- `w` is a way to write the field `v`. -/
inductive Written (v : List Char) : List Char → Prop where
  | plain (h : ∀ c ∈ v, isSpecial c = false) : Written v v
  | quoted : Written v (quote v)

variable {field v w rest : List Char} {row : List (List Char)}

theorem go_plain (h : ∀ c ∈ v, isSpecial c = false) :
    go .plain field row (v ++ rest) = go .plain (field ++ v) row rest := by
  induction v generalizing field with
  | nil => rw [List.nil_append, List.append_nil]
  | cons c v ih =>
    obtain ⟨hc, hv⟩ := List.forall_mem_cons.mp h
    simp only [isSpecial, List.contains_eq_mem, List.mem_cons, List.not_mem_nil, or_false,
      decide_eq_false_iff_not, not_or] at hc
    obtain ⟨hquote, hcomma, hcr, hlf⟩ := hc
    rw [List.cons_append, go, ih hv, List.append_assoc, List.singleton_append]
    · exact hquote
    · exact hcomma
    · exact fun _ h => absurd h hcr
    · exact hcr
    · exact hlf

theorem go_quoted : go .quoted field row
      (v.flatMap (fun c => if c = '"' then ['"', '"'] else [c]) ++ '"' :: rest) =
    go .closed (field ++ v) row rest := by
  induction v generalizing field with
  | nil => rw [List.flatMap_nil, List.nil_append, List.append_nil, go]
  | cons c v ih =>
    rw [List.flatMap_cons, List.append_assoc]
    by_cases hc : c = '"'
    · rw [if_pos hc, hc, List.cons_append, List.cons_append, List.nil_append, go, go, ih,
        List.append_assoc, List.singleton_append]
    · rw [if_neg hc, List.cons_append, List.nil_append, go, ih, List.append_assoc,
        List.singleton_append]
      exact hc

/-- A field with its comma. -/
theorem go_comma (h : Written v w) :
    go .plain [] row (w ++ ',' :: rest) = go .plain [] (row ++ [v]) rest := by
  cases h with
  | plain h => rw [go_plain h, List.nil_append, go]
  | quoted =>
    rw [quote, List.cons_append, go, if_pos rfl, List.append_assoc, List.singleton_append,
      go_quoted, List.nil_append, go]

/-- A field with the end of its record. -/
theorem go_crlf (h : Written v w) :
    go .plain [] row (w ++ '\r' :: '\n' :: rest) =
      if rest = [] then some [row ++ [v]]
      else (go .plain [] [] rest).map ((row ++ [v]) :: ·) := by
  cases h with
  | plain h => rw [go_plain h, List.nil_append, go]
  | quoted =>
    rw [quote, List.cons_append, go, if_pos rfl, List.append_assoc, List.singleton_append,
      go_quoted, List.nil_append, go]

/-- A record as a line. -/
def line (write : List Char → List Char) (vs : List (List Char)) : List Char :=
  List.intercalate [','] (vs.map write) ++ ['\r', '\n']

variable {write : List Char → List Char}

theorem go_line (hwrite : ∀ v, Written v (write v)) {vs : List (List Char)} (hne : vs ≠ []) :
    go .plain [] row (line write vs ++ rest) =
      if rest = [] then some [row ++ vs] else (go .plain [] [] rest).map ((row ++ vs) :: ·) := by
  induction vs generalizing row with
  | nil => exact absurd rfl hne
  | cons v vs ih =>
    cases vs with
    | nil =>
      rw [line, List.map_cons, List.map_nil, List.intercalate_singleton, List.append_assoc]
      exact go_crlf (hwrite v)
    | cons v' vs =>
      have hrest : go .plain [] (row ++ [v]) (line write (v' :: vs) ++ rest) = _ :=
        ih (List.cons_ne_nil v' vs)
      rw [line, List.map_cons] at hrest ⊢
      rw [List.map_cons, List.intercalate_cons_cons, List.append_assoc, List.append_assoc,
        List.append_assoc, List.singleton_append, go_comma (hwrite v), ← List.append_assoc, hrest,
        List.append_assoc, List.singleton_append]

/-- Records are read as they were written. -/
theorem parse_rows (hwrite : ∀ v, Written v (write v)) {rows : List (List (List Char))}
    (hrows : ∀ vs ∈ rows, vs ≠ []) : parse (rows.flatMap (line write)) = some rows := by
  have hline : ∀ vs, line write vs ≠ [] := fun vs => List.append_ne_nil_of_right_ne_nil _ (by simp)
  have hgo : ∀ {rows : List (List (List Char))}, rows ≠ [] → (∀ vs ∈ rows, vs ≠ []) →
      go .plain [] [] (rows.flatMap (line write)) = some rows := by
    intro rows hne hrows
    induction rows with
    | nil => exact absurd rfl hne
    | cons vs rows ih =>
      obtain ⟨hvs, hrest⟩ := List.forall_mem_cons.mp hrows
      rw [List.flatMap_cons, go_line hwrite hvs, List.nil_append]
      cases rows with
      | nil => rfl
      | cons vs' rows =>
        rw [if_neg, ih (List.cons_ne_nil _ _) hrest, Option.map_some]
        rw [List.flatMap_cons]
        exact List.append_ne_nil_of_left_ne_nil (hline vs') _
  cases rows with
  | nil => rfl
  | cons vs rows =>
    rw [parse, if_neg, hgo (List.cons_ne_nil _ _) hrows]
    rw [List.flatMap_cons]
    exact List.append_ne_nil_of_left_ne_nil (hline vs) _

/-- A record without fields reads as one with an empty field. -/
theorem parse_empty_line (rest : List Char) :
    parse ('\r' :: '\n' :: rest) =
      if rest = [] then some [[[]]] else (go .plain [] [] rest).map ([[]] :: ·) := by
  rw [parse, if_neg (List.cons_ne_nil _ _), go]
  rfl

end Csv

end ArkanGold
