import Mathlib

/-!
# JSON values and their canonical text

A JSON value is written with the keys of every object in order, so that two values have
one text exactly when they agree up to the order of the keys.

- `Json.quote`: a string with its escapes; `quote_append_inj`: where the text of a string
  ends can be read off the text.
- `Json.sortKeys`: the value with all keys in order. Keys are compared by their UTF-16
  units, as the platform sorts strings.
- `Json.canonicalize_inj`: the canonical text determines the value up to `sortKeys`.
-/

namespace ArkanGold

/-- The characters of a number. -/
def isNumberChar (c : Char) : Bool :=
  c.isDigit || c == '-' || c == '+' || c == '.' || c == 'e' || c == 'E'

/-- A number, known by its text. -/
structure JsonNumber where
  chars : List Char
  nonempty : chars ≠ []
  wellFormed : chars.all isNumberChar = true
  deriving DecidableEq

/-- A JSON value. -/
inductive Json where
  | null
  | bool (b : Bool)
  | number (n : JsonNumber)
  | string (v : String)
  | array (items : List Json)
  | object (entries : List (String × Json))

namespace Json

/-- Induction over the values inside a value. -/
theorem induct {P : Json → Prop} (null : P null) (bool : ∀ b, P (bool b))
    (number : ∀ n, P (number n)) (string : ∀ v, P (string v))
    (array : ∀ items, (∀ x ∈ items, P x) → P (array items))
    (object : ∀ entries, (∀ e ∈ entries, P e.2) → P (object entries)) : ∀ j, P j
  | .null => null
  | .bool b => bool b
  | .number n => number n
  | .string v => string v
  | .array items =>
    array items fun x _ => induct null bool number string array object x
  | .object entries =>
    object entries fun e _ => induct null bool number string array object e.2
termination_by j => sizeOf j
decreasing_by
  · have := List.sizeOf_lt_of_mem ‹x ∈ items›
    simp only [Json.array.sizeOf_spec]
    omega
  · have := List.sizeOf_lt_of_mem ‹e ∈ entries›
    rcases e with ⟨k, v⟩
    simp only [Json.object.sizeOf_spec, Prod.mk.sizeOf_spec] at *
    omega

/-! ## Strings -/

/-- A hexadecimal digit. -/
def hexDigit (n : ℕ) : Char := Char.ofNat (if n < 10 then 48 + n else 87 + n)

/-- A character inside quotes. -/
def quoteChar (c : Char) : List Char :=
  if c = '\x22' then ['\\', '\x22']
  else if c = '\\' then ['\\', '\\']
  else if c = '\x08' then ['\\', 'b']
  else if c = '\x0c' then ['\\', 'f']
  else if c = '\n' then ['\\', 'n']
  else if c = '\r' then ['\\', 'r']
  else if c = '\t' then ['\\', 't']
  else if c.toNat < 32 then
    ['\\', 'u', '0', '0', hexDigit (c.toNat / 16), hexDigit (c.toNat % 16)]
  else [c]

/-- `JSON.stringify` of a string. -/
def quote (v : String) : List Char := '\x22' :: v.toList.flatMap quoteChar ++ ['\x22']

/-- The value of a hexadecimal digit. -/
def hexValue (c : Char) : ℕ := if c.toNat < 58 then c.toNat - 48 else c.toNat - 87

/-- The character at the beginning of a quoted text. -/
def unquoteChar : List Char → Option (Char × List Char)
  | '\\' :: 'u' :: _ :: _ :: h :: l :: rest =>
    some (Char.ofNat (16 * hexValue h + hexValue l), rest)
  | '\\' :: 'b' :: rest => some ('\x08', rest)
  | '\\' :: 'f' :: rest => some ('\x0c', rest)
  | '\\' :: 'n' :: rest => some ('\n', rest)
  | '\\' :: 'r' :: rest => some ('\r', rest)
  | '\\' :: 't' :: rest => some ('\t', rest)
  | '\\' :: c :: rest => some (c, rest)
  | c :: rest => some (c, rest)
  | [] => none

attribute [local grind =] unquoteChar

theorem unquoteChar_quoteChar (c : Char) (rest : List Char) :
    unquoteChar (quoteChar c ++ rest) = some (c, rest) := by
  unfold quoteChar
  split_ifs with h₁ h₂ h₃ h₄ h₅ h₆ h₇ h₈
  · subst h₁
    rfl
  · subst h₂
    rfl
  · subst h₃
    rfl
  · subst h₄
    rfl
  · subst h₅
    rfl
  · subst h₆
    rfl
  · subst h₇
    rfl
  · have hc : c = Char.ofNat c.toNat := (Char.ofNat_toNat c).symm
    generalize c.toNat = n at h₈ hc
    subst hc
    interval_cases n <;> rfl
  · show unquoteChar (c :: rest) = _
    unfold unquoteChar
    split <;> simp_all

theorem quoteChar_append_inj {c d : Char} {u v : List Char}
    (h : quoteChar c ++ u = quoteChar d ++ v) : c = d ∧ u = v := by
  have hdecode := congrArg unquoteChar h
  rw [unquoteChar_quoteChar, unquoteChar_quoteChar, Option.some.injEq, Prod.mk.injEq] at hdecode
  exact hdecode

/-- No character inside quotes begins with the quote that ends the text. -/
theorem quoteChar_append_ne (c : Char) (u v : List Char) :
    quoteChar c ++ u ≠ '\x22' :: v := by
  intro h
  have hhead := congrArg List.head? h
  unfold quoteChar at hhead
  split_ifs at hhead <;> simp_all

theorem quoteBody_append_inj {c d u v : List Char}
    (h : c.flatMap quoteChar ++ '\x22' :: u = d.flatMap quoteChar ++ '\x22' :: v) :
    c = d ∧ u = v := by
  induction c generalizing d with
  | nil =>
    cases d with
    | nil => simpa using h
    | cons y ys =>
      simp only [List.flatMap_nil, List.nil_append, List.flatMap_cons, List.append_assoc] at h
      exact absurd h.symm (quoteChar_append_ne _ _ _)
  | cons x xs ih =>
    cases d with
    | nil =>
      simp only [List.flatMap_nil, List.nil_append, List.flatMap_cons, List.append_assoc] at h
      exact absurd h (quoteChar_append_ne _ _ _)
    | cons y ys =>
      simp only [List.flatMap_cons, List.append_assoc] at h
      obtain ⟨rfl, hrest⟩ := quoteChar_append_inj h
      obtain ⟨rfl, rfl⟩ := ih hrest
      exact ⟨rfl, rfl⟩

/-- The text of a string says where it ends. -/
theorem quote_append_inj {v w : String} {s t : List Char} (h : quote v ++ s = quote w ++ t) :
    v = w ∧ s = t := by
  simp only [quote, List.cons_append, List.append_assoc, List.nil_append, List.cons.injEq,
    true_and] at h
  obtain ⟨hchars, hrest⟩ := quoteBody_append_inj h
  exact ⟨String.toList_inj.mp hchars, hrest⟩

/-! ## The order of keys -/

/-- The UTF-16 units of a character. -/
def utf16Char (c : Char) : List ℕ :=
  if c.toNat < 0x10000 then [c.toNat]
  else [0xD800 + (c.toNat - 0x10000) / 0x400, 0xDC00 + (c.toNat - 0x10000) % 0x400]

/-- The UTF-16 units of a string. -/
def utf16 (v : String) : List ℕ := v.toList.flatMap utf16Char

theorem utf16Char_append_inj {c d : Char} {u v : List ℕ}
    (h : utf16Char c ++ u = utf16Char d ++ v) : c = d ∧ u = v := by
  have hvalid (c : Char) : c.toNat < 0xD800 ∨ 0xDFFF < c.toNat ∧ c.toNat < 0x110000 := c.valid
  have hc := hvalid c
  have hd := hvalid d
  -- the first unit of a pair is no character
  unfold utf16Char at h
  split_ifs at h with h₁ h₂ h₂ <;> simp only [List.cons_append, List.nil_append,
    List.cons.injEq] at h
  · exact ⟨Char.toNat_inj.mp h.1, h.2⟩
  · omega
  · omega
  · exact ⟨Char.toNat_inj.mp (by omega), h.2.2⟩

theorem utf16_injective : Function.Injective utf16 := by
  intro v w h
  unfold utf16 at h
  have hnil (c : Char) (u : List ℕ) : utf16Char c ++ u ≠ [] := by
    unfold utf16Char
    split_ifs <;> simp
  suffices hchars : ∀ c d : List Char, c.flatMap utf16Char = d.flatMap utf16Char → c = d from
    String.toList_inj.mp (hchars _ _ h)
  intro c
  induction c with
  | nil =>
    rintro (_ | ⟨y, ys⟩) h
    · rfl
    · exact absurd h.symm (hnil y _)
  | cons x xs ih =>
    rintro (_ | ⟨y, ys⟩) h
    · exact absurd h (hnil x _)
    · obtain ⟨rfl, hrest⟩ := utf16Char_append_inj h
      rw [ih ys hrest]

/-- The order of the entries of an object. -/
def keyLe {α : Type} (a b : String × α) : Prop := utf16 a.1 ≤ utf16 b.1

instance {α : Type} : DecidableRel (keyLe (α := α)) := fun a b =>
  inferInstanceAs (Decidable (utf16 a.1 ≤ utf16 b.1))

instance {α : Type} : Std.Total (keyLe (α := α)) := ⟨fun a b => le_total (utf16 a.1) (utf16 b.1)⟩

instance {α : Type} : IsTrans (String × α) keyLe := ⟨fun _ _ _ => le_trans⟩

/-- The entries of an object in the order of their keys. -/
def sortEntries {α : Type} (entries : List (String × α)) : List (String × α) :=
  entries.insertionSort keyLe

theorem map_sortEntries {α β : Type} (f : α → β) (entries : List (String × α)) :
    (sortEntries entries).map (fun e => (e.1, f e.2)) =
      sortEntries (entries.map fun e => (e.1, f e.2)) :=
  List.map_insertionSort _ _ _ _ fun _ _ _ _ => Iff.rfl

/-- Distinct keys have one order. -/
theorem sortEntries_congr {α : Type} {es fs : List (String × α)} (hperm : es.Perm fs)
    (hkeys : (es.map Prod.fst).Nodup) : sortEntries es = sortEntries fs := by
  refine List.Perm.eq_of_pairwise ?_ (List.pairwise_insertionSort keyLe es)
    (List.pairwise_insertionSort keyLe fs) ?_
  · intro a b ha hb hab hba
    have hkey : a.1 = b.1 := utf16_injective (le_antisymm hab hba)
    have ha' : a ∈ es := (List.perm_insertionSort _ _).mem_iff.mp ha
    have hb' : b ∈ es := hperm.mem_iff.mpr ((List.perm_insertionSort _ _).mem_iff.mp hb)
    exact List.inj_on_of_nodup_map hkeys ha' hb' hkey
  · exact ((List.perm_insertionSort _ _).trans hperm).trans (List.perm_insertionSort _ _).symm

/-! ## The canonical text -/

/-- `items.join(',')` -/
def joinComma (texts : List (List Char)) : List Char := [','].intercalate texts

mutual

/-- The text of a value with the keys of every object in order. -/
def canonicalChars : Json → List Char
  | .null => "null".toList
  | .bool true => "true".toList
  | .bool false => "false".toList
  | .number n => n.chars
  | .string v => quote v
  | .array items => '[' :: joinComma (canonicalItems items) ++ [']']
  | .object entries =>
    '\x7b' :: joinComma ((sortEntries (canonicalEntries entries)).map fun (k, text) =>
      quote k ++ ':' :: text) ++ ['\x7d']

/-- The texts of the items of an array. -/
def canonicalItems : List Json → List (List Char)
  | [] => []
  | x :: xs => x.canonicalChars :: canonicalItems xs

/-- The keys of an object with the texts of their values. -/
def canonicalEntries : List (String × Json) → List (String × List Char)
  | [] => []
  | (k, v) :: es => (k, v.canonicalChars) :: canonicalEntries es

end

attribute [local grind =] canonicalChars canonicalItems canonicalEntries

mutual

/-- The value with the keys of every object in order. -/
def sortKeys : Json → Json
  | .null => .null
  | .bool b => .bool b
  | .number n => .number n
  | .string v => .string v
  | .array items => .array (sortKeysItems items)
  | .object entries => .object (sortEntries (sortKeysEntries entries))

/-- The items of an array with their keys in order. -/
def sortKeysItems : List Json → List Json
  | [] => []
  | x :: xs => x.sortKeys :: sortKeysItems xs

/-- The entries of an object with the keys of their values in order. -/
def sortKeysEntries : List (String × Json) → List (String × Json)
  | [] => []
  | (k, v) :: es => (k, v.sortKeys) :: sortKeysEntries es

end

attribute [local grind =] sortKeys sortKeysItems sortKeysEntries

@[simp] theorem canonicalItems_eq (items : List Json) :
    canonicalItems items = items.map canonicalChars := by
  induction items with
  | nil => rfl
  | cons x xs ih => rw [canonicalItems, ih, List.map_cons]

@[simp] theorem canonicalEntries_eq (entries : List (String × Json)) :
    canonicalEntries entries = entries.map fun e => (e.1, e.2.canonicalChars) := by
  induction entries with
  | nil => rfl
  | cons e es ih => rw [canonicalEntries, ih, List.map_cons]

@[simp] theorem sortKeysItems_eq (items : List Json) :
    sortKeysItems items = items.map sortKeys := by
  induction items with
  | nil => rfl
  | cons x xs ih => rw [sortKeysItems, ih, List.map_cons]

@[simp] theorem sortKeysEntries_eq (entries : List (String × Json)) :
    sortKeysEntries entries = entries.map fun e => (e.1, e.2.sortKeys) := by
  induction entries with
  | nil => rfl
  | cons e es ih => rw [sortKeysEntries, ih, List.map_cons]

/-- Two values are the same up to the order of keys. -/
def Same (a b : Json) : Prop := a.sortKeys = b.sortKeys

theorem Same.refl (a : Json) : a.Same a := rfl

/-- An object is the same whatever the order of its keys, as these are distinct. -/
theorem same_object {es fs : List (String × Json)} (hperm : es.Perm fs)
    (hkeys : (es.map Prod.fst).Nodup) : (object es).Same (object fs) := by
  unfold Same
  simp only [sortKeys, sortKeysEntries_eq]
  refine congrArg object (sortEntries_congr (hperm.map _) ?_)
  rwa [List.map_map]

/-- Objects that are the same have the same keys with the same values. -/
theorem Same.mem {es fs : List (String × Json)} (h : (object es).Same (object fs)) {k : String}
    {v : Json} (hv : (k, v) ∈ es) : ∃ v', (k, v') ∈ fs ∧ v.Same v' := by
  have hsorted : sortEntries (sortKeysEntries es) = sortEntries (sortKeysEntries fs) := by
    simpa only [Same, sortKeys, object.injEq] using h
  have hmem : (k, v.sortKeys) ∈ sortEntries (sortKeysEntries fs) := by
    rw [← hsorted, sortKeysEntries_eq]
    exact (List.perm_insertionSort _ _).mem_iff.mpr (List.mem_map_of_mem hv)
  rw [sortKeysEntries_eq] at hmem
  obtain ⟨⟨k', v'⟩, hv', heq⟩ := List.mem_map.mp ((List.perm_insertionSort _ _).mem_iff.mp hmem)
  obtain ⟨rfl, hsame⟩ := Prod.mk.inj heq
  exact ⟨v', hv', hsame.symm⟩

theorem Same.value {es fs : List (String × Json)} (h : (object es).Same (object fs))
    (hkeys : (fs.map Prod.fst).Nodup) {k : String} {v v' : Json} (hv : (k, v) ∈ es)
    (hv' : (k, v') ∈ fs) : v.Same v' := by
  obtain ⟨u, hu, hsame⟩ := h.mem hv
  have huv : (k, u) = (k, v') := List.inj_on_of_nodup_map hkeys hu hv' rfl
  rw [(Prod.mk.inj huv).2] at hsame
  exact hsame

theorem Same.string {v w : String} (h : (string v).Same (string w)) : v = w := by
  simpa [Same, sortKeys] using h

theorem Same.bool {b c : Bool} (h : (bool b).Same (bool c)) : b = c := by
  simpa [Same, sortKeys] using h

/-- An object is the same when the values of its keys are. -/
theorem same_object_of_values {es fs : List (String × Json)}
    (h : (es.map fun e => (e.1, e.2.sortKeys)) = fs.map fun e => (e.1, e.2.sortKeys)) :
    (object es).Same (object fs) := by
  simp only [Same, sortKeys, sortKeysEntries_eq, h]

theorem sortEntries_sortEntries {α : Type} (entries : List (String × α)) :
    sortEntries (sortEntries entries) = sortEntries entries :=
  (List.pairwise_insertionSort _ _).insertionSort_eq

/-- Putting the keys in order changes nothing else. -/
theorem same_sortKeys (j : Json) : j.sortKeys.Same j := by
  unfold Same
  induction j using induct with
  | array items ih =>
    simp only [sortKeys, sortKeysItems_eq, List.map_map]
    exact congrArg array (List.map_congr_left ih)
  | object entries ih =>
    simp only [sortKeys, sortKeysEntries_eq, map_sortEntries, List.map_map,
      sortEntries_sortEntries]
    refine congrArg (fun es => object (sortEntries es)) (List.map_congr_left fun e he => ?_)
    exact Prod.ext rfl (ih e he)
  | _ => rfl

/-- The text of a value whose keys are taken in the order they stand. -/
def texts (entries : List (String × Json)) : List (List Char) :=
  entries.map fun e => quote e.1 ++ ':' :: e.2.canonicalChars

theorem canonicalChars_object (entries : List (String × Json)) :
    (object entries).canonicalChars =
      '\x7b' :: joinComma (texts (sortEntries entries)) ++ ['\x7d'] := by
  rw [canonicalChars, canonicalEntries_eq, ← map_sortEntries, List.map_map]
  rfl

/-! ## The text determines the value -/

/-- The kind of a value, told by the first character of its text. -/
def kindOf (c : Char) : ℕ :=
  if isNumberChar c then 3
  else if c = 'n' then 0
  else if c = 't' then 1
  else if c = 'f' then 2
  else if c = '\x22' then 4
  else if c = '[' then 5
  else if c = '\x7b' then 6
  else 7

/-- The kind of a value. -/
def kind : Json → ℕ
  | .null => 0
  | .bool true => 1
  | .bool false => 2
  | .number _ => 3
  | .string _ => 4
  | .array _ => 5
  | .object _ => 6

attribute [local grind =] kind

theorem kind_lt (j : Json) : j.kind < 7 := by
  cases j with
  | bool b => cases b <;> decide
  | _ => simp [kind]

theorem kindOf_head (j : Json) (s : List Char) :
    (j.canonicalChars ++ s).head?.map kindOf = some j.kind := by
  cases j with
  | null => rfl
  | bool b => cases b <;> rfl
  | number n =>
    cases hn : n.chars with
    | nil => exact absurd hn n.nonempty
    | cons c rest =>
      have hall := n.wellFormed
      rw [hn, List.all_cons, Bool.and_eq_true] at hall
      simp [canonicalChars, hn, kindOf, hall.1, kind]
  | string v => rfl
  | array items => rfl
  | object entries => rfl

/-- What follows a value inside a text. -/
def Stops (s : List Char) : Prop := ∀ c ∈ s.head?, c = ',' ∨ c = ']' ∨ c = '\x7d'

theorem stops_cons {c : Char} (h : c = ',' ∨ c = ']' ∨ c = '\x7d') (s : List Char) :
    Stops (c :: s) := by
  rintro d hd
  cases hd
  exact h

theorem number_append_inj {n m : JsonNumber} {s t : List Char} (hs : Stops s) (ht : Stops t)
    (h : n.chars ++ s = m.chars ++ t) : n = m ∧ s = t := by
  -- the number ends where the characters of numbers end
  have hspan (k : JsonNumber) (u : List Char) (hu : Stops u) :
      (k.chars ++ u).takeWhile isNumberChar = k.chars := by
    have hstop : u.takeWhile isNumberChar = [] := by
      cases u with
      | nil => rfl
      | cons c rest =>
        refine List.takeWhile_cons_of_neg ?_
        rcases hu c rfl with rfl | rfl | rfl <;> decide
    rw [List.takeWhile_append_of_pos (List.all_eq_true.mp k.wellFormed), hstop, List.append_nil]
  have hchars : n.chars = m.chars := by rw [← hspan n s hs, h, hspan m t ht]
  refine ⟨?_, ?_⟩
  · cases n
    cases m
    cases hchars
    rfl
  · rw [hchars] at h
    exact List.append_cancel_left h

theorem joinComma_cons (x : List Char) (xs : List (List Char)) :
    joinComma (x :: xs) = x ++ xs.flatMap fun y => ',' :: y := by
  induction xs generalizing x with
  | nil => simp [joinComma]
  | cons y ys ih =>
    have h := ih y
    simp only [joinComma, List.intercalate_cons_cons] at h ⊢
    rw [h]
    simp

section Join

variable {α : Type} {text : α → List Char} {R : α → α → Prop} {close : Char}

/-- The items after the first, each behind its comma. -/
theorem tail_append_inj {xs ys : List α} {s t : List Char} (hclose : close = ']' ∨ close = '\x7d')
    (htext : ∀ x ∈ xs, ∀ y s t, Stops s → Stops t → text x ++ s = text y ++ t → R x y ∧ s = t)
    (h : (xs.flatMap fun x => ',' :: text x) ++ close :: s =
      (ys.flatMap fun y => ',' :: text y) ++ close :: t) : List.Forall₂ R xs ys ∧ s = t := by
  have hne : close ≠ ',' := by rcases hclose with rfl | rfl <;> decide
  have hstops (zs : List α) (u : List Char) :
      Stops ((zs.flatMap fun z => ',' :: text z) ++ close :: u) := by
    cases zs with
    | nil => exact stops_cons (.inr hclose) _
    | cons z zs => exact stops_cons (.inl rfl) _
  induction xs generalizing ys with
  | nil =>
    cases ys with
    | nil => simpa using h
    | cons y ys => exact absurd (List.cons.inj h).1 hne
  | cons x xs ih =>
    cases ys with
    | nil => exact absurd (List.cons.inj h).1.symm hne
    | cons y ys =>
      simp only [List.flatMap_cons, List.cons_append, List.append_assoc, List.cons.injEq,
        true_and] at h
      obtain ⟨hrel, hrest⟩ := htext x (List.mem_cons_self ..) y _ _ (hstops _ _) (hstops _ _) h
      obtain ⟨hall, hst⟩ := ih (fun z hz => htext z (List.mem_cons_of_mem _ hz)) hrest
      exact ⟨.cons hrel hall, hst⟩

/-- A list of texts between brackets, when no text begins with the closing one. -/
theorem join_append_inj {xs ys : List α} {s t : List Char} (hclose : close = ']' ∨ close = '\x7d')
    (hhead : ∀ x u v, text x ++ u ≠ close :: v)
    (htext : ∀ x ∈ xs, ∀ y s t, Stops s → Stops t → text x ++ s = text y ++ t → R x y ∧ s = t)
    (h : joinComma (xs.map text) ++ close :: s = joinComma (ys.map text) ++ close :: t) :
    List.Forall₂ R xs ys ∧ s = t := by
  have hnil : joinComma [] = [] := rfl
  cases xs with
  | nil =>
    cases ys with
    | nil => simpa [hnil] using h
    | cons y ys =>
      rw [List.map_nil, hnil, List.map_cons, joinComma_cons, List.append_assoc] at h
      exact absurd h.symm (hhead _ _ _)
  | cons x xs =>
    cases ys with
    | nil =>
      rw [List.map_nil, hnil, List.map_cons, joinComma_cons, List.append_assoc] at h
      exact absurd h (hhead _ _ _)
    | cons y ys =>
      have hstops (zs : List α) (u : List Char) :
          Stops ((zs.flatMap fun z => ',' :: text z) ++ close :: u) := by
        cases zs with
        | nil => exact stops_cons (.inr hclose) _
        | cons z zs => exact stops_cons (.inl rfl) _
      simp only [List.map_cons, joinComma_cons, List.append_assoc, List.flatMap_map] at h
      obtain ⟨hrel, hrest⟩ := htext x (List.mem_cons_self ..) y _ _ (hstops _ _) (hstops _ _) h
      obtain ⟨hall, hst⟩ :=
        tail_append_inj hclose (fun z hz => htext z (List.mem_cons_of_mem _ hz)) hrest
      exact ⟨.cons hrel hall, hst⟩

end Join

theorem map_eq_of_forall₂ {α β : Type} {f : α → β} {xs ys : List α}
    (h : List.Forall₂ (fun x y => f x = f y) xs ys) : xs.map f = ys.map f := by
  induction h with
  | nil => rfl
  | cons hxy _ ih => rw [List.map_cons, List.map_cons, hxy, ih]

/-- Where the text of a value ends, and what the value is up to the order of keys, can be
read off the text. -/
theorem canonicalChars_append_inj {a b : Json} {s t : List Char} (hs : Stops s) (ht : Stops t)
    (h : a.canonicalChars ++ s = b.canonicalChars ++ t) : a.Same b ∧ s = t := by
  have hkind (a b : Json) (s t : List Char) (h : a.canonicalChars ++ s = b.canonicalChars ++ t) :
      a.kind = b.kind := by
    have hhead := congrArg (fun u => u.head?.map kindOf) h
    simpa only [kindOf_head, Option.some.injEq] using hhead
  have hclosed (close : Char) (hclose : kindOf close = 7) (x : Json) (u v : List Char) :
      x.canonicalChars ++ u ≠ close :: v := by
    intro heq
    have hhead := kindOf_head x u
    rw [heq, List.head?_cons, Option.map_some, hclose, Option.some.injEq] at hhead
    exact absurd hhead.symm x.kind_lt.ne
  have hk := hkind _ _ _ _ h
  induction a using induct generalizing b s t with
  | null =>
    cases b with
    | null => exact ⟨.refl _, List.append_cancel_left h⟩
    | bool c => cases c <;> simp [kind] at hk
    | _ => simp [kind] at hk
  | bool c =>
    cases b with
    | bool d =>
      have hcd : c = d := by cases c <;> cases d <;> simp_all [kind]
      subst hcd
      exact ⟨.refl _, List.append_cancel_left h⟩
    | _ => cases c <;> simp [kind] at hk
  | number n =>
    cases b with
    | number m =>
      obtain ⟨rfl, rfl⟩ := number_append_inj hs ht h
      exact ⟨.refl _, rfl⟩
    | bool c => cases c <;> simp [kind] at hk
    | _ => simp [kind] at hk
  | string v =>
    cases b with
    | string w =>
      obtain ⟨rfl, rfl⟩ := quote_append_inj h
      exact ⟨.refl _, rfl⟩
    | bool c => cases c <;> simp [kind] at hk
    | _ => simp [kind] at hk
  | array items ih =>
    cases b with
    | array items' =>
      simp only [canonicalChars, canonicalItems_eq, List.cons_append, List.append_assoc,
        List.cons.injEq, true_and, List.nil_append] at h
      obtain ⟨hall, hst⟩ := join_append_inj (R := Same) (.inl rfl) (hclosed ']' (by decide))
        (fun x hx y s t hs ht hxy => ih x hx hs ht hxy (hkind _ _ _ _ hxy)) h
      refine ⟨?_, hst⟩
      simp only [Same, sortKeys, sortKeysItems_eq, map_eq_of_forall₂ (f := sortKeys) hall]
    | bool c => cases c <;> simp [kind] at hk
    | _ => simp [kind] at hk
  | object entries ih =>
    cases b with
    | object entries' =>
      simp only [canonicalChars_object, List.cons_append, List.append_assoc, List.cons.injEq,
        true_and, List.nil_append] at h
      have htext (e : String × Json) (he : e ∈ sortEntries entries) (f : String × Json)
          (s t : List Char) (hs : Stops s) (ht : Stops t)
          (hef : (quote e.1 ++ ':' :: e.2.canonicalChars) ++ s =
            (quote f.1 ++ ':' :: f.2.canonicalChars) ++ t) :
          (e.1, e.2.sortKeys) = (f.1, f.2.sortKeys) ∧ s = t := by
        rw [List.append_assoc, List.append_assoc] at hef
        obtain ⟨hkey, hvalue⟩ := quote_append_inj hef
        have hrest := (List.cons.inj hvalue).2
        have he' : e ∈ entries := (List.perm_insertionSort _ _).mem_iff.mp he
        obtain ⟨hsame, hst⟩ := ih e he' hs ht hrest (hkind _ _ _ _ hrest)
        exact ⟨Prod.ext hkey hsame, hst⟩
      obtain ⟨hall, hst⟩ := join_append_inj (.inr rfl) (fun e u v => by simp [quote]) htext h
      refine ⟨?_, hst⟩
      simp only [Same, sortKeys, sortKeysEntries_eq, ← map_sortEntries]
      exact congrArg object (map_eq_of_forall₂ (f := fun e : String × Json =>
        (e.1, e.2.sortKeys)) hall)
    | bool c => cases c <;> simp [kind] at hk
    | _ => simp [kind] at hk

/-- `canonicalize` -/
def canonicalize (j : Json) : String := String.ofList j.canonicalChars

/-- The canonical text does not see the order of keys. -/
theorem canonicalChars_sortKeys (j : Json) : j.sortKeys.canonicalChars = j.canonicalChars := by
  induction j using induct with
  | array items ih =>
    have hitems : items.map (canonicalChars ∘ sortKeys) = items.map canonicalChars :=
      List.map_congr_left ih
    simp only [sortKeys, canonicalChars, canonicalItems_eq, sortKeysItems_eq, List.map_map, hitems]
  | object entries ih =>
    have htexts : texts ((sortEntries entries).map fun e => (e.1, e.2.sortKeys)) =
        texts (sortEntries entries) := by
      simp only [texts, List.map_map]
      refine List.map_congr_left fun e he => ?_
      have he' : e ∈ entries := (List.perm_insertionSort _ _).mem_iff.mp he
      simp only [Function.comp_apply, ih e he']
    rw [sortKeys, sortKeysEntries_eq, canonicalChars_object, canonicalChars_object,
      sortEntries_sortEntries, ← map_sortEntries, htexts]
  | _ => rfl

/-- Values that are the same up to the order of keys have one canonical text. -/
theorem canonicalize_congr {a b : Json} (h : a.Same b) : a.canonicalize = b.canonicalize := by
  rw [canonicalize, canonicalize, ← canonicalChars_sortKeys a, ← canonicalChars_sortKeys b, h]

/-- Values with one canonical text are the same up to the order of keys. -/
theorem same_of_canonicalize {a b : Json} (h : a.canonicalize = b.canonicalize) : a.Same b := by
  have hchars : a.canonicalChars = b.canonicalChars := String.ofList_inj.mp h
  have hstops : Stops [] := by
    rintro c hc
    cases hc
  exact (canonicalChars_append_inj (s := []) (t := []) hstops hstops (by simpa using hchars)).1

end Json
end ArkanGold
