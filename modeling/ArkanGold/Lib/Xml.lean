import Mathlib

/-!
# XML documents

A reader for the documents of XML 1.0 that consist of the declaration for UTF-8 and one element,
with names in ASCII, values of attributes between double quotes, and the five predefined entities;
there are no comments, processing instructions, CDATA sections, document types or character
references.

- `document`: the characters must be those that XML has, line ends are normalized, and the tags must
  match.
- `Content` is what stands between tags: each constructor has what follows it as its last argument.
- `document_render`: a document is read as the content that it was written from.
-/

namespace ArkanGold

namespace Xml

/-! ## Characters -/

/-- `Char` -/
def isChar (c : Char) : Bool :=
  let n := c.toNat
  n == 9 || n == 10 || n == 13 || (0x20 ≤ n && n ≤ 0xD7FF) || (0xE000 ≤ n && n ≤ 0xFFFD) ||
    (0x10000 ≤ n && n ≤ 0x10FFFF)

/-- White space. -/
def isSpace (c : Char) : Bool := [' ', '\t', '\r', '\n'].contains c

/-- The characters of names. -/
def isNameChar (c : Char) : Bool := c.isAlphanum || ['_', ':', '-', '.'].contains c

/-- A name. -/
def isName (name : List Char) : Bool :=
  name.all isNameChar && name.head?.any fun c => c.isAlpha || c == '_' || c == ':'

/-- Line ends as the reader sees them. -/
def lineEnds : List Char → List Char
  | [] => []
  | '\r' :: '\n' :: cs => '\n' :: lineEnds cs
  | '\r' :: cs => '\n' :: lineEnds cs
  | c :: cs => c :: lineEnds cs

/-- A text with its entities replaced. -/
def decode : List Char → Option (List Char)
  | [] => some []
  | '&' :: 'a' :: 'm' :: 'p' :: ';' :: cs => (decode cs).map ('&' :: ·)
  | '&' :: 'l' :: 't' :: ';' :: cs => (decode cs).map ('<' :: ·)
  | '&' :: 'g' :: 't' :: ';' :: cs => (decode cs).map ('>' :: ·)
  | '&' :: 'q' :: 'u' :: 'o' :: 't' :: ';' :: cs => (decode cs).map ('"' :: ·)
  | '&' :: 'a' :: 'p' :: 'o' :: 's' :: ';' :: cs => (decode cs).map ('\'' :: ·)
  | '&' :: _ => none
  | c :: cs => (decode cs).map (c :: ·)

/-- The entity of a character that has to be one. -/
def escapeChar (c : Char) : List Char :=
  if c = '&' then "&amp;".toList
  else if c = '<' then "&lt;".toList
  else if c = '>' then "&gt;".toList
  else if c = '"' then "&quot;".toList
  else [c]

/-- A text with entities. -/
def escape (v : List Char) : List Char := v.flatMap escapeChar

@[simp] theorem escape_cons (c : Char) (v : List Char) :
    escape (c :: v) = escapeChar c ++ escape v := rfl

/-! ## Reading -/

/-- The attributes of a tag with their values. -/
abbrev Attributes := List (List Char × List Char)

/-- What stands between two tags. -/
inductive Content where
  | nil
  | text (v : List Char) (rest : Content)
  | void (name : List Char) (attributes : Attributes) (rest : Content)
  | element (name : List Char) (attributes : Attributes) (children rest : Content)
  deriving DecidableEq

/-- The rest of a tag after its name: the attributes, and whether it closes itself. -/
def readAttributes : ℕ → List Char → Option (Attributes × Bool × List Char)
  | 0, _ => none
  | n + 1, cs =>
    match cs.dropWhile isSpace with
    | '>' :: rest => some ([], false, rest)
    | '/' :: '>' :: rest => some ([], true, rest)
    | body =>
      let name := body.takeWhile isNameChar
      if cs.head?.all (fun c => !isSpace c) || !isName name then none
      else
        match body.dropWhile isNameChar with
        | '=' :: '"' :: quoted =>
          let raw := quoted.takeWhile (· ≠ '"')
          match quoted.dropWhile (· ≠ '"') with
          | '"' :: rest =>
            if '<' ∈ raw then none
            else
              (decode (raw.map fun c => if isSpace c then ' ' else c)).bind fun v =>
                (readAttributes n rest).map fun r => ((name, v) :: r.1, r.2)
          | _ => none
        | _ => none

/-- A start tag or an empty tag, after its `<`. -/
def readTag (cs : List Char) : Option (List Char × Attributes × Bool × List Char) :=
  let name := cs.takeWhile isNameChar
  if !isName name then none
  else
    (readAttributes cs.length (cs.dropWhile isNameChar)).bind fun r =>
      if (r.1.map Prod.fst).Nodup then some (name, r.1, r.2) else none

/-- What is left after the end tag of an element. -/
def readEnd (name cs : List Char) : Option (List Char) :=
  if cs.take (name.length + 2) = '<' :: '/' :: name then
    match (cs.drop (name.length + 2)).dropWhile isSpace with
    | '>' :: rest => some rest
    | _ => none
  else none

/-- Content up to an end tag or the end; `n` bounds the number of tags and texts. -/
def readContent : ℕ → List Char → Option (Content × List Char)
  | _, [] => some (.nil, [])
  | _, '<' :: '/' :: cs => some (.nil, '<' :: '/' :: cs)
  | 0, _ => none
  | n + 1, '<' :: cs =>
    (readTag cs).bind fun (name, attributes, void, cs) =>
      if void then
        (readContent n cs).map fun r => (.void name attributes r.1, r.2)
      else
        (readContent n cs).bind fun (children, cs) =>
          (readEnd name cs).bind fun cs =>
            (readContent n cs).map fun r => (.element name attributes children r.1, r.2)
  | n + 1, cs =>
    let raw := cs.takeWhile (· ≠ '<')
    if "]]>".toList <:+: raw then none
    else
      (decode raw).bind fun v =>
        (readContent n (cs.dropWhile (· ≠ '<'))).map fun r => (.text v r.1, r.2)

/-- The declaration. -/
def declaration : List Char :=
  "<?xml version=\"1.0\" encoding=\"UTF-8\" standalone=\"yes\"?>".toList

/-- The element of a document. -/
def document (cs : List Char) : Option Content :=
  if cs.all isChar && declaration.isPrefixOf cs then
    let cs := (lineEnds cs).drop declaration.length
    match readContent cs.length cs with
    | some (.void name attributes .nil, []) => some (.void name attributes .nil)
    | some (.element name attributes children .nil, []) =>
      some (.element name attributes children .nil)
    | _ => none
  else none

/-! ## Writing -/

/-- Attributes as they are written. -/
def renderAttributes (attributes : Attributes) : List Char :=
  attributes.flatMap fun a => ' ' :: (a.1 ++ '=' :: '"' :: (escape a.2 ++ ['"']))

/-- Content as it is written. -/
def render : Content → List Char
  | .nil => []
  | .text v rest => escape v ++ render rest
  | .void name attributes rest =>
    '<' :: (name ++ (renderAttributes attributes ++ '/' :: '>' :: render rest))
  | .element name attributes children rest =>
    '<' :: (name ++ (renderAttributes attributes ++ '>' :: (render children ++
      '<' :: '/' :: (name ++ '>' :: render rest))))

/-- A tag that can be written. -/
structure TidyTag (name : List Char) (attributes : Attributes) : Prop where
  name : isName name = true
  names : ∀ a ∈ attributes, isName a.1 = true
  values : ∀ a ∈ attributes, ∀ c ∈ a.2, isSpace c = true → c = ' '
  nodup : (attributes.map Prod.fst).Nodup

/-- Content does not begin with a text. -/
def Content.startsWithTag : Content → Bool
  | .text _ _ => false
  | _ => true

/-- Content that can be written: no text is empty or follows another. -/
def Tidy : Content → Prop
  | .nil => True
  | .text v rest => v ≠ [] ∧ rest.startsWithTag = true ∧ Tidy rest
  | .void name attributes rest => TidyTag name attributes ∧ Tidy rest
  | .element name attributes children rest =>
    TidyTag name attributes ∧ Tidy children ∧ Tidy rest

/-- A tag that can be written, as a test. -/
def isTidyTag (name : List Char) (attributes : Attributes) : Bool :=
  isName name && attributes.all (fun a => isName a.1 && a.2.all fun c => !isSpace c || c == ' ') &&
    decide (attributes.map Prod.fst).Nodup

/-- Content that can be written, as a test. -/
def isTidy : Content → Bool
  | .nil => true
  | .text v rest => !v.isEmpty && rest.startsWithTag && isTidy rest
  | .void name attributes rest => isTidyTag name attributes && isTidy rest
  | .element name attributes children rest =>
    isTidyTag name attributes && isTidy children && isTidy rest

/-- The number of tags and texts. -/
def size : Content → ℕ
  | .nil => 0
  | .text _ rest => size rest + 1
  | .void _ _ rest => size rest + 1
  | .element _ _ children rest => size children + size rest + 1

/-! ## What is written is read -/

variable {p : Char → Bool} {name u v rest : List Char} {attributes : Attributes}

/-- The first part of a text, as long as a test holds. -/
theorem span_append (hu : ∀ c ∈ u, p c = true)
    (hrest : rest.head?.all (fun c => !p c) = true) :
    (u ++ rest).takeWhile p = u ∧ (u ++ rest).dropWhile p = rest := by
  induction u with
  | nil =>
    cases rest with
    | nil => exact ⟨rfl, rfl⟩
    | cons c rest =>
      have hc : p c = false := by simpa using hrest
      simp [hc]
  | cons c u ih =>
    obtain ⟨hc, hu⟩ := List.forall_mem_cons.mp hu
    obtain ⟨htake, hdrop⟩ := ih hu
    simp [hc, htake, hdrop]

theorem decode_escapeChar (c : Char) (cs : List Char) :
    decode (escapeChar c ++ cs) = (decode cs).map (c :: ·) := by
  rw [escapeChar]
  split_ifs with hamp hlt hgt hquote
  · rw [hamp]
    rfl
  · rw [hlt]
    rfl
  · rw [hgt]
    rfl
  · rw [hquote]
    rfl
  · rw [List.singleton_append, decode]
    all_goals first | exact hamp | exact fun _ h => absurd h hamp

@[simp] theorem decode_escape (v : List Char) : decode (escape v) = some v := by
  induction v with
  | nil => rfl
  | cons c v ih => rw [escape, List.flatMap_cons, decode_escapeChar, ← escape, ih, Option.map_some]

/-- The characters of the entities. -/
def entityChars : List Char := "&amp;&lt;&gt;&quot;".toList

/-- What holds of the characters of the entities and of a text without markup. -/
theorem forall_mem_escape {P : Char → Prop} (hentity : ∀ d ∈ entityChars, P d)
    (h : ∀ c ∈ v, c ≠ '<' → c ≠ '>' → c ≠ '"' → P c) : ∀ d ∈ escape v, P d := by
  intro d hd
  obtain ⟨c, hc, hd⟩ := List.mem_flatMap.mp hd
  have hpart : ∀ e : List Char, e ⊆ entityChars → d ∈ e → P d := fun e he hd => hentity d (he hd)
  rw [escapeChar] at hd
  split_ifs at hd with hamp hlt hgt hquote
  · exact hpart _ (by decide) hd
  · exact hpart _ (by decide) hd
  · exact hpart _ (by decide) hd
  · exact hpart _ (by decide) hd
  · obtain rfl := List.mem_singleton.mp hd
    exact h d hc hlt hgt hquote

theorem escape_noMarkup (v : List Char) : ∀ d ∈ escape v, d ≠ '<' ∧ d ≠ '>' ∧ d ≠ '"' := by
  have hentity : entityChars.all (fun d => d ≠ '<' ∧ d ≠ '>' ∧ d ≠ '"') = true := by
    decide
  exact forall_mem_escape (fun d hd => of_decide_eq_true (List.all_eq_true.mp hentity d hd))
    fun _ _ hlt hgt hquote => ⟨hlt, hgt, hquote⟩

theorem escape_eq_self (h : ∀ c ∈ v, c ≠ '&' ∧ c ≠ '<' ∧ c ≠ '>' ∧ c ≠ '"') : escape v = v := by
  induction v with
  | nil => rfl
  | cons c v ih =>
    obtain ⟨⟨hamp, hlt, hgt, hquote⟩, hv⟩ := List.forall_mem_cons.mp h
    rw [escape_cons, ih hv, escapeChar, if_neg hamp, if_neg hlt, if_neg hgt, if_neg hquote]
    rfl

/-- Content that is put together from parts. -/
theorem render_foldr {β : Type} {f : β → Content → Content} {g : β → List Char}
    (h : ∀ b t, render (f b t) = g b ++ render t) (bs : List β) (t : Content) :
    render (bs.foldr f t) = bs.flatMap g ++ render t := by
  induction bs with
  | nil => rfl
  | cons b bs ih => rw [List.foldr_cons, h, ih, List.flatMap_cons, List.append_assoc]

/-! ### Tags -/

theorem not_nameChar {c : Char} (h : c ∈ [' ', '\t', '\r', '\n', '>', '/', '=', '<']) :
    isNameChar c = false := by
  have hall : [' ', '\t', '\r', '\n', '>', '/', '=', '<'].all (fun c => !isNameChar c) = true := by
    decide
  simpa using List.all_eq_true.mp hall c h

theorem isName_chars (h : isName name = true) : ∀ c ∈ name, isNameChar c = true :=
  List.all_eq_true.mp (Bool.and_eq_true_iff.mp h).1

theorem isName_cons (h : isName name = true) : ∃ c cs, name = c :: cs ∧ isNameChar c = true := by
  cases name with
  | nil => cases h
  | cons c cs => exact ⟨c, cs, rfl, isName_chars h c List.mem_cons_self⟩

/-- A name up to what ends it. -/
theorem span_name (h : isName name = true) {c : Char}
    (hc : c ∈ [' ', '\t', '\r', '\n', '>', '/', '=', '<']) (rest : List Char) :
    (name ++ c :: rest).takeWhile isNameChar = name ∧
      (name ++ c :: rest).dropWhile isNameChar = c :: rest :=
  span_append (isName_chars h) (by simp [not_nameChar hc])

theorem nameChar_ne {c d : Char} (hc : isNameChar c = true)
    (hd : d ∈ [' ', '\t', '\r', '\n', '>', '/', '=', '<']) : c ≠ d := by
  rintro rfl
  exact Bool.false_ne_true ((not_nameChar hd).symm.trans hc)

theorem isSpace_nameChar {c : Char} (hc : isNameChar c = true) : isSpace c = false := by
  simp [isSpace, nameChar_ne hc]

/-- The value of an attribute as it is read. -/
theorem map_escape (h : ∀ c ∈ v, isSpace c = true → c = ' ') :
    ((escape v).map fun c => if isSpace c then ' ' else c) = escape v := by
  have hentity : entityChars.all (fun d => !isSpace d) = true := by decide
  have hspace : ∀ d ∈ escape v, (if isSpace d then ' ' else d) = d := by
    refine forall_mem_escape (fun d hd => ?_) fun c hc _ _ _ => ?_
    · rw [if_neg (by simpa using List.all_eq_true.mp hentity d hd)]
    · split_ifs with hsp
      · exact (h c hc hsp).symm
      · rfl
  exact (List.map_congr_left hspace).trans (List.map_id' _)

theorem span_value (v rest : List Char) :
    (escape v ++ '"' :: rest).takeWhile (· ≠ '"') = escape v ∧
      (escape v ++ '"' :: rest).dropWhile (· ≠ '"') = '"' :: rest :=
  span_append (fun c hc => by simpa using (escape_noMarkup v c hc).2.2) (by simp)

theorem readAttributes_render {n : ℕ} (hn : attributes.length < n)
    (hnames : ∀ a ∈ attributes, isName a.1 = true)
    (hvalues : ∀ a ∈ attributes, ∀ c ∈ a.2, isSpace c = true → c = ' ')
    {closing : List Char} {void : Bool}
    (hclosing : closing = ['>'] ∧ void = false ∨ closing = ['/', '>'] ∧ void = true) :
    readAttributes n (renderAttributes attributes ++ (closing ++ rest)) =
      some (attributes, void, rest) := by
  induction attributes generalizing n with
  | nil =>
    obtain ⟨n, rfl⟩ : ∃ k, n = k + 1 := ⟨n - 1, by omega⟩
    obtain ⟨rfl, rfl⟩ | ⟨rfl, rfl⟩ := hclosing
    · rfl
    · rfl
  | cons a attributes ih =>
    obtain ⟨n, rfl⟩ : ∃ k, n = k + 1 := ⟨n - 1, by omega⟩
    obtain ⟨name, v⟩ := a
    obtain ⟨hname, hnames'⟩ := List.forall_mem_cons.mp hnames
    obtain ⟨hvalue, hvalues'⟩ := List.forall_mem_cons.mp hvalues
    dsimp only at hname hvalue
    rw [List.length_cons] at hn
    have hrest := ih (n := n) (by omega) hnames' hvalues'
    generalize htail : renderAttributes attributes ++ (closing ++ rest) = tail at hrest
    have hwritten : renderAttributes ((name, v) :: attributes) ++ (closing ++ rest) =
        ' ' :: (name ++ '=' :: '"' :: (escape v ++ '"' :: tail)) := by
      simp [renderAttributes, ← htail]
    obtain ⟨htake, hdrop⟩ :=
      span_name hname (by simp : '=' ∈ _) ('"' :: (escape v ++ '"' :: tail))
    obtain ⟨hraw, hquoted⟩ := span_value v tail
    have hlt : '<' ∉ escape v := fun h => (escape_noMarkup v '<' h).1 rfl
    obtain ⟨c, cs, hcons, hc⟩ := isName_cons hname
    have hspace : (' ' :: (name ++ '=' :: '"' :: (escape v ++ '"' :: tail))).dropWhile isSpace =
        name ++ '=' :: '"' :: (escape v ++ '"' :: tail) := by
      rw [hcons, List.cons_append]
      simp [isSpace_nameChar hc, show isSpace ' ' = true from rfl]
    rw [hwritten, readAttributes, hspace]
    split
    · rename_i hbody
      rw [hcons] at hbody
      exact absurd (List.cons.inj hbody).1 (nameChar_ne hc (by simp))
    · rename_i hbody
      rw [hcons] at hbody
      exact absurd (List.cons.inj hbody).1 (nameChar_ne hc (by simp))
    · dsimp only
      rw [htake, hdrop, hname, if_neg (by simp [show isSpace ' ' = true from rfl])]
      simp only [hraw, hquoted, if_neg hlt, map_escape hvalue, decode_escape, Option.bind_some,
        hrest, Option.map_some]

theorem length_renderAttributes (attributes : Attributes) :
    attributes.length ≤ (renderAttributes attributes).length := by
  induction attributes with
  | nil => exact Nat.zero_le _
  | cons a attributes ih =>
    rw [renderAttributes, List.flatMap_cons, ← renderAttributes, List.length_append,
      List.length_cons, List.length_cons]
    omega

/-- A tag is read as it is written. -/
theorem readTag_render (h : TidyTag name attributes) {closing : List Char} {void : Bool}
    (hclosing : closing = ['>'] ∧ void = false ∨ closing = ['/', '>'] ∧ void = true) :
    readTag (name ++ (renderAttributes attributes ++ (closing ++ rest))) =
      some (name, attributes, void, rest) := by
  have hread : readAttributes (name ++ (renderAttributes attributes ++ (closing ++ rest))).length
      (renderAttributes attributes ++ (closing ++ rest)) = some (attributes, void, rest) := by
    refine readAttributes_render ?_ h.names h.values hclosing
    have hlength := length_renderAttributes attributes
    have hpos : 0 < closing.length := by
      obtain ⟨rfl, -⟩ | ⟨rfl, -⟩ := hclosing <;> simp
    simp only [List.length_append]
    omega
  have hspan : ∃ c cs, renderAttributes attributes ++ (closing ++ rest) = c :: cs ∧
      c ∈ [' ', '\t', '\r', '\n', '>', '/', '=', '<'] := by
    cases attributes with
    | nil =>
      obtain ⟨rfl, -⟩ | ⟨rfl, -⟩ := hclosing
      · exact ⟨'>', rest, rfl, by simp⟩
      · exact ⟨'/', '>' :: rest, rfl, by simp⟩
    | cons a attributes => exact ⟨' ', _, rfl, by simp⟩
  obtain ⟨c, cs, hcons, hc⟩ := hspan
  rw [hcons] at hread ⊢
  obtain ⟨htake, hdrop⟩ := span_name h.name hc cs
  rw [readTag, htake, hdrop, h.name, hread]
  simp [h.nodup]

/-- So is an end tag. -/
theorem readEnd_render (name rest : List Char) :
    readEnd name ('<' :: '/' :: (name ++ '>' :: rest)) = some rest := by
  have htake :
      ('<' :: '/' :: (name ++ '>' :: rest)).take (name.length + 2) = '<' :: '/' :: name := by
    simp
  have hdrop : ('<' :: '/' :: (name ++ '>' :: rest)).drop (name.length + 2) = '>' :: rest := by
    simp
  rw [readEnd, if_pos htake, hdrop]
  rfl

/-- A start tag is not an end tag. -/
theorem name_not_end (h : isName name = true) (cs : List Char) : name ++ rest ≠ '/' :: cs := by
  obtain ⟨c, cs', rfl, hc⟩ := isName_cons h
  exact fun heq => nameChar_ne hc (by simp) (List.cons.inj heq).1

/-! ### Content -/

/-- What may follow content. -/
def EndsContent (rest : List Char) : Prop := rest = [] ∨ ∃ cs, rest = '<' :: '/' :: cs

theorem render_startsWithTag {t : Content} (ht : Tidy t) (h : t.startsWithTag = true)
    (hrest : EndsContent rest) : (render t ++ rest).head?.all (fun c => c = '<') = true := by
  cases t with
  | nil =>
    obtain rfl | ⟨cs, rfl⟩ := hrest
    · rfl
    · rfl
  | text v rest => cases h
  | void name attributes rest => rfl
  | element name attributes children rest => rfl

theorem escape_ne_nil (h : v ≠ []) : escape v ≠ [] := by
  intro hnil
  have hdecode := decode_escape v
  rw [hnil] at hdecode
  exact h (Option.some.inj hdecode).symm

/-- Content is read as it is written. -/
theorem readContent_render {t : Content} (ht : Tidy t) {n : ℕ} (hn : size t ≤ n)
    (hrest : EndsContent rest) : readContent n (render t ++ rest) = some (t, rest) := by
  induction t generalizing n rest with
  | nil =>
    obtain rfl | ⟨cs, rfl⟩ := hrest
    · rw [render, List.nil_append, readContent]
    · rw [render, List.nil_append, readContent]
  | text v t ih =>
    obtain ⟨hne, hstart, ht'⟩ := ht
    rw [size] at hn
    obtain ⟨n, rfl⟩ : ∃ k, n = k + 1 := ⟨n - 1, by omega⟩
    have hmarkup : ∀ c ∈ escape v, c ≠ '<' := fun c hc => (escape_noMarkup v c hc).1
    have hnext : (render t ++ rest).head?.all (fun c => !decide (c ≠ '<')) = true := by
      simpa using render_startsWithTag ht' hstart hrest
    obtain ⟨htake, hdrop⟩ :=
      span_append (p := (· ≠ '<')) (fun c hc => decide_eq_true (hmarkup c hc)) hnext
    have hcdata : ¬"]]>".toList <:+: escape v := by
      intro hends
      exact (escape_noMarkup v '>' (hends.subset (by decide))).2.1 rfl
    obtain ⟨d, ds, hcons⟩ := List.exists_cons_of_ne_nil (escape_ne_nil hne)
    rw [render, List.append_assoc]
    have hfirst : d ≠ '<' := hmarkup d (hcons ▸ List.mem_cons_self)
    rw [hcons, List.cons_append] at htake hdrop ⊢
    rw [readContent]
    · rw [htake, hdrop, ← hcons, if_neg hcdata, decode_escape, Option.bind_some,
        ih ht' (by omega) hrest, Option.map_some]
    · exact fun h => absurd h (List.cons_ne_nil _ _)
    · exact fun cs h => hfirst (List.cons.inj h).1
    · exact fun cs h => hfirst (List.cons.inj h).1
  | void name attributes t ih =>
    obtain ⟨htag, ht'⟩ := ht
    rw [size] at hn
    obtain ⟨n, rfl⟩ : ∃ k, n = k + 1 := ⟨n - 1, by omega⟩
    have hwritten : render (.void name attributes t) ++ rest = '<' :: (name ++
        (renderAttributes attributes ++ (['/', '>'] ++ (render t ++ rest)))) := by
      simp [render]
    rw [hwritten, readContent, readTag_render htag (.inr ⟨rfl, rfl⟩), Option.bind_some]
    · simp [ih ht' (by omega : size t ≤ n) hrest]
    · exact name_not_end htag.name
  | element name attributes children t ihc ih =>
    obtain ⟨htag, hchildren, ht'⟩ := ht
    rw [size] at hn
    obtain ⟨n, rfl⟩ : ∃ k, n = k + 1 := ⟨n - 1, by omega⟩
    have hwritten : render (.element name attributes children t) ++ rest = '<' :: (name ++
        (renderAttributes attributes ++ (['>'] ++ (render children ++
          '<' :: '/' :: (name ++ '>' :: (render t ++ rest)))))) := by
      simp [render]
    have hends : EndsContent ('<' :: '/' :: (name ++ '>' :: (render t ++ rest))) := .inr ⟨_, rfl⟩
    have hinner := ihc hchildren (by omega : size children ≤ n) hends
    rw [hwritten, readContent, readTag_render htag (.inl ⟨rfl, rfl⟩), Option.bind_some]
    · simp [hinner, readEnd_render, ih ht' (by omega : size t ≤ n) hrest]
    · exact name_not_end htag.name

/-! ### Line ends -/

/-- The same content with other texts. -/
def Content.mapText (f : List Char → List Char) : Content → Content
  | .nil => .nil
  | .text v rest => .text (f v) (rest.mapText f)
  | .void name attributes rest => .void name attributes (rest.mapText f)
  | .element name attributes children rest =>
    .element name attributes (children.mapText f) (rest.mapText f)

theorem lineEnds_cons {c : Char} (h : c ≠ '\r') (cs : List Char) :
    lineEnds (c :: cs) = c :: lineEnds cs := by
  rw [lineEnds]
  · exact fun _ hc => absurd hc h
  · exact h

theorem lineEnds_append_of_notMem (h : '\r' ∉ u) (rest : List Char) :
    lineEnds (u ++ rest) = u ++ lineEnds rest := by
  induction u with
  | nil => rfl
  | cons c u ih =>
    obtain ⟨hc, hu⟩ := not_or.mp (List.mem_cons.not.mp h)
    rw [List.cons_append, lineEnds_cons (Ne.symm hc), ih hu, List.cons_append]

/-- A line end is not divided by what is not its second half. -/
theorem lineEnds_append (h : rest.head? ≠ some '\n') (u : List Char) :
    lineEnds (u ++ rest) = lineEnds u ++ lineEnds rest := by
  induction u using lineEnds.induct with
  | case1 => rfl
  | case2 cs ih =>
    rw [List.cons_append, List.cons_append, lineEnds, ih, lineEnds, List.cons_append]
  | case3 cs hcs ih =>
    rw [List.cons_append, lineEnds, lineEnds, ih, List.cons_append]
    · exact hcs
    · intro cs' hcs'
      cases cs with
      | nil =>
        rw [List.nil_append] at hcs'
        exact h (hcs' ▸ rfl)
      | cons c cs =>
        obtain ⟨rfl, -⟩ := List.cons.inj hcs'
        exact hcs _ rfl
  | case4 c cs hcrlf hcr ih =>
    rw [List.cons_append, lineEnds_cons hcr, lineEnds_cons hcr, ih, List.cons_append]

theorem lineEnds_eq_self (h : '\r' ∉ v) : lineEnds v = v := by
  have happend := lineEnds_append_of_notMem h []
  simpa [lineEnds] using happend

theorem notMem_lineEnds (v : List Char) : '\r' ∉ lineEnds v := by
  induction v using lineEnds.induct with
  | case1 => exact List.not_mem_nil
  | case2 cs ih =>
    rw [lineEnds]
    exact List.mem_cons.not.mpr (not_or.mpr ⟨by decide, ih⟩)
  | case3 cs hcs ih =>
    rw [lineEnds]
    · exact List.mem_cons.not.mpr (not_or.mpr ⟨by decide, ih⟩)
    · exact hcs
  | case4 c cs hcrlf hcr ih =>
    rw [lineEnds_cons hcr]
    exact List.mem_cons.not.mpr (not_or.mpr ⟨Ne.symm hcr, ih⟩)

theorem lineEnds_ne_nil (h : v ≠ []) : lineEnds v ≠ [] := by
  cases v using lineEnds.induct with
  | case1 => exact absurd rfl h
  | case2 cs => simp [lineEnds]
  | case3 cs hcs =>
    rw [lineEnds]
    · exact List.cons_ne_nil _ _
    · exact hcs
  | case4 c cs hcrlf hcr =>
    rw [lineEnds_cons hcr]
    exact List.cons_ne_nil _ _

/-- The entities have neither of the characters of a line end. -/
theorem escapeChar_lineEnd {c d : Char} (hd : d = '\r' ∨ d = '\n') (hmem : d ∈ escapeChar c) :
    d = c := by
  have hpart : ∀ e : List Char, e ⊆ entityChars → d ∈ e → False := by
    rintro e he h
    obtain rfl | rfl := hd
    · exact absurd (he h) (by decide)
    · exact absurd (he h) (by decide)
  rw [escapeChar] at hmem
  split_ifs at hmem
  · exact (hpart _ (by decide) hmem).elim
  · exact (hpart _ (by decide) hmem).elim
  · exact (hpart _ (by decide) hmem).elim
  · exact (hpart _ (by decide) hmem).elim
  · exact List.mem_singleton.mp hmem

theorem escape_head {v : List Char} (h : ∀ cs, v ≠ '\n' :: cs) : ∀ cs, escape v ≠ '\n' :: cs := by
  intro cs hcs
  cases v with
  | nil => cases hcs
  | cons c v =>
    obtain ⟨d, ds, hd⟩ := List.exists_cons_of_ne_nil (escape_ne_nil (List.cons_ne_nil c []))
    rw [escape_cons, escape, List.flatMap_nil, List.append_nil] at hd
    rw [escape_cons, hd, List.cons_append] at hcs
    have hmem : '\n' ∈ escapeChar c := hd ▸ (List.cons.inj hcs).1 ▸ List.mem_cons_self
    have hc := escapeChar_lineEnd (.inr rfl) hmem
    exact h v (hc ▸ rfl)

theorem lineEnds_escape (v : List Char) : lineEnds (escape v) = escape (lineEnds v) := by
  induction v using lineEnds.induct with
  | case1 => rfl
  | case2 cs ih =>
    have hcr : escape ('\r' :: '\n' :: cs) = '\r' :: '\n' :: escape cs := rfl
    rw [hcr, lineEnds, ih, lineEnds]
    rfl
  | case3 cs hcs ih =>
    have hcr : escape ('\r' :: cs) = '\r' :: escape cs := rfl
    rw [hcr, lineEnds, ih, lineEnds]
    · rfl
    · exact hcs
    · exact escape_head hcs
  | case4 c cs hcrlf hcr ih =>
    have hnot : '\r' ∉ escapeChar c := fun h => hcr (escapeChar_lineEnd (.inl rfl) h).symm
    rw [escape_cons, lineEnds_append_of_notMem hnot, lineEnds_cons hcr, ih, escape_cons]

theorem name_notMem (h : isName name = true) : '\r' ∉ name := fun hmem =>
  nameChar_ne (isName_chars h _ hmem) (by simp) rfl

theorem attributes_notMem (hnames : ∀ a ∈ attributes, isName a.1 = true)
    (hvalues : ∀ a ∈ attributes, ∀ c ∈ a.2, isSpace c = true → c = ' ') :
    '\r' ∉ renderAttributes attributes := by
  intro hmem
  obtain ⟨a, ha, hmem⟩ := List.mem_flatMap.mp hmem
  simp only [List.mem_cons, List.mem_append, List.not_mem_nil, or_false] at hmem
  obtain h | h | h | h | h | h := hmem
  · exact absurd h (by decide)
  · exact name_notMem (hnames a ha) h
  · exact absurd h (by decide)
  · exact absurd h (by decide)
  · obtain ⟨c, hc, h⟩ := List.mem_flatMap.mp h
    have hcr := hvalues a ha c hc ((escapeChar_lineEnd (.inl rfl) h) ▸ rfl)
    exact absurd ((escapeChar_lineEnd (.inl rfl) h).trans hcr) (by decide)
  · exact absurd h (by decide)

theorem render_head {t : Content} (h : t.startsWithTag = true) :
    (render t).head? ≠ some '\n' := by
  cases t with
  | nil => simp [render]
  | text v rest => cases h
  | void name attributes rest => simp [render]
  | element name attributes children rest => simp [render]

/-- The line ends of a document are those of its texts. -/
theorem lineEnds_render {t : Content} (ht : Tidy t) :
    lineEnds (render t) = render (t.mapText lineEnds) := by
  induction t with
  | nil => rfl
  | text v rest ih =>
    obtain ⟨hne, hstart, hrest⟩ := ht
    rw [render, lineEnds_append (render_head hstart), lineEnds_escape, ih hrest]
    rfl
  | void name attributes rest ih =>
    obtain ⟨htag, hrest⟩ := ht
    rw [render, lineEnds_cons (by decide), lineEnds_append_of_notMem (name_notMem htag.name),
      lineEnds_append_of_notMem (attributes_notMem htag.names htag.values),
      lineEnds_cons (by decide), lineEnds_cons (by decide), ih hrest]
    rfl
  | element name attributes children rest ihc ih =>
    obtain ⟨htag, hchildren, hrest⟩ := ht
    rw [render, lineEnds_cons (by decide), lineEnds_append_of_notMem (name_notMem htag.name),
      lineEnds_append_of_notMem (attributes_notMem htag.names htag.values),
      lineEnds_cons (by decide), lineEnds_append (by simp), ihc hchildren,
      lineEnds_cons (by decide), lineEnds_cons (by decide),
      lineEnds_append_of_notMem (name_notMem htag.name), lineEnds_cons (by decide), ih hrest]
    rfl

theorem startsWithTag_mapText (f : List Char → List Char) (t : Content) :
    (t.mapText f).startsWithTag = t.startsWithTag := by
  cases t <;> rfl

theorem tidy_mapText {t : Content} (ht : Tidy t) : Tidy (t.mapText lineEnds) := by
  induction t with
  | nil => trivial
  | text v rest ih =>
    exact ⟨lineEnds_ne_nil ht.1, (startsWithTag_mapText _ _).trans ht.2.1, ih ht.2.2⟩
  | void name attributes rest ih => exact ⟨ht.1, ih ht.2⟩
  | element name attributes children rest ihc ih => exact ⟨ht.1, ihc ht.2.1, ih ht.2.2⟩

theorem tidyTag_of_isTidyTag (h : isTidyTag name attributes = true) :
    TidyTag name attributes := by
  rw [isTidyTag, Bool.and_eq_true, Bool.and_eq_true, decide_eq_true_eq] at h
  have hall : ∀ a ∈ attributes, isName a.1 = true ∧ ∀ c ∈ a.2, isSpace c = true → c = ' ' := by
    intro a ha
    obtain ⟨hname, hvalue⟩ := Bool.and_eq_true_iff.mp (List.all_eq_true.mp h.1.2 a ha)
    refine ⟨hname, fun c hc hspace => ?_⟩
    simpa [hspace] using List.all_eq_true.mp hvalue c hc
  exact ⟨h.1.1, fun a ha => (hall a ha).1, fun a ha => (hall a ha).2, h.2⟩

theorem tidy_of_isTidy {t : Content} (h : isTidy t = true) : Tidy t := by
  induction t with
  | nil => trivial
  | text v rest ih =>
    simp only [isTidy, Bool.and_eq_true, Bool.not_eq_true', List.isEmpty_eq_false_iff] at h
    exact ⟨h.1.1, h.1.2, ih h.2⟩
  | void name attributes rest ih =>
    simp only [isTidy, Bool.and_eq_true] at h
    exact ⟨tidyTag_of_isTidyTag h.1, ih h.2⟩
  | element name attributes children rest ihc ih =>
    simp only [isTidy, Bool.and_eq_true] at h
    exact ⟨tidyTag_of_isTidyTag h.1.1, ihc h.1.2, ih h.2⟩

/-! ### Documents -/

theorem size_le_length {t : Content} (ht : Tidy t) : size t ≤ (render t).length := by
  induction t with
  | nil => exact Nat.zero_le _
  | text v rest ih =>
    have hlength := List.length_pos_iff.mpr (escape_ne_nil ht.1)
    have hrest := ih ht.2.2
    rw [size, render, List.length_append]
    omega
  | void name attributes rest ih =>
    have hrest := ih ht.2
    simp only [size, render, List.length_cons, List.length_append]
    omega
  | element name attributes children rest ihc ih =>
    have hchildren := ihc ht.2.1
    have hrest := ih ht.2.2
    simp only [size, render, List.length_cons, List.length_append]
    omega

/-- The texts and the values of attributes. -/
def Content.data : Content → List Char
  | .nil => []
  | .text v rest => v ++ rest.data
  | .void _ attributes rest => attributes.flatMap Prod.snd ++ rest.data
  | .element _ attributes children rest =>
    attributes.flatMap Prod.snd ++ (children.data ++ rest.data)

theorem isChar_nameChar {c : Char} (h : isNameChar c = true) : isChar c = true := by
  have hrange : 0x20 ≤ c.toNat ∧ c.toNat ≤ 0xD7FF := by
    simp only [isNameChar, Char.isAlphanum, Char.isAlpha, Char.isUpper, Char.isLower, Char.isDigit,
      Bool.or_eq_true, Bool.and_eq_true, decide_eq_true_eq, UInt32.le_iff_toNat_le, ge_iff_le,
      List.contains_eq_mem, List.mem_cons, List.not_mem_nil, or_false] at h
    have hval : c.toNat = c.val.toNat := rfl
    have hA : 'A'.val.toNat = 65 := rfl
    have hZ : 'Z'.val.toNat = 90 := rfl
    have ha : 'a'.val.toNat = 97 := rfl
    have hz : 'z'.val.toNat = 122 := rfl
    have hzero : '0'.val.toNat = 48 := rfl
    have hnine : '9'.val.toNat = 57 := rfl
    rcases h with h | rfl | rfl | rfl | rfl
    · omega
    all_goals exact ⟨by decide, by decide⟩
  simp [isChar, hrange]

theorem all_escape (v : List Char) : (escape v).all isChar = v.all isChar := by
  induction v with
  | nil => rfl
  | cons c v ih =>
    have hc : (escapeChar c).all isChar = isChar c := by
      rw [escapeChar]
      split_ifs with hamp hlt hgt hquote
      · rw [hamp]
        decide
      · rw [hlt]
        decide
      · rw [hgt]
        decide
      · rw [hquote]
        decide
      · exact Bool.and_true _
    rw [escape_cons, List.all_append, hc, ih, List.all_cons]

theorem all_name (h : isName name = true) : name.all isChar = true :=
  List.all_eq_true.mpr fun c hc => isChar_nameChar (isName_chars h c hc)

theorem all_attributes (hnames : ∀ a ∈ attributes, isName a.1 = true) :
    (renderAttributes attributes).all isChar = (attributes.flatMap Prod.snd).all isChar := by
  induction attributes with
  | nil => rfl
  | cons a attributes ih =>
    obtain ⟨hname, hnames'⟩ := List.forall_mem_cons.mp hnames
    have hmarkup : isChar ' ' = true ∧ isChar '=' = true ∧ isChar '"' = true := by decide
    rw [renderAttributes] at ih ⊢
    simp only [List.flatMap_cons, List.all_append, List.all_cons, List.all_nil, ih hnames',
      all_name hname, all_escape, hmarkup, Bool.true_and, Bool.and_true]

/-- Only the texts and the values of attributes can have characters that XML has not. -/
theorem all_render {t : Content} (ht : Tidy t) : (render t).all isChar = t.data.all isChar := by
  have hmarkup : isChar '<' = true ∧ isChar '>' = true ∧ isChar '/' = true := by decide
  induction t with
  | nil => rfl
  | text v rest ih =>
    rw [render, List.all_append, all_escape, ih ht.2.2, Content.data, List.all_append]
  | void name attributes rest ih =>
    simp only [render, List.all_append, List.all_cons, hmarkup, all_name ht.1.name,
      all_attributes ht.1.names, ih ht.2, Content.data, Bool.true_and]
  | element name attributes children rest ihc ih =>
    simp only [render, List.all_append, List.all_cons, hmarkup, all_name ht.1.name,
      all_attributes ht.1.names, ihc ht.2.1, ih ht.2.2, Content.data, Bool.true_and]

/-- One element and nothing else. -/
def Content.IsRoot : Content → Prop
  | .void _ _ .nil => True
  | .element _ _ _ .nil => True
  | _ => False

/-- A document is read as it was written, with its line ends normalized, when XML has its
characters, and is not well formed otherwise. -/
theorem document_render {t : Content} (ht : Tidy t) (hroot : t.IsRoot) :
    document (declaration ++ render t) =
      if (render t).all isChar then some (t.mapText lineEnds) else none := by
  have hdeclaration : declaration.all isChar = true ∧ '\r' ∉ declaration := by decide
  rw [document, List.all_append, hdeclaration.1, Bool.true_and,
    List.isPrefixOf_iff_prefix.mpr (List.prefix_append _ _), Bool.and_true,
    lineEnds_append_of_notMem hdeclaration.2, lineEnds_render ht, List.drop_left]
  split_ifs with hchars
  · have hread : readContent (render (t.mapText lineEnds)).length
        (render (t.mapText lineEnds)) = some (t.mapText lineEnds, []) := by
      have hends : EndsContent [] := .inl rfl
      have h := readContent_render (tidy_mapText ht) (size_le_length (tidy_mapText ht)) hends
      rwa [List.append_nil] at h
    dsimp only
    rw [hread]
    cases t with
    | nil => cases hroot
    | text v rest => cases hroot
    | void name attributes rest =>
      cases rest with
      | nil => rfl
      | _ => cases hroot
    | element name attributes children rest =>
      cases rest with
      | nil => rfl
      | _ => cases hroot
  · rfl

end Xml

end ArkanGold
