import ArkanGold.Invoices.Documents

/-!
# The public verification of an invoice

`verifyPublic`: anyone may ask for an invoice by its number. Without the token that is printed on
the invoice the answer only confirms it, with the token it is the whole document.

- `Spells`: the ways to write the number of an invoice that are read as that number.
- `Guarded`: without the token nothing but the heads of the invoices shows, there is an answer for
  every text, and a number may be spelled in any of these ways.
- `verification_guarded_iff`: this holds except for a token of 24 UTF-16 units that takes more than 24 bytes.
  The lengths are compared in units and `timingSafeEqual` compares bytes, which it refuses to do
  for texts of different lengths.
-/

namespace ArkanGold

namespace InvoiceService

/-! ## The number -/

/-- `[\s\u200c\u200f\u200e]` -/
def isSkipped (c : Char) : Bool :=
  isSpace c || c.toNat == 0x200C || c.toNat == 0x200F || c.toNat == 0x200E

/-- The two replacements of digits, Persian and then Arabic. -/
def toLatin (c : Char) : Char := latinDigit arabicZero (latinDigit persianZero c)

/-- `normalizeInvoiceNumber` -/
def normalizeInvoiceNumber (P : Platform) (raw : String) : String :=
  let latin := (trimText raw).map toLatin
  sliceTo (P.toUpperCase (String.ofList (latin.toList.filter (!isSkipped ·)))) 40

/-- `\d` -/
def digits : List Char := "0123456789".toList

/-- `[A-Z]` -/
def capitals : List Char := "ABCDEFGHIJKLMNOPQRSTUVWXYZ".toList

/-- `/^AG-\d{4}-[A-Z]{2,5}-\d{1,10}$/` -/
def isInvoiceNumber (v : String) : Bool :=
  match v.toList.splitOn '-' with
  | [company, year, series, serial] =>
    company == ['A', 'G'] &&
    (year.length == 4 && year.all (digits.contains ·)) &&
    (2 ≤ series.length && series.length ≤ 5 && series.all (capitals.contains ·)) &&
    (1 ≤ serial.length && serial.length ≤ 10 && serial.all (digits.contains ·))
  | _ => false

example : isInvoiceNumber "AG-1405-INV-000123" = true := by decide

/-- The characters of an invoice number. -/
def numberChars : List Char := '-' :: digits ++ capitals

/-- `Spells n r`: the text `r` is a way to write the number `n`, with Persian or Arabic digits, in
lower case and with white space and direction marks anywhere. -/
inductive Spells : List Char → List Char → Prop where
  | nil : Spells [] []
  | keep {n r : List Char} (c : Char) : Spells n r → Spells (c :: n) (c :: r)
  | persian {n r : List Char} (d : ℕ) : d < 10 → Spells n r →
      Spells (digitAt '0'.toNat d :: n) (digitAt persianZero d :: r)
  | arabic {n r : List Char} (d : ℕ) : d < 10 → Spells n r →
      Spells (digitAt '0'.toNat d :: n) (digitAt arabicZero d :: r)
  | lower {n r : List Char} (c : Char) : Spells n r → Spells (c :: n) (c.toLower :: r)
  | skip {n r : List Char} (c : Char) : isSkipped c = true → Spells n r → Spells n (c :: r)

theorem Spells.refl : ∀ n : List Char, Spells n n
  | [] => .nil
  | c :: n => .keep c (Spells.refl n)

theorem isInvoiceNumber_chars {v : String} (h : isInvoiceNumber v = true) :
    ∀ c ∈ v.toList, c ∈ numberChars := by
  unfold isInvoiceNumber at h
  split at h
  case h_2 => exact absurd h (by simp)
  case h_1 company year series serial hsplit =>
    have hv : v.toList = ['-'].intercalate [company, year, series, serial] := by
      rw [← hsplit, List.intercalate_splitOn]
    simp only [Bool.and_eq_true, beq_iff_eq, List.all_eq_true, List.contains_iff_mem] at h
    obtain ⟨⟨⟨rfl, -, hyear⟩, -, hseries⟩, -, hserial⟩ := h
    intro c hc
    simp only [hv, List.intercalate, List.intersperse, List.flatten_cons, List.flatten_nil,
      List.mem_append, List.mem_cons, List.not_mem_nil, or_false] at hc
    simp only [numberChars, List.mem_append, List.mem_cons]
    obtain (rfl | rfl) | rfl | hc | rfl | hc | rfl | hc := hc
    · exact .inr (by decide)
    · exact .inr (by decide)
    · exact .inl (.inl rfl)
    · exact .inl (.inr (hyear c hc))
    · exact .inl (.inl rfl)
    · exact .inr (hseries c hc)
    · exact .inl (.inl rfl)
    · exact .inl (.inr (hserial c hc))

/-- What the normalisation keeps of the characters of a text, before it turns them upper case. -/
def cleaned (cs : List Char) : List Char := (cs.map toLatin).filter (!isSkipped ·)

theorem toLatin_of_skipped {c : Char} (h : isSkipped c = true) : toLatin c = c := by
  simp only [isSkipped, isSpace, Bool.or_eq_true, Bool.and_eq_true, decide_eq_true_eq,
    beq_iff_eq] at h
  have hp : ¬(persianZero ≤ c.toNat ∧ c.toNat ≤ persianZero + 9) := by
    unfold persianZero
    omega
  have ha : ¬(arabicZero ≤ c.toNat ∧ c.toNat ≤ arabicZero + 9) := by
    unfold arabicZero
    omega
  rw [toLatin, latinDigit, latinDigit, if_neg hp, if_neg ha]

theorem cleaned_trimChars (cs : List Char) : cleaned (trimChars cs) = cleaned cs := by
  refine filter_map_trimChars (fun c hc => ?_) cs
  have hskipped : isSkipped c = true := by simp [isSkipped, hc]
  simp [toLatin_of_skipped hskipped, hskipped]

theorem cleaned_cons_skipped {c : Char} (h : isSkipped c = true) (cs : List Char) :
    cleaned (c :: cs) = cleaned cs := by
  simp [cleaned, toLatin_of_skipped h, h]

/-- `c` is read as the character `d` of a number, but for its case. -/
def ReadsAs (c d : Char) : Prop :=
  isSkipped (toLatin c) = false ∧ (toLatin c).toNat < 128 ∧ (toLatin c).toUpper = d

instance (c d : Char) : Decidable (ReadsAs c d) := inferInstanceAs (Decidable (_ ∧ _ ∧ _))

theorem number_readsAs : ∀ c ∈ numberChars, ReadsAs c c ∧ ReadsAs c.toLower c := by
  have hall : numberChars.all (fun c => ReadsAs c c ∧ ReadsAs c.toLower c) = true := by
    decide
  simpa using hall

theorem digit_readsAs : ∀ d < 10, ReadsAs (digitAt persianZero d) (digitAt '0'.toNat d) ∧
    ReadsAs (digitAt arabicZero d) (digitAt '0'.toNat d) := by
  decide

theorem cleaned_cons {c d : Char} (h : ReadsAs c d) (cs : List Char) :
    cleaned (c :: cs) = toLatin c :: cleaned cs := by
  simp [cleaned, h.1]

/-- However a number is spelled, ASCII characters are left that are the number in upper case. -/
theorem Spells.cleaned_eq {n r : List Char} (h : Spells n r) (hn : ∀ c ∈ n, c ∈ numberChars) :
    (∀ c ∈ cleaned r, c.toNat < 128) ∧ (cleaned r).map Char.toUpper = n := by
  have hcons {c d : Char} {n r : List Char} (hread : ReadsAs c d)
      (ih : (∀ c ∈ cleaned r, c.toNat < 128) ∧ (cleaned r).map Char.toUpper = n) :
      (∀ x ∈ cleaned (c :: r), x.toNat < 128) ∧ (cleaned (c :: r)).map Char.toUpper = d :: n := by
    rw [cleaned_cons hread, List.forall_mem_cons, List.map_cons, hread.2.2, ih.2]
    exact ⟨⟨hread.2.1, ih.1⟩, rfl⟩
  induction h with
  | nil => exact ⟨by simp [cleaned], rfl⟩
  | keep c _ ih =>
    obtain ⟨hc, hn⟩ := List.forall_mem_cons.mp hn
    exact hcons (number_readsAs c hc).1 (ih hn)
  | persian d hd _ ih =>
    exact hcons (digit_readsAs d hd).1 (ih (List.forall_mem_cons.mp hn).2)
  | arabic d hd _ ih =>
    exact hcons (digit_readsAs d hd).2 (ih (List.forall_mem_cons.mp hn).2)
  | lower c _ ih =>
    obtain ⟨hc, hn⟩ := List.forall_mem_cons.mp hn
    exact hcons (number_readsAs c hc).2 (ih hn)
  | skip c hc _ ih =>
    rw [cleaned_cons_skipped hc]
    exact ih hn

theorem normalizeInvoiceNumber_eq (P : Platform) (raw : String) :
    normalizeInvoiceNumber P raw =
      sliceTo (P.toUpperCase (String.ofList (cleaned raw.toList))) 40 := by
  rw [normalizeInvoiceNumber, String.toList_map, trimText, String.toList_ofList,
    ← cleaned, cleaned_trimChars]

/-- All spellings of a number are normalised to one text. -/
theorem normalizeInvoiceNumber_spelled (P : Platform) {canonical number : String}
    (hcanonical : isInvoiceNumber canonical = true)
    (hspelled : Spells canonical.toList number.toList) :
    normalizeInvoiceNumber P number = normalizeInvoiceNumber P canonical := by
  have hupper {v : String} (h : Spells canonical.toList v.toList) :
      (P.toUpperCase (String.ofList (cleaned v.toList))).toList = canonical.toList := by
    obtain ⟨hascii, heq⟩ := h.cleaned_eq (isInvoiceNumber_chars hcanonical)
    rw [P.toUpperCase_ascii _ (by rwa [String.toList_ofList]), String.toList_ofList, heq]
  have hsame := (hupper hspelled).trans (hupper (Spells.refl _)).symm
  rw [normalizeInvoiceNumber_eq, normalizeInvoiceNumber_eq, String.toList_inj.mp hsame]

/-! ## The token -/

/-- `given` -/
def givenToken (P : Platform) (token : Option String) : String :=
  P.toLowerCase (trimText (token.getD ""))

/-- `timingSafeEqual(Buffer.from(a), Buffer.from(b))` -/
def timingSafeEqual (a b : String) : Except Failure Bool :=
  if a.toByteArray.size = b.toByteArray.size then .ok (decide (a.toByteArray = b.toByteArray))
  else .error .rangeError

/-- `tokenValid` -/
def tokenValid (given expected : String) : Except Failure Bool :=
  if utf16Length given = utf16Length expected then timingSafeEqual given expected else .ok false

/-! ## The answer -/

/-- The head of the answer: what it says of an invoice without the token. -/
structure Summary where
  invoiceNumber : String
  kind : InvoiceKind
  status : InvoiceStatus
  issuedAtJalali : String
  expiresAtJalali : Option String
  cancelledAtJalali : Option String
  issuerLegalName : String
  contentHashPrefix : String
  deriving DecidableEq

/-- What `verifyPublic` answers. -/
inductive Verification where
  | invalid
  | valid (summary : Summary) (tokenProvided : Bool) (document : Option InvoiceDocumentDto)
  deriving DecidableEq

/-- `summary` -/
def summary (P : Platform) (invoice : InvoiceHead) : Summary where
  invoiceNumber := toDisplay invoice.invoiceNumber
  kind := invoice.kind
  status := invoice.status
  issuedAtJalali := P.formatJalaliDate invoice.issuedAt
  expiresAtJalali := invoice.expiresAt.map P.formatJalaliDate
  cancelledAtJalali := invoice.cancelledAt.map P.formatJalaliDate
  issuerLegalName := (invoice.companySnapshot.bind (·.legalName)).getD ""
  contentHashPrefix := sliceTo invoice.contentHash 16

/-- `mask` -/
def mask (value : String) (keepStart keepEnd : ℕ) : String :=
  let length := utf16Length value
  if length ≤ keepStart + keepEnd then value
  else sliceTo value keepStart ++ String.ofList (List.replicate (length - keepStart - keepEnd) '*') ++
    sliceFrom value (length - keepEnd)

/-- The document as the public sees it. -/
def publicDocument (doc : InvoiceDocumentDto) : InvoiceDocumentDto :=
  { doc with
    id := ""
    customer := { doc.customer with
      nationalId := doc.customer.nationalId.map (mask · 3 2)
      phone := mask doc.customer.phone 4 3 } }

/-- The invoice that a number asks for. -/
def findInvoice (rows : List InvoiceRow) (invoiceNumber : String) : Option InvoiceHead :=
  (rows.map (·.toInvoiceHead)).find? fun r => r.invoiceNumber == invoiceNumber

/-- The answer about an invoice that was found. -/
def answerFor (P : Platform) (rows : List InvoiceRow) (invoice : InvoiceHead)
    (token : Option String) : Except Failure Verification := do
  let given := givenToken P token
  if ← tokenValid given (verifyToken P invoice.id invoice.contentHash) then
    let doc ← getDocument P rows invoice.id none true
    return .valid (summary P invoice) true (some (publicDocument doc))
  else
    return .valid (summary P invoice) (0 < utf16Length given) none

/-- `verifyPublic` -/
def verifyPublic (P : Platform) (rows : List InvoiceRow) (rawInvoiceNumber : String)
    (token : Option String) : Except Failure Verification :=
  let invoiceNumber := normalizeInvoiceNumber P rawInvoiceNumber
  if isInvoiceNumber invoiceNumber then
    match findInvoice rows invoiceNumber with
    | some invoice => answerFor P rows invoice token
    | none => .ok .invalid
  else .ok .invalid

/-! ## What the token is compared with -/

theorem takeUnits_ascii {cs : List Char} (h : ∀ c ∈ cs, c.toNat < 128) (n : ℕ) :
    takeUnits n cs = cs.take n := by
  induction cs generalizing n with
  | nil => cases n <;> rfl
  | cons c cs ih =>
    obtain ⟨hc, hcs⟩ := List.forall_mem_cons.mp h
    have hunits : unitsOf c = 1 := if_pos (by omega)
    cases n with
    | zero => rfl
    | succ n => simp [takeUnits, hunits, ih hcs]

theorem utf16Length_ascii {v : String} (h : ∀ c ∈ v.toList, c.toNat < 128) :
    utf16Length v = v.toList.length := by
  have hunits : v.toList.map unitsOf = v.toList.map fun _ => 1 :=
    List.map_congr_left fun c hc => if_pos (by have := h c hc; omega)
  simp [utf16Length, hunits]

theorem size_toByteArray_ascii {v : String} (h : ∀ c ∈ v.toList, c.toNat < 128) :
    v.toByteArray.size = v.toList.length := by
  have hlen (cs : List Char) (h : ∀ c ∈ cs, c.toNat < 128) : String.utf8Len cs = cs.length := by
    induction cs with
    | nil => rfl
    | cons c cs ih =>
      obtain ⟨hc, hcs⟩ := List.forall_mem_cons.mp h
      have hsize : c.utf8Size = 1 := by
        rw [Char.utf8Size_eq_one_iff, UInt32.le_iff_toNat_le]
        exact Nat.le_of_lt_succ hc
      rw [String.utf8Len_cons, ih hcs, hsize, List.length_cons]
  rw [← hlen v.toList h, ← String.utf8ByteSize_ofList, String.ofList_toList]
  rfl

theorem hex_ascii : ∀ c ∈ "0123456789abcdef".toList, c.toNat < 128 := by simp

theorem verifyToken_toList (P : Platform) (id contentHash : String) :
    (verifyToken P id contentHash).toList.length = 24 ∧
      ∀ c ∈ (verifyToken P id contentHash).toList, c.toNat < 128 := by
  obtain ⟨hlength, hdigits⟩ := P.sha256Hex_digits ("invoice-verify:" ++ id ++ ":" ++ contentHash)
  have hascii := fun c hc => hex_ascii c (hdigits c hc)
  rw [verifyToken, sliceTo, String.toList_ofList, takeUnits_ascii hascii]
  exact ⟨by rw [List.length_take, hlength]; rfl, fun c hc => hascii c (List.mem_of_mem_take hc)⟩

theorem tokenValid_cases {given expected : String}
    (hexpected : expected.toList.length = 24 ∧ ∀ c ∈ expected.toList, c.toNat < 128) :
    tokenValid given expected =
      if utf16Length given = 24 ∧ given.toByteArray.size ≠ 24 then .error .rangeError
      else .ok (given == expected) := by
  have hunits : utf16Length expected = 24 := (utf16Length_ascii hexpected.2).trans hexpected.1
  have hbytes : expected.toByteArray.size = 24 :=
    (size_toByteArray_ascii hexpected.2).trans hexpected.1
  rw [tokenValid, timingSafeEqual, hunits, hbytes]
  by_cases hg : utf16Length given = 24
  · by_cases hb : given.toByteArray.size = 24
    · rw [if_pos hg, if_pos hb, if_neg (by simp [hb])]
      congr 1
      rw [Bool.eq_iff_iff, decide_eq_true_iff, beq_iff_eq, String.toByteArray_inj]
    · rw [if_pos hg, if_neg hb, if_pos ⟨hg, hb⟩]
  · have hne : given ≠ expected := by
      rintro rfl
      exact hg hunits
    rw [if_neg hg, if_neg (by simp [hg]), beq_eq_false_iff_ne.mpr hne]

/-! ## What an answer depends on -/

/-- The invoice that a request is about. -/
def asked (P : Platform) (rows : List InvoiceRow) (number : String) : Option InvoiceHead :=
  let invoiceNumber := normalizeInvoiceNumber P number
  if isInvoiceNumber invoiceNumber then findInvoice rows invoiceNumber else none

/-- The request comes with the token of the invoice. -/
def PresentsToken (P : Platform) (rows : List InvoiceRow) (number : String)
    (token : Option String) : Prop :=
  ∃ invoice, asked P rows number = some invoice ∧
    givenToken P token = verifyToken P invoice.id invoice.contentHash

/-- The request is about an invoice, and its token has the length of a token but not its size. -/
def MeasuresWrong (P : Platform) (rows : List InvoiceRow) (number : String)
    (token : Option String) : Prop :=
  (asked P rows number).isSome = true ∧ utf16Length (givenToken P token) = 24 ∧
    (givenToken P token).toByteArray.size ≠ 24

/-- The invoices differ only in amounts, items, customer data and extra data. -/
def SameHeads (rows₁ rows₂ : List InvoiceRow) : Prop :=
  rows₁.map (·.toInvoiceHead) = rows₂.map (·.toInvoiceHead)

/-- Without the token of the invoice a request has the same answer whatever the bodies of the
invoices are, and has one; and it is the same for the number in any spelling. -/
structure Guarded (P : Platform) (rows₁ rows₂ : List InvoiceRow) (number : String)
    (token : Option String) : Prop where
  blind : ¬PresentsToken P rows₁ number token →
    verifyPublic P rows₁ number token = verifyPublic P rows₂ number token
  answered : ¬PresentsToken P rows₁ number token →
    ∃ reply, verifyPublic P rows₁ number token = .ok reply
  spelled : ∀ canonical, isInvoiceNumber canonical = true →
    Spells canonical.toList number.toList →
    verifyPublic P rows₁ number token = verifyPublic P rows₁ canonical token

theorem asked_congr {rows₁ rows₂ : List InvoiceRow} (h : SameHeads rows₁ rows₂) (P : Platform)
    (number : String) : asked P rows₁ number = asked P rows₂ number := by
  rw [asked, asked, findInvoice, findInvoice, h]

theorem verifyPublic_eq (P : Platform) (rows : List InvoiceRow) (number : String)
    (token : Option String) : verifyPublic P rows number token =
      match asked P rows number with
      | some invoice => answerFor P rows invoice token
      | none => .ok .invalid := by
  unfold verifyPublic asked
  by_cases hnumber : isInvoiceNumber (normalizeInvoiceNumber P number) = true
  · simp only [hnumber, if_true]
  · simp only [hnumber]
    rfl

/-- A token that is not the one of the invoice: the request fails where the token measures wrong,
and tells the summary otherwise. -/
theorem answerFor_other {P : Platform} {invoice : InvoiceHead} {token : Option String}
    (hother : givenToken P token ≠ verifyToken P invoice.id invoice.contentHash)
    (rows : List InvoiceRow) : answerFor P rows invoice token =
      if utf16Length (givenToken P token) = 24 ∧ (givenToken P token).toByteArray.size ≠ 24 then
        .error .rangeError
      else .ok (.valid (summary P invoice) (0 < utf16Length (givenToken P token)) none) := by
  rw [answerFor, tokenValid_cases (verifyToken_toList P invoice.id invoice.contentHash),
    beq_eq_false_iff_ne.mpr hother]
  split <;> rfl

theorem spelled_same (P : Platform) (rows : List InvoiceRow) (token : Option String)
    {canonical number : String} (hcanonical : isInvoiceNumber canonical = true)
    (hspelled : Spells canonical.toList number.toList) :
    verifyPublic P rows number token = verifyPublic P rows canonical token := by
  rw [verifyPublic, verifyPublic, normalizeInvoiceNumber_spelled P hcanonical hspelled]

/-- A token that measures wrong is not the token of an invoice, and the request fails. -/
theorem fails_of_measuresWrong {P : Platform} {rows : List InvoiceRow} {number : String}
    {token : Option String} (h : MeasuresWrong P rows number token) :
    ¬PresentsToken P rows number token ∧
      verifyPublic P rows number token = .error .rangeError := by
  obtain ⟨hsome, hunits, hbytes⟩ := h
  obtain ⟨invoice, hasked⟩ := Option.isSome_iff_exists.mp hsome
  have hother : givenToken P token ≠ verifyToken P invoice.id invoice.contentHash := by
    intro heq
    obtain ⟨hlength, hascii⟩ := verifyToken_toList P invoice.id invoice.contentHash
    rw [heq, size_toByteArray_ascii hascii] at hbytes
    exact hbytes hlength
  constructor
  · rintro ⟨invoice', hasked', heq⟩
    obtain rfl : invoice = invoice' := Option.some.inj (hasked.symm.trans hasked')
    exact hother heq
  · rw [verifyPublic_eq, hasked]
    exact (answerFor_other hother rows).trans (if_pos ⟨hunits, hbytes⟩)

/-- Without the token and unless it measures wrong, the answer is a function of the invoice that
is asked for. -/
theorem answer_of_other {P : Platform} {rows : List InvoiceRow} {number : String}
    {token : Option String} (hother : ¬PresentsToken P rows number token)
    (hright : ¬MeasuresWrong P rows number token) :
    verifyPublic P rows number token = .ok
      (match asked P rows number with
      | some invoice =>
        .valid (summary P invoice) (0 < utf16Length (givenToken P token)) none
      | none => .invalid) := by
  rw [verifyPublic_eq]
  cases hasked : asked P rows number with
  | none => rfl
  | some invoice =>
    have hne : givenToken P token ≠ verifyToken P invoice.id invoice.contentHash :=
      fun heq => hother ⟨invoice, hasked, heq⟩
    have hmeasure : ¬(utf16Length (givenToken P token) = 24 ∧
        (givenToken P token).toByteArray.size ≠ 24) :=
      fun h => hright ⟨by rw [hasked]; rfl, h⟩
    exact (answerFor_other hne rows).trans (if_neg hmeasure)

theorem verification_guarded_iff (P : Platform) {rows₁ rows₂ : List InvoiceRow}
    (hheads : SameHeads rows₁ rows₂) (number : String) (token : Option String) :
    Guarded P rows₁ rows₂ number token ↔ ¬MeasuresWrong P rows₁ number token := by
  constructor
  · intro hguarded hwrong
    obtain ⟨hother, hfails⟩ := fails_of_measuresWrong hwrong
    obtain ⟨reply, hreply⟩ := hguarded.answered hother
    exact absurd (hfails.symm.trans hreply) (by simp)
  · intro hright
    have hasked := asked_congr hheads P number
    have hpresents : PresentsToken P rows₂ number token ↔ PresentsToken P rows₁ number token := by
      rw [PresentsToken, PresentsToken, hasked]
    have hmeasures : MeasuresWrong P rows₂ number token ↔ MeasuresWrong P rows₁ number token := by
      rw [MeasuresWrong, MeasuresWrong, hasked]
    refine ⟨fun hother => ?_, fun hother => ?_, fun canonical => spelled_same P rows₁ token⟩
    · rw [answer_of_other hother hright,
        answer_of_other (mt hpresents.mp hother) (mt hmeasures.mp hright), hasked]
    · exact ⟨_, answer_of_other hother hright⟩

/-! ## A token of Persian letters -/

/-- The runtime as it behaves on the requests below. -/
def samplePlatform : Platform where
  sha256Hex _ := "4cc8d33b4b68a7b116fdd5d1994d70b5d06858847dd87fcfef1f637d0ebb51b3"
  sha256Hex_digits _ := ⟨by decide, fun c hc => by
    have hall : "4cc8d33b4b68a7b116fdd5d1994d70b5d06858847dd87fcfef1f637d0ebb51b3".toList.all
        (fun c => c ∈ "0123456789abcdef".toList) = true := by decide
    simpa using List.all_eq_true.mp hall c hc⟩
  toUpperCase v := v.map Char.toUpper
  toUpperCase_ascii v _ := String.toList_map ..
  toLowerCase v := v.map Char.toLower
  encodeURIComponent v := v
  formatJalaliDate _ := "۱۴۰۵/۰۷/۲۸"
  formatTime _ := "۱۱:۳۰"
  toDataURL _ := "data:image/png;base64,"
  config _ := none
  uploadedImage _ := ""

/-- An invoice with the given total. -/
def sampleInvoice (totalRial : ℚ) : InvoiceRow where
  id := "6f1c2a3b-4d5e-4f60-8a9b-0c1d2e3f4a5b"
  invoiceNumber := "AG-1405-INV-000123"
  kind := .invoice
  status := .paid
  issuedAt := 1792483200000
  expiresAt := none
  cancelledAt := none
  contentHash := String.ofList (List.replicate 64 'a')
  companySnapshot := some { legalName := some "شرکت آرکان گلد" }
  userId := none
  customerSnapshot :=
    { displayName := "علی رضایی", isLegal := false, nationalId := some "0012345678",
      economicCode := none, registrationNumber := none, phone := "09121234567",
      address := none, postalCode := none }
  extraData := none
  items := []
  subtotalRial := totalRial
  discountRial := 0
  feeRial := 0
  taxRial := 0
  totalRial := totalRial
  totalInWords := ""
  cancelReason := none

/-- Twenty-four letters of two bytes each. -/
def persianToken : String := String.ofList (List.replicate 24 'ص')

theorem verification_guarded_sample : Guarded samplePlatform [sampleInvoice 650000000] [sampleInvoice 1]
    "ag-۱۴۰۵-inv-۰۰۰۱۲۳" (some (String.ofList (List.replicate 24 'b'))) :=
  (verification_guarded_iff samplePlatform (by rfl) _ _).mpr fun h => h.2.2 (by decide +kernel)

theorem persianToken_fails : ¬Guarded samplePlatform [sampleInvoice 650000000] [sampleInvoice 1]
    "AG-1405-INV-000123" (some persianToken) := by
  intro hguarded
  have hwrong : MeasuresWrong samplePlatform [sampleInvoice 650000000] "AG-1405-INV-000123"
      (some persianToken) := ⟨by decide +kernel, by decide +kernel, by decide +kernel⟩
  obtain ⟨hother, hfails⟩ := fails_of_measuresWrong hwrong
  obtain ⟨reply, hreply⟩ := hguarded.answered hother
  exact absurd (hfails.symm.trans hreply) (by simp)

end InvoiceService

end ArkanGold
