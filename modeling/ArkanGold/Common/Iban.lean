import ArkanGold.Lib.CheckDigits

/-!
# IBANs of Iran

`isValidIranIban` and `isValidSheba`: two copies of one check. The integer it is about has the first
four characters of the IBAN at its end, with 1827 for the letters.

`iban_check`: the check is exact, and it finds one wrong digit and two adjacent digits exchanged,
also where the rearrangement has drawn them apart.
-/

namespace ArkanGold

namespace IbanUtil

/-- `Number(ch)` of a digit -/
def digitValue (c : Char) : ℕ := c.toNat - '0'.toNat

/-- `/^IR\d{24}$/` -/
def hasIbanForm : List Char → Bool
  | 'I' :: 'R' :: ds => ds.length == 24 && ds.all Char.isDigit
  | _ => false

/-- `isValidIranIban` -/
def isValidIranIban (iban : String) : Bool :=
  let cs := iban.toList
  if !hasIbanForm cs then false
  else
    let numeric := cs.drop 4 ++ ['1', '8', '2', '7'] ++ (cs.drop 2).take 2
    CheckDigits.remainder 10 97 (numeric.map digitValue) == 1

/-- `isValidSheba` -/
def isValidSheba (sheba : String) : Bool :=
  let cs := sheba.toList
  if !hasIbanForm cs then false
  else
    let rearranged := cs.drop 4 ++ ['1', '8', '2', '7'] ++ (cs.drop 2).take 2
    CheckDigits.remainder 10 97 (rearranged.map digitValue) == 1

example : isValidIranIban "IR820540102680020817909002" = true := by decide

/-! ## IBANs -/

/-- The 24 digits after the letters of an IBAN. -/
structure Iban where
  digits : List Char
  length : digits.length = 24
  isDigit : ∀ c ∈ digits, c.isDigit = true

namespace Iban

/-- The IBAN as it is written. -/
def text (x : Iban) : String := String.ofList ('I' :: 'R' :: x.digits)

/-- The digits of the integer that is checked. -/
def rearrangedDigits (ds : List Char) : List ℕ :=
  (ds.drop 2 ++ ['1', '8', '2', '7'] ++ ds.take 2).map digitValue

/-- The integer that is checked. -/
def rearranged (x : Iban) : ℕ := Nat.ofDigits 10 (rearrangedDigits x.digits).reverse

/-- The digit at the place `i`. -/
def digit (x : Iban) (i : Fin 24) : Char := x.digits.get (i.cast x.length.symm)

/-- The IBAN with another digit at the place `i`. -/
def change (x : Iban) (i : Fin 24) (c : Char) (hc : c.isDigit = true) : Iban where
  digits := x.digits.set i c
  length := by rw [List.length_set, x.length]
  isDigit := by
    intro a ha
    obtain ha | rfl := List.mem_or_eq_of_mem_set ha
    · exact x.isDigit a ha
    · exact hc

theorem digit_isDigit (x : Iban) (i : Fin 24) : (x.digit i).isDigit = true :=
  x.isDigit _ (List.getElem_mem _)

/-- The IBAN with the digits at the places `i` and `j` exchanged. -/
def swap (x : Iban) (i j : Fin 24) : Iban :=
  (x.change i (x.digit j) (x.digit_isDigit j)).change j (x.digit i) (x.digit_isDigit i)

end Iban

/-! ## The rearrangement -/

/-- Where the digit at the place `i` goes. -/
def placeOf (i : ℕ) : ℕ := if i < 2 then 26 + i else i - 2

theorem digitValue_lt {c : Char} (h : c.isDigit = true) : digitValue c < 10 := by
  have hle : c.toNat ≤ '9'.toNat := by
    simp only [Char.isDigit, Bool.and_eq_true, decide_eq_true_eq] at h
    exact h.2
  rw [digitValue]
  have : '9'.toNat = '0'.toNat + 9 := rfl
  omega

theorem digitValue_inj {a c : Char} (ha : a.isDigit = true) (hc : c.isDigit = true)
    (h : digitValue a = digitValue c) : a = c := by
  simp only [Char.isDigit, Bool.and_eq_true, decide_eq_true_eq] at ha hc
  have ha' : '0'.toNat ≤ a.toNat := ha.1
  have hc' : '0'.toNat ≤ c.toNat := hc.1
  rw [digitValue, digitValue] at h
  exact Char.toNat_inj.mp (by omega)

section Rearranged

variable {ds : List Char}

theorem length_rearranged (h : ds.length = 24) : (Iban.rearrangedDigits ds).length = 28 := by
  simp [Iban.rearrangedDigits, h]

theorem placeOf_lt {i : ℕ} (hi : i < 24) : placeOf i < 28 := by
  unfold placeOf
  split <;> omega

theorem rearranged_get (h : ds.length = 24) {i : ℕ} (hi : i < 24) :
    (Iban.rearrangedDigits ds)[placeOf i]? = (ds[i]?).map digitValue := by
  rw [Iban.rearrangedDigits, List.getElem?_map, placeOf]
  split
  · rw [List.getElem?_append_right (by simp [h]), List.getElem?_take]
    simp only [List.length_append, List.length_drop, h, List.length_cons, List.length_nil]
    rw [show 26 + i - (24 - 2 + (0 + 1 + 1 + 1 + 1)) = i by omega, if_pos (by omega)]
  · rw [List.getElem?_append_left (by simp [h]; omega),
      List.getElem?_append_left (by simp [h]; omega), List.getElem?_drop]
    rw [show 2 + (i - 2) = i by omega]

theorem rearranged_set (h : ds.length = 24) {i : ℕ} (hi : i < 24) (c : Char) :
    Iban.rearrangedDigits (ds.set i c) =
      (Iban.rearrangedDigits ds).set (placeOf i) (digitValue c) := by
  rw [Iban.rearrangedDigits, Iban.rearrangedDigits, ← List.map_set, placeOf, List.drop_set,
    List.take_set]
  congr 1
  split
  · rw [List.set_append_right _ _ (by simp [h])]
    simp only [List.length_append, List.length_drop, h, List.length_cons, List.length_nil]
    rw [show 26 + i - (24 - 2 + (0 + 1 + 1 + 1 + 1)) = i by omega]
  · have htake : (ds.take 2).set i c = ds.take 2 :=
      List.set_eq_of_length_le (by rw [List.length_take]; omega)
    have hdrop : i - 2 < (ds.drop 2).length := by rw [List.length_drop]; omega
    rw [htake, List.set_append_left _ _ (by rw [List.length_append]; omega),
      List.set_append_left _ _ hdrop]

end Rearranged

theorem hasIbanForm_iff {cs : List Char} :
    hasIbanForm cs = true ↔ ∃ x : Iban, cs = 'I' :: 'R' :: x.digits := by
  constructor
  · intro h
    unfold hasIbanForm at h
    split at h
    · rename_i ds
      rw [Bool.and_eq_true, beq_iff_eq, List.all_eq_true] at h
      exact ⟨⟨ds, h.1, h.2⟩, rfl⟩
    · cases h
  · rintro ⟨x, rfl⟩
    rw [hasIbanForm, Bool.and_eq_true, beq_iff_eq, List.all_eq_true]
    exact ⟨x.length, x.isDigit⟩

theorem isValid_text (x : Iban) :
    isValidIranIban x.text = true ↔ x.rearranged % 97 = 1 := by
  have hform : hasIbanForm ('I' :: 'R' :: x.digits) = true := hasIbanForm_iff.mpr ⟨x, rfl⟩
  simp only [isValidIranIban, Iban.text, String.toList_ofList, hform, Bool.not_true,
    Bool.false_eq_true, if_false, beq_iff_eq, CheckDigits.remainder_eq,
    Positional.number_eq_ofDigits]
  rfl

/-! ## Errors -/

instance prime_modulus : Fact (Nat.Prime 97) := ⟨by norm_num⟩

section Errors

variable {x : Iban} {i j : Fin 24}

theorem place_lt (x : Iban) (i : Fin 24) : placeOf i < (Iban.rearrangedDigits x.digits).length := by
  rw [length_rearranged x.length]
  exact placeOf_lt i.isLt

theorem get_place (x : Iban) (i : Fin 24)
    (hplace : placeOf i < (Iban.rearrangedDigits x.digits).length) :
    (Iban.rearrangedDigits x.digits)[placeOf i] = digitValue (x.digit i) := by
  have h := rearranged_get x.length i.isLt
  rw [List.getElem?_eq_getElem (place_lt x i),
    List.getElem?_eq_getElem (by rw [x.length]; exact i.isLt)] at h
  exact Option.some.inj h

theorem rearranged_eq (x : Iban) :
    x.rearranged = Positional.number 10 (Iban.rearrangedDigits x.digits) :=
  (Positional.number_eq_ofDigits _).symm

/-- One wrong digit is found. -/
theorem change_detected {c : Char} (hc : c.isDigit = true) (hne : c ≠ x.digit i) :
    (x.change i c hc).rearranged % 97 ≠ x.rearranged % 97 := by
  rw [rearranged_eq, rearranged_eq, Iban.change, rearranged_set x.length i.isLt]
  refine CheckDigits.substitution_detected (by decide) (place_lt x i) ?_ ?_ ?_
  · rw [get_place]
    exact (digitValue_lt (x.digit_isDigit i)).trans (by norm_num)
  · exact (digitValue_lt hc).trans (by norm_num)
  · rw [get_place]
    exact fun h => hne (digitValue_inj hc (x.digit_isDigit i) h)

/-- The weights of adjacent digits differ, also of those that the rearrangement draws apart. -/
theorem weight_adjacent : ∀ i < 23,
    (CheckDigits.weight 10 28 (placeOf i) : ZMod 97) ≠ CheckDigits.weight 10 28 (placeOf (i + 1)) := by
  decide

/-- Two adjacent digits exchanged are found. -/
theorem swap_detected (hij : (j : ℕ) = i + 1) (hne : x.digit i ≠ x.digit j) :
    (x.swap i j).rearranged % 97 ≠ x.rearranged % 97 := by
  have hdigits : Iban.rearrangedDigits (x.swap i j).digits =
      ((Iban.rearrangedDigits x.digits).set (placeOf i) (digitValue (x.digit j))).set (placeOf j)
        (digitValue (x.digit i)) := by
    rw [Iban.swap, Iban.change, rearranged_set (Iban.length _) j.isLt, Iban.change,
      rearranged_set x.length i.isLt]
  have hplaces : placeOf i ≠ placeOf j := by
    have := i.isLt
    have := j.isLt
    unfold placeOf
    split <;> split <;> omega
  rw [rearranged_eq, rearranged_eq, hdigits, ← get_place x i, ← get_place x j]
  refine CheckDigits.transposition_detected (place_lt x i) (place_lt x j) hplaces ?_ ?_ ?_ ?_
  · rw [get_place]
    exact (digitValue_lt (x.digit_isDigit i)).trans (by norm_num)
  · rw [get_place]
    exact (digitValue_lt (x.digit_isDigit j)).trans (by norm_num)
  · rw [get_place, get_place]
    exact fun h => hne (digitValue_inj (x.digit_isDigit i) (x.digit_isDigit j) h)
  · rw [length_rearranged x.length, hij]
    exact weight_adjacent i (by have := j.isLt; omega)

end Errors

/-- The two checks accept the same strings: IR and 24 digits whose rearranged integer is 1 modulo
97. Of an IBAN that is accepted, one with another digit or with two different adjacent digits
exchanged is rejected by both. -/
theorem iban_check :
    (∀ v, isValidSheba v = isValidIranIban v) ∧
      (∀ v, isValidIranIban v = true ↔ ∃ x : Iban, v = x.text ∧ x.rearranged % 97 = 1) ∧
      ∀ x : Iban, isValidIranIban x.text = true →
        (∀ i c hc, c ≠ x.digit i → isValidIranIban (x.change i c hc).text = false) ∧
        ∀ i j : Fin 24, (j : ℕ) = i + 1 → x.digit i ≠ x.digit j →
          isValidIranIban (x.swap i j).text = false := by
  have hrejected : ∀ x y : Iban, isValidIranIban x.text = true →
      y.rearranged % 97 ≠ x.rearranged % 97 → isValidIranIban y.text = false := by
    intro x y hx hne
    rw [Bool.eq_false_iff, ne_eq, isValid_text]
    rw [isValid_text] at hx
    exact fun hy => hne (hy.trans hx.symm)
  refine ⟨fun v => rfl, fun v => ⟨fun h => ?_, ?_⟩, fun x hx => ⟨fun i c hc hne => ?_,
    fun i j hij hne => ?_⟩⟩
  · have hform : hasIbanForm v.toList = true := by
      by_contra hnot
      simp [isValidIranIban, hnot] at h
    obtain ⟨x, hx⟩ := hasIbanForm_iff.mp hform
    have htext : v = x.text := by rw [Iban.text, ← hx, String.ofList_toList]
    rw [htext, isValid_text] at h
    exact ⟨x, htext, h⟩
  · rintro ⟨x, rfl, h⟩
    exact (isValid_text x).mpr h
  · exact hrejected x _ hx (change_detected hc hne)
  · exact hrejected x _ hx (swap_detected hij hne)

end IbanUtil

end ArkanGold
