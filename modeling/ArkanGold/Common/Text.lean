import Mathlib

/-!
# Strings as JavaScript has them

Lengths and slices count UTF-16 units, not characters: a character outside the basic plane is two
units. What a slice cuts such a character to is shown as U+FFFD, which is what becomes of it in
UTF-8.
-/

namespace ArkanGold

/-- The UTF-16 units that a character takes. -/
def unitsOf (c : Char) : ℕ := if c.toNat < 0x10000 then 1 else 2

/-- `v.length` -/
def utf16Length (v : String) : ℕ := (v.toList.map unitsOf).sum

/-- The first `n` units. -/
def takeUnits : ℕ → List Char → List Char
  | 0, _ => []
  | _, [] => []
  | n, c :: cs => if unitsOf c ≤ n then c :: takeUnits (n - unitsOf c) cs else ['\uFFFD']

/-- All but the first `n` units. -/
def dropUnits : ℕ → List Char → List Char
  | 0, cs => cs
  | _, [] => []
  | n, c :: cs => if unitsOf c ≤ n then dropUnits (n - unitsOf c) cs else '\uFFFD' :: cs

/-- `v.slice(0, n)` -/
def sliceTo (v : String) (n : ℕ) : String := String.ofList (takeUnits n v.toList)

/-- `v.slice(n)` -/
def sliceFrom (v : String) (n : ℕ) : String := String.ofList (dropUnits n v.toList)

/-- `\s`, the white space and line terminators that `trim` takes off. -/
def isSpace (c : Char) : Bool :=
  (9 ≤ c.toNat && c.toNat ≤ 13) || c.toNat == 0x20 || c.toNat == 0xA0 || c.toNat == 0x1680 ||
    (0x2000 ≤ c.toNat && c.toNat ≤ 0x200A) || c.toNat == 0x2028 || c.toNat == 0x2029 ||
    c.toNat == 0x202F || c.toNat == 0x205F || c.toNat == 0x3000 || c.toNat == 0xFEFF

/-- `trim` on characters. -/
def trimChars (cs : List Char) : List Char :=
  ((cs.dropWhile isSpace).reverse.dropWhile isSpace).reverse

/-- `v.trim()` -/
def trimText (v : String) : String := String.ofList (trimChars v.toList)

/-- The digit `d` of a script whose digits start at `base`. -/
def digitAt (base d : ℕ) : Char := Char.ofNat (base + d)

/-- The code of `'۰'`. -/
def persianZero : ℕ := 0x06F0

/-- The code of `'٠'`. -/
def arabicZero : ℕ := 0x0660

/-- `replace(/[base-nine]/g, …)`: a digit of the script as a Latin digit. -/
def latinDigit (base : ℕ) (c : Char) : Char :=
  if base ≤ c.toNat ∧ c.toNat ≤ base + 9 then Char.ofNat (c.toNat - base + '0'.toNat) else c

/-- A text without white space. -/
theorem trimChars_eq_self {cs : List Char} (h : ∀ c ∈ cs, isSpace c = false) :
    trimChars cs = cs := by
  have hdrop {cs : List Char} (hcs : ∀ c ∈ cs, isSpace c = false) : cs.dropWhile isSpace = cs := by
    cases cs with
    | nil => rfl
    | cons c cs => exact List.dropWhile_cons_of_neg (by simp [hcs c List.mem_cons_self])
  rw [trimChars, hdrop h, hdrop fun c hc => h c (List.mem_reverse.mp hc), List.reverse_reverse]

/-- Taking white space off the ends of a text changes nothing that drops it anyway. -/
theorem filter_map_trimChars {f : Char → Char} {p : Char → Bool}
    (hspace : ∀ c, isSpace c = true → p (f c) = false) (cs : List Char) :
    ((trimChars cs).map f).filter p = (cs.map f).filter p := by
  have hfront (cs : List Char) :
      ((cs.dropWhile isSpace).map f).filter p = (cs.map f).filter p := by
    induction cs with
    | nil => rfl
    | cons c cs ih =>
      rw [List.dropWhile_cons]
      split
      case isTrue hc => simpa [List.filter_cons, hspace c hc] using ih
      case isFalse => rfl
  calc ((trimChars cs).map f).filter p
      = ((((cs.dropWhile isSpace).reverse.dropWhile isSpace).map f).filter p).reverse := by
        rw [trimChars, List.map_reverse, List.filter_reverse]
    _ = ((((cs.dropWhile isSpace).reverse).map f).filter p).reverse := by rw [hfront]
    _ = ((cs.dropWhile isSpace).map f).filter p := by
        rw [List.map_reverse, List.filter_reverse, List.reverse_reverse]
    _ = (cs.map f).filter p := hfront cs

end ArkanGold
