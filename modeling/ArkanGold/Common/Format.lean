import Mathlib

/-!
# Numbers in messages

How the messages of the services write numbers: decimals as `Decimal.toString` does,
amounts of money as `toLocaleString` does, in Latin or in Persian digits, and
identifiers padded with zeros.
-/

namespace ArkanGold

/-- The number of decimal places of `q`, at most twenty. -/
def decimalPlaces (q : ℚ) : ℕ :=
  ((List.range 20).find? fun k => (q * 10 ^ k).den == 1).getD 20

/-- `padStart(n, '0')` -/
def padZeros (n : ℕ) (v : String) : String :=
  String.ofList (List.replicate (n - v.length) '0') ++ v

/-- `Decimal.toString` -/
def formatDecimal (q : ℚ) : String :=
  let k := decimalPlaces q
  let n := (|q| * 10 ^ k).floor.toNat
  let sign := if q < 0 then "-" else ""
  let whole := toString (n / 10 ^ k)
  if k = 0 then sign ++ whole else sign ++ whole ++ "." ++ padZeros k (toString (n % 10 ^ k))

example : formatDecimal (-37 / 25) = "-1.48" := by decide +kernel

/-- The digits of a number in groups of three. -/
def groupDigits (sep : Char) (n : ℕ) : List Char :=
  let rec go : List Char → List Char
    | a :: b :: c :: d :: rest => a :: b :: c :: sep :: go (d :: rest)
    | short => short
  (go (Nat.toDigits 10 n).reverse).reverse

/-- `toLocaleString`: groups of three and at most three places. -/
def localeString (group point : Char) (q : ℚ) : String :=
  let n := (round (|q| * 1000)).toNat
  let frac := (padZeros 3 (toString (n % 1000))).toList.reverse.dropWhile (· == '0')
  let sign := if q < 0 ∧ n ≠ 0 then "-" else ""
  let whole := groupDigits group (n / 1000)
  sign ++ String.ofList (if frac.isEmpty then whole else whole ++ point :: frac.reverse)

/-- `toLocaleString('en-US')` -/
def localeEn (q : ℚ) : String := localeString ',' '.' q

example : localeEn 1234567.5 = "1,234,567.5" := by decide +kernel

/-- `toPersianDigits` -/
def toPersianDigits (v : String) : String :=
  v.map fun c => if c.isDigit then Char.ofNat (c.toNat - '0'.toNat + 0x06F0) else c

/-- `toLocaleString('fa-IR')` -/
def localeFa (q : ℚ) : String := toPersianDigits (localeString '٬' '٫' q)

end ArkanGold
