import ArkanGold.Common.Iban

/-!
# Check digits of an IBAN

A bank can always find the two check digits of an account, and there is no choice: of the numbers
from 2 to 98 that the standard has for them, `isValidIranIban` accepts exactly one.
-/

namespace ArkanGold

namespace IbanUtil

/-- A number below a hundred in two digits. -/
def twoDigits (k : ℕ) : List Char := [Char.ofNat (48 + k / 10), Char.ofNat (48 + k % 10)]

theorem digit_ofNat : ∀ d < 10, (Char.ofNat (48 + d)).isDigit = true ∧
    digitValue (Char.ofNat (48 + d)) = d := by
  decide

theorem twoDigits_spec (k : ℕ) (hk : k < 100) : (∀ c ∈ twoDigits k, c.isDigit = true) ∧
    Positional.number 10 ((twoDigits k).map digitValue) = k := by
  obtain ⟨htens, htens'⟩ := digit_ofNat (k / 10) (by omega)
  obtain ⟨hones, hones'⟩ := digit_ofNat (k % 10) (by omega)
  constructor
  · simp [twoDigits, htens, hones]
  · simp only [twoDigits, List.map_cons, List.map_nil, htens', hones', Positional.number,
      List.foldl_cons, List.foldl_nil]
    omega

/-- An account at a bank: the 22 digits behind the check digits. -/
structure Bban where
  digits : List Char
  length : digits.length = 22
  isDigit : ∀ c ∈ digits, c.isDigit = true

/-- The IBAN of an account with the check digits `k`. -/
def Bban.iban (y : Bban) (k : Fin 100) : Iban where
  digits := twoDigits k ++ y.digits
  length := by rw [List.length_append, y.length]; rfl
  isDigit := by
    intro c hc
    rcases List.mem_append.mp hc with hcheck | haccount
    · exact (twoDigits_spec k k.isLt).1 c hcheck
    · exact y.isDigit c haccount

/-- The integer that is checked: the account, the letters and the check digits. -/
theorem rearranged_iban (y : Bban) (k : Fin 100) :
    (y.iban k).rearranged =
      Positional.number 10 (y.digits.map digitValue) * 10 ^ 6 + 182700 + k := by
  have hdrop : (twoDigits k ++ y.digits).drop 2 = y.digits := rfl
  have htake : (twoDigits k ++ y.digits).take 2 = twoDigits k := rfl
  have hletters : Positional.number 10 (['1', '8', '2', '7'].map digitValue) = 1827 := by decide
  rw [Iban.rearranged, ← Positional.number_eq_ofDigits, Bban.iban, Iban.rearrangedDigits, hdrop,
    htake, List.map_append, List.map_append, Positional.number_append, Positional.number_append,
    hletters, (twoDigits_spec k k.isLt).2]
  simp only [twoDigits, List.length_map, List.length_cons, List.length_nil]
  ring

/-- Every account has exactly one pair of check digits. -/
theorem check_digits_unique (y : Bban) :
    ∃! k : Fin 100, 2 ≤ (k : ℕ) ∧ (k : ℕ) ≤ 98 ∧ isValidIranIban (y.iban k).text = true := by
  have hvalid : ∀ k : Fin 100, isValidIranIban (y.iban k).text = true ↔
      (Positional.number 10 (y.digits.map digitValue) * 10 ^ 6 + 182700 + k) % 97 = 1 := by
    intro k
    rw [isValid_text, rearranged_iban]
  generalize Positional.number 10 (y.digits.map digitValue) * 10 ^ 6 + 182700 = n at hvalid
  -- 98 is 1 modulo 97, so this takes the account and the letters away again
  have hlt : 98 - n % 97 < 100 := by omega
  refine ⟨⟨98 - n % 97, hlt⟩, ⟨?_, ?_, (hvalid _).mpr ?_⟩, ?_⟩
  · show 2 ≤ 98 - n % 97
    omega
  · show 98 - n % 97 ≤ 98
    omega
  · show (n + (98 - n % 97)) % 97 = 1
    omega
  · rintro k ⟨hlow, hhigh, hk⟩
    have hmod := (hvalid k).mp hk
    apply Fin.ext
    show (k : ℕ) = 98 - n % 97
    omega

end IbanUtil

end ArkanGold
