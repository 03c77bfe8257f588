import ArkanGold.Common.Basics
import ArkanGold.Common.Format

/-!
# Instants as text

`toISOString` and what it takes to read an instant off its text: the parts of a date
determine the day (`dayOfCivil`), and every part of the text but the year has a fixed
width.
-/

namespace ArkanGold

/-- The day of a Gregorian date. -/
def dayOfCivil (y m day : ℤ) : ℤ :=
  let y' := if m ≤ 2 then y - 1 else y
  let mp := if m ≤ 2 then m + 9 else m - 3
  let yoe := y' % 400
  let doe := 365 * yoe + yoe / 4 - yoe / 100 + ((153 * mp + 2) / 5 + day - 1)
  y' / 400 * 146097 + doe - 719468

/-- The year of the era and the day of the year, for a day of an era of 400 years. -/
theorem dayOfYear_range {doe yoe : ℤ} (hdoe : 0 ≤ doe ∧ doe < 146097)
    (hyoe : (doe - doe / 1460 + doe / 36524 - doe / 146096) / 365 = yoe) :
    0 ≤ yoe ∧ yoe ≤ 399 ∧ 0 ≤ doe - (365 * yoe + yoe / 4 - yoe / 100) ∧
      doe - (365 * yoe + yoe / 4 - yoe / 100) ≤ 365 := by
  have hrange : 0 ≤ yoe ∧ yoe ≤ 399 := by omega
  refine ⟨hrange.1, hrange.2, ?_⟩
  -- century by century, the leap years are a matter of linear arithmetic
  generalize hc : doe / 36524 = c at hyoe
  generalize hf : doe / 146096 = f at hyoe
  generalize hg : yoe / 100 = g
  obtain ⟨hc₁, hc₂⟩ : 0 ≤ c ∧ c ≤ 4 := by omega
  obtain ⟨hf₁, hf₂⟩ : 0 ≤ f ∧ f ≤ 1 := by omega
  obtain ⟨hg₁, hg₂⟩ : 0 ≤ g ∧ g ≤ 3 := by omega
  interval_cases f <;> interval_cases c <;> interval_cases g <;> omega

theorem dayOfCivil_civilDate (d : ℤ) :
    dayOfCivil (civilDate d).1 (civilDate d).2.1 (civilDate d).2.2 = d := by
  simp only [civilDate]
  have hera : d + 719468 = (d + 719468) / 146097 * 146097 + (d + 719468) % 146097 := by omega
  generalize (d + 719468) / 146097 = era at hera ⊢
  have hdoe : 0 ≤ (d + 719468) % 146097 ∧ (d + 719468) % 146097 < 146097 := by omega
  generalize (d + 719468) % 146097 = doe at hera hdoe ⊢
  obtain ⟨hy₁, hy₂, hd₁, hd₂⟩ := dayOfYear_range hdoe rfl
  generalize (doe - doe / 1460 + doe / 36524 - doe / 146096) / 365 = yoe at *
  generalize hdoy : doe - (365 * yoe + yoe / 4 - yoe / 100) = doy at *
  have hyear : (yoe + era * 400) % 400 = yoe := by omega
  have hera' : (yoe + era * 400) / 400 = era := by omega
  obtain hmp | hmp : (5 * doy + 2) / 153 < 10 ∨ 10 ≤ (5 * doy + 2) / 153 := lt_or_ge _ _
  · have hm : ¬ (5 * doy + 2) / 153 + 3 ≤ 2 := by omega
    simp only [dayOfCivil, if_pos hmp, if_neg hm, add_zero, hyear, hera']
    omega
  · have hm : (5 * doy + 2) / 153 - 9 ≤ 2 := by omega
    simp only [dayOfCivil, if_neg (not_lt.mpr hmp), if_pos hm, add_sub_cancel_right, hyear, hera']
    omega

theorem civilDate_injective : Function.Injective civilDate := by
  intro d e h
  rw [← dayOfCivil_civilDate d, h, dayOfCivil_civilDate e]

theorem civilDate_range (d : ℤ) : 1 ≤ (civilDate d).2.1 ∧ (civilDate d).2.1 ≤ 12 ∧
    1 ≤ (civilDate d).2.2 ∧ (civilDate d).2.2 ≤ 31 := by
  simp only [civilDate]
  have hdoe : 0 ≤ (d + 719468) % 146097 ∧ (d + 719468) % 146097 < 146097 := by omega
  generalize (d + 719468) % 146097 = doe at hdoe ⊢
  obtain ⟨hy₁, hy₂, hd₁, hd₂⟩ := dayOfYear_range hdoe rfl
  generalize (doe - doe / 1460 + doe / 36524 - doe / 146096) / 365 = yoe at *
  generalize doe - (365 * yoe + yoe / 4 - yoe / 100) = doy at *
  split_ifs <;> omega

/-! ## Numerals of fixed width -/

/-- A number with zeros in front. -/
def zeroPadded (k n : ℕ) : String := padZeros k (toString n)

theorem toList_zeroPadded (k n : ℕ) : (zeroPadded k n).toList =
    List.replicate (k - (Nat.toDigits 10 n).length) '0' ++ Nat.toDigits 10 n := by
  have hlen : (toString n).length = (Nat.toDigits 10 n).length := by
    rw [← String.length_toList, Nat.toString_eq_ofList_toDigits, String.toList_ofList]
  rw [zeroPadded, padZeros, String.toList_append, String.toList_ofList, hlen,
    Nat.toString_eq_ofList_toDigits, String.toList_ofList]

theorem length_zeroPadded {k n : ℕ} (hk : 0 < k) (h : n < 10 ^ k) :
    (zeroPadded k n).toList.length = k := by
  have hlen := (Nat.length_toDigits_le_iff (b := 10) (by decide) hk).mpr h
  rw [toList_zeroPadded, List.length_append, List.length_replicate]
  omega

/-- A numeral reads as its number. -/
theorem ofDigitChars_zeroPadded (k n : ℕ) :
    Nat.ofDigitChars 10 (zeroPadded k n).toList 0 = n := by
  rw [toList_zeroPadded, Nat.ofDigitChars_append, Nat.ofDigitChars_replicate_zero, mul_zero,
    Nat.ofDigitChars_ten_toDigits]

theorem zeroPadded_inj (k : ℕ) {m n : ℕ}
    (h : (zeroPadded k m).toList = (zeroPadded k n).toList) : m = n := by
  rw [← ofDigitChars_zeroPadded k m, h, ofDigitChars_zeroPadded]

/-- A numeral of known width can be cut off a text. -/
theorem zeroPadded_append_inj {k m n : ℕ} {s t : List Char} (hk : 0 < k) (hm : m < 10 ^ k)
    (hn : n < 10 ^ k) (h : (zeroPadded k m).toList ++ s = (zeroPadded k n).toList ++ t) :
    m = n ∧ s = t := by
  have hlen : (zeroPadded k m).toList.length = (zeroPadded k n).toList.length := by
    rw [length_zeroPadded hk hm, length_zeroPadded hk hn]
  obtain ⟨hchars, hrest⟩ := List.append_inj h hlen
  exact ⟨zeroPadded_inj k hchars, hrest⟩

theorem isDigit_of_mem_zeroPadded {k n : ℕ} {c : Char} (h : c ∈ (zeroPadded k n).toList) :
    c.isDigit = true := by
  rw [toList_zeroPadded, List.mem_append] at h
  rcases h with h | h
  · rw [List.eq_of_mem_replicate h]
    rfl
  · exact Nat.isDigit_of_mem_toDigits (by decide) (by decide) h

/-! ## The text of an instant -/

/-- The year in `toISOString`: four digits, or a sign and six. -/
def isoYear (y : ℤ) : String :=
  if y < 0 then "-" ++ zeroPadded 6 y.natAbs
  else if y ≤ 9999 then zeroPadded 4 y.natAbs
  else "+" ++ zeroPadded 6 y.natAbs

/-- The time of day in `toISOString`, from the milliseconds of the day. -/
def isoTime (ms : ℕ) : String :=
  "T" ++ zeroPadded 2 (ms / 3600000) ++ ":" ++ zeroPadded 2 (ms / 60000 % 60) ++ ":" ++
    zeroPadded 2 (ms / 1000 % 60) ++ "." ++ zeroPadded 3 (ms % 1000) ++ "Z"

/-- `toISOString` -/
def toISOString (t : ℤ) : String :=
  let (y, m, day) := civilDate (storedDay t)
  isoYear y ++ "-" ++ zeroPadded 2 m.natAbs ++ "-" ++ zeroPadded 2 day.natAbs ++
    isoTime (t % dayMs).natAbs

example : toISOString 1750000000123 = "2025-06-15T15:06:40.123Z" := by decide

/-- The year that a text of `isoYear` stands for. -/
def readYear : List Char → ℤ
  | '-' :: rest => -(Nat.ofDigitChars 10 rest 0 : ℕ)
  | '+' :: rest => (Nat.ofDigitChars 10 rest 0 : ℕ)
  | digits => (Nat.ofDigitChars 10 digits 0 : ℕ)

theorem readYear_isoYear (y : ℤ) : readYear (isoYear y).toList = y := by
  unfold isoYear
  split_ifs with hneg hshort
  · rw [String.toList_append]
    show -((Nat.ofDigitChars 10 (zeroPadded 6 y.natAbs).toList 0 : ℕ) : ℤ) = y
    rw [ofDigitChars_zeroPadded]
    omega
  · have hread : readYear (zeroPadded 4 y.natAbs).toList =
        (Nat.ofDigitChars 10 (zeroPadded 4 y.natAbs).toList 0 : ℕ) := by
      -- a digit is no sign
      have hdigit (c : Char) (h : c ∈ (zeroPadded 4 y.natAbs).toList) : c.isDigit = true :=
        isDigit_of_mem_zeroPadded h
      unfold readYear
      split
      · rename_i rest h
        rw [h] at hdigit
        exact absurd (hdigit '-' (List.mem_cons_self ..)) (by decide)
      · rename_i rest h
        rw [h] at hdigit
        exact absurd (hdigit '+' (List.mem_cons_self ..)) (by decide)
      · rfl
    rw [hread, ofDigitChars_zeroPadded]
    omega
  · rw [String.toList_append]
    show ((Nat.ofDigitChars 10 (zeroPadded 6 y.natAbs).toList 0 : ℕ) : ℤ) = y
    rw [ofDigitChars_zeroPadded]
    omega

theorem length_isoTime {ms : ℕ} (h : ms < 86400000) : (isoTime ms).toList.length = 14 := by
  have h₁ := length_zeroPadded (k := 2) (n := ms / 3600000) (by decide) (by omega)
  have h₂ := length_zeroPadded (k := 2) (n := ms / 60000 % 60) (by decide) (by omega)
  have h₃ := length_zeroPadded (k := 2) (n := ms / 1000 % 60) (by decide) (by omega)
  have h₄ := length_zeroPadded (k := 3) (n := ms % 1000) (by decide) (by omega)
  simp only [isoTime, String.toList_append, List.length_append, h₁, h₂, h₃, h₄]
  rfl

theorem isoTime_inj {m n : ℕ} (hm : m < 86400000) (hn : n < 86400000)
    (h : (isoTime m).toList = (isoTime n).toList) : m = n := by
  simp only [isoTime, String.toList_append, List.append_assoc] at h
  obtain ⟨hhour, h⟩ := zeroPadded_append_inj (by decide) (by omega) (by omega)
    (List.append_cancel_left h)
  obtain ⟨hminute, h⟩ := zeroPadded_append_inj (by decide) (by omega) (by omega)
    (List.append_cancel_left h)
  obtain ⟨hsecond, h⟩ := zeroPadded_append_inj (by decide) (by omega) (by omega)
    (List.append_cancel_left h)
  obtain ⟨hms, -⟩ := zeroPadded_append_inj (by decide) (by omega) (by omega)
    (List.append_cancel_left h)
  omega

/-- A text determines its instant. -/
theorem toISOString_injective : Function.Injective toISOString := by
  intro t u h
  have hchars := congrArg String.toList h
  have hmonth := civilDate_range (storedDay t)
  have hmonth' := civilDate_range (storedDay u)
  have ht : (t % dayMs).natAbs < 86400000 := by
    unfold dayMs
    omega
  have hu : (u % dayMs).natAbs < 86400000 := by
    unfold dayMs
    omega
  have hsame : civilDate (storedDay t) = civilDate (storedDay u) → storedDay t = storedDay u :=
    fun heq => civilDate_injective heq
  unfold toISOString at hchars
  generalize civilDate (storedDay t) = ymd at hchars hmonth hsame
  generalize civilDate (storedDay u) = ymd' at hchars hmonth' hsame
  obtain ⟨y, m, day⟩ := ymd
  obtain ⟨y', m', day'⟩ := ymd'
  simp only at hmonth hmonth'
  have hlen (m : ℤ) (hm : 1 ≤ m ∧ m ≤ 31) : (zeroPadded 2 m.natAbs).toList.length = 2 :=
    length_zeroPadded (by decide) (by omega)
  simp only [String.toList_append, List.append_assoc] at hchars
  obtain ⟨hy, hrest⟩ := List.append_inj' hchars (by
    simp only [List.length_append, hlen m (by omega), hlen m' (by omega), hlen day (by omega),
      hlen day' (by omega), length_isoTime ht, length_isoTime hu])
  obtain ⟨hm, hrest⟩ := zeroPadded_append_inj (by decide) (by omega) (by omega)
    (List.append_cancel_left hrest)
  obtain ⟨hday, hrest⟩ := zeroPadded_append_inj (by decide) (by omega) (by omega)
    (List.append_cancel_left hrest)
  have hyear : y = y' := by rw [← readYear_isoYear y, hy, readYear_isoYear]
  have hdate : storedDay t = storedDay u := hsame (by ext <;> simp <;> omega)
  have htime := isoTime_inj ht hu hrest
  unfold storedDay dayMs at *
  omega

end ArkanGold
