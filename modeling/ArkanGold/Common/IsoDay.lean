import ArkanGold.Common.IsoText

/-!
# Calendar days as text

A column of the type `YYYY-MM-DD` is compared as text. For days of the years with four
digits the text can be read back (`parseIsoDay_formatIsoDay`), and it sorts as the days do
(`formatIsoDay_lt`).
-/

namespace ArkanGold

/-- The number that a text of digits stands for. -/
def digitsValue (v : List Char) : ℤ := (Nat.ofDigitChars 10 v 0 : ℕ)

/-- `Date.UTC` as a day: a year below 100 is one of the twentieth century. -/
def dateUtcDay (y m day : ℤ) : ℤ := dayOfCivil (if y ≤ 99 then 1900 + y else y) m day

/-- `parseIsoDay`; a date that does not exist comes back as another one. -/
def parseIsoDay (v : String) : Option ℤ :=
  match v.toList with
  | [y₁, y₂, y₃, y₄, '-', m₁, m₂, '-', d₁, d₂] =>
    if [y₁, y₂, y₃, y₄, m₁, m₂, d₁, d₂].all Char.isDigit then
      let g := (digitsValue [y₁, y₂, y₃, y₄], digitsValue [m₁, m₂], digitsValue [d₁, d₂])
      let day := dateUtcDay g.1 g.2.1 g.2.2
      if civilDate day = g then some day else none
    else none
  | _ => none

example : parseIsoDay "2025-03-21" = some 20168 := by decide

example : parseIsoDay "2025-02-30" = none := by decide

/-- The year of a day has four digits. -/
def FourDigitYear (d : ℤ) : Prop := 1000 ≤ (civilDate d).1 ∧ (civilDate d).1 ≤ 9999

instance (d : ℤ) : Decidable (FourDigitYear d) := inferInstanceAs (Decidable (_ ∧ _))

/-! ## The parts of the text -/

theorem pad_eq_zeroPadded {n : ℤ} (h : 1 ≤ n ∧ n ≤ 31) : pad n = zeroPadded 2 n.natAbs := by
  obtain ⟨h₁, h₂⟩ := h
  interval_cases n <;> decide

theorem toString_eq_zeroPadded {y : ℤ} (h : 1000 ≤ y) :
    (toString y).toList = (zeroPadded 4 y.natAbs).toList := by
  obtain ⟨n, rfl⟩ := Int.eq_ofNat_of_zero_le (by omega : 0 ≤ y)
  have hlen : ¬ (Nat.toDigits 10 n).length ≤ 3 := by
    rw [Nat.length_toDigits_le_iff (by decide) (by decide)]
    omega
  have hzeros : 4 - (Nat.toDigits 10 n).length = 0 := by omega
  rw [toList_zeroPadded]
  show (toString n).toList = List.replicate (4 - (Nat.toDigits 10 n).length) '0' ++ Nat.toDigits 10 n
  rw [hzeros, Nat.toString_eq_ofList_toDigits, String.toList_ofList]
  rfl

theorem toList_formatIsoDay {d : ℤ} (h : FourDigitYear d) : (formatIsoDay d).toList =
    (zeroPadded 4 (civilDate d).1.natAbs).toList ++ '-' ::
      ((zeroPadded 2 (civilDate d).2.1.natAbs).toList ++ '-' ::
        (zeroPadded 2 (civilDate d).2.2.natAbs).toList) := by
  obtain ⟨hm₁, hm₂, hd₁, hd₂⟩ := civilDate_range d
  have hy := toString_eq_zeroPadded h.1
  have hm := pad_eq_zeroPadded (n := (civilDate d).2.1) (by omega)
  have hd := pad_eq_zeroPadded (n := (civilDate d).2.2) (by omega)
  have hdash : ("-" : String).toList = ['-'] := rfl
  unfold formatIsoDay
  generalize civilDate d = ymd at hy hm hd ⊢
  obtain ⟨y, m, day⟩ := ymd
  simp only at hy hm hd
  simp only [String.toList_append, hy, hm, hd, hdash, List.append_assoc, List.cons_append,
    List.nil_append]

theorem zeroPadded_four {n : ℕ} (h : n < 10 ^ 4) : ∃ a b c d,
    (zeroPadded 4 n).toList = [a, b, c, d] ∧ [a, b, c, d].all Char.isDigit = true ∧
      digitsValue [a, b, c, d] = n := by
  obtain ⟨a, b, c, d, hlist⟩ := List.length_eq_four.mp (length_zeroPadded (by decide) h)
  refine ⟨a, b, c, d, hlist, ?_, ?_⟩
  · rw [← hlist, List.all_eq_true]
    exact fun c hc => isDigit_of_mem_zeroPadded hc
  · rw [digitsValue, ← hlist, ofDigitChars_zeroPadded]

theorem zeroPadded_two {n : ℕ} (h : n < 10 ^ 2) : ∃ a b, (zeroPadded 2 n).toList = [a, b] ∧
    [a, b].all Char.isDigit = true ∧ digitsValue [a, b] = n := by
  obtain ⟨a, b, hlist⟩ := List.length_eq_two.mp (length_zeroPadded (by decide) h)
  refine ⟨a, b, hlist, ?_, ?_⟩
  · rw [← hlist, List.all_eq_true]
    exact fun c hc => isDigit_of_mem_zeroPadded hc
  · rw [digitsValue, ← hlist, ofDigitChars_zeroPadded]

/-- A day is read back from its text. -/
theorem parseIsoDay_formatIsoDay {d : ℤ} (h : FourDigitYear d) :
    parseIsoDay (formatIsoDay d) = some d := by
  obtain ⟨hm₁, hm₂, hd₁, hd₂⟩ := civilDate_range d
  obtain ⟨hy₁, hy₂⟩ := h
  obtain ⟨y₁, y₂, y₃, y₄, hy, hydigits, hyvalue⟩ :=
    zeroPadded_four (n := (civilDate d).1.natAbs) (by omega)
  obtain ⟨m₁, m₂, hm, hmdigits, hmvalue⟩ :=
    zeroPadded_two (n := (civilDate d).2.1.natAbs) (by omega)
  obtain ⟨d₁, d₂, hd, hddigits, hdvalue⟩ :=
    zeroPadded_two (n := (civilDate d).2.2.natAbs) (by omega)
  have hdigits : [y₁, y₂, y₃, y₄, m₁, m₂, d₁, d₂].all Char.isDigit = true := by
    simp only [List.all_cons, List.all_nil, Bool.and_true] at hydigits hmdigits hddigits ⊢
    simp [hydigits, hmdigits, hddigits]
  have hdate : (digitsValue [y₁, y₂, y₃, y₄], digitsValue [m₁, m₂], digitsValue [d₁, d₂]) =
      civilDate d := by
    rw [hyvalue, hmvalue, hdvalue, Int.natAbs_of_nonneg (by omega), Int.natAbs_of_nonneg (by omega),
      Int.natAbs_of_nonneg (by omega)]
  have hday : dateUtcDay (digitsValue [y₁, y₂, y₃, y₄]) (digitsValue [m₁, m₂])
      (digitsValue [d₁, d₂]) = d := by
    have hyear : digitsValue [y₁, y₂, y₃, y₄] = (civilDate d).1 := congrArg Prod.fst hdate
    have hmonth : digitsValue [m₁, m₂] = (civilDate d).2.1 := congrArg (fun g => g.2.1) hdate
    have hdom : digitsValue [d₁, d₂] = (civilDate d).2.2 := congrArg (fun g => g.2.2) hdate
    rw [hyear, hmonth, hdom, dateUtcDay, if_neg (by omega), dayOfCivil_civilDate]
  simp only [parseIsoDay, toList_formatIsoDay ⟨hy₁, hy₂⟩, hy, hm, hd, List.cons_append,
    List.nil_append, hdigits, hdate, hday, if_true]

/-! ## The order of the days -/

/-- The days of the years before `y`, by years that begin in March. -/
def daysBefore (y : ℤ) : ℤ := 365 * y + y / 4 - y / 100 + y / 400

theorem daysBefore_mono {y y' : ℤ} (h : y ≤ y') : daysBefore y ≤ daysBefore y' := by
  unfold daysBefore
  omega

theorem daysBefore_succ (y : ℤ) : daysBefore (y + 1) ≤ daysBefore y + 366 := by
  unfold daysBefore
  omega

/-- A day of an era of 400 years comes before the next year begins. -/
theorem dayOfYear_lt {doe yoe : ℤ} (hdoe : 0 ≤ doe ∧ doe < 146097)
    (hyoe : (doe - doe / 1460 + doe / 36524 - doe / 146096) / 365 = yoe) :
    doe < daysBefore (yoe + 1) := by
  have hrange : 0 ≤ yoe ∧ yoe ≤ 399 := by omega
  unfold daysBefore
  generalize hc : doe / 36524 = c at hyoe
  generalize hf : doe / 146096 = f at hyoe
  generalize hg : (yoe + 1) / 100 = g
  generalize hh : (yoe + 1) / 400 = h
  obtain ⟨hc₁, hc₂⟩ : 0 ≤ c ∧ c ≤ 4 := by omega
  obtain ⟨hf₁, hf₂⟩ : 0 ≤ f ∧ f ≤ 1 := by omega
  obtain ⟨hg₁, hg₂⟩ : 0 ≤ g ∧ g ≤ 4 := by omega
  obtain ⟨hh₁, hh₂⟩ : 0 ≤ h ∧ h ≤ 1 := by omega
  interval_cases f <;> interval_cases c <;> interval_cases h <;> interval_cases g <;> omega

/-- A day by its place in a year that begins in March. -/
theorem civilDate_eq (d : ℤ) : ∃ y doy, d + 719468 = daysBefore y + doy ∧ 0 ≤ doy ∧
    daysBefore y + doy < daysBefore (y + 1) ∧
    civilDate d = (y + (if (5 * doy + 2) / 153 < 10 then 0 else 1),
      (if (5 * doy + 2) / 153 < 10 then (5 * doy + 2) / 153 + 3 else (5 * doy + 2) / 153 - 9),
      doy - (153 * ((5 * doy + 2) / 153) + 2) / 5 + 1) := by
  have hera : d + 719468 = (d + 719468) / 146097 * 146097 + (d + 719468) % 146097 := by omega
  have hdoe : 0 ≤ (d + 719468) % 146097 ∧ (d + 719468) % 146097 < 146097 := by omega
  simp only [civilDate]
  generalize (d + 719468) / 146097 = era at hera ⊢
  generalize (d + 719468) % 146097 = doe at hera hdoe ⊢
  obtain ⟨hy₁, hy₂, hd₁, hd₂⟩ := dayOfYear_range hdoe rfl
  have hnext := dayOfYear_lt hdoe rfl
  generalize (doe - doe / 1460 + doe / 36524 - doe / 146096) / 365 = yoe at *
  have hbefore (k : ℤ) : daysBefore (k + era * 400) = era * 146097 + daysBefore k := by
    unfold daysBefore
    omega
  refine ⟨yoe + era * 400, doe - (365 * yoe + yoe / 4 - yoe / 100), ?_, hd₁, ?_, ?_⟩
  · rw [hbefore, daysBefore]
    omega
  · rw [hbefore, show yoe + era * 400 + 1 = yoe + 1 + era * 400 by ring, hbefore]
    unfold daysBefore at hnext ⊢
    omega
  · have hmp : 0 ≤ (5 * (doe - (365 * yoe + yoe / 4 - yoe / 100)) + 2) / 153 ∧
        (5 * (doe - (365 * yoe + yoe / 4 - yoe / 100)) + 2) / 153 ≤ 11 := by omega
    generalize (5 * (doe - (365 * yoe + yoe / 4 - yoe / 100)) + 2) / 153 = mp at hmp ⊢
    refine Prod.ext ?_ rfl
    dsimp only
    split_ifs <;> omega

/-- Dates compare as the days do. -/
theorem civilDate_lt {d e : ℤ} (h : d < e) : (civilDate d).1 < (civilDate e).1 ∨
    (civilDate d).1 = (civilDate e).1 ∧ ((civilDate d).2.1 < (civilDate e).2.1 ∨
      (civilDate d).2.1 = (civilDate e).2.1 ∧ (civilDate d).2.2 < (civilDate e).2.2) := by
  obtain ⟨y, doy, hd, hdoy, hlt, hcivil⟩ := civilDate_eq d
  obtain ⟨y', doy', he, hdoy', hlt', hcivil'⟩ := civilDate_eq e
  have hyears : y ≤ y' := by
    by_contra hcon
    have := daysBefore_mono (show y' + 1 ≤ y by omega)
    omega
  have hyear := daysBefore_succ y
  have hyear' := daysBefore_succ y'
  rw [hcivil, hcivil']
  simp only
  rcases hyears.lt_or_eq with hlt | rfl
  · split_ifs <;> omega
  · have hle : doy < doy' := by omega
    split_ifs <;> omega

/-- The days between two days of years with four digits. -/
theorem FourDigitYear.of_mem {a b d : ℤ} (ha : FourDigitYear a) (hb : FourDigitYear b)
    (had : a ≤ d) (hdb : d ≤ b) : FourDigitYear d := by
  obtain ⟨ha, -⟩ := ha
  obtain ⟨-, hb⟩ := hb
  constructor
  · rcases had.lt_or_eq with h | rfl
    · have := civilDate_lt h
      omega
    · exact ha
  · rcases hdb.lt_or_eq with h | rfl
    · have := civilDate_lt h
      omega
    · exact hb

/-! ## The order of the texts -/

theorem digit_value_lt {c : Char} (h : c.isDigit = true) : c.toNat - '0'.toNat < 10 := by
  have hc := Char.isDigit_iff_toNat.mp h
  have hzero : '0'.toNat = 48 := rfl
  have hnine : '9'.toNat = 57 := rfl
  omega

theorem ofDigitChars_lt {l : List Char} (h : ∀ c ∈ l, c.isDigit = true) :
    Nat.ofDigitChars 10 l 0 < 10 ^ l.length := by
  induction l with
  | nil => simp
  | cons c l ih =>
    have hc := digit_value_lt (h c (List.mem_cons_self ..))
    have ih := ih fun c hc => h c (List.mem_cons_of_mem _ hc)
    rw [Nat.ofDigitChars_cons, Nat.ofDigitChars_eq_ofDigitChars_zero, List.length_cons, pow_succ]
    calc 10 ^ l.length * (10 * 0 + (c.toNat - '0'.toNat)) + Nat.ofDigitChars 10 l 0
        < 10 ^ l.length * (10 * 0 + (c.toNat - '0'.toNat)) + 10 ^ l.length :=
          Nat.add_lt_add_left ih _
      _ = 10 ^ l.length * (c.toNat - '0'.toNat + 1) := by ring
      _ ≤ 10 ^ l.length * 10 := Nat.mul_le_mul_left _ hc

/-- Numerals of one width sort as their numbers. -/
theorem append_lt_of_ofDigitChars_lt {l l' s t : List Char} (hlen : l.length = l'.length)
    (hl : ∀ c ∈ l, c.isDigit = true) (hl' : ∀ c ∈ l', c.isDigit = true)
    (h : Nat.ofDigitChars 10 l 0 < Nat.ofDigitChars 10 l' 0) : l ++ s < l' ++ t := by
  induction l generalizing l' with
  | nil =>
    obtain rfl := List.length_eq_zero_iff.mp hlen.symm
    exact absurd h (lt_irrefl _)
  | cons c l ih =>
    obtain ⟨c', l', rfl⟩ := List.exists_cons_of_length_eq_add_one hlen.symm
    rw [List.length_cons, List.length_cons, Nat.add_right_cancel_iff] at hlen
    have hrest := ofDigitChars_lt fun c hc => hl' c (List.mem_cons_of_mem _ hc)
    have hc := Char.isDigit_iff_toNat.mp (hl c (List.mem_cons_self ..))
    have hc' := Char.isDigit_iff_toNat.mp (hl' c' (List.mem_cons_self ..))
    rw [Nat.ofDigitChars_cons, Nat.ofDigitChars_eq_ofDigitChars_zero, Nat.ofDigitChars_cons,
      Nat.ofDigitChars_eq_ofDigitChars_zero (l := l'), hlen, mul_zero, zero_add, zero_add] at h
    rw [List.cons_append, List.cons_append, List.cons_lt_cons_iff]
    rcases lt_trichotomy c.toNat c'.toNat with hlt | heq | hgt
    · exact .inl hlt
    · have hcc : c = c' := Char.toNat_inj.mp heq
      subst hcc
      exact .inr ⟨rfl, ih hlen (fun c hc => hl c (List.mem_cons_of_mem _ hc))
        (fun c hc => hl' c (List.mem_cons_of_mem _ hc)) (by omega)⟩
    · -- a larger first digit makes a larger number
      have hle : 10 ^ l'.length * (c'.toNat - '0'.toNat + 1) ≤
          10 ^ l'.length * (c.toNat - '0'.toNat) := Nat.mul_le_mul_left _ (by omega)
      rw [Nat.mul_succ] at hle
      omega

theorem zeroPadded_append_lt {k m n : ℕ} {s t : List Char} (hk : 0 < k) (hm : m < 10 ^ k)
    (hn : n < 10 ^ k) (h : m < n ∨ m = n ∧ s < t) :
    (zeroPadded k m).toList ++ s < (zeroPadded k n).toList ++ t := by
  rcases h with hlt | ⟨rfl, hlt⟩
  · refine append_lt_of_ofDigitChars_lt ?_ (fun c hc => isDigit_of_mem_zeroPadded hc)
      (fun c hc => isDigit_of_mem_zeroPadded hc) ?_
    · rw [length_zeroPadded hk hm, length_zeroPadded hk hn]
    · rwa [ofDigitChars_zeroPadded, ofDigitChars_zeroPadded]
  · exact List.append_left_lt hlt

/-- The texts of two days sort as the days. -/
theorem formatIsoDay_lt {d e : ℤ} (hd : FourDigitYear d) (he : FourDigitYear e) (h : d < e) :
    formatIsoDay d < formatIsoDay e := by
  rw [String.lt_iff_toList_lt, toList_formatIsoDay hd, toList_formatIsoDay he]
  have hrange := civilDate_range d
  have hrange' := civilDate_range e
  have hdate := civilDate_lt h
  obtain ⟨hd₁, hd₂⟩ := hd
  obtain ⟨he₁, he₂⟩ := he
  refine zeroPadded_append_lt (by decide) (by omega) (by omega) ?_
  rcases hdate with hy | ⟨hy, hrest⟩
  · exact .inl (by omega)
  refine .inr ⟨by rw [hy], List.cons_lt_cons_iff.mpr (.inr ⟨rfl, ?_⟩)⟩
  refine zeroPadded_append_lt (by decide) (by omega) (by omega) ?_
  rcases hrest with hm | ⟨hm, hday⟩
  · exact .inl (by omega)
  refine .inr ⟨by rw [hm], List.cons_lt_cons_iff.mpr (.inr ⟨rfl, ?_⟩)⟩
  have hlt := zeroPadded_append_lt (s := []) (t := []) (k := 2) (by decide)
    (show (civilDate d).2.2.natAbs < 10 ^ 2 by omega)
    (show (civilDate e).2.2.natAbs < 10 ^ 2 by omega) (.inl (by omega))
  simpa only [List.append_nil] using hlt

/-- The order of the texts gives back the order of the days. -/
theorem formatIsoDay_le_iff {d e : ℤ} (hd : FourDigitYear d) (he : FourDigitYear e) :
    formatIsoDay d ≤ formatIsoDay e ↔ d ≤ e := by
  constructor
  · intro h
    by_contra hcon
    exact absurd (formatIsoDay_lt he hd (not_le.mp hcon)) (not_lt.mpr h)
  · intro h
    rcases h.lt_or_eq with hlt | rfl
    · exact (formatIsoDay_lt hd he hlt).le
    · exact le_rfl

end ArkanGold
