import ArkanGold.Common.IsoText
import ArkanGold.Common.Text

/-!
# Working days

`parseHolidays`, `isWorkingDay` and `addWorkingDays` of `jalali.util`, on days: a date is the number
of its day on the local calendar, the time of day is kept by all of them.

- The holidays are parsed into Persian digits, and a date is looked up among them in Latin digits, so
  none is ever found (`isWorkingDay_parseHolidays`).
- `EarliestDay` is the day that `addWorkingDays` is to return. `holidays_honoured_iff` says on
  which listed days, and from which dates, the code does what the holidays ask for.
-/

namespace ArkanGold

namespace JalaliUtil

/-- The date of `jalaali.toJalaali`. -/
structure JalaliDate where
  jy : ℤ
  jm : ℕ
  jd : ℕ
  deriving DecidableEq

/-- `getDay() === 5`; day 0 was a Thursday. -/
def isFriday (d : ℤ) : Bool := (d + 4) % 7 == 5

/-- `${jy}/${pad(jm)}/${pad(jd)}` -/
def jalaliKey (j : JalaliDate) : String :=
  toString j.jy ++ "/" ++ zeroPadded 2 j.jm ++ "/" ++ zeroPadded 2 j.jd

/-- `toEnglishDigits` -/
def toEnglishDigits (v : String) : String :=
  (v.map (latinDigit persianZero)).map (latinDigit arabicZero)

/-- `raw.split(',')` -/
def entries (raw : Option String) : List String :=
  match raw with
  | none => []
  | some raw => (raw.toList.splitOn ',').map String.ofList

/-- `parseHolidays` -/
def parseHolidays (raw : Option String) : List String :=
  ((entries raw).map fun s => toPersianDigits (toEnglishDigits (trimText s))).filter (· ≠ "")

variable (toJalaali : ℤ → JalaliDate)

/-- `isWorkingDay` -/
def isWorkingDay (d : ℤ) (holidays : List String) : Bool :=
  if isFriday d then false else !holidays.contains (jalaliKey (toJalaali d))

/-- The loop of `addWorkingDays`, with the rounds left. -/
def addLoop (working : ℤ → Bool) (days : ℕ) : ℕ → ℤ → ℕ → ℤ
  | 0, result, _ => result
  | guard + 1, result, added =>
    if added < days then
      addLoop working days guard (result + 1) (if working (result + 1) then added + 1 else added)
    else result

/-- `addWorkingDays` -/
def addWorkingDays (start : ℤ) (days : ℕ) (holidays : List String) : ℤ :=
  addLoop (fun d => isWorkingDay toJalaali d holidays) days 365 start 0

/-- The configuration lists the date of the day, in digits of any script. -/
def Lists (raw : Option String) (d : ℤ) : Prop :=
  ∃ s ∈ entries raw, toEnglishDigits (trimText s) = jalaliKey (toJalaali d)

instance (raw : Option String) : DecidablePred (Lists toJalaali raw) := fun d =>
  inferInstanceAs (Decidable (∃ s ∈ entries raw,
    toEnglishDigits (trimText s) = jalaliKey (toJalaali d)))

/-- The number of days after `start` up to `d` that meet a condition. -/
noncomputable def countDays (p : ℤ → Bool) (start d : ℤ) : ℕ :=
  ((Finset.Ioc start d).filter (p · = true)).card

/-- The first day up to which there are `n` days that meet a condition. -/
structure EarliestDay (p : ℤ → Bool) (start : ℤ) (n : ℕ) (d : ℤ) : Prop where
  later : start < d
  count : countDays p start d = n
  earliest : ∀ e, start < e → e < d → countDays p start e ≠ n

/-- A day that is no Friday and not listed. -/
def isOpen (raw : Option String) (d : ℤ) : Bool := !isFriday d && !decide (Lists toJalaali raw d)

variable {toJalaali} {p : ℤ → Bool} {start d e : ℤ} {n : ℕ}

/-! ## Digits -/

/-- The Persian digits are no Latin ones. -/
theorem isDigit_toPersianDigit (c : Char) :
    (if c.isDigit then Char.ofNat (c.toNat - '0'.toNat + 0x06F0) else c).isDigit = false := by
  split
  case isFalse h => simpa using h
  case isTrue h =>
    have hrange : 48 ≤ c.toNat ∧ c.toNat ≤ 57 := by
      simpa [Char.isDigit, UInt32.le_iff_toNat_le] using h
    obtain ⟨hlow, hhigh⟩ := hrange
    have hzero : '0'.toNat = 48 := rfl
    rw [hzero]
    interval_cases c.toNat <;> rfl

/-- Nothing that is parsed has a Latin digit. -/
theorem not_isDigit_of_mem_parseHolidays {raw : Option String} {h : String}
    (hmem : h ∈ parseHolidays raw) {c : Char} (hc : c ∈ h.toList) : c.isDigit = false := by
  obtain ⟨hmem, -⟩ := List.mem_filter.mp hmem
  obtain ⟨s, -, rfl⟩ := List.mem_map.mp hmem
  rw [toPersianDigits, String.toList_map] at hc
  obtain ⟨b, -, rfl⟩ := List.mem_map.mp hc
  exact isDigit_toPersianDigit b

/-- A key has Latin digits. -/
theorem exists_isDigit_jalaliKey (j : JalaliDate) : ∃ c ∈ (jalaliKey j).toList, c.isDigit = true := by
  have hne : (zeroPadded 2 j.jd).toList ≠ [] := by
    rw [toList_zeroPadded]
    exact List.append_ne_nil_of_right_ne_nil _ (Nat.toDigits_ne_nil)
  obtain ⟨c, hc⟩ := List.exists_mem_of_ne_nil _ hne
  refine ⟨c, ?_, isDigit_of_mem_zeroPadded hc⟩
  rw [jalaliKey, String.toList_append]
  exact List.mem_append_right _ hc

/-- No holiday is found: only Fridays are off. -/
theorem isWorkingDay_parseHolidays (raw : Option String) (d : ℤ) :
    isWorkingDay toJalaali d (parseHolidays raw) = !isFriday d := by
  have hnone : (parseHolidays raw).contains (jalaliKey (toJalaali d)) = false := by
    by_contra hcontains
    have hmem : jalaliKey (toJalaali d) ∈ parseHolidays raw := by simpa using hcontains
    obtain ⟨c, hc, hdigit⟩ := exists_isDigit_jalaliKey (toJalaali d)
    rw [not_isDigit_of_mem_parseHolidays hmem hc] at hdigit
    cases hdigit
  rw [isWorkingDay, hnone]
  cases isFriday d <;> rfl

/-! ## Counting days -/

theorem countDays_self (p : ℤ → Bool) (start : ℤ) : countDays p start start = 0 := by
  simp [countDays]

theorem countDays_succ (h : start ≤ d) :
    countDays p start (d + 1) = countDays p start d + if p (d + 1) then 1 else 0 := by
  have hinsert : Finset.Ioc start (d + 1) = insert (d + 1) (Finset.Ioc start d) := by
    ext x
    simp only [Finset.mem_Ioc, Finset.mem_insert]
    omega
  rw [countDays, hinsert, Finset.filter_insert]
  split
  case isTrue => rw [Finset.card_insert_of_notMem (by simp), countDays]
  case isFalse => rw [add_zero, countDays]

/-- What meets a stronger condition is counted by a weaker one. -/
theorem countDays_mono {q : ℤ → Bool} (h : ∀ e, p e = true → q e = true) :
    countDays p start d ≤ countDays q start d :=
  Finset.card_le_card fun x hx => by
    rw [Finset.mem_filter] at hx ⊢
    exact ⟨hx.1, h x hx.2⟩

/-- Equal counts leave no day that meets only the weaker condition. -/
theorem countDays_eq_iff {q : ℤ → Bool} (h : ∀ e, p e = true → q e = true) :
    countDays p start d = countDays q start d ↔
      ∀ e, start < e → e ≤ d → q e = true → p e = true := by
  have hsub : (Finset.Ioc start d).filter (p · = true) ⊆ (Finset.Ioc start d).filter (q · = true) :=
    fun x hx => by
      rw [Finset.mem_filter] at hx ⊢
      exact ⟨hx.1, h x hx.2⟩
  constructor
  · intro hcount e hlow hhigh hq
    have hmem : e ∈ (Finset.Ioc start d).filter (q · = true) := by simp [hlow, hhigh, hq]
    rw [← Finset.eq_of_subset_of_card_le hsub hcount.ge] at hmem
    exact (Finset.mem_filter.mp hmem).2
  · intro hall
    refine le_antisymm (countDays_mono h) (Finset.card_le_card fun x hx => ?_)
    rw [Finset.mem_filter, Finset.mem_Ioc] at hx ⊢
    exact ⟨hx.1, hall x hx.1.1 hx.1.2 hx.2⟩

/-! ## The loop -/

/-- The loop stops at the day that is asked for, if the rounds last until then. -/
theorem addLoop_eq (hday : EarliestDay p start n d) {guard : ℕ} {x : ℤ} {added : ℕ}
    (hstart : start ≤ x) (hx : x < d) (hguard : d - x ≤ guard)
    (hadded : countDays p start x = added) (hmore : added < n) :
    addLoop p n guard x added = d := by
  induction guard generalizing x added with
  | zero =>
    have hnone : d - x ≤ 0 := hguard
    omega
  | succ guard ih =>
    rw [addLoop, if_pos hmore]
    have hnext : countDays p start (x + 1) = if p (x + 1) then added + 1 else added := by
      rw [countDays_succ hstart, hadded]
      split <;> rfl
    generalize (if p (x + 1) then added + 1 else added) = a at hnext
    have ha : a ≤ n := by
      have hsucc := countDays_succ (p := p) hstart
      split at hsucc <;> omega
    rcases ha.eq_or_lt with rfl | ha
    · -- the last day that was missing
      have hd : x + 1 = d := by
        by_contra hne
        exact hday.earliest (x + 1) (by omega) (by omega) hnext
      cases guard with
      | zero => exact hd
      | succ guard => rw [addLoop, if_neg (lt_irrefl _), hd]
    · have hne : x + 1 ≠ d := by
        rintro hd
        rw [hd, hday.count] at hnext
        omega
      exact ih (by omega) (by omega) (by push_cast at hguard; omega) hnext ha

/-- The loop never counts more days than asked for. -/
theorem countDays_addLoop_le {guard : ℕ} {x : ℤ} {added : ℕ} (hstart : start ≤ x)
    (hadded : countDays p start x = added) (hle : added ≤ n) :
    countDays p start (addLoop p n guard x added) ≤ n := by
  induction guard generalizing x added with
  | zero => exact hadded.trans_le hle
  | succ guard ih =>
    rw [addLoop]
    split
    case isFalse => exact hadded.trans_le hle
    case isTrue hmore =>
      have hnext : countDays p start (x + 1) = if p (x + 1) then added + 1 else added := by
        rw [countDays_succ hstart, hadded]
        split <;> rfl
      refine ih (by omega) hnext ?_
      split <;> omega

/-! ## Holidays -/

/-- A listed day is off exactly when it is a Friday. And the day that is `n` open days later is
returned exactly when no day listed until then is other than a Friday. -/
theorem holidays_honoured_iff (toJalaali : ℤ → JalaliDate) (raw : Option String) :
    (∀ d, Lists toJalaali raw d →
      (isWorkingDay toJalaali d (parseHolidays raw) = false ↔ isFriday d = true)) ∧
    ∀ start n d, 1 ≤ n → EarliestDay (isOpen toJalaali raw) start n d → d ≤ start + 365 →
      (addWorkingDays toJalaali start n (parseHolidays raw) = d ↔
        ∀ e, start < e → e ≤ d → Lists toJalaali raw e → isFriday e = true) := by
  refine ⟨fun d _ => ?_, fun start n d hn hday hlast => ?_⟩
  · rw [isWorkingDay_parseHolidays, Bool.not_eq_false']
  have hworking : addWorkingDays toJalaali start n (parseHolidays raw) =
      addLoop (fun d => !isFriday d) n 365 start 0 :=
    congrArg (fun p => addLoop p n 365 start 0) (funext (isWorkingDay_parseHolidays raw))
  have hopen : ∀ e, isOpen toJalaali raw e = true → (!isFriday e) = true := fun e he =>
    (Bool.and_eq_true_iff.mp he).1
  -- the two conditions count the same days until `d` when all listed ones are Fridays
  have hsame : ∀ e, (∀ x, start < x → x ≤ e → Lists toJalaali raw x → isFriday x = true) ↔
      countDays (isOpen toJalaali raw) start e = countDays (fun x => !isFriday x) start e := by
    intro e
    rw [countDays_eq_iff hopen]
    refine forall_congr' fun x => forall_congr' fun _ => forall_congr' fun _ => ?_
    by_cases hlists : Lists toJalaali raw x <;> cases hfriday : isFriday x <;>
      simp [isOpen, hlists, hfriday]
  rw [hworking]
  constructor
  · intro hd
    refine (hsame d).mpr (le_antisymm (countDays_mono hopen) ?_)
    rw [hday.count, ← hd]
    exact countDays_addLoop_le le_rfl (countDays_self _ _) (Nat.zero_le _)
  · intro hlisted
    have hcount : ∀ e, e ≤ d → countDays (fun x => !isFriday x) start e =
        countDays (isOpen toJalaali raw) start e := fun e he =>
      ((hsame e).mp fun x hlow hhigh => hlisted x hlow (hhigh.trans he)).symm
    refine addLoop_eq ⟨hday.later, (hcount d le_rfl).trans hday.count, fun e hlow hhigh => ?_⟩ le_rfl
      hday.later (by omega) (countDays_self _ _) hn
    rw [hcount e hhigh.le]
    exact hday.earliest e hlow hhigh

/-! ## The first days of a year -/

/-- The first month of 1404, which began with a Friday. -/
def spring (d : ℤ) : JalaliDate := ⟨1404, 1, (d - 20167).toNat⟩

/-- `holidays_honoured_iff` for the first day of the year. -/
theorem holidays_honoured_iff_first :
    (isWorkingDay spring 20168 (parseHolidays (some "۱۴۰۴/۰۱/۰۱")) = false ↔
      isFriday 20168 = true) ∧
    (addWorkingDays spring 20167 1 (parseHolidays (some "۱۴۰۴/۰۱/۰۱")) = 20169 ↔
      ∀ e, 20167 < e → e ≤ 20169 → Lists spring (some "۱۴۰۴/۰۱/۰۱") e → isFriday e = true) := by
  have hlists : Lists spring (some "۱۴۰۴/۰۱/۰۱") 20168 := by decide +kernel
  have hday : EarliestDay (isOpen spring (some "۱۴۰۴/۰۱/۰۱")) 20167 1 20169 := by
    refine ⟨by decide, by decide +kernel, fun e hlow hhigh => ?_⟩
    obtain rfl : e = 20168 := by omega
    decide +kernel
  have h := holidays_honoured_iff spring (some "۱۴۰۴/۰۱/۰۱")
  exact ⟨h.1 20168 hlists, h.2 20167 1 20169 le_rfl hday (by decide)⟩

/-- The second day of the year was a Saturday and is listed: it is a working day all the same, and
a period of one day that starts before it ends on it and not on the day after. -/
theorem listed_saturday_works :
    Lists spring (some "۱۴۰۴/۰۱/۰۲") 20169 ∧
      isWorkingDay spring 20169 (parseHolidays (some "۱۴۰۴/۰۱/۰۲")) = true ∧
      EarliestDay (isOpen spring (some "۱۴۰۴/۰۱/۰۲")) 20168 1 20170 ∧
      addWorkingDays spring 20168 1 (parseHolidays (some "۱۴۰۴/۰۱/۰۲")) = 20169 := by
  refine ⟨by decide +kernel, by decide +kernel, ⟨by decide, by decide +kernel, ?_⟩, by decide +kernel⟩
  intro e hlow hhigh
  obtain rfl : e = 20169 := by omega
  decide +kernel

end JalaliUtil

end ArkanGold
