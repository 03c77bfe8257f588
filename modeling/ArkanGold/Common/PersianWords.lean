import ArkanGold.Common.Text
import ArkanGold.Lib.Table
import ArkanGold.Lib.Words

/-!
# Amounts in words

`numberToPersianWords` writes whole numbers of up to eighteen digits in Persian words.

- Texts are lists of characters; `Number` of a text of digits is `Nat.ofDigitChars 10`.
- A value is a text or a number; `number z` is a number whose whole part `String` writes as the
  decimal text of `z`.
- `reading` goes through words as a reader does: units add up to a group, a scale word moves the
  group to the total.

`words_injective`: the texts of different numbers are different, since the words of a text read as
the number that it was written for (`reading_words`).
-/

namespace ArkanGold

namespace PersianWords

open Words

/-! ## The function -/

/-- `ONES` -/
def ONES : List (List Char) :=
  ["", "یک", "دو", "سه", "چهار", "پنج", "شش", "هفت", "هشت", "نه"].map String.toList

/-- `TEENS` -/
def TEENS : List (List Char) :=
  ["ده", "یازده", "دوازده", "سیزده", "چهارده", "پانزده", "شانزده", "هفده", "هجده",
    "نوزده"].map String.toList

/-- `TENS` -/
def TENS : List (List Char) :=
  ["", "", "بیست", "سی", "چهل", "پنجاه", "شصت", "هفتاد", "هشتاد", "نود"].map String.toList

/-- `HUNDREDS` -/
def HUNDREDS : List (List Char) :=
  ["", "یکصد", "دویست", "سیصد", "چهارصد", "پانصد", "ششصد", "هفتصد", "هشتصد",
    "نهصد"].map String.toList

/-- `SCALES` -/
def SCALES : List (List Char) :=
  ["", " هزار", " میلیون", " میلیارد", " بیلیون", " بیلیارد"].map String.toList

/-- The word between parts. -/
def AND : List Char := "و".toList

/-- The word before negative numbers. -/
def MINUS : List Char := "منفی".toList

/-- The word for nothing. -/
def ZERO : List Char := "صفر".toList

/-- The parts of `rest`, the number below a hundred. -/
def restParts (rest : ℕ) : List (List Char) :=
  if 10 ≤ rest ∧ rest < 20 then [TEENS.getD (rest - 10) []]
  else
    let t := rest / 10
    let o := rest % 10
    (if 0 < t then [TENS.getD t []] else []) ++ if 0 < o then [ONES.getD o []] else []

/-- `parts` of `threeDigitsToWords` -/
def parts (n : ℕ) : List (List Char) :=
  let h := n / 100
  let rest := n % 100
  (if 0 < h then [HUNDREDS.getD h []] else []) ++ restParts rest

/-- `parts.join(' و ')` -/
def join (parts : List (List Char)) : List Char :=
  List.intercalate (' ' :: (AND ++ [' '])) parts

/-- `threeDigitsToWords` -/
def threeDigitsToWords (n : ℕ) : List Char := join (parts n)

/-- The groups of three digits of `n.slice(0, i)`, from the right. -/
def groups (n : List Char) (i : ℕ) : List ℕ :=
  if 0 < i then Nat.ofDigitChars 10 ((n.take i).drop (i - 3)) 0 :: groups n (i - 3) else []
termination_by i

/-- The groups that are not zero, from the left, each with its index. -/
def pairs (groups : List ℕ) : List (ℕ × ℕ) :=
  groups.zipIdx.reverse.filter fun g => g.1 ≠ 0

/-- The words of a number without a sign. -/
def unsigned (n : List Char) : List Char :=
  let n := n.dropWhile (· == '0')
  if n = [] then ZERO
  else if 18 < n.length then []
  else join ((pairs (groups n n.length)).map fun g => threeDigitsToWords g.1 ++ SCALES.getD g.2 [])

theorem length_trimChars_le (cs : List Char) : (trimChars cs).length ≤ cs.length := by
  rw [trimChars, List.length_reverse]
  refine (List.dropWhile_suffix _).length_le.trans ?_
  rw [List.length_reverse]
  exact (List.dropWhile_suffix _).length_le

/-- From the sign on; what follows a sign is trimmed again. -/
def signed : List Char → List Char
  | '-' :: n => MINUS ++ ' ' :: signed (trimChars n)
  | n => unsigned n
termination_by n => n.length
decreasing_by
  rw [List.length_cons]
  exact Nat.lt_succ_of_le (length_trimChars_le n)

/-- What an amount is given as. -/
inductive Value where
  | number (z : ℤ)
  | text (s : List Char)

/-- `String(Math.trunc(value))`, `value.trim()` -/
def Value.toText : Value → List Char
  | .number z => if z < 0 then '-' :: Nat.toDigits 10 z.natAbs else Nat.toDigits 10 z.natAbs
  | .text s => trimChars s

/-- `numberToPersianWords` -/
def numberToPersianWords (value : Value) : List Char := signed value.toText

/-! ## Numbers as texts -/

/-- The text is this number, with as many leading zeros as it may be. -/
inductive Spells : List Char → ℤ → Prop where
  | unsigned {ds : List Char} (hne : ds ≠ []) (hds : ∀ c ∈ ds, c.isDigit) :
    Spells ds (Nat.ofDigitChars 10 ds 0)
  | negative {ds : List Char} (hne : ds ≠ []) (hds : ∀ c ∈ ds, c.isDigit) :
    Spells ('-' :: ds) (-(Nat.ofDigitChars 10 ds 0 : ℤ))

/-- The value is this number. -/
def Value.Denotes : Value → ℤ → Prop
  | .number z', z => z' = z
  | .text s, z => Spells (trimChars s) z

theorem spells_toText {v : Value} {z : ℤ} (h : v.Denotes z) : Spells v.toText z := by
  cases v with
  | text s => exact h
  | number z' =>
    obtain rfl : z' = z := h
    have hdigits : ∀ c ∈ Nat.toDigits 10 z'.natAbs, c.isDigit :=
      fun c => Nat.isDigit_of_mem_toDigits (by decide) (by decide)
    have hnumber : Nat.ofDigitChars 10 (Nat.toDigits 10 z'.natAbs) 0 = z'.natAbs :=
      Nat.ofDigitChars_ten_toDigits
    rw [Value.toText]
    split_ifs with hneg
    · have h := Spells.negative (Nat.toDigits_ne_nil (b := 10) (n := z'.natAbs)) hdigits
      rwa [hnumber, show -(z'.natAbs : ℤ) = z' by omega] at h
    · have h := Spells.unsigned (Nat.toDigits_ne_nil (b := 10) (n := z'.natAbs)) hdigits
      rwa [hnumber, show (z'.natAbs : ℤ) = z' by omega] at h

theorem ofDigitChars_lt {ds : List Char} (h : ∀ c ∈ ds, c.isDigit) :
    Nat.ofDigitChars 10 ds 0 < 10 ^ ds.length := by
  induction ds with
  | nil => exact Nat.one_pos
  | cons c ds ih =>
    obtain ⟨hc, hds⟩ := List.forall_mem_cons.mp h
    have hdigit := Char.isDigit_iff_toNat.mp hc
    have hle : '9'.toNat = '0'.toNat + 9 := rfl
    have hrest := ih hds
    rw [Nat.ofDigitChars_cons, Nat.ofDigitChars_eq_ofDigitChars_zero, List.length_cons, pow_succ]
    have hhead : 10 * 0 + (c.toNat - '0'.toNat) ≤ 9 := by omega
    nlinarith

theorem ofDigitChars_dropWhile (n : List Char) :
    Nat.ofDigitChars 10 (n.dropWhile (· == '0')) 0 = Nat.ofDigitChars 10 n 0 := by
  induction n with
  | nil => rfl
  | cons c n ih =>
    rw [List.dropWhile_cons]
    split_ifs with hc
    · obtain rfl := beq_iff_eq.mp hc
      rw [ih, Nat.ofDigitChars_cons]
      rfl
    · rfl

/-- Without leading zeros the length says how large the number is. -/
theorem length_le_of_lt {n : List Char} {k : ℕ} (hn : ∀ c ∈ n, c.isDigit)
    (hhead : n.head? ≠ some '0') (h : Nat.ofDigitChars 10 n 0 < 10 ^ k) : n.length ≤ k := by
  cases n with
  | nil => exact Nat.zero_le k
  | cons c n =>
    have hdigit := Char.isDigit_iff_toNat.mp (hn c List.mem_cons_self)
    have hne : c.toNat ≠ '0'.toNat := fun h => hhead (congrArg some (Char.toNat_inj.mp h))
    rw [Nat.ofDigitChars_cons, Nat.ofDigitChars_eq_ofDigitChars_zero] at h
    have hle : 10 ^ n.length ≤ 10 ^ n.length * (10 * 0 + (c.toNat - '0'.toNat)) :=
      Nat.le_mul_of_pos_right _ (by omega)
    have hlt : 10 ^ n.length < 10 ^ k := (hle.trans (Nat.le_add_right _ _)).trans_lt h
    exact (Nat.pow_lt_pow_iff_right (by norm_num)).mp hlt

/-- What is left without the leading zeros. -/
theorem dropWhile_zero {n : List Char} (hn : ∀ c ∈ n, c.isDigit)
    (hlt : Nat.ofDigitChars 10 n 0 < 10 ^ 18) :
    (∀ c ∈ n.dropWhile (· == '0'), c.isDigit) ∧ (n.dropWhile (· == '0')).length ≤ 18 ∧
      (n.dropWhile (· == '0') ≠ [] → Nat.ofDigitChars 10 n 0 ≠ 0) := by
  have hdigits : ∀ c ∈ n.dropWhile (· == '0'), c.isDigit :=
    fun c hc => hn c ((List.dropWhile_suffix _).mem hc)
  have hhead : (n.dropWhile (· == '0')).head? ≠ some '0' := by
    intro hhead
    have hnot := List.head?_dropWhile_not (· == '0') n
    rw [hhead] at hnot
    cases hnot
  rw [← ofDigitChars_dropWhile] at hlt ⊢
  refine ⟨hdigits, length_le_of_lt hdigits hhead hlt, fun hne hzero => hne ?_⟩
  refine List.length_eq_zero_iff.mp (Nat.le_zero.mp (length_le_of_lt hdigits hhead ?_))
  rw [hzero, pow_zero]
  exact Nat.one_pos

/-! ## Groups -/

theorem groups_lt {n : List Char} (h : ∀ c ∈ n, c.isDigit) (i : ℕ) :
    ∀ g ∈ groups n i, g < 1000 := by
  induction i using Nat.strong_induction_on with
  | _ i ih =>
    rw [groups]
    split_ifs with hi
    · refine List.forall_mem_cons.mpr ⟨?_, ih (i - 3) (by omega)⟩
      have hlength : ((n.take i).drop (i - 3)).length ≤ 3 := by
        rw [List.length_drop, List.length_take]
        omega
      have hdigits : ∀ c ∈ (n.take i).drop (i - 3), c.isDigit :=
        fun c hc => h c (List.mem_of_mem_take (List.mem_of_mem_drop hc))
      have hslice := ofDigitChars_lt hdigits
      exact hslice.trans_le (Nat.pow_le_pow_right (by norm_num) hlength)
    · exact fun g hg => absurd hg List.not_mem_nil

theorem length_groups (n : List Char) {i k : ℕ} (h : i ≤ 3 * k) : (groups n i).length ≤ k := by
  induction k generalizing i with
  | zero => rw [groups, if_neg (by omega), List.length_nil]
  | succ k ih =>
    rw [groups]
    split_ifs
    · rw [List.length_cons]
      exact Nat.succ_le_succ (ih (by omega))
    · exact Nat.zero_le _

/-- The groups are the digits in base 1000. -/
theorem ofDigits_groups (n : List Char) {i : ℕ} (hi : i ≤ n.length) :
    Nat.ofDigits 1000 (groups n i) = Nat.ofDigitChars 10 (n.take i) 0 := by
  induction i using Nat.strong_induction_on with
  | _ i ih =>
    rw [groups]
    split_ifs with hpos
    · have hsplit := List.take_append_drop (i - 3) (n.take i)
      rw [List.take_take, min_eq_left (by omega)] at hsplit
      rw [Nat.ofDigits_cons, ih (i - 3) (by omega) (by omega)]
      conv_rhs => rw [← hsplit, Nat.ofDigitChars_append, Nat.ofDigitChars_eq_ofDigitChars_zero]
      rw [add_comm]
      by_cases hshort : i < 3
      · rw [show i - 3 = 0 by omega]
        simp
      · have hlength : ((n.take i).drop (i - 3)).length = 3 := by
          rw [List.length_drop, List.length_take]
          omega
        rw [hlength]
    · obtain rfl : i = 0 := by omega
      rfl

/-! ## Reading -/

/-- What has been read: the sign, the total of the closed groups and the open group. -/
structure Reading where
  neg : Bool
  total : ℕ
  group : ℕ

/-- What a unit adds to its group. -/
def worth (w : List Char) : ℕ :=
  if w ∈ ONES then ONES.idxOf w
  else if w ∈ TEENS then 10 + TEENS.idxOf w
  else if w ∈ TENS then 10 * TENS.idxOf w
  else if w ∈ HUNDREDS then 100 * HUNDREDS.idxOf w
  else 0

/-- The place of a scale word, 0 for any other. -/
def scaleOf (w : List Char) : ℕ :=
  if ' ' :: w ∈ SCALES then SCALES.idxOf (' ' :: w) else 0

/-- Reading a word. -/
def Reading.step (r : Reading) (w : List Char) : Reading :=
  if w = MINUS then { r with neg := true }
  else if 0 < scaleOf w then
    { r with total := r.total + r.group * 1000 ^ scaleOf w, group := 0 }
  else { r with group := r.group + worth w }

/-- The number. -/
def Reading.value (r : Reading) : ℤ :=
  if r.neg then -(r.total + r.group : ℤ) else (r.total + r.group : ℤ)

/-- The number that the words read as. -/
def reading (ws : List (List Char)) : ℤ := (ws.foldl Reading.step ⟨false, 0, 0⟩).value

/-- A word. -/
def IsWord (w : List Char) : Prop := w ≠ [] ∧ ' ' ∉ w

instance (w : List Char) : Decidable (IsWord w) := instDecidableAnd

/-- A word that adds `v` to its group. -/
def IsUnit (w : List Char) (v : ℕ) : Prop := w ≠ MINUS ∧ scaleOf w = 0 ∧ worth w = v ∧ IsWord w

instance (w : List Char) (v : ℕ) : Decidable (IsUnit w v) := instDecidableAnd

theorem isUnit_ones : ∀ o < 10, 0 < o → IsUnit (ONES.getD o []) o := by decide

theorem isUnit_teens : ∀ t < 10, IsUnit (TEENS.getD t []) (10 + t) := by decide

theorem isUnit_tens : ∀ t < 10, 1 < t → IsUnit (TENS.getD t []) (10 * t) := by decide

theorem isUnit_hundreds : ∀ h < 10, 0 < h → IsUnit (HUNDREDS.getD h []) (100 * h) := by
  decide

theorem isUnit_and : IsUnit AND 0 := by decide

theorem isUnit_zero : IsUnit ZERO 0 := by decide

/-- The word of a scale. -/
def scaleWord (i : ℕ) : List (List Char) := if i = 0 then [] else [(SCALES.getD i []).drop 1]

theorem spaced_scaleWord : ∀ i < 6, SCALES.getD i [] = spaced ' ' (scaleWord i) := by
  decide

theorem scaleOf_scaleWord : ∀ i < 6, ∀ w ∈ scaleWord i, w ≠ MINUS ∧ scaleOf w = i ∧ IsWord w := by
  decide

variable {r : Reading} {n i : ℕ}

@[simp] theorem step_of_isUnit {w : List Char} {v : ℕ} (h : IsUnit w v) :
    r.step w = { r with group := r.group + v } := by
  obtain ⟨hminus, hscale, rfl, -⟩ := h
  rw [Reading.step, if_neg hminus, hscale, if_neg (Nat.lt_irrefl 0)]

@[simp] theorem step_minus : r.step MINUS = { r with neg := true } := if_pos rfl

/-! ## The words of a number -/

/-- The words of a group with its scale. -/
def groupWords (g : ℕ × ℕ) : List (List Char) :=
  List.intercalate [AND] ((parts g.1).map fun w => [w]) ++ scaleWord g.2

/-- The words of a number without a sign. -/
def unsignedWords (n : List Char) : List (List Char) :=
  let n := n.dropWhile (· == '0')
  if n = [] then [ZERO]
  else List.intercalate [AND] ((pairs (groups n n.length)).map groupWords)

/-- Words that add `v` to the group. -/
def Adds (ws : List (List Char)) (v : ℕ) : Prop :=
  (∀ r : Reading, ws.foldl Reading.step r = { r with group := r.group + v }) ∧ ∀ w ∈ ws, IsWord w

theorem adds_singleton {w : List Char} {v : ℕ} (h : IsUnit w v) : Adds [w] v :=
  ⟨fun _ => step_of_isUnit h, fun _ hw => List.mem_singleton.mp hw ▸ h.2.2.2⟩

theorem adds_append {us ws : List (List Char)} {u v : ℕ} (hu : Adds us u) (hw : Adds ws v) :
    Adds (us ++ ws) (u + v) := by
  refine ⟨fun r => ?_, List.forall_mem_append.mpr ⟨hu.2, hw.2⟩⟩
  rw [List.foldl_append, hu.1, hw.1, Nat.add_assoc]

theorem adds_ite {p : Prop} [Decidable p] {w : List Char} {v : ℕ} (h : p → IsUnit w v)
    (hzero : ¬p → v = 0) : Adds (if p then [w] else []) v := by
  split_ifs with hp
  · exact adds_singleton (h hp)
  · exact hzero hp ▸ ⟨fun _ => rfl, fun _ hw => absurd hw List.not_mem_nil⟩

theorem adds_restParts (h : n < 100) : Adds (restParts n) n := by
  rw [restParts]
  split_ifs with hteen
  · have hunit := isUnit_teens (n - 10) (by omega)
    rw [show 10 + (n - 10) = n by omega] at hunit
    exact adds_singleton hunit
  · have hadds := adds_append
      (adds_ite (p := 0 < n / 10) (fun ht => isUnit_tens (n / 10) (by omega) (by omega))
        fun ht => by omega)
      (adds_ite (p := 0 < n % 10) (fun ho => isUnit_ones (n % 10) (by omega) ho)
        fun ho => by omega)
    rwa [Nat.div_add_mod] at hadds

/-- The parts of a group add up to it. -/
theorem adds_parts (h : n < 1000) : Adds (parts n) n := by
  have hadds := adds_append
    (adds_ite (p := 0 < n / 100) (fun hh => isUnit_hundreds (n / 100) (by omega) hh)
      fun hh => by omega)
    (adds_restParts (n := n % 100) (by omega))
  rwa [Nat.div_add_mod] at hadds

theorem parts_ne_nil (hpos : 0 < n) (h : n < 1000) : parts n ≠ [] := by
  intro hnil
  have hadds := (adds_parts h).1 ⟨false, 0, 0⟩
  rw [hnil] at hadds
  have hgroup : 0 = 0 + n := congrArg Reading.group hadds
  omega

/-! ## The text is that of the words -/

theorem spaced_threeDigits (hpos : 0 < n) (h : n < 1000) :
    ' ' :: threeDigitsToWords n =
      spaced ' ' (List.intercalate [AND] ((parts n).map fun w => [w])) := by
  have hpart : ∀ w ∈ parts n, ' ' :: id w = spaced ' ' [w] := fun w _ => by simp
  have hwords := cons_intercalate AND (parts_ne_nil hpos h) hpart
  rwa [List.map_id] at hwords

/-- The groups that are written. -/
def Written (g : ℕ × ℕ) : Prop := 0 < g.1 ∧ g.1 < 1000 ∧ g.2 < 6

theorem spaced_groupWords {g : ℕ × ℕ} (h : Written g) :
    ' ' :: (threeDigitsToWords g.1 ++ SCALES.getD g.2 []) = spaced ' ' (groupWords g) := by
  rw [groupWords, spaced_append, ← spaced_threeDigits h.1 h.2.1, spaced_scaleWord g.2 h.2.2]
  rfl

/-! ## The words read as the number -/

theorem foldl_groupWords {g : ℕ × ℕ} (h : Written g) (r : Reading) (hr : r.group = 0) :
    (groupWords g).foldl Reading.step r =
      if g.2 = 0 then { r with group := g.1 }
      else { r with total := r.total + g.1 * 1000 ^ g.2 } := by
  have hand : ∀ r : Reading, r.step AND = r := fun r => step_of_isUnit isUnit_and
  have hparts : ((parts g.1).map fun w => [w]).flatten = parts g.1 := by
    rw [← List.flatMap_def, List.flatMap_singleton']
  rw [groupWords, List.foldl_append, foldl_intercalate hand, hparts,
    (adds_parts h.2.1).1 r, hr, Nat.zero_add]
  split_ifs with hi
  · rw [hi]
    rfl
  · have hscale := scaleOf_scaleWord g.2 h.2.2
    rw [scaleWord, if_neg hi] at hscale ⊢
    obtain ⟨hminus, hplace, -⟩ := hscale _ (List.mem_singleton_self _)
    rw [List.foldl_cons, List.foldl_nil, Reading.step, if_neg hminus, hplace,
      if_pos (Nat.pos_of_ne_zero hi), ← hr]

/-- Groups at falling places, after those that are closed. -/
theorem foldl_groups {gs : List (ℕ × ℕ)} (h : ∀ g ∈ gs, Written g)
    (hsort : gs.Pairwise fun a b => b.2 < a.2) (r : Reading) (hr : r.group = 0) :
    ((gs.map groupWords).flatten.foldl Reading.step r).value =
      (Reading.mk r.neg (r.total + (gs.map fun g => g.1 * 1000 ^ g.2).sum) r.group).value := by
  induction gs generalizing r with
  | nil => rfl
  | cons g gs ih =>
    obtain ⟨hg, hgs⟩ := List.forall_mem_cons.mp h
    obtain ⟨hfirst, hrest⟩ := List.pairwise_cons.mp hsort
    rw [List.map_cons, List.flatten_cons, List.foldl_append, foldl_groupWords hg r hr,
      List.map_cons, List.sum_cons]
    split_ifs with hi
    -- The last group stays open.
    · have hnil : gs = [] :=
        List.eq_nil_iff_forall_not_mem.mpr fun g' hg' => by simpa [hi] using hfirst g' hg'
      rw [hnil, hi]
      simp [Reading.value, hr]
    · rw [← Nat.add_assoc]
      exact ih hgs hrest ⟨r.neg, r.total + g.1 * 1000 ^ g.2, r.group⟩ hr

theorem pairs_written {n : List Char} (hn : ∀ c ∈ n, c.isDigit) (hlength : n.length ≤ 18) :
    ∀ g ∈ pairs (groups n n.length), Written g := by
  intro g hg
  obtain ⟨hmem, hpos⟩ := List.mem_filter.mp hg
  have hzip := List.mem_reverse.mp hmem
  have hplace := List.snd_lt_of_mem_zipIdx hzip
  have hgroups := length_groups n (i := n.length) (k := 6) hlength
  refine ⟨?_, groups_lt hn _ _ (List.fst_mem_of_mem_zipIdx hzip), by omega⟩
  simpa [Nat.pos_iff_ne_zero] using hpos

theorem pairs_pairwise (gs : List ℕ) : (pairs gs).Pairwise fun a b => b.2 < a.2 := by
  refine List.Pairwise.filter _ (List.pairwise_reverse.mpr ?_)
  have hplaces : (gs.zipIdx.map Prod.snd).Pairwise (· < ·) := by
    rw [List.zipIdx_map_snd]
    exact List.pairwise_lt_range'
  exact List.pairwise_map.mp hplaces

theorem sum_pairs (gs : List ℕ) :
    ((pairs gs).map fun g => g.1 * 1000 ^ g.2).sum = Nat.ofDigits 1000 gs := by
  have hzero : (fun g : ℕ × ℕ => if decide (g.1 ≠ 0) = true then g.1 * 1000 ^ g.2 else 0) =
      fun g => g.1 * 1000 ^ g.2 := by
    funext g
    split_ifs with hg
    · rfl
    · rw [not_not.mp (decide_eq_true_iff.not.mp hg), Nat.zero_mul]
  rw [pairs, Table.sum_map_filter, hzero, List.map_reverse, List.sum_reverse,
    Nat.ofDigits_eq_sum_mapIdx, List.mapIdx_eq_zipIdx_map]

/-- The words of a number read as it. -/
theorem foldl_unsignedWords {n : List Char} (hn : ∀ c ∈ n, c.isDigit)
    (hlt : Nat.ofDigitChars 10 n 0 < 10 ^ 18) (neg : Bool) :
    ((unsignedWords n).foldl Reading.step ⟨neg, 0, 0⟩).value =
      (Reading.mk neg (Nat.ofDigitChars 10 n 0) 0).value := by
  obtain ⟨hdigits, hlength, -⟩ := dropWhile_zero hn hlt
  rw [← ofDigitChars_dropWhile, unsignedWords]
  split_ifs with hzero
  · rw [hzero]
    rfl
  · have hand : ∀ r : Reading, r.step AND = r := fun r => step_of_isUnit isUnit_and
    rw [foldl_intercalate hand,
      foldl_groups (pairs_written hdigits hlength) (pairs_pairwise _) _ rfl, sum_pairs,
      ofDigits_groups _ le_rfl, List.take_length, Nat.zero_add]

theorem isWord_groupWords {g : ℕ × ℕ} (h : Written g) : ∀ w ∈ groupWords g, IsWord w := by
  refine List.forall_mem_append.mpr ⟨?_, fun w hw => (scaleOf_scaleWord g.2 h.2.2 w hw).2.2⟩
  refine forall_mem_intercalate isUnit_and.2.2.2 fun ws hws => ?_
  obtain ⟨w, hw, rfl⟩ := List.mem_map.mp hws
  exact fun u hu => List.mem_singleton.mp hu ▸ (adds_parts h.2.1).2 w hw

theorem pairs_ne_nil {gs : List ℕ} (h : Nat.ofDigits 1000 gs ≠ 0) : pairs gs ≠ [] := by
  intro hnil
  rw [← sum_pairs, hnil] at h
  exact h rfl

/-- The text of a number without a sign. -/
theorem spaced_unsigned {n : List Char} (hn : ∀ c ∈ n, c.isDigit)
    (hlt : Nat.ofDigitChars 10 n 0 < 10 ^ 18) :
    ' ' :: unsigned n = spaced ' ' (unsignedWords n) ∧ ∀ w ∈ unsignedWords n, IsWord w := by
  obtain ⟨hdigits, hlength, hpos⟩ := dropWhile_zero hn hlt
  rw [← ofDigitChars_dropWhile] at hpos
  rw [unsigned, unsignedWords]
  split_ifs with hzero hlong
  · refine ⟨?_, fun w hw => List.mem_singleton.mp hw ▸ isUnit_zero.2.2.2⟩
    rw [spaced_cons, spaced_nil, List.append_nil]
  · exact absurd hlength (not_le.mpr hlong)
  · have hwritten := pairs_written hdigits hlength
    have hne : pairs (groups (n.dropWhile (· == '0')) (n.dropWhile (· == '0')).length) ≠ [] := by
      apply pairs_ne_nil
      rw [ofDigits_groups _ le_rfl, List.take_length]
      exact hpos hzero
    refine ⟨cons_intercalate AND hne fun g hg => spaced_groupWords (hwritten g hg), ?_⟩
    refine forall_mem_intercalate isUnit_and.2.2.2 fun ws hws => ?_
    obtain ⟨g, hg, rfl⟩ := List.mem_map.mp hws
    exact isWord_groupWords (hwritten g hg)

theorem trimChars_digits {n : List Char} (h : ∀ c ∈ n, c.isDigit) : trimChars n = n := by
  have hdigit : ∀ c : Char, c.isDigit → isSpace c = false := by
    intro c hc
    have hrange := Char.isDigit_iff_toNat.mp hc
    have hzero : '0'.toNat = 48 := rfl
    have hnine : '9'.toNat = 57 := rfl
    simp only [isSpace, Bool.or_eq_false_iff, Bool.and_eq_false_iff, decide_eq_false_iff_not,
      beq_eq_false_iff_ne]
    omega
  exact trimChars_eq_self fun c hc => hdigit c (h c hc)

theorem signed_digits {n : List Char} (h : ∀ c ∈ n, c.isDigit) : signed n = unsigned n := by
  rw [signed]
  rintro n' rfl
  exact absurd (h '-' List.mem_cons_self) (by decide)

/-- The text of a number consists of words, and they read as the number. -/
theorem reading_words {s : List Char} {z : ℤ} (h : Spells s z) (hz : |z| < 10 ^ 18) :
    ∃ ws, ' ' :: signed s = spaced ' ' ws ∧ (∀ w ∈ ws, IsWord w) ∧ reading ws = z := by
  cases h with
  | unsigned hne hds =>
    have hlt : Nat.ofDigitChars 10 s 0 < 10 ^ 18 := by
      rw [Nat.abs_cast] at hz
      exact_mod_cast hz
    obtain ⟨htext, hwords⟩ := spaced_unsigned hds hlt
    refine ⟨unsignedWords s, signed_digits hds ▸ htext, hwords, ?_⟩
    rw [reading, foldl_unsignedWords hds hlt]
    simp [Reading.value]
  | @negative ds hne hds =>
    have hlt : Nat.ofDigitChars 10 ds 0 < 10 ^ 18 := by
      rw [abs_neg, Nat.abs_cast] at hz
      exact_mod_cast hz
    obtain ⟨htext, hwords⟩ := spaced_unsigned hds hlt
    refine ⟨MINUS :: unsignedWords ds, ?_, List.forall_mem_cons.mpr ⟨by decide, hwords⟩, ?_⟩
    · rw [signed, trimChars_digits hds, signed_digits hds, htext, spaced_cons]
    · rw [reading, List.foldl_cons, step_minus, foldl_unsignedWords hds hlt]
      simp [Reading.value]

/-- For values that denote whole numbers of at most eighteen digits, the text is not empty, and
different numbers have different texts. -/
theorem words_injective {v w : Value} {x y : ℤ} (hv : v.Denotes x) (hw : w.Denotes y)
    (hx : |x| < 10 ^ 18) (hy : |y| < 10 ^ 18) :
    numberToPersianWords v ≠ [] ∧ (x ≠ y → numberToPersianWords v ≠ numberToPersianWords w) := by
  obtain ⟨us, hus, husword, rfl⟩ := reading_words (spells_toText hv) hx
  obtain ⟨ws, hws, hwsword, rfl⟩ := reading_words (spells_toText hw) hy
  constructor
  · intro hempty
    rw [numberToPersianWords] at hempty
    rw [hempty] at hus
    cases us with
    | nil => cases hus
    | cons u us =>
      have hnil := (List.append_eq_nil_iff.mp (List.cons.inj hus).2.symm).1
      exact (husword u List.mem_cons_self).1 hnil
  · intro hne htexts
    rw [numberToPersianWords, numberToPersianWords] at htexts
    rw [htexts, hws] at hus
    exact hne (congrArg reading (spaced_inj (fun u hu => (husword u hu).2)
      (fun w hw => (hwsword w hw).2) hus.symm))

/-- A number and a text with a sign and zeros. -/
theorem words_injective_signed :
    numberToPersianWords (.number 5520000000) ≠ [] ∧
      ((5520000000 : ℤ) ≠ -12 → numberToPersianWords (.number 5520000000) ≠
        numberToPersianWords (.text [' ', '-', '0', '1', '2'])) :=
  words_injective (v := .number 5520000000) (Eq.refl (5520000000 : ℤ))
    (show Spells ['-', '0', '1', '2'] (-12) from .negative (List.cons_ne_nil _ _)
      (List.all_eq_true.mp (by decide : ['0', '1', '2'].all Char.isDigit = true)))
    (by norm_num) (by norm_num)

end PersianWords

end ArkanGold
