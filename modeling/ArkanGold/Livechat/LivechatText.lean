import ArkanGold.Lib.Binary
import ArkanGold.Lib.EditDistance

/-!
# Fuzzy matching of words

How close a visitor's question is to a text of the knowledge base, by their words.

- A word is the list of its UTF-16 code units; `a[i]` and `b[j]` are the heads of what is left.
- Numbers are `double`s: every sum, product, quotient and literal is rounded to 53 binary digits.

`levenshteinAtMostOne_iff`: the scan with two pointers decides whether the edit distance is at most
one. `similarity_bounds` and `similarity_eq_one`: the score is between 0 and 1, and 1 for the same
set of words.
-/

namespace ArkanGold

namespace LivechatText

open EditDistance

/-- The code units of a string. -/
abbrev Word := List UInt16

/-! ## The functions -/

/-- The loop of `levenshteinAtMostOne` for words of the lengths `la` and `lb`. -/
def scan (la lb : ℕ) : ℕ → Word → Word → Bool
  | edits, x :: a, y :: b =>
    if x = y then scan la lb edits a b
    else if 1 < edits + 1 then false
    else if lb < la then scan la lb (edits + 1) a (y :: b)
    else if la < lb then scan la lb (edits + 1) (x :: a) b
    else scan la lb (edits + 1) a b
  | edits, a, b => decide (edits + a.length + b.length ≤ 1)
termination_by _ a b => a.length + b.length

/-- `levenshteinAtMostOne` -/
def levenshteinAtMostOne (a b : Word) : Bool :=
  if 1 < (a.length : ℤ) - b.length ∨ 1 < (b.length : ℤ) - a.length then false
  else scan a.length b.length 0 a b

/-- The nearest `double`. -/
def double (q : ℚ) : ℚ := Binary.sig 53 q

/-- `wordSimilarity` -/
def wordSimilarity (a b : Word) : ℚ :=
  let shorter := min a.length b.length
  if a = b then 1
  else if 3 ≤ shorter ∧ (b <+: a ∨ a <+: b) then double 0.8
  else if 4 ≤ shorter ∧ levenshteinAtMostOne a b = true then double 0.7
  else 0

/-- The inner loop of `coverage`: the best that a word gets, from `best` on. -/
def bestMatch (w : Word) : ℚ → List Word → ℚ
  | best, [] => best
  | best, r :: others =>
    let next := max best (wordSimilarity w r)
    if next = 1 then next else bestMatch w next others

/-- The outer loop of `coverage`. -/
def coverageSum (others : List Word) : ℚ → List Word → ℚ
  | sum, [] => sum
  | sum, w :: words => coverageSum others (double (sum + bestMatch w 0 others)) words

/-- `coverage` -/
def coverage (words others : List Word) : ℚ :=
  double (coverageSum others 0 words / words.length)

/-- `similarity` -/
def similarity (queryTokens refTokens : List Word) : ℚ :=
  if queryTokens = [] ∨ refTokens = [] then 0
  else
    let q := coverage queryTokens refTokens
    let r := coverage refTokens queryTokens
    double (double (double 0.6 * q) + double (double 0.4 * r))

/-! ## The scan -/

variable {a b : Word} {la lb : ℕ}

/-- After an edit the rest has to be equal. -/
theorem scan_one (h : a.length = b.length) : scan la lb 1 a b = true ↔ a = b := by
  induction a generalizing b with
  | nil =>
    obtain rfl := List.length_eq_zero_iff.mp h.symm
    simp [scan]
  | cons x a ih =>
    cases b with
    | nil => cases h
    | cons y b =>
      rw [scan, List.cons.injEq]
      by_cases hxy : x = y
      · rw [if_pos hxy, ih (by simpa using h), and_iff_right hxy]
      · simp [hxy]

/-- Before it, the lengths say which edit it can be. -/
theorem scan_zero (hleft : a.length ≤ b.length + 1) (hright : b.length ≤ a.length + 1)
    (h : (la : ℤ) - lb = a.length - b.length) :
    scan la lb 0 a b = true ↔ levenshtein a b ≤ 1 := by
  induction a generalizing b with
  | nil => simp [scan]
  | cons x a ih =>
    cases b with
    | nil => simp [scan]
    | cons y b =>
      simp only [List.length_cons] at hleft hright h
      push_cast at h
      rw [scan]
      by_cases hxy : x = y
      · rw [if_pos hxy, ih (by omega) (by omega) (by omega), hxy, levenshtein_cons_cons_self]
      have hlength : ∀ {u v : Word}, u = v → u.length = v.length := fun h => h ▸ rfl
      rw [if_neg hxy, if_neg (by omega), levenshtein_le_one_of_ne hxy]
      rcases lt_trichotomy lb la with hlt | heq | hgt
      -- The first word is longer: its head is left out.
      · have hlen : a.length = (y :: b).length := by
          rw [List.length_cons]
          omega
        rw [if_pos hlt, scan_one hlen]
        refine ⟨Or.inl, fun hcases => hcases.resolve_right ?_⟩
        rintro (hinsert | hreplace)
        · have := hlength hinsert
          simp only [List.length_cons] at this hlen
          omega
        · have := hlength hreplace
          simp only [List.length_cons] at hlen
          omega
      -- Equally long: the heads are passed together.
      · have hlen : a.length = b.length := by omega
        rw [if_neg (by omega), if_neg (by omega), scan_one hlen]
        refine ⟨fun hreplace => .inr (.inr hreplace), ?_⟩
        rintro (hdelete | hinsert | hreplace)
        · have := hlength hdelete
          simp only [List.length_cons] at this
          omega
        · have := hlength hinsert
          simp only [List.length_cons] at this
          omega
        · exact hreplace
      · have hlen : (x :: a).length = b.length := by
          rw [List.length_cons]
          omega
        rw [if_neg (by omega), if_pos hgt, scan_one hlen]
        refine ⟨fun hinsert => .inr (.inl hinsert), ?_⟩
        rintro (hdelete | hinsert | hreplace)
        · have := hlength hdelete
          simp only [List.length_cons] at this hlen
          omega
        · exact hinsert
        · have := hlength hreplace
          simp only [List.length_cons] at hlen
          omega

theorem levenshteinAtMostOne_iff (a b : Word) :
    levenshteinAtMostOne a b = true ↔ levenshtein a b ≤ 1 := by
  rw [levenshteinAtMostOne]
  split_ifs with hfar
  · have hlength := length_le_levenshtein a b
    simp only [false_iff, not_le]
    omega
  · exact scan_zero (by omega) (by omega) rfl

/-! ## Words -/

theorem wordSimilarity_comm (a b : Word) : wordSimilarity a b = wordSimilarity b a := by
  have hscan : levenshteinAtMostOne a b = levenshteinAtMostOne b a := by
    rw [Bool.eq_iff_iff, levenshteinAtMostOne_iff, levenshteinAtMostOne_iff, levenshtein_comm]
  simp only [wordSimilarity, hscan, min_comm a.length, or_comm (a := b <+: a), eq_comm (a := a)]

/-! ## Scores -/

theorem double_mono {a b : ℚ} (ha : 0 ≤ a) (h : a ≤ b) : double a ≤ double b :=
  Binary.sig_mono (by norm_num) ha h

theorem double_nonneg {q : ℚ} (h : 0 ≤ q) : 0 ≤ double q := Binary.sig_nonneg 53 h

theorem double_natCast {n : ℕ} (h : n < 2 ^ 53) : double n = n := Binary.sig_natCast h

@[simp] theorem double_one : double 1 = 1 := by
  simpa using double_natCast (n := 1) (by norm_num)

theorem double_le_one {q : ℚ} (hq : 0 ≤ q) (h : q ≤ 1) : double q ≤ 1 :=
  (double_mono hq h).trans_eq double_one

theorem wordSimilarity_nonneg (a b : Word) : 0 ≤ wordSimilarity a b := by
  rw [wordSimilarity]
  split_ifs
  · exact zero_le_one
  · exact double_nonneg (by norm_num)
  · exact double_nonneg (by norm_num)
  · exact le_rfl

theorem wordSimilarity_le_one (a b : Word) : wordSimilarity a b ≤ 1 := by
  rw [wordSimilarity]
  split_ifs
  · exact le_rfl
  · exact double_le_one (by norm_num) (by norm_num)
  · exact double_le_one (by norm_num) (by norm_num)
  · exact zero_le_one

@[simp] theorem wordSimilarity_self (a : Word) : wordSimilarity a a = 1 := if_pos rfl

theorem bestMatch_bounds (w : Word) {best : ℚ} (others : List Word) (h : 0 ≤ best ∧ best ≤ 1) :
    0 ≤ bestMatch w best others ∧ bestMatch w best others ≤ 1 := by
  induction others generalizing best with
  | nil => exact h
  | cons r others ih =>
    have hnext : 0 ≤ max best (wordSimilarity w r) ∧ max best (wordSimilarity w r) ≤ 1 :=
      ⟨le_max_of_le_left h.1, max_le h.2 (wordSimilarity_le_one w r)⟩
    rw [bestMatch]
    split_ifs
    · exact hnext
    · exact ih hnext

/-- A word that is among the others gets all. -/
theorem bestMatch_eq_one {w : Word} {best : ℚ} {others : List Word} (h : best ≤ 1)
    (hw : w ∈ others) : bestMatch w best others = 1 := by
  induction others generalizing best with
  | nil => cases hw
  | cons r others ih =>
    rw [bestMatch]
    split_ifs with hone
    · exact hone
    · refine ih (max_le h (wordSimilarity_le_one w r))
        ((List.mem_cons.mp hw).resolve_left ?_)
      rintro rfl
      exact hone (by rw [wordSimilarity_self, max_eq_right h])

/-- Every word adds at most one. -/
theorem coverageSum_bounds {others words : List Word} {sum : ℚ} {n : ℕ} (hpos : 0 ≤ sum)
    (hsum : sum ≤ n) (hn : n + words.length < 2 ^ 53) :
    0 ≤ coverageSum others sum words ∧
      coverageSum others sum words ≤ (n + words.length : ℕ) := by
  induction words generalizing sum n with
  | nil => exact ⟨hpos, hsum⟩
  | cons w words ih =>
    rw [List.length_cons] at hn
    have hbest := bestMatch_bounds w others ⟨le_refl (0 : ℚ), zero_le_one⟩
    have hle : double (sum + bestMatch w 0 others) ≤ (n + 1 : ℕ) := by
      rw [← double_natCast (n := n + 1) (by omega)]
      refine double_mono (add_nonneg hpos hbest.1) ?_
      push_cast
      exact add_le_add hsum hbest.2
    have hrest := ih (double_nonneg (add_nonneg hpos hbest.1)) hle (by omega)
    rwa [coverageSum, List.length_cons, add_comm words.length, ← add_assoc]

theorem coverageSum_eq {others words : List Word} {n : ℕ} (hwords : ∀ w ∈ words, w ∈ others)
    (hn : n + words.length < 2 ^ 53) :
    coverageSum others n words = (n + words.length : ℕ) := by
  induction words generalizing n with
  | nil => rfl
  | cons w words ih =>
    obtain ⟨hw, hrest⟩ := List.forall_mem_cons.mp hwords
    rw [List.length_cons] at hn
    have hnext : double ((n : ℚ) + 1) = (n + 1 : ℕ) := by
      rw [← double_natCast (n := n + 1) (by omega), Nat.cast_add, Nat.cast_one]
    rw [coverageSum, bestMatch_eq_one zero_le_one hw, hnext, ih hrest (by omega),
      List.length_cons, add_comm words.length, ← add_assoc]

theorem coverage_bounds (words others : List Word) (h : words.length < 2 ^ 53) :
    0 ≤ coverage words others ∧ coverage words others ≤ 1 := by
  have hzero : (0 : ℚ) ≤ (0 : ℕ) := by norm_num
  have hsum : 0 ≤ coverageSum others 0 words ∧
      coverageSum others 0 words ≤ (0 + words.length : ℕ) :=
    coverageSum_bounds le_rfl hzero (by omega)
  rw [Nat.zero_add] at hsum
  have hdiv : 0 ≤ coverageSum others 0 words / words.length :=
    div_nonneg hsum.1 (Nat.cast_nonneg _)
  exact ⟨double_nonneg hdiv, double_le_one hdiv (div_le_one_of_le₀ hsum.2 (Nat.cast_nonneg _))⟩

theorem coverage_eq_one {words others : List Word} (hne : words ≠ [])
    (h : words.length < 2 ^ 53) (hwords : ∀ w ∈ words, w ∈ others) : coverage words others = 1 := by
  have hsum := coverageSum_eq (n := 0) hwords (by omega)
  have hlength : (words.length : ℚ) ≠ 0 :=
    Nat.cast_ne_zero.mpr (List.length_pos_iff.mpr hne).ne'
  rw [Nat.cast_zero, Nat.zero_add] at hsum
  rw [coverage, hsum, div_self hlength, double_one]

/-- The two weights together are one. -/
theorem weights : double (double (double 0.6 * 1) + double (double 0.4 * 1)) = 1 := by
  decide +kernel

theorem weighted_bounds {q : ℚ} (weight : ℚ) (hweight : 0 ≤ weight) (h : 0 ≤ q ∧ q ≤ 1) :
    0 ≤ double (weight * q) ∧ double (weight * q) ≤ double (weight * 1) :=
  ⟨double_nonneg (mul_nonneg hweight h.1),
    double_mono (mul_nonneg hweight h.1) (mul_le_mul_of_nonneg_left h.2 hweight)⟩

/-- The score is between 0 and 1. -/
theorem similarity_bounds {q r : List Word} (hq : q.length < 2 ^ 53) (hr : r.length < 2 ^ 53) :
    0 ≤ similarity q r ∧ similarity q r ≤ 1 := by
  rw [similarity]
  split_ifs
  · exact ⟨le_rfl, zero_le_one⟩
  have hleft := weighted_bounds (double 0.6) (double_nonneg (by norm_num))
    (coverage_bounds q r hq)
  have hright := weighted_bounds (double 0.4) (double_nonneg (by norm_num))
    (coverage_bounds r q hr)
  refine ⟨double_nonneg (add_nonneg hleft.1 hright.1), ?_⟩
  exact (double_mono (add_nonneg hleft.1 hright.1) (add_le_add hleft.2 hright.2)).trans_eq weights

/-- It is 1 for the same set of words. -/
theorem similarity_eq_one {q r : List Word} (hq : q.length < 2 ^ 53) (hr : r.length < 2 ^ 53)
    (hne : q ≠ []) (h : ∀ w, w ∈ q ↔ w ∈ r) : similarity q r = 1 := by
  have hne' : r ≠ [] := by
    rintro rfl
    exact hne (List.eq_nil_iff_forall_not_mem.mpr fun w hw => List.not_mem_nil ((h w).mp hw))
  rw [similarity, if_neg (not_or.mpr ⟨hne, hne'⟩), coverage_eq_one hne hq fun w => (h w).mp,
    coverage_eq_one hne' hr fun w => (h w).mpr]
  exact weights

/-- For all words, the scan is true exactly for a Levenshtein distance of at most one, and the
similarity does not depend on the order of the two; for any two arrays of words the score is between
0 and 1, and it is 1 when they are not empty and have the same set of words. The length of an array
is less than `2 ^ 32`. -/
theorem fuzzy_match {q r : List Word} (hq : q.length < 2 ^ 32) (hr : r.length < 2 ^ 32) :
    (∀ a b, levenshteinAtMostOne a b = true ↔ levenshtein a b ≤ 1) ∧
      (∀ a b, wordSimilarity a b = wordSimilarity b a) ∧
      (0 ≤ similarity q r ∧ similarity q r ≤ 1) ∧
      (q ≠ [] → (∀ w, w ∈ q ↔ w ∈ r) → similarity q r = 1) := by
  have hq' : q.length < 2 ^ 53 := hq.trans (by norm_num)
  have hr' : r.length < 2 ^ 53 := hr.trans (by norm_num)
  exact ⟨levenshteinAtMostOne_iff, wordSimilarity_comm, similarity_bounds hq' hr',
    similarity_eq_one hq' hr'⟩

/-- The same two words in either order. -/
theorem fuzzy_match_swapped :
    similarity [[0x637], [0x644, 0x627]] [[0x644, 0x627], [0x637]] = 1 :=
  (fuzzy_match (q := [[0x637], [0x644, 0x627]]) (r := [[0x644, 0x627], [0x637]]) (by decide)
    (by decide)).2.2.2 (List.cons_ne_nil _ _) fun w => by simp [or_comm]

/-- Without words there is no match. -/
theorem similarity_empty : (∀ w : Word, w ∈ ([] : List Word) ↔ w ∈ ([] : List Word)) ∧
    similarity [] [] ≠ 1 :=
  ⟨fun _ => Iff.rfl, by decide⟩

end LivechatText

end ArkanGold
