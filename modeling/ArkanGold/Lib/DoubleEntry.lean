import Mathlib

/-!
# Double-entry bookkeeping

Postings of type `P` name an account of type `α`, a side and an amount in a
commutative group `M`. Nothing is fixed about them: `acct`, `side` and `amt` read
a posting, and `nature` says on which side an account grows.

- `effect`: what a posting adds to the balance of its own account.
- `balance`: the balance of an account over a list of postings.
- `signedTotal_eq`: over any list of accounts that covers the postings, the
  balances of debit-nature accounts minus those of credit-nature accounts are the
  total debits minus the total credits.
- `trialBalance`: so balanced postings keep the two halves of the books equal.
-/

namespace ArkanGold

namespace DoubleEntry

/-- The two sides of an account. -/
inductive Side where
  | debit
  | credit
  deriving DecidableEq, Repr

/-- The other side. -/
def Side.opposite : Side → Side
  | .debit => .credit
  | .credit => .debit

@[simp] theorem Side.opposite_opposite (s : Side) : s.opposite.opposite = s := by
  cases s <;> rfl

variable {P α M : Type} [AddCommGroup M]
variable (acct : P → α) (side : P → Side) (amt : P → M) (nature : α → Side)

/-- What a posting adds to the balance of its account. -/
def effect (p : P) : M := if side p = nature (acct p) then amt p else -amt p

/-- The balance of account `a` over the postings `ps`. -/
def balance [DecidableEq α] (ps : List P) (a : α) : M :=
  (ps.map fun p => if acct p = a then effect acct side amt nature p else 0).sum

/-- The total posted to one side. -/
def total (s : Side) (ps : List P) : M :=
  (ps.map fun p => if side p = s then amt p else 0).sum

/-- Debits and credits are equal. -/
def Balanced (ps : List P) : Prop := total side amt .debit ps = total side amt .credit ps

/-- A balance with the sign of its side of the books. -/
def signed (a : α) (m : M) : M :=
  match nature a with
  | .debit => m
  | .credit => -m

@[simp] theorem balance_nil [DecidableEq α] (a : α) : balance acct side amt nature [] a = 0 := rfl

theorem balance_cons [DecidableEq α] (p : P) (ps : List P) (a : α) :
    balance acct side amt nature (p :: ps) a =
      (if acct p = a then effect acct side amt nature p else 0) +
        balance acct side amt nature ps a := by
  simp [balance]

theorem balance_append [DecidableEq α] (ps qs : List P) (a : α) :
    balance acct side amt nature (ps ++ qs) a =
      balance acct side amt nature ps a + balance acct side amt nature qs a := by
  simp [balance]

/-- The balance of an account only depends on the nature of that account. -/
theorem balance_congr [DecidableEq α] {nature' : α → Side} {a : α} (h : nature a = nature' a)
    (ps : List P) : balance acct side amt nature ps a = balance acct side amt nature' ps a := by
  unfold balance
  congr 1
  refine List.map_congr_left fun p _ => ?_
  by_cases hp : acct p = a
  · simp only [effect, hp, h]
  · rw [if_neg hp, if_neg hp]

/-- The balance as a sum over the postings of the account alone. -/
theorem balance_eq_filter [DecidableEq α] (ps : List P) (a : α) :
    balance acct side amt nature ps a =
      ((ps.filter fun p => acct p = a).map (effect acct side amt nature)).sum := by
  induction ps with
  | nil => rfl
  | cons p ps ih =>
    rw [balance_cons, ih]
    by_cases hp : acct p = a
    · simp [hp]
    · simp [hp]

/-- An account without postings has the balance zero. -/
theorem balance_eq_zero [DecidableEq α] {ps : List P} {a : α} (h : ∀ p ∈ ps, acct p ≠ a) :
    balance acct side amt nature ps a = 0 := by
  rw [balance_eq_filter, List.filter_eq_nil_iff.mpr fun p hp => by simpa using h p hp]
  rfl

theorem total_append (s : Side) (ps qs : List P) :
    total side amt s (ps ++ qs) = total side amt s ps + total side amt s qs := by
  simp [total]

/-- Totals commute with a change of units. -/
theorem map_total {N : Type} [AddCommGroup N] (f : M →+ N) (s : Side) (ps : List P) :
    f (total side amt s ps) = total side (fun p => f (amt p)) s ps := by
  unfold total
  rw [map_list_sum, List.map_map]
  congr 1
  refine List.map_congr_left fun p _ => ?_
  simp only [Function.comp_apply]
  split
  · rfl
  · exact map_zero f

/-- Totals only read the side and the amount of a posting. -/
theorem total_map {Q : Type} {side' : Q → Side} {amt' : Q → M} (f : P → Q)
    (s : Side) (ps : List P) (hside : ∀ p ∈ ps, side' (f p) = side p)
    (hamt : ∀ p ∈ ps, amt' (f p) = amt p) :
    total side' amt' s (ps.map f) = total side amt s ps := by
  unfold total
  rw [List.map_map]
  congr 1
  refine List.map_congr_left fun p hp => ?_
  simp only [Function.comp_apply, hside p hp, hamt p hp]

theorem balanced_nil : Balanced side amt ([] : List P) := rfl

theorem balanced_append {ps qs : List P} (hp : Balanced side amt ps)
    (hq : Balanced side amt qs) : Balanced side amt (ps ++ qs) := by
  unfold Balanced at *
  rw [total_append, total_append, hp, hq]

/-- Reversing every side keeps the postings balanced. -/
theorem balanced_reverse {Q : Type} {side' : Q → Side} {amt' : Q → M} {ps : List P}
    (f : P → Q) (hside : ∀ p ∈ ps, side' (f p) = (side p).opposite)
    (hamt : ∀ p ∈ ps, amt' (f p) = amt p) (h : Balanced side amt ps) :
    Balanced side' amt' (ps.map f) := by
  have key : ∀ s, total side' amt' s (ps.map f) = total side amt s.opposite ps := by
    intro s
    unfold total
    rw [List.map_map]
    congr 1
    refine List.map_congr_left fun p hp => ?_
    simp only [Function.comp_apply, hside p hp, hamt p hp]
    cases side p <;> cases s <;> simp [Side.opposite]
  unfold Balanced
  rw [key, key]
  exact h.symm

/-- Reversing every side turns the balances around. -/
theorem balance_reverse [DecidableEq α] {Q : Type} {acct' : Q → α} {side' : Q → Side}
    {amt' : Q → M} (f : P → Q) {ps : List P} (hacct : ∀ p ∈ ps, acct' (f p) = acct p)
    (hside : ∀ p ∈ ps, side' (f p) = (side p).opposite) (hamt : ∀ p ∈ ps, amt' (f p) = amt p)
    (a : α) : balance acct' side' amt' nature (ps.map f) a =
      -balance acct side amt nature ps a := by
  induction ps with
  | nil => simp
  | cons p ps ih =>
    have hp := List.mem_cons_self (a := p) (l := ps)
    have heffect : effect acct' side' amt' nature (f p) = -effect acct side amt nature p := by
      rw [effect, effect, hacct p hp, hside p hp, hamt p hp]
      cases side p <;> cases nature (acct p) <;> simp [Side.opposite]
    rw [List.map_cons, balance_cons, balance_cons, hacct p hp, heffect,
      ih (fun q hq => hacct q (List.mem_cons_of_mem p hq))
        (fun q hq => hside q (List.mem_cons_of_mem p hq))
        fun q hq => hamt q (List.mem_cons_of_mem p hq), neg_add]
    split <;> simp

theorem signed_add (a : α) (m n : M) : signed nature a (m + n) =
    signed nature a m + signed nature a n := by
  unfold signed
  cases nature a with
  | debit => rfl
  | credit => exact neg_add m n

theorem signed_zero (a : α) : signed nature a (0 : M) = 0 := by
  unfold signed
  cases nature a <;> simp

/-- One posting moves the signed sum of all balances by its debit minus its
credit, whatever the nature of its account. -/
theorem signed_effect (p : P) :
    signed nature (acct p) (effect acct side amt nature p) =
      (if side p = .debit then amt p else 0) - (if side p = .credit then amt p else 0) := by
  unfold signed effect
  cases hn : nature (acct p) <;> cases hs : side p <;> simp

/-- **The accounting equation**: over a duplicate-free list of accounts that
covers the postings, the signed balances sum to total debits minus total
credits. -/
theorem signedTotal_eq [DecidableEq α] {as : List α} (has : as.Nodup) {ps : List P}
    (hcov : ∀ p ∈ ps, acct p ∈ as) :
    (as.map fun a => signed nature a (balance acct side amt nature ps a)).sum =
      total side amt .debit ps - total side amt .credit ps := by
  induction ps with
  | nil =>
    simp only [balance_nil, signed_zero, total]
    simp
  | cons p ps ih =>
    have hp : acct p ∈ as := hcov p List.mem_cons_self
    have ih' := ih fun q hq => hcov q (List.mem_cons_of_mem p hq)
    have hone : (as.map fun a => signed nature a
        (if acct p = a then effect acct side amt nature p else 0)).sum =
          signed nature (acct p) (effect acct side amt nature p) := by
      rw [List.sum_map_eq_nsmul_single (acct p)]
      · rw [List.count_eq_one_of_mem has hp, one_smul, if_pos rfl]
      · intro a ha _
        rw [if_neg (Ne.symm ha), signed_zero]
    simp only [balance_cons, signed_add, List.sum_map_add, hone, ih', signed_effect]
    simp only [total, List.map_cons, List.sum_cons]
    abel

/-- The signed sum splits into the debit-nature and the credit-nature half. -/
theorem sum_signed_eq (as : List α) (b : α → M) :
    (as.map fun a => signed nature a (b a)).sum =
      ((as.filter fun a => nature a = .debit).map b).sum -
        ((as.filter fun a => nature a = .credit).map b).sum := by
  induction as with
  | nil => simp
  | cons a as ih =>
    rw [List.map_cons, List.sum_cons, ih]
    cases ha : nature a with
    | debit =>
      have hs : signed nature a (b a) = b a := by simp [signed, ha]
      rw [hs, List.filter_cons_of_pos (by simp [ha]), List.filter_cons_of_neg (by simp [ha]),
        List.map_cons, List.sum_cons]
      abel
    | credit =>
      have hs : signed nature a (b a) = -b a := by simp [signed, ha]
      rw [hs, List.filter_cons_of_neg (by simp [ha]), List.filter_cons_of_pos (by simp [ha]),
        List.map_cons, List.sum_cons]
      abel

/-- **Trial balance**: if the postings are balanced, the debit-nature accounts
hold as much as the credit-nature accounts. -/
theorem trialBalance [DecidableEq α] {as : List α} (has : as.Nodup) {ps : List P}
    (hcov : ∀ p ∈ ps, acct p ∈ as) (hbal : Balanced side amt ps) :
    ((as.filter fun a => nature a = .debit).map (balance acct side amt nature ps)).sum =
      ((as.filter fun a => nature a = .credit).map
        (balance acct side amt nature ps)).sum := by
  have h := signedTotal_eq acct side amt nature has hcov
  rw [sum_signed_eq, hbal, sub_self] at h
  exact sub_eq_zero.mp h

end DoubleEntry

end ArkanGold
