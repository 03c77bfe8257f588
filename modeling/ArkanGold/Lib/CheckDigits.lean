import ArkanGold.Lib.Positional

/-!
# Check digits

The remainder modulo `m` of a number in digits, as a loop over the digits finds it.

- `remainder_eq`: the loop finds the remainder of the number.
- `substitution_detected`, `transposition_detected`: modulo a prime that does not divide the base, a
  number with one digit changed, or with two digits exchanged at places of different weight, has
  another remainder.
-/

namespace ArkanGold

namespace CheckDigits

open Positional

variable {b m : ℕ}

/-- The remainder, digit by digit. -/
def remainder (b m : ℕ) (ds : List ℕ) : ℕ := ds.foldl (fun r d => (r * b + d) % m) 0

theorem remainder_eq (b m : ℕ) (ds : List ℕ) : remainder b m ds = number b ds % m := by
  have hloop : ∀ (r n : ℕ), r = n % m →
      ds.foldl (fun r d => (r * b + d) % m) r = ds.foldl (fun n d => n * b + d) n % m := by
    induction ds with
    | nil => exact fun _ _ h => h
    | cons d ds ih =>
      intro r n h
      subst h
      refine ih _ _ ?_
      show (n % m * b + d) % m = (n * b + d) % m
      rw [Nat.add_mod, Nat.mod_mul_mod, ← Nat.add_mod]
  exact hloop 0 0 (Nat.zero_mod m).symm

/-- The weight of the place `p` of a number of `n` digits. -/
def weight (b n p : ℕ) : ℕ := b ^ (n - 1 - p)

/-- What a new digit changes. -/
theorem number_set {ds : List ℕ} {p : ℕ} (hp : p < ds.length) (d : ℕ) :
    number b (ds.set p d) + ds[p] * weight b ds.length p =
      number b ds + d * weight b ds.length p := by
  induction ds using List.reverseRecOn with
  | nil => exact absurd hp (Nat.not_lt_zero p)
  | append_singleton ds e ih =>
    rw [List.length_append, List.length_singleton] at hp
    by_cases hlast : p = ds.length
    · subst hlast
      rw [List.set_append_right _ _ le_rfl, Nat.sub_self, List.set_cons_zero,
        number_append_singleton, number_append_singleton, List.getElem_append_right le_rfl]
      simp [weight]
      ring
    · have hp' : p < ds.length := by omega
      have hweight : weight b (ds ++ [e]).length p = weight b ds.length p * b := by
        rw [weight, weight, ← pow_succ, List.length_append, List.length_singleton]
        congr 1
        omega
      rw [List.set_append_left _ _ hp', number_append_singleton, number_append_singleton,
        List.getElem_append_left hp', hweight]
      linear_combination b * ih hp'

theorem number_set_cast {ds : List ℕ} {p : ℕ} (hp : p < ds.length) (d : ℕ) :
    (number b (ds.set p d) : ZMod m) =
      number b ds + (d - ds[p]) * weight b ds.length p := by
  have h := congrArg (Nat.cast (R := ZMod m)) (number_set (b := b) hp d)
  push_cast at h
  linear_combination h

theorem cast_inj {x y : ℕ} (hx : x < m) (hy : y < m) (h : (x : ZMod m) = y) : x = y := by
  rwa [ZMod.natCast_eq_natCast_iff', Nat.mod_eq_of_lt hx, Nat.mod_eq_of_lt hy] at h

theorem weight_ne_zero [Fact m.Prime] (hb : (b : ZMod m) ≠ 0) (n p : ℕ) :
    (weight b n p : ZMod m) ≠ 0 := by
  rw [weight, Nat.cast_pow]
  exact pow_ne_zero _ hb

/-- A number with one digit changed has another remainder. -/
theorem substitution_detected [Fact m.Prime] (hb : (b : ZMod m) ≠ 0) {ds : List ℕ} {p d : ℕ}
    (hp : p < ds.length) (hold : ds[p] < m) (hnew : d < m) (hne : d ≠ ds[p]) :
    number b (ds.set p d) % m ≠ number b ds % m := by
  intro h
  rw [← ZMod.natCast_eq_natCast_iff', number_set_cast hp, add_eq_left, mul_eq_zero] at h
  obtain h | h := h
  · exact hne (cast_inj hnew hold (sub_eq_zero.mp h))
  · exact weight_ne_zero hb _ _ h

/-- A number with two digits exchanged has another remainder. -/
theorem transposition_detected [Fact m.Prime] {ds : List ℕ} {p q : ℕ} (hp : p < ds.length)
    (hq : q < ds.length) (hpq : p ≠ q) (hltp : ds[p] < m) (hltq : ds[q] < m) (hne : ds[p] ≠ ds[q])
    (hweight : (weight b ds.length p : ZMod m) ≠ weight b ds.length q) :
    number b ((ds.set p ds[q]).set q ds[p]) % m ≠ number b ds % m := by
  intro h
  have hq' : q < (ds.set p ds[q]).length := by rwa [List.length_set]
  have hget : (ds.set p ds[q])[q] = ds[q] := List.getElem_set_ne hpq _
  rw [← ZMod.natCast_eq_natCast_iff', number_set_cast hq', number_set_cast hp, hget,
    List.length_set] at h
  have hzero : ((ds[p] : ZMod m) - ds[q]) *
      ((weight b ds.length p : ZMod m) - weight b ds.length q) = 0 := by
    linear_combination -h
  obtain h | h := mul_eq_zero.mp hzero
  · exact hne (cast_inj hltp hltq (sub_eq_zero.mp h))
  · exact hweight (sub_eq_zero.mp h)

end CheckDigits

end ArkanGold
