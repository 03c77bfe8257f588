import Mathlib

/-!
# Numbers in digits

`Positional.number` reads digits with the first digit first, as loops over a text do; Mathlib's
`Nat.ofDigits` starts at the other end.
-/

namespace ArkanGold

namespace Positional

variable {b : ℕ}

/-- The number with these digits. -/
def number (b : ℕ) (ds : List ℕ) : ℕ := ds.foldl (fun n d => n * b + d) 0

@[simp] theorem number_nil : number b [] = 0 := rfl

theorem number_append_singleton (ds : List ℕ) (d : ℕ) :
    number b (ds ++ [d]) = number b ds * b + d := by
  rw [number, List.foldl_append]
  rfl

theorem number_eq_ofDigits (ds : List ℕ) : number b ds = Nat.ofDigits b ds.reverse := by
  induction ds using List.reverseRecOn with
  | nil => rfl
  | append_singleton ds d ih =>
    rw [number_append_singleton, List.reverse_append, List.reverse_singleton,
      List.singleton_append, Nat.ofDigits_cons, ih]
    ring

theorem number_append (ds es : List ℕ) :
    number b (ds ++ es) = number b ds * b ^ es.length + number b es := by
  rw [number_eq_ofDigits, number_eq_ofDigits, number_eq_ofDigits, List.reverse_append,
    Nat.ofDigits_append, List.length_reverse]
  ring

theorem number_lt (hb : 1 < b) {ds : List ℕ} (h : ∀ d ∈ ds, d < b) :
    number b ds < b ^ ds.length := by
  rw [number_eq_ofDigits, ← List.length_reverse]
  exact Nat.ofDigits_lt_base_pow_length hb fun d hd => h d (List.mem_reverse.mp hd)

/-- Leaving out the last digits is dividing. -/
theorem number_append_div (hb : 1 < b) (ds : List ℕ) {es : List ℕ} (h : ∀ e ∈ es, e < b) :
    number b (ds ++ es) / b ^ es.length = number b ds := by
  rw [number_append, Nat.mul_comm, Nat.mul_add_div (Nat.pow_pos (by omega)),
    Nat.div_eq_of_lt (number_lt hb h), Nat.add_zero]

/-- As many digits that make the same number are the same digits. -/
theorem number_inj (hb : 1 < b) {ds es : List ℕ} (hlength : ds.length = es.length)
    (hds : ∀ d ∈ ds, d < b) (hes : ∀ e ∈ es, e < b) (h : number b ds = number b es) : ds = es := by
  rw [number_eq_ofDigits, number_eq_ofDigits] at h
  refine List.reverse_injective (Nat.ofDigits_inj_of_len_eq hb ?_ ?_ ?_ h)
  · rw [List.length_reverse, List.length_reverse, hlength]
  · exact fun d hd => hds d (List.mem_reverse.mp hd)
  · exact fun e he => hes e (List.mem_reverse.mp he)

end Positional

end ArkanGold
