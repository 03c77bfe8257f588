import ArkanGold.Lib.Positional

/-!
# Regrouping digits in a machine word

A loop reads digits of `w` bits into a word and takes digits of `v` bits out of it. The word is never
masked: what has been taken out is shifted up and overflows, and only its low bits count.

- `Pending`: what has been taken out and the low bits of the word make up the number that was read.
- `Pending.push` and `Pending.emit`: a step in and a step out.
-/

namespace ArkanGold

namespace Regroup

open Positional

variable {W N v w bits x : ℕ} {out : List ℕ} {value : BitVec W}

/-- The digits of `v` bits in `out` and the low `bits` bits of the word make up `N`. -/
structure Pending (N v : ℕ) (out : List ℕ) (value : BitVec W) (bits : ℕ) : Prop where
  fits : bits ≤ W
  eq : number (2 ^ v) out * 2 ^ bits + value.toNat % 2 ^ bits = N

theorem pending_start : Pending 0 v [] (0 : BitVec W) 0 := ⟨Nat.zero_le W, by simp [Nat.mod_one]⟩

/-- The low bits once a digit was pushed. -/
theorem low_push (hx : x < 2 ^ w) (hfit : bits + w ≤ W) :
    (value <<< w ||| BitVec.ofNat W x).toNat % 2 ^ (bits + w) =
      value.toNat % 2 ^ bits * 2 ^ w + x := by
  have hxW : x < 2 ^ (bits + w) :=
    hx.trans_le (Nat.pow_le_pow_right (by norm_num) (Nat.le_add_left w bits))
  have hdvd : 2 ^ (bits + w) ∣ 2 ^ W := pow_dvd_pow 2 hfit
  have hhigh : (value.toNat <<< w) % 2 ^ (bits + w) = (value.toNat % 2 ^ bits) <<< w := by
    rw [Nat.shiftLeft_eq, Nat.shiftLeft_eq, pow_add, Nat.mul_mod_mul_right]
  rw [BitVec.toNat_or, BitVec.toNat_shiftLeft, BitVec.toNat_ofNat, Nat.or_mod_two_pow,
    Nat.mod_mod_of_dvd _ hdvd, Nat.mod_mod_of_dvd _ hdvd, Nat.mod_eq_of_lt hxW, hhigh,
    ← Nat.shiftLeft_add_eq_or_of_lt hx, Nat.shiftLeft_eq]

/-- A digit of `w` bits enters the word. -/
theorem Pending.push (h : Pending N v out value bits) (hx : x < 2 ^ w) (hfit : bits + w ≤ W) :
    Pending (N * 2 ^ w + x) v out (value <<< w ||| BitVec.ofNat W x) (bits + w) := by
  refine ⟨hfit, ?_⟩
  rw [low_push hx hfit, ← h.eq, pow_add]
  ring

/-- A digit of `v` bits leaves the word. -/
theorem Pending.emit (h : Pending N v out value bits) (hv : v ≤ bits) :
    Pending N v (out ++ [(value >>> (bits - v)).toNat % 2 ^ v]) value (bits - v) := by
  have hsplit : 2 ^ bits = 2 ^ (bits - v) * 2 ^ v := by rw [← pow_add, Nat.sub_add_cancel hv]
  refine ⟨(Nat.sub_le bits v).trans h.fits, ?_⟩
  rw [number_append_singleton, BitVec.toNat_ushiftRight, Nat.shiftRight_eq_div_pow, ← h.eq, hsplit,
    Nat.mod_mul]
  ring

end Regroup

end ArkanGold
