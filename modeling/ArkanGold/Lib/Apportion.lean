import Mathlib

/-!
# Sharing an amount out among parts

An amount is shared among parts in proportion to their sizes, each share rounded down to whole
units, and what the rounding leaves is given out from the last part on, to each no more than it has
room for.

- `share_le`: a rounded share is at most the exact one.
- `fillFromEnd_spec`: filling keeps every part within its size and loses nothing as long as there
  is room.
- `apportion_spec`: the shares are within the parts and add up to the amount.
-/

namespace ArkanGold

namespace Apportion

variable {unit amount total : ℤ}

/-- The share of `part` in whole units. -/
def share (unit amount total part : ℤ) : ℤ := ⌊(amount * part : ℚ) / total / unit⌋ * unit

/-- Give out `rest` from the last part on; a part is what it can hold and what it has. The second
component is what is left. -/
def fillFromEnd (rest : ℤ) : List (ℤ × ℤ) → List ℤ × ℤ
  | [] => ([], rest)
  | (size, has) :: parts =>
    let (filled, left) := fillFromEnd rest parts
    if 0 < left then
      let add := min (size - has) left
      ((has + add) :: filled, left - add)
    else (has :: filled, left)

/-- Share `amount` out among the parts. -/
def apportion (unit amount : ℤ) (parts : List ℤ) : List ℤ :=
  if amount ≤ 0 ∨ parts.sum ≤ 0 then parts.map fun _ => 0
  else
    let shares := parts.map fun part => min (share unit amount parts.sum part) part
    (fillFromEnd (amount - shares.sum) (parts.zip shares)).1

example : apportion 10 100 [333, 333, 334] = [30, 30, 40] := by decide +kernel

theorem share_nonneg (hunit : 0 ≤ unit) (hamount : 0 ≤ amount) (htotal : 0 ≤ total) {part : ℤ}
    (hpart : 0 ≤ part) : 0 ≤ share unit amount total part := by
  have hexact : (0 : ℚ) ≤ (amount * part : ℚ) / total / unit := by positivity
  exact mul_nonneg (Int.floor_nonneg.mpr hexact) hunit

theorem share_le (hunit : 0 < unit) (htotal : 0 < total) (part : ℤ) :
    share unit amount total part * total ≤ amount * part := by
  have hunit' : (0 : ℚ) < unit := by exact_mod_cast hunit
  have htotal' : (0 : ℚ) < total := by exact_mod_cast htotal
  have hfloor := Int.floor_le ((amount * part : ℚ) / total / unit)
  have hexact : (share unit amount total part * total : ℚ) ≤ amount * part := by
    calc (share unit amount total part * total : ℚ)
        = ⌊(amount * part : ℚ) / total / unit⌋ * (unit * total) := by
          rw [share]
          push_cast
          ring
      _ ≤ (amount * part : ℚ) / total / unit * (unit * total) :=
          mul_le_mul_of_nonneg_right hfloor (by positivity)
      _ = amount * part := by
          field_simp
  exact_mod_cast hexact

/-- The rounded shares together are at most the amount. -/
theorem sum_shares_le (hunit : 0 < unit) (htotal : 0 < total) (hamount : 0 ≤ amount)
    {parts : List ℤ} (hsum : parts.sum ≤ total) :
    (parts.map fun part => min (share unit amount total part) part).sum ≤ amount := by
  have hscaled (parts : List ℤ) :
      (parts.map fun part => min (share unit amount total part) part).sum * total ≤
        amount * parts.sum := by
    induction parts with
    | nil => simp
    | cons part parts ih =>
      have hpart : min (share unit amount total part) part * total ≤ amount * part :=
        (mul_le_mul_of_nonneg_right (min_le_left ..) htotal.le).trans (share_le hunit htotal part)
      simp only [List.map_cons, List.sum_cons, add_mul, mul_add]
      exact add_le_add hpart ih
  have hle : amount * parts.sum ≤ amount * total := mul_le_mul_of_nonneg_left hsum hamount
  exact le_of_mul_le_mul_right ((hscaled parts).trans hle) htotal

/-- The parts have room for what they have. -/
def Within (parts : List (ℤ × ℤ)) : Prop := ∀ p ∈ parts, 0 ≤ p.2 ∧ p.2 ≤ p.1

/-- What the parts can still take. -/
def room (parts : List (ℤ × ℤ)) : ℤ := (parts.map fun p => p.1 - p.2).sum

theorem room_map (shareOf : ℤ → ℤ) (parts : List ℤ) :
    room (parts.map fun part => (part, shareOf part)) = parts.sum - (parts.map shareOf).sum := by
  induction parts with
  | nil => simp [room]
  | cons part parts ih =>
    simp only [room, List.map_cons, List.sum_cons] at ih ⊢
    omega

theorem fillFromEnd_spec {rest : ℤ} (hrest : 0 ≤ rest) {parts : List (ℤ × ℤ)}
    (hparts : Within parts) :
    List.Forall₂ (fun p filled => 0 ≤ filled ∧ filled ≤ p.1) parts (fillFromEnd rest parts).1 ∧
      (fillFromEnd rest parts).1.sum + (fillFromEnd rest parts).2 =
        (parts.map Prod.snd).sum + rest ∧
      (fillFromEnd rest parts).2 = max 0 (rest - room parts) := by
  induction parts with
  | nil => simp [fillFromEnd, room, hrest]
  | cons p parts ih =>
    obtain ⟨size, has⟩ := p
    obtain ⟨hp, hrestParts⟩ := List.forall_mem_cons.mp hparts
    obtain ⟨hwithin, hsum, hleft⟩ := ih hrestParts
    have hroom : room ((size, has) :: parts) = size - has + room parts := by simp [room]
    simp only [fillFromEnd]
    split
    · refine ⟨.cons ?_ hwithin, ?_, ?_⟩
      · constructor <;> omega
      · simp only [List.sum_cons, List.map_cons]
        omega
      · omega
    · refine ⟨.cons hp hwithin, ?_, ?_⟩
      · simp only [List.sum_cons, List.map_cons]
        omega
      · omega

/-- Every part gets at most its size, and together they get the amount. -/
theorem apportion_spec (hunit : 0 < unit) {parts : List ℤ} (hparts : ∀ part ∈ parts, 0 ≤ part)
    (hamount : 0 ≤ amount) (hle : amount ≤ parts.sum) :
    List.Forall₂ (fun part share => 0 ≤ share ∧ share ≤ part) parts
      (apportion unit amount parts) ∧ (apportion unit amount parts).sum = amount := by
  unfold apportion
  split
  case isTrue hzero =>
    have hnone : amount = 0 := by omega
    refine ⟨?_, by simp [hnone]⟩
    rw [List.forall₂_map_right_iff, List.forall₂_same]
    exact fun part hpart => ⟨le_rfl, hparts part hpart⟩
  case isFalse hpos =>
    have htotal : 0 < parts.sum := by omega
    let shareOf (part : ℤ) : ℤ := min (share unit amount parts.sum part) part
    -- the parts with their shares, which are to be filled
    let pairs : List (ℤ × ℤ) := parts.map fun part => (part, shareOf part)
    have hpairs : parts.zip (parts.map shareOf) = pairs := List.map_prod_left_eq_zip.symm
    have hwithin : Within pairs := by
      intro p hp
      obtain ⟨part, hpart, rfl⟩ := List.mem_map.mp hp
      exact ⟨le_min (share_nonneg hunit.le hamount htotal.le (hparts part hpart))
        (hparts part hpart), min_le_right ..⟩
    have hspent : (parts.map shareOf).sum ≤ amount := sum_shares_le hunit htotal hamount le_rfl
    have hsnd : pairs.map Prod.snd = parts.map shareOf := by simp [pairs, Function.comp_def]
    have hroom : room pairs = parts.sum - (parts.map shareOf).sum := room_map shareOf parts
    obtain ⟨hbounds, hsum, hleft⟩ := fillFromEnd_spec (sub_nonneg.mpr hspent) hwithin
    rw [hroom] at hleft
    rw [hsnd] at hsum
    change List.Forall₂ _ parts
        (fillFromEnd (amount - (parts.map shareOf).sum) (parts.zip (parts.map shareOf))).1 ∧
      (fillFromEnd (amount - (parts.map shareOf).sum)
        (parts.zip (parts.map shareOf))).1.sum = amount
    rw [hpairs]
    exact ⟨List.forall₂_map_left_iff.mp hbounds, by omega⟩

end Apportion

end ArkanGold
