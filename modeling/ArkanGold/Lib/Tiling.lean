import Mathlib

/-!
# Tilings of an interval

`Tiles a b l`: the segments `l` are pairwise disjoint, the first of them begins at `a`, each
other one begins where another has ended, and none goes beyond `b`. The order of the list
does not matter (`Tiles.perm`), and a segment behind all others extends a tiling
(`Tiles.push`).
-/

namespace ArkanGold

/-- A segment of the integers that is not empty. -/
structure Segment where
  first : ℤ
  last : ℤ
  first_le_last : first ≤ last

namespace Segment

/-- One of the two segments ends before the other begins. -/
def Apart (p q : Segment) : Prop := p.last < q.first ∨ q.last < p.first

theorem Apart.symm {p q : Segment} (h : p.Apart q) : q.Apart p := Or.symm h

end Segment

/-- The segments tile the interval from `a` without gaps, up to `b` at most. -/
structure Tiles (a b : ℤ) (l : List Segment) : Prop where
  disjoint : l.Pairwise Segment.Apart
  starts : l ≠ [] → ∃ p ∈ l, p.first = a
  contiguous : ∀ p ∈ l, p.first = a ∨ ∃ q ∈ l, q.last + 1 = p.first
  within : ∀ p ∈ l, p.last ≤ b

namespace Tiles

variable {a b : ℤ} {l l' : List Segment}

theorem nil : Tiles a b [] := ⟨.nil, fun h => absurd rfl h, by simp, by simp⟩

theorem perm (h : Tiles a b l) (hperm : l.Perm l') : Tiles a b l' where
  disjoint := (hperm.pairwise_iff Segment.Apart.symm).mp h.disjoint
  starts hne := by
    have hnil : l ≠ [] := fun hnil => hne ((hnil ▸ hperm).nil_eq).symm
    obtain ⟨p, hp, hfirst⟩ := h.starts hnil
    exact ⟨p, hperm.mem_iff.mp hp, hfirst⟩
  contiguous p hp := by
    rcases h.contiguous p (hperm.mem_iff.mpr hp) with hfirst | ⟨q, hq, hnext⟩
    · exact .inl hfirst
    · exact .inr ⟨q, hperm.mem_iff.mp hq, hnext⟩
  within p hp := h.within p (hperm.mem_iff.mpr hp)

/-- No segment begins before the interval. -/
theorem le_first (h : Tiles a b l) : ∀ p ∈ l, a ≤ p.first := by
  intro p hp
  obtain ⟨m, hm⟩ : ∃ m, l.argmin Segment.first = some m :=
    Option.ne_none_iff_exists'.mp fun hnone => List.ne_nil_of_mem hp (List.argmin_eq_none.mp hnone)
  have hmin := List.le_of_mem_argmin hp hm
  -- nothing can stand before the segment that begins first
  rcases h.contiguous m (List.argmin_mem hm) with hfirst | ⟨q, hq, hnext⟩
  · omega
  · have hle := List.le_of_mem_argmin hq hm
    have := q.first_le_last
    omega

/-- A segment that follows all others, or begins the interval. -/
theorem push (h : Tiles a b l) {p : Segment} (hlast : p.last ≤ b)
    (hfirst : l = [] ∧ p.first = a ∨ ∃ q ∈ l, q.last + 1 = p.first ∧ ∀ r ∈ l, r.last ≤ q.last) :
    Tiles a b (l ++ [p]) where
  disjoint := by
    refine List.pairwise_append.mpr ⟨h.disjoint, List.pairwise_singleton _ _, fun r hr x hx => ?_⟩
    rw [List.mem_singleton] at hx
    subst hx
    rcases hfirst with ⟨rfl, -⟩ | ⟨q, -, hnext, hmax⟩
    · cases hr
    · have := hmax r hr
      exact .inl (by omega)
  starts _ := by
    by_cases hnil : l = []
    · rcases hfirst with ⟨-, hp⟩ | ⟨q, hq, -⟩
      · exact ⟨p, List.mem_append_right _ (List.mem_singleton_self p), hp⟩
      · exact absurd hnil (List.ne_nil_of_mem hq)
    · obtain ⟨q, hq, hstart⟩ := h.starts hnil
      exact ⟨q, List.mem_append_left _ hq, hstart⟩
  contiguous r hr := by
    rcases List.mem_append.mp hr with hr | hr
    · rcases h.contiguous r hr with hstart | ⟨q, hq, hnext⟩
      · exact .inl hstart
      · exact .inr ⟨q, List.mem_append_left _ hq, hnext⟩
    · rw [List.mem_singleton] at hr
      subst hr
      rcases hfirst with ⟨-, hstart⟩ | ⟨q, hq, hnext, -⟩
      · exact .inl hstart
      · exact .inr ⟨q, List.mem_append_left _ hq, hnext⟩
  within r hr := by
    rcases List.mem_append.mp hr with hr | hr
    · exact h.within r hr
    · rw [List.mem_singleton] at hr
      exact hr ▸ hlast

end Tiles

end ArkanGold
