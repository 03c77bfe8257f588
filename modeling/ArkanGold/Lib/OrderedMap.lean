import Mathlib

/-!
# Maps in insertion order

A map that gives its entries back in the order in which their keys were first set.

- `alter k f`: set the key `k` to `f` of what it holds so far.
- `weight w`: the sum of `w` over all entries. What `alter` adds to one entry is what it
  adds to the weight (`weight_alter`), so a weight is a running total (`weight_foldl`).
- `All p`: what `alter` preserves of every entry (`All.alter`).
-/

namespace ArkanGold

/-- A map that keeps the order in which its keys were first set. -/
structure OrderedMap (κ ν : Type) where
  entries : List (κ × ν)
  nodup : (entries.map Prod.fst).Nodup

namespace OrderedMap

variable {κ ν M : Type} [AddCommMonoid M]

/-- The map without entries. -/
def empty : OrderedMap κ ν := ⟨[], List.nodup_nil⟩

/-- The keys in order. -/
def keys (m : OrderedMap κ ν) : List κ := m.entries.map Prod.fst

/-- The values in the order of their keys. -/
def values (m : OrderedMap κ ν) : List ν := m.entries.map Prod.snd

@[simp] theorem entries_empty : (empty : OrderedMap κ ν).entries = [] := rfl

/-- Every entry of the map has the property. -/
def All (p : κ → ν → Prop) (m : OrderedMap κ ν) : Prop := ∀ e ∈ m.entries, p e.1 e.2

theorem all_empty (p : κ → ν → Prop) : All p (empty : OrderedMap κ ν) := by
  simp [All]

/-- The sum of `w` over the entries. -/
def weight (w : κ → ν → M) (m : OrderedMap κ ν) : M := (m.entries.map fun e => w e.1 e.2).sum

@[simp] theorem weight_empty (w : κ → ν → M) : weight w (empty : OrderedMap κ ν) = 0 := rfl

theorem weight_values (w : ν → M) (m : OrderedMap κ ν) :
    (m.values.map w).sum = m.weight fun _ v => w v := by
  unfold values weight
  rw [List.map_map]
  rfl

variable [DecidableEq κ]

/-- The weight of a single entry. -/
theorem weight_of_mem {m : OrderedMap κ ν} {k : κ} {v : ν} (h : (k, v) ∈ m.entries)
    (w : ν → M) : (m.weight fun k' v' => if k' = k then w v' else 0) = w v := by
  obtain ⟨entries, hnodup⟩ := m
  unfold weight
  dsimp only at h ⊢
  induction entries with
  | nil => cases h
  | cons e es ih =>
    rw [List.map_cons, List.nodup_cons] at hnodup
    rw [List.map_cons, List.sum_cons]
    rcases List.mem_cons.mp h with rfl | h
    · -- no other entry has the key
      have hrest : (es.map fun e => if e.1 = k then w e.2 else 0).sum = 0 :=
        List.sum_eq_zero fun a ha => by
          obtain ⟨e, he, rfl⟩ := List.mem_map.mp ha
          have hmem : e.1 ∈ es.map Prod.fst := List.mem_map_of_mem he
          exact if_neg fun heq : e.1 = k => hnodup.1 (heq ▸ hmem)
      rw [hrest, add_zero, if_pos rfl]
    · have hmem : k ∈ es.map Prod.fst := List.mem_map_of_mem h
      rw [if_neg fun heq : e.1 = k => hnodup.1 (heq ▸ hmem), zero_add, ih hnodup.2 h]

/-! ## Setting a key -/

/-- The entries after a key has been set. -/
def alterEntries (k : κ) (f : Option ν → ν) : List (κ × ν) → List (κ × ν)
  | [] => [(k, f none)]
  | e :: es => if e.1 = k then (k, f (some e.2)) :: es else e :: alterEntries k f es

theorem keys_alterEntries (k : κ) (f : Option ν → ν) (es : List (κ × ν)) :
    (alterEntries k f es).map Prod.fst =
      if k ∈ es.map Prod.fst then es.map Prod.fst else es.map Prod.fst ++ [k] := by
  induction es with
  | nil => rfl
  | cons e es ih =>
    rw [alterEntries]
    by_cases he : e.1 = k
    · simp [he]
    · have hk : k ≠ e.1 := fun h => he h.symm
      rw [if_neg he, List.map_cons, ih]
      simp only [List.map_cons, List.mem_cons, hk, false_or]
      split <;> rfl

/-- Set a key to `f` of the value it holds so far, if there is one. -/
def alter (k : κ) (f : Option ν → ν) (m : OrderedMap κ ν) : OrderedMap κ ν where
  entries := alterEntries k f m.entries
  nodup := by
    rw [keys_alterEntries]
    split
    · exact m.nodup
    · rename_i hk
      rw [List.nodup_append]
      refine ⟨m.nodup, List.nodup_singleton k, ?_⟩
      rintro a ha b hb rfl
      exact hk (List.mem_singleton.mp hb ▸ ha)

theorem mem_keys_alter {k k' : κ} {f : Option ν → ν} {m : OrderedMap κ ν} :
    k' ∈ (m.alter k f).keys ↔ k' ∈ m.keys ∨ k' = k := by
  unfold keys alter
  rw [keys_alterEntries]
  split
  · rename_i hk
    exact ⟨.inl, fun h => h.elim id fun heq => heq ▸ hk⟩
  · simp

theorem mem_alterEntries {k : κ} {f : Option ν → ν} {es : List (κ × ν)} {e : κ × ν}
    (h : e ∈ alterEntries k f es) :
    e ∈ es ∨ e = (k, f none) ∨ ∃ v, (k, v) ∈ es ∧ e = (k, f (some v)) := by
  induction es with
  | nil => exact .inr (.inl (List.mem_singleton.mp h))
  | cons x xs ih =>
    rw [alterEntries] at h
    split_ifs at h with hx
    · rcases List.mem_cons.mp h with rfl | h
      · exact .inr (.inr ⟨x.2, by rw [← hx]; exact List.mem_cons_self .., rfl⟩)
      · exact .inl (List.mem_cons_of_mem _ h)
    · rcases List.mem_cons.mp h with rfl | h
      · exact .inl (List.mem_cons_self ..)
      · rcases ih h with hxs | hnone | ⟨v, hv, hsome⟩
        · exact .inl (List.mem_cons_of_mem _ hxs)
        · exact .inr (.inl hnone)
        · exact .inr (.inr ⟨v, List.mem_cons_of_mem _ hv, hsome⟩)

/-! ## What a loop adds up -/

theorem All.alter {p : κ → ν → Prop} {m : OrderedMap κ ν} (h : m.All p) {k : κ}
    {f : Option ν → ν} (hnone : p k (f none)) (hsome : ∀ v, p k v → p k (f (some v))) :
    (m.alter k f).All p := by
  intro e he
  rcases mem_alterEntries he with he | rfl | ⟨v, hv, rfl⟩
  · exact h e he
  · exact hnone
  · exact hsome v (h _ hv)

/-- What is added to the value of a key is added to the weight. -/
theorem weight_alter {w : κ → ν → M} {k : κ} {f : Option ν → ν} {a : M} (m : OrderedMap κ ν)
    (hnone : w k (f none) = a) (hsome : ∀ v, (k, v) ∈ m.entries → w k (f (some v)) = w k v + a) :
    (m.alter k f).weight w = m.weight w + a := by
  suffices h : ∀ es : List (κ × ν), (∀ v, (k, v) ∈ es → w k (f (some v)) = w k v + a) →
      ((alterEntries k f es).map fun e => w e.1 e.2).sum =
        (es.map fun e => w e.1 e.2).sum + a from h m.entries hsome
  intro es
  induction es with
  | nil =>
    intro _
    simp [alterEntries, hnone]
  | cons e es ih =>
    intro hes
    rw [alterEntries]
    split
    · rename_i he
      have hv : (k, e.2) ∈ e :: es := by
        rw [← he]
        exact List.mem_cons_self ..
      simp only [List.map_cons, List.sum_cons, he, hes e.2 hv]
      exact add_right_comm _ _ _
    · simp only [List.map_cons, List.sum_cons,
        ih fun v hv => hes v (List.mem_cons_of_mem _ hv), add_assoc]

/-- A loop that alters one key for each item adds up what each item adds, as long as the
invariant `p` of the entries holds along the loop. -/
theorem weight_foldl {ι : Type} {w : κ → ν → M} {p : κ → ν → Prop} {key : ι → κ}
    {f : ι → Option ν → ν} {a : ι → M} {items : List ι}
    (hnone : ∀ i ∈ items, p (key i) (f i none) ∧ w (key i) (f i none) = a i)
    (hsome : ∀ i ∈ items, ∀ v, p (key i) v →
      p (key i) (f i (some v)) ∧ w (key i) (f i (some v)) = w (key i) v + a i)
    {m : OrderedMap κ ν} (hm : m.All p) :
    (items.foldl (fun m i => m.alter (key i) (f i)) m).weight w =
        m.weight w + (items.map a).sum ∧
      (items.foldl (fun m i => m.alter (key i) (f i)) m).All p := by
  induction items generalizing m with
  | nil => simpa using hm
  | cons i items ih =>
    have hi : i ∈ i :: items := List.mem_cons_self ..
    obtain ⟨hweight, hall⟩ := ih (fun x hx => hnone x (List.mem_cons_of_mem _ hx))
      (fun x hx => hsome x (List.mem_cons_of_mem _ hx))
      (hm.alter (hnone i hi).1 fun v hv => (hsome i hi v hv).1)
    refine ⟨?_, hall⟩
    rw [List.foldl_cons, hweight,
      weight_alter m (hnone i hi).2 fun v hv => (hsome i hi v (hm _ hv)).2,
      List.map_cons, List.sum_cons, add_assoc]

/-- The keys that a loop sets. -/
theorem mem_keys_foldl {ι : Type} {key : ι → κ} {f : ι → Option ν → ν} {items : List ι}
    {m : OrderedMap κ ν} {k : κ} :
    k ∈ (items.foldl (fun m i => m.alter (key i) (f i)) m).keys ↔
      k ∈ m.keys ∨ ∃ i ∈ items, key i = k := by
  induction items generalizing m with
  | nil => simp
  | cons i items ih =>
    rw [List.foldl_cons, ih, mem_keys_alter, or_assoc]
    simp [eq_comm]

end OrderedMap

end ArkanGold
