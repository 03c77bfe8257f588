import Mathlib

/-!
# Trees of arrays and records

Values built from arrays and records with named fields; the leaves are of any type. A path of
indices and field names leads to a place in a tree (`Tree.at?`), and `Tree.node` is what stands
there, apart from the values below it.
-/

namespace ArkanGold

/-- A value of arrays and records. -/
inductive Tree (π : Type) where
  | leaf (x : π)
  | array (items : List (Tree π))
  | record (fields : List (String × Tree π))

/-- A step of a path. -/
inductive TreeStep where
  | index (i : ℕ)
  | key (k : String)
  deriving DecidableEq

/-- A place of a tree without what is below it. -/
inductive TreeNode (π : Type) where
  | leaf (x : π)
  | array (length : ℕ)
  | record (keys : List String)
  deriving DecidableEq

namespace Tree

variable {π : Type}

/-- The value that a path leads to. -/
def at? : List TreeStep → Tree π → Option (Tree π)
  | [], t => some t
  | .index i :: p, array items => items[i]?.bind (at? p)
  | .key k :: p, record fields => (fields.lookup k).bind (at? p)
  | _ :: _, _ => none

/-- The place itself; of a record only the fields that `keep` admits are looked at. -/
def node (keep : String → Bool) : Tree π → TreeNode π
  | leaf x => .leaf x
  | array items => .array items.length
  | record fields => .record ((fields.map Prod.fst).filter keep)

@[simp] theorem at?_nil (t : Tree π) : at? [] t = some t := by cases t <;> rfl

@[simp] theorem at?_index_leaf (i : ℕ) (p : List TreeStep) (x : π) :
    at? (.index i :: p) (leaf x) = none := rfl

@[simp] theorem at?_index_array (i : ℕ) (p : List TreeStep) (items : List (Tree π)) :
    at? (.index i :: p) (array items) = items[i]?.bind (at? p) := rfl

@[simp] theorem at?_index_record (i : ℕ) (p : List TreeStep) (fields : List (String × Tree π)) :
    at? (.index i :: p) (record fields) = none := rfl

@[simp] theorem at?_key_leaf (k : String) (p : List TreeStep) (x : π) :
    at? (.key k :: p) (leaf x) = none := rfl

@[simp] theorem at?_key_array (k : String) (p : List TreeStep) (items : List (Tree π)) :
    at? (.key k :: p) (array items) = none := rfl

@[simp] theorem at?_key_record (k : String) (p : List TreeStep)
    (fields : List (String × Tree π)) :
    at? (.key k :: p) (record fields) = (fields.lookup k).bind (at? p) := rfl

/-- A field among those that were kept and rewritten. -/
theorem lookup_filter_map {α β : Type} (keep : String → Bool) (f : α → β)
    (fields : List (String × α)) (k : String) :
    ((fields.filter fun e => keep e.1).map fun e => (e.1, f e.2)).lookup k =
      if keep k then (fields.lookup k).map f else none := by
  induction fields with
  | nil => simp
  | cons e fields ih =>
    obtain ⟨k', a⟩ := e
    rw [List.filter_cons, List.lookup_cons]
    cases hk : k == k' with
    | false =>
      cases hkeep : keep k' with
      | false => simpa [hkeep] using ih
      | true => simpa [hkeep, List.lookup_cons, hk] using ih
    | true =>
      obtain rfl := beq_iff_eq.mp hk
      cases hkeep : keep k with
      | false => simpa [hkeep] using ih
      | true => simp

end Tree

end ArkanGold
