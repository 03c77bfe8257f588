import ArkanGold.Lib.Tree

/-!
# The allow-list of responses

`stripForbiddenFields` goes through a response and leaves out the fields that none may have.

- Arrays and plain objects are walked. A leaf is what is passed through as it is: a primitive value,
  or an instance of a class with all its fields.
- What lies more than `MAX_DEPTH` steps below the response is passed through as well.
- The copies that the source saves where nothing changes make no difference to the values.

`strip_spec`: down to that depth no forbidden field is left, everything that was not under one is in
its place and unchanged, and a second pass changes nothing.
-/

namespace ArkanGold

namespace ResponseAllowlist

open ArkanGold.Tree

variable {π : Type}

/-- `FORBIDDEN_RESPONSE_FIELDS` -/
def FORBIDDEN_RESPONSE_FIELDS : List String :=
  ["passwordHash", "totpSecret", "pendingTotpSecret", "backupCodesHash", "refreshTokenHash",
    "accessTokenHash", "apiKeyHash", "courierTokenHash", "tokenHash", "otpHash", "codeHash",
    "encryptedValue"]

/-- The field may be in a response. -/
def permitted (key : String) : Bool := !FORBIDDEN_RESPONSE_FIELDS.contains key

/-- `MAX_DEPTH` -/
def MAX_DEPTH : ℕ := 12

mutual

/-- `stripForbiddenFields` -/
def stripForbiddenFields (depth : ℕ) : Tree π → Tree π
  | leaf x => leaf x
  | array items => if MAX_DEPTH < depth then array items else array (stripItems depth items)
  | record fields => if MAX_DEPTH < depth then record fields else record (stripEntries depth fields)

/-- The items of an array. -/
def stripItems (depth : ℕ) : List (Tree π) → List (Tree π)
  | [] => []
  | item :: items => stripForbiddenFields (depth + 1) item :: stripItems depth items

/-- The entries of an object. -/
def stripEntries (depth : ℕ) : List (String × Tree π) → List (String × Tree π)
  | [] => []
  | (key, val) :: entries =>
    if permitted key then
      (key, stripForbiddenFields (depth + 1) val) :: stripEntries depth entries
    else stripEntries depth entries

end

/-! ## One level -/

theorem stripItems_eq (depth : ℕ) (items : List (Tree π)) :
    stripItems depth items = items.map (stripForbiddenFields (depth + 1)) := by
  induction items with
  | nil => rfl
  | cons item items ih => rw [stripItems, ih, List.map_cons]

theorem stripEntries_eq (depth : ℕ) (entries : List (String × Tree π)) :
    stripEntries depth entries = (entries.filter fun e => permitted e.1).map fun e =>
      (e.1, stripForbiddenFields (depth + 1) e.2) := by
  induction entries with
  | nil => rfl
  | cons e entries ih =>
    obtain ⟨key, val⟩ := e
    rw [stripEntries, List.filter_cons]
    cases permitted key with
    | false => simpa using ih
    | true => simpa using ih

@[simp] theorem strip_leaf (depth : ℕ) (x : π) : stripForbiddenFields depth (leaf x) = leaf x := by
  rw [stripForbiddenFields]

theorem strip_array {depth : ℕ} (h : depth ≤ MAX_DEPTH) (items : List (Tree π)) :
    stripForbiddenFields depth (array items) =
      array (items.map (stripForbiddenFields (depth + 1))) := by
  rw [stripForbiddenFields, if_neg h.not_gt, stripItems_eq]

theorem strip_record {depth : ℕ} (h : depth ≤ MAX_DEPTH) (entries : List (String × Tree π)) :
    stripForbiddenFields depth (record entries) =
      record ((entries.filter fun e => permitted e.1).map fun e =>
        (e.1, stripForbiddenFields (depth + 1) e.2)) := by
  rw [stripForbiddenFields, if_neg h.not_gt, stripEntries_eq]

/-- Below the depth nothing changes. -/
theorem strip_deep {depth : ℕ} (h : MAX_DEPTH < depth) (t : Tree π) :
    stripForbiddenFields depth t = t := by
  cases t with
  | leaf x => exact strip_leaf depth x
  | array items => rw [stripForbiddenFields, if_pos h]
  | record entries => rw [stripForbiddenFields, if_pos h]

/-! ## Places -/

/-- The path leads through a forbidden field of an object that is walked. -/
def LeadsThrough (depth : ℕ) : List TreeStep → Prop
  | [] => False
  | .index _ :: p => LeadsThrough (depth + 1) p
  | .key k :: p => (depth ≤ MAX_DEPTH ∧ permitted k = false) ∨ LeadsThrough (depth + 1) p

theorem node_strip (depth : ℕ) (t : Tree π) :
    node permitted (stripForbiddenFields depth t) = node permitted t := by
  by_cases hdepth : depth ≤ MAX_DEPTH
  · cases t with
    | leaf x => rw [strip_leaf]
    | array items => rw [strip_array hdepth, node, node, List.length_map]
    | record entries =>
      rw [strip_record hdepth, node, node, List.map_map]
      congr 1
      show List.filter permitted (List.map Prod.fst (entries.filter fun e => permitted e.1)) = _
      rw [List.filter_map, List.filter_map, List.filter_filter]
      congr 1
      exact List.filter_congr fun e _ => Bool.and_self _
  · rw [strip_deep (not_le.mp hdepth)]

/-- Whatever is not under a forbidden field is in its place. -/
theorem at?_strip {p : List TreeStep} (depth : ℕ) (t : Tree π) (h : ¬LeadsThrough depth p) :
    (at? p (stripForbiddenFields depth t)).map (node permitted) =
      (at? p t).map (node permitted) := by
  induction p generalizing depth t with
  | nil => rw [at?_nil, at?_nil, Option.map_some, Option.map_some, node_strip]
  | cons step p ih =>
    by_cases hdepth : depth ≤ MAX_DEPTH
    · cases t with
      | leaf x => rw [strip_leaf]
      | array items =>
        rw [strip_array hdepth]
        cases step with
        | key k => rfl
        | index i =>
          rw [at?_index_array, at?_index_array, List.getElem?_map]
          cases items[i]? with
          | none => rfl
          | some item => exact ih (depth + 1) item h
      | record entries =>
        rw [strip_record hdepth]
        cases step with
        | index i => rfl
        | key k =>
          obtain ⟨hkey, hrest⟩ := not_or.mp h
          have hk : permitted k = true := by
            rw [← Bool.not_eq_false]
            exact fun hk => hkey ⟨hdepth, hk⟩
          rw [at?_key_record, at?_key_record, lookup_filter_map, hk, if_pos rfl]
          cases entries.lookup k with
          | none => rfl
          | some val => exact ih (depth + 1) val hrest
    · rw [strip_deep (not_le.mp hdepth)]

/-- What a walked object keeps are permitted fields. -/
theorem strip_permitted {p : List TreeStep} {depth : ℕ} {t : Tree π}
    {entries : List (String × Tree π)} (hdepth : depth + p.length ≤ MAX_DEPTH)
    (h : at? p (stripForbiddenFields depth t) = some (record entries)) :
    ∀ e ∈ entries, permitted e.1 = true := by
  induction p generalizing depth t with
  | nil =>
    rw [at?_nil, Option.some_inj] at h
    cases t with
    | leaf x => cases (strip_leaf depth x).symm.trans h
    | array items => cases (strip_array hdepth items).symm.trans h
    | record entries' =>
      obtain rfl := record.inj ((strip_record hdepth entries').symm.trans h)
      intro e he
      obtain ⟨e', he', rfl⟩ := List.mem_map.mp he
      exact (List.mem_filter.mp he').2
  | cons step p ih =>
    rw [List.length_cons] at hdepth
    have hwalked : depth ≤ MAX_DEPTH := by omega
    have hnext : depth + 1 + p.length ≤ MAX_DEPTH := by omega
    cases t with
    | leaf x =>
      rw [strip_leaf] at h
      cases step <;> cases h
    | array items =>
      rw [strip_array hwalked] at h
      cases step with
      | key k => cases h
      | index i =>
        rw [at?_index_array, List.getElem?_map] at h
        cases hitem : items[i]? with
        | none =>
          rw [hitem] at h
          cases h
        | some item =>
          rw [hitem] at h
          exact ih hnext h
    | record entries' =>
      rw [strip_record hwalked] at h
      cases step with
      | index i => cases h
      | key k =>
        rw [at?_key_record, lookup_filter_map] at h
        cases hk : permitted k with
        | false =>
          rw [hk] at h
          cases h
        | true =>
          rw [hk, if_pos rfl] at h
          cases hval : entries'.lookup k with
          | none =>
            rw [hval] at h
            cases h
          | some val =>
            rw [hval] at h
            exact ih hnext h

/-! ## A second pass -/

mutual

theorem strip_strip (depth : ℕ) :
    ∀ t : Tree π, stripForbiddenFields depth (stripForbiddenFields depth t) =
      stripForbiddenFields depth t
  | leaf x => by rw [strip_leaf, strip_leaf]
  | array items => by
    by_cases hdepth : MAX_DEPTH < depth
    · rw [strip_deep hdepth, strip_deep hdepth]
    · simp only [stripForbiddenFields, if_neg hdepth, stripItems_stripItems depth items]
  | record entries => by
    by_cases hdepth : MAX_DEPTH < depth
    · rw [strip_deep hdepth, strip_deep hdepth]
    · simp only [stripForbiddenFields, if_neg hdepth, stripEntries_stripEntries depth entries]

theorem stripItems_stripItems (depth : ℕ) :
    ∀ items : List (Tree π), stripItems depth (stripItems depth items) = stripItems depth items
  | [] => rfl
  | item :: items => by
    simp only [stripItems, strip_strip (depth + 1) item, stripItems_stripItems depth items]

theorem stripEntries_stripEntries (depth : ℕ) :
    ∀ entries : List (String × Tree π),
      stripEntries depth (stripEntries depth entries) = stripEntries depth entries
  | [] => rfl
  | (key, val) :: entries => by
    by_cases hkey : permitted key = true
    · simp only [stripEntries, if_pos hkey, strip_strip (depth + 1) val,
        stripEntries_stripEntries depth entries]
    · simp only [stripEntries, if_neg hkey, stripEntries_stripEntries depth entries]

end

/-- A password hash in an object within thirteen arrays. -/
def nested : Tree String :=
  (List.replicate 13 ()).foldl (fun t _ => array [t]) (record [("passwordHash", leaf "x")])

end ResponseAllowlist

end ArkanGold
