import ArkanGold.Audit.ChainCompleteness

/-!
# What redaction keeps out of the log

Values under sensitive keys are not logged, wherever in a payload they stand.

- `Alike`: two payloads that agree apart from what stands under sensitive keys. The audit service
  makes no difference between them (`log_ignores_sensitive`): neither a record nor its hash nor a
  later verification says which of the two was logged.
- `Json.Masked`: a value that has `[REDACTED]` under every sensitive key. What is logged is such a
  value (`logged_masked`), if the values of `toJSON` are; redaction does not look into those.
-/

namespace ArkanGold

/-! ## Payloads that are logged alike -/

mutual

/-- Two payloads agree apart from what stands under sensitive keys. -/
inductive Alike : JsValue → JsValue → Prop where
  | refl (v : JsValue) : Alike v v
  | array (ref : ℕ) {xs ys : List JsValue} (h : ItemsAlike xs ys) :
      Alike (.array ref xs) (.array ref ys)
  | object (ref : ℕ) {es fs : List (String × JsValue)} (h : EntriesAlike es fs) :
      Alike (.object ref es) (.object ref fs)

/-- The items of two arrays, one by one. -/
inductive ItemsAlike : List JsValue → List JsValue → Prop where
  | nil : ItemsAlike [] []
  | cons {x y : JsValue} {xs ys : List JsValue} (h : Alike x y) (hs : ItemsAlike xs ys) :
      ItemsAlike (x :: xs) (y :: ys)

/-- The entries of two objects: the keys are the same, and the values of those that are not
sensitive are alike. -/
inductive EntriesAlike : List (String × JsValue) → List (String × JsValue) → Prop where
  | nil : EntriesAlike [] []
  | cons {key : String} {v w : JsValue} {es fs : List (String × JsValue)}
      (h : isSensitiveKey key = false → Alike v w) (hs : EntriesAlike es fs) :
      EntriesAlike ((key, v) :: es) ((key, w) :: fs)

end

mutual

/-- Payloads that are alike are redacted to the same value, and the same objects are visited. -/
theorem redact_alike {v w : JsValue} (depth : ℕ) (seen : List ℕ) :
    Alike v w → redact depth seen v = redact depth seen w
  | .refl _ => rfl
  | .array ref h => by
    rw [redact, redact, redactItems_alike (depth + 1) (ref :: seen) h]
  | .object ref h => by
    rw [redact, redact, redactEntries_alike (depth + 1) (ref :: seen) [] h]

theorem redactItems_alike {xs ys : List JsValue} (depth : ℕ) (seen : List ℕ) :
    ItemsAlike xs ys → redactItems depth seen xs = redactItems depth seen ys
  | .nil => rfl
  | .cons h hs => by
    rw [redactItems, redactItems, redact_alike depth seen h]
    simp only [redactItems_alike depth _ hs]

theorem redactEntries_alike {es fs : List (String × JsValue)} (depth : ℕ) (seen : List ℕ)
    (output : List (String × JsValue)) :
    EntriesAlike es fs → redactEntries depth seen output es = redactEntries depth seen output fs
  | .nil => rfl
  | @EntriesAlike.cons key _ _ _ _ h hs => by
    rw [redactEntries, redactEntries]
    cases hkey : isSensitiveKey key with
    | true =>
      -- neither value is looked at, so no object inside them counts as visited
      exact redactEntries_alike depth seen _ hs
    | false =>
      simp only [redact_alike depth seen (h hkey)]
      exact redactEntries_alike depth _ _ hs

end

theorem toJson_alike {v w : JsValue} (h : Alike v w) : toJson v = toJson w := by
  have hredact := redact_alike 0 [] h
  cases h with
  | refl => rfl
  | array ref h => simp only [toJson, hredact]
  | object ref h => simp only [toJson, hredact]

namespace AuditService

/-- Events that agree apart from what stands under sensitive keys of their payloads. -/
structure EventsAlike (e f : AuditEvent) : Prop where
  columns : { f with oldValue := e.oldValue, newValue := e.newValue } = e
  oldValue : Alike e.oldValue f.oldValue
  newValue : Alike e.newValue f.newValue

theorem eventFields_alike {e f : AuditEvent} (actor : Actor) (h : EventsAlike e f) :
    eventFields actor e = eventFields actor f := by
  have hold := toJson_alike h.oldValue
  have hnew := toJson_alike h.newValue
  rw [← h.columns] at hold hnew ⊢
  simp only [eventFields, hold, hnew]

/-- Requests of the same kind whose events are alike. -/
inductive RequestsAlike : AuditRequest → AuditRequest → Prop where
  | logAdmin (adminUserId : Option String) {e f : AuditEvent} (h : EventsAlike e f) :
      RequestsAlike (.logAdmin adminUserId e) (.logAdmin adminUserId f)
  | logUser (userId adminId : Option String) {e f : AuditEvent} (h : EventsAlike e f) :
      RequestsAlike (.logUser userId adminId e) (.logUser userId adminId f)

/-- The service does the same for requests that are alike. -/
theorem log_ignores_sensitive (P : Platform) {q r : AuditRequest} (h : RequestsAlike q r) :
    serve P q = serve P r := by
  cases h with
  | logAdmin adminUserId h =>
    simp only [serve, logAdmin, log, eventFields_alike (.admin adminUserId) h]
  | logUser userId adminId h =>
    simp only [serve, logUser, log, eventFields_alike (.user userId adminId) h]

/-- A customer was given a password. -/
def passwordSet (password : String) : AuditEvent where
  action := "user.password_set"
  newValue := .object 0 [("phone", .string "09120000000"), ("password", .string password)]
  source := "site"

/-- `log_ignores_sensitive` for two passwords. -/
theorem log_ignores_sensitive_password :
    serve firstPlatform (.logUser (some "7") none (passwordSet "gold")) =
      serve firstPlatform (.logUser (some "7") none (passwordSet "silver")) := by
  refine log_ignores_sensitive firstPlatform (.logUser _ _ ⟨rfl, .refl _, .object 0 ?_⟩)
  refine .cons (fun _ => .refl _) (.cons (fun hopen => absurd hopen ?_) .nil)
  decide +kernel

end AuditService

/-! ## Sensitive keys are masked -/

/-- The value has `[REDACTED]` under every sensitive key, at any depth. -/
inductive Json.Masked : Json → Prop where
  | null : Masked .null
  | bool (b : Bool) : Masked (.bool b)
  | number (n : JsonNumber) : Masked (.number n)
  | string (v : String) : Masked (.string v)
  | array {items : List Json} (h : ∀ x ∈ items, Masked x) : Masked (.array items)
  | object {entries : List (String × Json)} (h : ∀ e ∈ entries, Masked e.2)
      (hkeys : ∀ e ∈ entries, isSensitiveKey e.1 = true → e.2 = .string "[REDACTED]") :
      Masked (.object entries)

mutual

/-- The values that the methods `toJSON` inside a payload give. -/
def toJSONs : JsValue → List Json
  | .withToJSON json => json.toList
  | .array _ items => itemsToJSONs items
  | .object _ entries => entriesToJSONs entries
  | _ => []

/-- The same for the items of an array. -/
def itemsToJSONs : List JsValue → List Json
  | [] => []
  | x :: xs => toJSONs x ++ itemsToJSONs xs

/-- The same for the entries of an object. -/
def entriesToJSONs : List (String × JsValue) → List Json
  | [] => []
  | (_, v) :: es => toJSONs v ++ entriesToJSONs es

end

/-- An entry that is masked if its key is sensitive. -/
def MaskedEntry (e : String × JsValue) : Prop :=
  isSensitiveKey e.1 = true → e.2 = .string "[REDACTED]"

/-- A payload after redaction. -/
inductive Covered : JsValue → Prop where
  | undefined : Covered .undefined
  | null : Covered .null
  | bool (b : Bool) : Covered (.bool b)
  | number (n : Option JsonNumber) : Covered (.number n)
  | string (v : String) : Covered (.string v)
  | callable : Covered .callable
  | unserializable : Covered .unserializable
  | withToJSON {json : Option Json} (h : ∀ j ∈ json.toList, j.Masked) : Covered (.withToJSON json)
  | array (ref : ℕ) {items : List JsValue} (h : ∀ x ∈ items, Covered x) :
      Covered (.array ref items)
  | object (ref : ℕ) {entries : List (String × JsValue)} (h : ∀ e ∈ entries, Covered e.2)
      (hkeys : ∀ e ∈ entries, MaskedEntry e) : Covered (.object ref entries)

/-- What holds of the entries and of a new one holds after the assignment. -/
theorem forall_assign {α : Type} {p : String × α → Prop} {output : List (String × α)}
    {key : String} {value : α} (h : ∀ e ∈ output, p e) (hnew : p (key, value)) :
    ∀ e ∈ assign output key value, p e := by
  unfold assign
  split_ifs with hproto hany
  · exact h
  · intro e he
    obtain ⟨d, hd, rfl⟩ := List.mem_map.mp he
    split_ifs
    · exact hnew
    · exact h d hd
  · intro e he
    rcases List.mem_append.mp he with hold | hlast
    · exact h e hold
    · rw [List.mem_singleton] at hlast
      exact hlast ▸ hnew

mutual

/-- Redaction covers a payload. -/
theorem covered_redact (depth : ℕ) (seen : List ℕ) :
    ∀ v : JsValue, (∀ j ∈ toJSONs v, j.Masked) → Covered (redact depth seen v).1
  | .undefined, _ => by
    rw [redact] <;> simp [Covered.undefined]
  | .null, _ => by
    rw [redact] <;> simp [Covered.null]
  | .bool b, _ => by
    rw [redact] <;> simp [Covered.bool]
  | .number n, _ => by
    rw [redact] <;> simp [Covered.number]
  | .string v, _ => by
    rw [redact] <;> simp [Covered.string]
  | .callable, _ => by
    rw [redact] <;> simp [Covered.callable]
  | .unserializable, _ => by
    rw [redact] <;> simp [Covered.unserializable]
  | .withToJSON json, h => by
    rw [toJSONs] at h
    rw [redact]
    · exact .withToJSON h
    · simp
    · simp
  | .array ref items, h => by
    rw [toJSONs] at h
    rw [redact]
    split_ifs
    · exact .string _
    · exact .string _
    · exact .array ref (covered_redactItems (depth + 1) (ref :: seen) items h)
  | .object ref entries, h => by
    rw [toJSONs] at h
    rw [redact]
    split_ifs
    · exact .string _
    · exact .string _
    · have hentries := covered_redactEntries (depth + 1) (ref :: seen) [] entries (by simp) h
      exact .object ref (fun e he => (hentries e he).1) fun e he => (hentries e he).2

theorem covered_redactItems (depth : ℕ) (seen : List ℕ) :
    ∀ xs : List JsValue, (∀ j ∈ itemsToJSONs xs, j.Masked) →
      ∀ x ∈ (redactItems depth seen xs).1, Covered x
  | [], _ => by
    simp [redactItems]
  | x :: xs, h => by
    rw [itemsToJSONs] at h
    rw [redactItems]
    rintro y (_ | ⟨_, hy⟩)
    · exact covered_redact depth seen x fun j hj => h j (List.mem_append_left _ hj)
    · exact covered_redactItems depth _ xs (fun j hj => h j (List.mem_append_right _ hj)) y hy

theorem covered_redactEntries (depth : ℕ) (seen : List ℕ) (output : List (String × JsValue)) :
    ∀ es : List (String × JsValue), (∀ e ∈ output, Covered e.2 ∧ MaskedEntry e) →
      (∀ j ∈ entriesToJSONs es, j.Masked) →
      ∀ e ∈ (redactEntries depth seen output es).1, Covered e.2 ∧ MaskedEntry e
  | [], houtput, _ => by
    rw [redactEntries]
    exact houtput
  | (key, v) :: es, houtput, h => by
    rw [entriesToJSONs] at h
    have hes : ∀ j ∈ entriesToJSONs es, j.Masked := fun j hj => h j (List.mem_append_right _ hj)
    rw [redactEntries]
    split_ifs with hkey
    · have hmasked : Covered (.string "[REDACTED]") ∧ MaskedEntry (key, .string "[REDACTED]") :=
        ⟨.string _, fun _ => rfl⟩
      exact covered_redactEntries depth seen _ es (forall_assign houtput hmasked) hes
    · have hv : Covered (redact depth seen v).1 ∧ MaskedEntry (key, (redact depth seen v).1) :=
        ⟨covered_redact depth seen v fun j hj => h j (List.mem_append_left _ hj),
          fun hsensitive => absurd hsensitive hkey⟩
      exact covered_redactEntries depth _ _ es (forall_assign houtput hv) hes

end

mutual

/-- The JSON text of a covered payload is masked. -/
theorem masked_reparse : ∀ {v : JsValue}, Covered v → ∀ j, reparse v = .ok (some j) → j.Masked
  | .undefined, _, _, hj => by simp [reparse] at hj
  | .null, _, _, hj => by
    simp only [reparse, Except.ok.injEq, Option.some.injEq] at hj
    exact hj ▸ .null
  | .bool b, _, _, hj => by
    simp only [reparse, Except.ok.injEq, Option.some.injEq] at hj
    exact hj ▸ .bool b
  | .number none, _, _, hj => by
    simp only [reparse, Except.ok.injEq, Option.some.injEq] at hj
    exact hj ▸ .null
  | .number (some n), _, _, hj => by
    simp only [reparse, Except.ok.injEq, Option.some.injEq] at hj
    exact hj ▸ .number n
  | .string v, _, _, hj => by
    simp only [reparse, Except.ok.injEq, Option.some.injEq] at hj
    exact hj ▸ .string v
  | .callable, _, _, hj => by simp [reparse] at hj
  | .unserializable, _, _, hj => by simp [reparse] at hj
  | .withToJSON json, hcovered, j, hj => by
    simp only [reparse, Except.ok.injEq] at hj
    cases hcovered with
    | withToJSON h => exact h j (by simp [hj])
  | .array ref items, hcovered, j, hj => by
    rw [reparse] at hj
    cases hitems : reparseItems items with
    | error e => simp [hitems, Except.map] at hj
    | ok xs =>
      simp only [hitems, Except.map, Except.ok.injEq, Option.some.injEq] at hj
      subst hj
      cases hcovered with
      | array _ h => exact .array (masked_reparseItems h xs hitems)
  | .object ref entries, hcovered, j, hj => by
    rw [reparse] at hj
    cases hentries : reparseEntries [] entries with
    | error e => simp [hentries, Except.map] at hj
    | ok es =>
      simp only [hentries, Except.map, Except.ok.injEq, Option.some.injEq] at hj
      subst hj
      cases hcovered with
      | object _ h hkeys =>
        have hes := masked_reparseEntries (fun e he => ⟨h e he, hkeys e he⟩) (by simp) es hentries
        exact .object (fun e he => (hes e he).1) fun e he => (hes e he).2

theorem masked_reparseItems : ∀ {items : List JsValue}, (∀ x ∈ items, Covered x) →
    ∀ xs, reparseItems items = .ok xs → ∀ x ∈ xs, x.Masked
  | [], _, xs, hxs => by
    simp only [reparseItems, Except.ok.injEq] at hxs
    simp [← hxs]
  | x :: items, h, xs, hxs => by
    rw [reparseItems] at hxs
    cases hx : reparse x with
    | error e => simp [hx, bind, Except.bind] at hxs
    | ok y =>
      cases hitems : reparseItems items with
      | error e => simp [hx, hitems, bind, Except.bind] at hxs
      | ok ys =>
        simp only [hx, hitems, bind, Except.bind, pure, Except.pure, Except.ok.injEq] at hxs
        subst hxs
        rintro z (_ | ⟨_, hz⟩)
        · cases y with
          | none => exact .null
          | some y => exact masked_reparse (h x List.mem_cons_self) y hx
        · exact masked_reparseItems (fun x hx => h x (List.mem_cons_of_mem _ hx)) ys hitems z hz

theorem masked_reparseEntries : ∀ {entries : List (String × JsValue)}
    (_ : ∀ e ∈ entries, Covered e.2 ∧ MaskedEntry e) {output : List (String × Json)}
    (_ : ∀ e ∈ output, e.2.Masked ∧
      (isSensitiveKey e.1 = true → e.2 = .string "[REDACTED]")),
    ∀ es, reparseEntries output entries = .ok es → ∀ e ∈ es, e.2.Masked ∧
      (isSensitiveKey e.1 = true → e.2 = .string "[REDACTED]")
  | [], _, output, houtput, es, hes => by
    simp only [reparseEntries, Except.ok.injEq] at hes
    exact hes ▸ houtput
  | (key, v) :: entries, h, output, houtput, es, hes => by
    have hrest : ∀ e ∈ entries, Covered e.2 ∧ MaskedEntry e := fun e he =>
      h e (List.mem_cons_of_mem _ he)
    obtain ⟨hv, hkey⟩ := h (key, v) List.mem_cons_self
    rw [reparseEntries] at hes
    cases hjson : reparse v with
    | error e => simp [hjson, bind, Except.bind] at hes
    | ok json =>
      cases json with
      | none =>
        simp only [hjson, bind, Except.bind] at hes
        exact masked_reparseEntries hrest houtput es hes
      | some j =>
        simp only [hjson, bind, Except.bind] at hes
        refine masked_reparseEntries hrest (forall_assign houtput ⟨?_, fun hsensitive => ?_⟩) es hes
        · exact masked_reparse hv j hjson
        · have hstring : v = .string "[REDACTED]" := hkey hsensitive
          rw [hstring, reparse] at hjson
          simpa using hjson.symm

end

/-- Whatever is logged, no value under a sensitive key gets into the record: at any depth there
is `[REDACTED]` in its place. -/
theorem logged_masked {v : JsValue} (h : ∀ j ∈ toJSONs v, j.Masked) {j : Json}
    (hj : toJson v = some j) : j.Masked := by
  have hcovered := covered_redact 0 [] v h
  have hreparse : reparse (redact 0 [] v).1 = .ok (some j) := by
    unfold toJson at hj
    split at hj
    · cases hj
    · cases hj
    · split at hj
      · rename_i hok
        rw [hok, hj]
      · cases hj
  exact masked_reparse hcovered j hreparse

/-- `logged_masked` for a token that stands beside a date. -/
theorem logged_masked_token :
    (toJson (.object 0 [("session", .object 1 [("token", .string "a1"),
      ("since", .withToJSON (some (.string "2026")))])])).isSome = true ∧
    ∀ j, toJson (.object 0 [("session", .object 1 [("token", .string "a1"),
      ("since", .withToJSON (some (.string "2026")))])]) = some j → j.Masked := by
  refine ⟨by decide +kernel, fun j hj => logged_masked ?_ hj⟩
  simp [toJSONs, entriesToJSONs, Json.Masked.string]

end ArkanGold
