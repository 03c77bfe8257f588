import ArkanGold.Audit.Payload
import ArkanGold.Common.IsoText
import ArkanGold.Lib.Statements

/-!
# The audit log

`AuditService`: events of administrators and of users, each kind in a table of its own and
chained by hashes. A new record names the hash of the last one, which
`audit_chain_state` holds; the row of the chain is locked while a record is added.

- `AuditLog`: a row of `admin_audit_logs` or of `audit_logs`. A row from before the hashes
  has neither `prevHash` nor `hash`.
- `Platform`: SHA-256 and the `jsonb` columns, which are not part of the sources.
- `log`: the body that `logAdmin` and `logUser` share.
- `verifyChain`: the walk from the first record along the hashes.
-/

namespace ArkanGold

/-- `ChainId` -/
inductive ChainId where
  | admin
  | user
  deriving DecidableEq, Repr

/-- The columns that name who has acted: those of `admin_audit_logs` or of `audit_logs`. -/
inductive Actor where
  | admin (adminUserId : Option String)
  | user (userId adminId : Option String)
  deriving DecidableEq

/-- A row of `admin_audit_logs` or of `audit_logs`, as it is read: the columns `oldValue`
and `newValue` hold `null` when they are empty. -/
structure AuditLog where
  id : ℕ
  actor : Actor
  actorLabel : Option String
  action : String
  entityType : Option String
  entityId : Option String
  oldValue : Json
  newValue : Json
  ip : Option String
  userAgent : Option String
  source : Option String
  success : Bool
  createdAt : ℤ
  prevHash : Option String
  hash : Option String

/-- `AdminAuditEvent` and `UserAuditEvent` without the columns of the actor. -/
structure AuditEvent where
  actorLabel : Option String := none
  action : String
  entityType : Option String := none
  entityId : Option String := none
  oldValue : JsValue := .undefined
  newValue : JsValue := .undefined
  ip : Option String := none
  userAgent : Option String := none
  source : String
  success : Option Bool := none

/-- One chain: the hash in `audit_chain_state` and the table of records. -/
structure AuditChain where
  lastHash : Option String
  logs : Table AuditLog AuditLog.id

/-- The tables of the audit service, the clock and the supply of ids. -/
structure AuditDb where
  admin : AuditChain
  user : AuditChain
  now : ℤ
  nextId : ℕ

/-- The names of the row locks. -/
inductive AuditRow where
  | chain (c : ChainId)
  | log (c : ChainId) (id : ℕ)
  | own (id : ℕ)
  deriving DecidableEq

namespace AuditDb

/-- A chain. -/
def chain (s : AuditDb) : ChainId → AuditChain
  | .admin => s.admin
  | .user => s.user

/-- Replace a chain. -/
def setChain (c : ChainId) (x : AuditChain) (s : AuditDb) : AuditDb :=
  match c with
  | .admin => { s with admin := x }
  | .user => { s with user := x }

@[simp] theorem chain_setChain (c : ChainId) (x : AuditChain) (s : AuditDb) :
    (s.setChain c x).chain c = x := by
  cases c <;> rfl

theorem chain_setChain_of_ne {c d : ChainId} (h : d ≠ c) (x : AuditChain) (s : AuditDb) :
    (s.setChain c x).chain d = s.chain d := by
  cases c <;> cases d <;> first | rfl | exact absurd rfl h

@[simp] theorem now_setChain (c : ChainId) (x : AuditChain) (s : AuditDb) :
    (s.setChain c x).now = s.now := by
  cases c <;> rfl

instance : Supply AuditDb := ⟨nextId, fun s => { s with nextId := s.nextId + 1 }⟩

instance : History Empty AuditDb := ⟨fun l _ => l.elim⟩

@[simp] theorem chain_bump (c : ChainId) (s : AuditDb) :
    (Supply.bump s).chain c = s.chain c := by
  cases c <;> rfl

/-- `admin_audit_logs` or `audit_logs` -/
def logRows (c : ChainId) : Relation AuditRow AuditDb AuditLog AuditLog.id where
  get s := (s.chain c).logs
  set t s := s.setChain c { s.chain c with logs := t }
  row := .log c

end AuditDb

/-- What the service uses and the sources do not contain: the hexadecimal SHA-256 of a
text, and the value that a `jsonb` column gives back. -/
structure Platform where
  sha256Hex : String → String
  length_sha256Hex : ∀ v, (sha256Hex v).length = 64
  jsonb : Json → Json
  same_jsonb : ∀ j, (jsonb j).Same j

/-- `GENESIS_HASH` -/
def GENESIS_HASH : String := String.ofList (List.replicate 64 '0')

/-- The result of `verifyChain`. -/
structure ChainVerificationResult where
  valid : Bool
  checked : ℕ
  brokenAtId : Option ℕ := none
  deriving DecidableEq

/-- A transaction on the audit tables. -/
abbrev AuditStmt (α : Type) : Type := Block ApiError AuditRow Empty AuditDb α

/-- A call of the audit service. -/
abbrev AuditCall (α : Type) : Type 1 := Call ApiError AuditRow Empty AuditDb α

namespace AuditService

/-! ## The hash of a record -/

/-- A text column in a record. -/
def textJson : Option String → Json
  | some v => .string v
  | none => .null

/-- The columns of the actor in a record. -/
def actorFields : Actor → List (String × Json)
  | .admin adminUserId => [("adminUserId", textJson adminUserId)]
  | .user userId adminId => [("userId", textJson userId), ("adminId", textJson adminId)]

/-- The columns that are hashed: every column but `id` and `hash`. -/
def columns (row : AuditLog) (prevHash : String) : List (String × Json) :=
  actorFields row.actor ++
    [("actorLabel", textJson row.actorLabel), ("action", .string row.action),
      ("entityType", textJson row.entityType), ("entityId", textJson row.entityId),
      ("oldValue", row.oldValue), ("newValue", row.newValue), ("ip", textJson row.ip),
      ("userAgent", textJson row.userAgent), ("source", textJson row.source),
      ("success", .bool row.success), ("createdAt", .string (toISOString row.createdAt)),
      ("prevHash", .string prevHash)]

/-- The record that is hashed. -/
def recordJson (row : AuditLog) (prevHash : String) : Json := .object (columns row prevHash)

/-- The text that is hashed. -/
def hashInput (row : AuditLog) (prevHash : String) : String :=
  prevHash ++ "|" ++ (recordJson row prevHash).canonicalize

/-! ## Logging -/

/-- `lockChain`: without a row in `audit_chain_state` there is nothing to lock. -/
def lockChain (c : ChainId) : AuditStmt String := do
  let s ← Block.get
  match (s.chain c).lastHash with
  | some _ => Block.lock (.chain c)
  | none => pure ()
  let s ← Block.get
  pure ((s.chain c).lastHash.getD GENESIS_HASH)

/-- `advanceChain` -/
def advanceChain (c : ChainId) (hash : String) : AuditStmt Unit := do
  Block.lock (.chain c)
  Block.write fun s => s.setChain c { s.chain c with lastHash := some hash }

/-- `action.split('.')[0]` -/
def entityOf (action : String) : String := String.ofList (action.toList.takeWhile (· != '.'))

/-- The columns of an event, before its record is chained. -/
def eventFields (actor : Actor) (event : AuditEvent) : AuditLog where
  id := 0
  actor := actor
  actorLabel := event.actorLabel
  action := event.action
  entityType := some (event.entityType.getD (entityOf event.action))
  entityId := event.entityId
  oldValue := (toJson event.oldValue).getD .null
  newValue := (toJson event.newValue).getD .null
  ip := event.ip
  userAgent := event.userAgent
  source := some event.source
  success := event.success.getD true
  createdAt := 0
  prevHash := none
  hash := none

/-- The row that is stored. -/
def storedLog (P : Platform) (record : AuditLog) (prevHash hash : String) (id : ℕ) : AuditLog :=
  { record with
    id := id
    oldValue := P.jsonb record.oldValue
    newValue := P.jsonb record.newValue
    prevHash := some prevHash
    hash := some hash }

/-- The transaction that adds a record to a chain. -/
def append (P : Platform) (c : ChainId) (fields : AuditLog) : AuditStmt Unit := do
  let prevHash ← lockChain c
  let s ← Block.get
  let record := { fields with createdAt := s.now }
  let hash := P.sha256Hex (hashInput record prevHash)
  let _ ← (AuditDb.logRows c).create .own (.internal "Unique constraint failed (id)")
    (storedLog P record prevHash hash)
  advanceChain c hash

/-- The body of `logAdmin` and `logUser`; an error is reported and goes no further. -/
def log (P : Platform) (c : ChainId) (actor : Actor) (event : AuditEvent) : AuditCall Unit := do
  let _ ← (Call.transaction (append P c (eventFields actor event))).attempt
  pure ()

/-- `logAdmin` -/
def logAdmin (P : Platform) (adminUserId : Option String) (event : AuditEvent) : AuditCall Unit :=
  log P .admin (.admin adminUserId) event

/-- `logUser` -/
def logUser (P : Platform) (userId adminId : Option String) (event : AuditEvent) :
    AuditCall Unit :=
  log P .user (.user userId adminId) event

/-! ## Verifying -/

/-- The order of `findMany`: by `createdAt`, then by `id`. -/
def logLe (a b : AuditLog) : Prop := a.createdAt < b.createdAt ∨ a.createdAt = b.createdAt ∧ a.id ≤ b.id

instance : DecidableRel logLe := fun a b =>
  inferInstanceAs (Decidable (a.createdAt < b.createdAt ∨ a.createdAt = b.createdAt ∧ a.id ≤ b.id))

/-- `findMany` -/
def findMany (logs : Table AuditLog AuditLog.id) : List AuditLog := logs.rows.insertionSort logLe

/-- `chained`: the rows that have hashes. -/
def isChained (row : AuditLog) : Bool := row.prevHash.isSome && row.hash.isSome

/-- The variables of the walk. -/
structure Walk where
  visited : List ℕ
  expectedPrevHash : String
  reachedHead : Bool
  lastId : Option ℕ

/-- The loop of `verifyChain` over the rows that have hashes. It comes to an end in the
variables, or returns a result at once; each round visits another row, so one round more
than there are rows is enough. -/
def walk (P : Platform) (chained : List AuditLog) (headHash : String) :
    ℕ → Walk → Option (ChainVerificationResult ⊕ Walk)
  | 0, _ => none
  | fuel + 1, w =>
    match chained.filter fun row => row.prevHash == some w.expectedPrevHash with
    | [] => some (.inr w)
    | _ :: second :: _ => some (.inl ⟨false, w.visited.length, some second.id⟩)
    | [row] =>
      if w.visited.contains row.id then some (.inr w)
      else if some (P.sha256Hex (hashInput row w.expectedPrevHash)) != row.hash then
        some (.inl ⟨false, w.visited.length, some row.id⟩)
      else
        walk P chained headHash fuel
          { visited := w.visited ++ [row.id]
            expectedPrevHash := row.hash.getD ""
            reachedHead := w.reachedHead || row.hash == some headHash
            lastId := some row.id }

/-- The verdict once the walk has ended. -/
def verdict (chained : List AuditLog) (w : Walk) : ChainVerificationResult :=
  match chained.find? fun row => !w.visited.contains row.id with
  | some orphan => ⟨false, w.visited.length, some orphan.id⟩
  | none =>
    if w.reachedHead then ⟨true, w.visited.length, none⟩
    else ⟨false, w.visited.length, w.lastId⟩

/-- What `verifyChain` makes of the stored head and the rows. -/
def verifyRows (P : Platform) (lastHash : Option String) (rows : List AuditLog) :
    Option ChainVerificationResult :=
  let chained := rows.filter isChained
  let headHash := lastHash.getD GENESIS_HASH
  match walk P chained headHash (chained.length + 1)
      ⟨[], GENESIS_HASH, headHash == GENESIS_HASH, none⟩ with
  | none => none
  | some (.inl r) => some r
  | some (.inr w) => some (verdict chained w)

/-- `verifyChain`: the head is read before the rows. -/
def verifyChain (P : Platform) (c : ChainId) : AuditCall (Option ChainVerificationResult) := do
  let s ← Call.transaction Block.get
  let t ← Call.transaction Block.get
  pure (verifyRows P (s.chain c).lastHash (findMany (t.chain c).logs))

end AuditService

/-- The requests to the audit service. -/
inductive AuditRequest where
  | logAdmin (adminUserId : Option String) (event : AuditEvent)
  | logUser (userId adminId : Option String) (event : AuditEvent)
  | verifyChain (c : ChainId)

/-- The service: logging answers nothing. -/
def AuditService.serve (P : Platform) : AuditRequest → AuditCall (Option ChainVerificationResult)
  | .logAdmin adminUserId event => do
    AuditService.logAdmin P adminUserId event
    pure none
  | .logUser userId adminId event => do
    AuditService.logUser P userId adminId event
    pure none
  | .verifyChain c => AuditService.verifyChain P c

end ArkanGold
