import ArkanGold.Common.Text
import ArkanGold.Lib.Calls

/-!
# Second factors

`MfaService.verify` and the functions of `totp.util` below it, for one account: the row is the
one of its table, `users` or `admin_users`.

- Every statement on the database is a transaction of its own. What a call has read of the row
  may be out of date when it writes.
- The TOTP step is written under a condition on the step stored by then; the recovery codes are
  written back as they were read, less the code that was used.
- The clock is part of the state. Decryption, `createHmac('sha1', …)`, `bcrypt.compare` and
  `toUpperCase` are parameters.
-/

namespace ArkanGold

namespace MfaService

/-! ## `totp.util` -/

/-- `TOTP_STEP_SECONDS` -/
def TOTP_STEP_SECONDS : ℤ := 30

/-- `TOTP_DIGITS` -/
def TOTP_DIGITS : ℕ := 6

/-- `TOTP_WINDOW` -/
def TOTP_WINDOW : ℕ := 1

/-- What the platform and the libraries compute. -/
structure Primitives where
  /-- `createHmac('sha1', key).update(msg).digest()` -/
  hmacSha1 : List ℕ → List ℕ → List ℕ
  /-- `bcrypt.compare` -/
  compare : String → String → Bool
  /-- `encryption.decrypt` in the context of the account; it throws on a text of another one -/
  decrypt : String → Option String
  toUpperCase : String → String

variable (P : Primitives)

/-- `B32.indexOf` -/
def b32Index (c : Char) : ℕ := if c.isDigit then c.toNat - '2'.toNat + 26 else c.toNat - 'A'.toNat

/-- `/[A-Z2-7]/` -/
def isB32 (c : Char) : Bool := ('A' ≤ c && c ≤ 'Z') || ('2' ≤ c && c ≤ '7')

/-- A character of `base32Decode`: the bits read, how many of them are not yet given out, and the
octets. -/
def b32Push : ℕ × ℕ × List ℕ → Char → ℕ × ℕ × List ℕ
  | (value, bits, out), ch =>
    let value := (value * 32 + b32Index ch) % 2 ^ 32
    let bits := bits + 5
    if 8 ≤ bits then (value, bits - 8, out ++ [value / 2 ^ (bits - 8) % 256])
    else (value, bits, out)

/-- `base32Decode` -/
def base32Decode (s : String) : List ℕ :=
  (((P.toUpperCase s).toList.filter isB32).foldl b32Push (0, 0, [])).2.2

/-- `currentStep` -/
def currentStep (nowMs : ℤ) : ℤ := nowMs / 1000 / TOTP_STEP_SECONDS

/-- `writeBigUInt64BE` -/
def bigUInt64BE (n : ℕ) : List ℕ := (List.range 8).reverse.map fun i => n / 256 ^ i % 256

/-- `padStart(n, '0')` -/
def padStart (n : ℕ) (v : String) : String :=
  String.ofList (List.replicate (n - v.length) '0' ++ v.toList)

/-- `hotp`; the counter of a clock past 1970 is not negative. -/
def hotp (secretB32 : String) (counter : ℤ) : String :=
  let h := P.hmacSha1 (base32Decode P secretB32) (bigUInt64BE counter.toNat)
  let offset := h.getD (h.length - 1) 0 % 16
  let bin := h.getD offset 0 % 128 * 2 ^ 24 + h.getD (offset + 1) 0 * 2 ^ 16 +
    h.getD (offset + 2) 0 * 2 ^ 8 + h.getD (offset + 3) 0
  padStart TOTP_DIGITS (toString (bin % 10 ^ TOTP_DIGITS))

/-- `/^\d{6}$/` -/
def isTotpCode (code : String) : Bool :=
  code.toList.length == TOTP_DIGITS && code.toList.all Char.isDigit

/-- The steps of the window around `now`. -/
def window (now : ℤ) : List ℤ :=
  (List.range (2 * TOTP_WINDOW + 1)).map fun i : ℕ => now - TOTP_WINDOW + i

/-- `verifyTotp` -/
def verifyTotp (secretB32 code : String) (lastUsedStep : Option ℤ) (nowMs : ℤ) : Option ℤ :=
  if isTotpCode code then
    match (window (currentStep nowMs)).find? fun s => hotp P secretB32 s == code with
    | none => none
    | some matched => if lastUsedStep.any (matched ≤ ·) then none else some matched
  else none

/-- The step of an accepted code is in the window, is the one the code belongs to, and is past
the last one used. -/
theorem verifyTotp_eq_some {P : Primitives} {secret code : String} {last : Option ℤ} {now step : ℤ}
    (h : verifyTotp P secret code last now = some step) :
    hotp P secret step = code ∧ |step - currentStep now| ≤ TOTP_WINDOW ∧
      ∀ l, last = some l → l < step := by
  unfold verifyTotp at h
  split at h
  case isFalse => cases h
  split at h
  case h_1 => cases h
  case h_2 matched hfind =>
    split at h
    case isTrue => cases h
    case isFalse hlast =>
      cases h
      refine ⟨by simpa using List.find?_some hfind, ?_, fun l hl => ?_⟩
      · obtain ⟨i, hi, rfl⟩ := List.mem_map.mp (List.mem_of_find?_eq_some hfind)
        have hi := List.mem_range.mp hi
        unfold TOTP_WINDOW at hi ⊢
        rw [abs_le]
        omega
      · simpa [hl] using hlast

/-- `/[A-Z0-9]/` -/
def isCodeChar (c : Char) : Bool := ('A' ≤ c && c ≤ 'Z') || c.isDigit

/-- `normalizeRecoveryCode` -/
def normalizeRecoveryCode (input : String) : String :=
  String.ofList ((P.toUpperCase input).toList.filter isCodeChar)

/-- `normalizeDigits` -/
def normalizeDigits (s : String) : String :=
  String.ofList (((s.toList.map (latinDigit persianZero)).map (latinDigit arabicZero)).filter
    fun c => !isSpace c)

/-! ## State -/

/-- What `verify` reads of the row. -/
structure OwnerRow where
  totpSecret : Option String
  totpEnabled : Bool
  totpLastStep : Option ℤ
  backupCodesHash : List String
  deriving DecidableEq

/-- What properties of runs say about second factors. -/
inductive MfaMark where
  /-- a code of the step is accepted -/
  | acceptsTotp (step : ℤ)
  /-- a recovery code is accepted by its hash, one of those read -/
  | acceptsRecovery (code hash : String) (read : List String)
  deriving DecidableEq

/-- The state. -/
structure MfaDb where
  row : OwnerRow
  now : ℤ
  history : List MfaMark
  nextId : ℕ

namespace MfaDb

/-- Replace `row`. -/
@[simps] def setRow (r : OwnerRow) (s : MfaDb) : MfaDb := { s with row := r }

/-- A number of the supply is spent. -/
@[simps] def spendId (s : MfaDb) : MfaDb := { s with nextId := s.nextId + 1 }

/-- A mark enters the history. -/
@[simps] def note (l : MfaMark) (s : MfaDb) : MfaDb := { s with history := s.history ++ [l] }

instance : Supply MfaDb := ⟨nextId, spendId⟩

instance : History MfaMark MfaDb := ⟨note⟩

end MfaDb

/-- `MfaMethodUsed` -/
inductive MfaMethodUsed where
  | totp
  | recoveryCode
  deriving DecidableEq

/-- The exceptions. -/
inductive MfaError where
  /-- the secret cannot be decrypted -/
  | decryption
  deriving DecidableEq

/-- A statement. -/
abbrev MfaStmt (α : Type) : Type := Block MfaError ℕ MfaMark MfaDb α

/-- A call of the service. -/
abbrev MfaCall (α : Type) : Type 1 := Call MfaError ℕ MfaMark MfaDb α

/-! ## `verify` -/

/-- `updateMany` of the step, where there is none or an earlier one: the number of rows. -/
def advanceStep (step : ℤ) : MfaStmt ℕ := do
  let s ← Block.get
  if s.row.totpLastStep.all (· < step) then do
    Block.mark (.acceptsTotp step)
    Block.write (MfaDb.setRow { s.row with totpLastStep := some step })
    pure 1
  else pure 0

/-- `updateMany` of the recovery codes, where the hash is among them: the number of rows. What is
written is what was read less the hash. -/
def takeRecovery (code hash : String) (read : List String) : MfaStmt ℕ := do
  let remaining := read.filter (· ≠ hash)
  let s ← Block.get
  if hash ∈ s.row.backupCodesHash then do
    Block.mark (.acceptsRecovery code hash read)
    Block.write (MfaDb.setRow { s.row with backupCodesHash := remaining })
    pure 1
  else pure 0

/-- The six digits of the application. -/
def verifyApp (row : OwnerRow) (totpSecret code : String) : MfaCall (Option MfaMethodUsed) := do
  let secret ← Call.getOrFail (P.decrypt totpSecret) .decryption
  let s ← Call.transaction Block.get
  match verifyTotp P secret code row.totpLastStep s.now with
  | none => pure none
  | some step => do
    let count ← Call.transaction (advanceStep step)
    pure (if count = 1 then some .totp else none)

/-- A recovery code: the first of the hashes read that it belongs to. -/
@[irreducible] def verifyRecovery (row : OwnerRow) (code : String) : MfaCall (Option MfaMethodUsed) :=
  let normalized := normalizeRecoveryCode P code
  if utf16Length normalized ≠ 10 then pure none
  else
    match row.backupCodesHash.find? (P.compare normalized) with
    | none => pure none
    | some hash => do
      let count ← Call.transaction (takeRecovery normalized hash row.backupCodesHash)
      pure (if count = 1 then some .recoveryCode else none)

/-- `MfaService.verify` -/
def verify (rawCode : Option String) : MfaCall (Option MfaMethodUsed) := do
  let s ← Call.transaction Block.get
  let row := s.row
  -- an empty secret is no secret
  match row.totpSecret.filter (· ≠ "") with
  | none => pure none
  | some totpSecret =>
    if row.totpEnabled then
      let code := trimText (normalizeDigits (rawCode.getD ""))
      if isTotpCode code then verifyApp P row totpSecret code
      else verifyRecovery P row code
    else pure none

end MfaService

end ArkanGold
