import ArkanGold.Common.Text
import ArkanGold.Lib.Calls
import ArkanGold.Lib.Table

/-!
# Step-up challenges

`StepUpService.verify` and `StepUpService.consume`, for one challenge: the state has the key of
its challenge and the keys of the tokens.

- Every command of Redis is a transaction of its own, the `MULTI` of `consume` is one.
- The attempts are part of the record: a wrong code rewrites the record that was read. A right
  code deletes it, whatever is there by then.
- The outcome of `MfaService.verify` is part of the request, and the end of the keys is a matter of
  the surroundings.
- A comparison has a number, and a token is named by the comparison it results from.
-/

namespace ArkanGold

namespace StepUpService

/-- `MAX_ATTEMPTS` -/
def MAX_ATTEMPTS : ℕ := 5

/-- `StepUpPurpose` -/
inductive StepUpPurpose where
  | withdrawal
  | internalTransfer
  | bankAccountAdd
  deriving DecidableEq

/-- The way a challenge is met. -/
inductive StepUpMethod where
  | sms
  | totp
  deriving DecidableEq

/-- The record of a challenge. -/
structure Challenge where
  userId : ℕ
  sessionId : ℕ
  purpose : StepUpPurpose
  method : StepUpMethod
  codeHash : Option String
  attempts : ℕ
  deriving DecidableEq

/-- The record of a token. -/
structure StepUpToken where
  id : ℕ
  userId : ℕ
  sessionId : ℕ
  purpose : StepUpPurpose
  deriving DecidableEq

/-- What properties of runs say about a challenge and its tokens. -/
inductive StepUpMark where
  /-- a code is compared; so many attempts were read, and the outcome -/
  | compares (number read : ℕ) (ok : Bool)
  /-- a token is stored -/
  | issues (token : ℕ)
  /-- a token is read and deleted -/
  | consumes (token : ℕ)
  deriving DecidableEq

/-- The state. -/
structure StepUpDb where
  challenge : Option Challenge
  tokens : Table StepUpToken StepUpToken.id
  history : List StepUpMark
  nextId : ℕ

namespace StepUpDb

/-- Replace `challenge`. -/
@[simps] def setChallenge (c : Option Challenge) (s : StepUpDb) : StepUpDb :=
  { s with challenge := c }

/-- Replace `tokens`. -/
@[simps] def setTokens (t : Table StepUpToken StepUpToken.id) (s : StepUpDb) : StepUpDb :=
  { s with tokens := t }

/-- A number of the supply is spent. -/
@[simps] def spendId (s : StepUpDb) : StepUpDb := { s with nextId := s.nextId + 1 }

/-- A mark enters the history. -/
@[simps] def note (l : StepUpMark) (s : StepUpDb) : StepUpDb :=
  { s with history := s.history ++ [l] }

instance : Supply StepUpDb := ⟨nextId, spendId⟩

instance : History StepUpMark StepUpDb := ⟨note⟩

end StepUpDb

/-- The exceptions. -/
inductive StepUpError where
  | badRequest (message code : String)
  deriving DecidableEq

/-- A command of Redis. -/
abbrev StepUpStmt (α : Type) : Type := Block StepUpError ℕ StepUpMark StepUpDb α

/-- A call of the service. -/
abbrev StepUpCall (α : Type) : Type 1 := Call StepUpError ℕ StepUpMark StepUpDb α

/-- A request. -/
inductive StepUpRequest where
  /-- `verify`; `mfaOk` is what `MfaService.verify` says of the code -/
  | verify (userId sessionId : ℕ) (code : String) (mfaOk : Bool)
  /-- `consume`; a token that is missing or too long is none -/
  | consume (userId sessionId : ℕ) (purpose : StepUpPurpose) (token : Option ℕ)
  deriving DecidableEq

/-- What a call returns. -/
inductive StepUpResult where
  | issued (token : ℕ)
  | consumed (ok : Bool)
  deriving DecidableEq

/-! ## `verify` -/

section Verify

variable (sha256 : String → String) (challengeToken : String)

/-- The outcome of a comparison. -/
@[irreducible] def isRight (ch : Challenge) (code : String) (mfaOk : Bool) : Bool :=
  match ch.method with
  | .sms => ch.codeHash == some (sha256 s!"{challengeToken}:{trimText code}")
  | .totp => mfaOk

/-- The comparison. -/
def compareCode (ch : Challenge) (code : String) (mfaOk : Bool) : StepUpStmt (ℕ × Bool) := do
  let number ← Block.fresh
  let ok := isRight sha256 challengeToken ch code mfaOk
  Block.mark (.compares number ch.attempts ok)
  pure (number, ok)

/-- `DEL` of the challenge, or `SET` with `KEEPTTL`. -/
def putChallenge (ch : Option Challenge) : StepUpStmt Unit :=
  Block.write (StepUpDb.setChallenge ch)

/-- `SET` of a token. -/
def storeToken (token : StepUpToken) : StepUpStmt Unit := do
  Block.mark (.issues token.id)
  Block.write fun s => s.setTokens (s.tokens.insert token)

/-- A wrong code: the attempts are written back, and the last one deletes the challenge. -/
def countAttempt (ch : Challenge) : StepUpCall StepUpResult := do
  let attempts := ch.attempts + 1
  Call.transaction (putChallenge
    (if MAX_ATTEMPTS ≤ attempts then none else some { ch with attempts := attempts }))
  Call.fail (.badRequest
    (if MAX_ATTEMPTS ≤ attempts then "تعداد تلاش‌ها زیاد بود؛ دوباره کد بگیرید"
      else "کد تأیید نادرست است") "STEP_UP_INVALID")

/-- A right code: the challenge is deleted, and a token stored. -/
def succeed (ch : Challenge) (number : ℕ) : StepUpCall StepUpResult := do
  Call.transaction (putChallenge none)
  Call.transaction (storeToken ⟨number, ch.userId, ch.sessionId, ch.purpose⟩)
  pure (.issued number)

/-- `StepUpService.verify` -/
def verify (userId sessionId : ℕ) (code : String) (mfaOk : Bool) : StepUpCall StepUpResult := do
  let s ← Call.transaction Block.get
  let ch ← Call.getOrFail
    (s.challenge.filter fun ch => ch.userId == userId && ch.sessionId == sessionId)
    (.badRequest "درخواست تأیید منقضی شده است؛ دوباره تلاش کنید" "STEP_UP_EXPIRED")
  let (number, ok) ← Call.transaction (compareCode sha256 challengeToken ch code mfaOk)
  if ok then succeed ch number else countAttempt ch

end Verify

/-! ## `consume` -/

/-- `MULTI` of `GET` and `DEL`. -/
def takeToken (token : ℕ) : StepUpStmt (Option StepUpToken) := do
  let s ← Block.get
  match s.tokens.find? token with
  | none => pure none
  | some t => do
    Block.mark (.consumes token)
    Block.write (StepUpDb.setTokens (s.tokens.deleteWhere fun t => t.id == token))
    pure (some t)

/-- `StepUpService.consume` -/
def consume (userId sessionId : ℕ) (purpose : StepUpPurpose) (token : Option ℕ) :
    StepUpCall StepUpResult :=
  match token with
  | none => pure (.consumed false)
  | some token => do
    let v ← Call.transaction (takeToken token)
    pure (.consumed (v.any fun v =>
      v.userId == userId && v.sessionId == sessionId && v.purpose == purpose))

/-- The service. -/
def serve (sha256 : String → String) (challengeToken : String) :
    StepUpRequest → StepUpCall StepUpResult
  | .verify userId sessionId code mfaOk =>
    verify sha256 challengeToken userId sessionId code mfaOk
  | .consume userId sessionId purpose token => consume userId sessionId purpose token

end StepUpService

end ArkanGold
