import ArkanGold.Common.Format
import ArkanGold.Lib.Calls

/-!
# Login challenges

`LoginChallengeService` and the calls of `AuthService` and `AdminAuthService` that compare a code
on a challenge, for one challenge: the state has its key and the key of its attempts.

- Every command of Redis is a transaction of its own. The attempts are counted with `INCR`, apart
  from the record; they are read after the record and before the comparison.
- `consume` tells whether it has deleted the record. `loginMfaSetupConfirm` does not ask.
- What the other services say (the account, the throttle, the outcome of the comparison) is part
  of the request, and the end of the keys is a matter of the surroundings.
-/

namespace ArkanGold

namespace LoginChallengeService

/-- `MAX_CHALLENGE_ATTEMPTS` -/
def MAX_CHALLENGE_ATTEMPTS : ℕ := 5

/-- `EXPIRED_MESSAGE` -/
def EXPIRED_MESSAGE : String := "مهلت این مرحله‌ی ورود به پایان رسیده است؛ دوباره وارد شوید"

/-- The kind of the account. -/
inductive AccountKind where
  | user
  | admin
  deriving DecidableEq

/-- `ChallengeStage` -/
inductive ChallengeStage where
  | smsOtp
  | totp
  | changePassword
  | mfaSetup
  | mfaVerify
  deriving DecidableEq

/-- The way of the first factor. -/
inductive LoginVia where
  | password
  | agentOtp
  | smsOtp
  deriving DecidableEq

/-- What the challenge is for. -/
inductive ChallengePurpose where
  | login
  | reset
  deriving DecidableEq

/-- `LoginChallenge`; `get` puts the counter in place of the attempts. -/
structure LoginChallenge where
  kind : AccountKind
  stage : ChallengeStage
  via : LoginVia
  purpose : Option ChallengePurpose
  attempts : ℕ
  deriving DecidableEq

/-- What properties of runs say about a challenge. -/
inductive LoginMark where
  /-- a code is compared; so many attempts were read -/
  | compares (stage : ChallengeStage) (read : ℕ)
  /-- the challenge is stored with its next stage -/
  | advances
  /-- a session, or a token to reset the password, results; `deleted` tells whether the record
  was still there -/
  | opens (deleted : Bool)
  deriving DecidableEq

/-- The state. -/
structure LoginDb where
  challenge : Option LoginChallenge
  attempts : Option ℕ
  history : List LoginMark
  nextId : ℕ

namespace LoginDb

/-- Replace `challenge`. -/
@[simps] def setChallenge (c : Option LoginChallenge) (s : LoginDb) : LoginDb :=
  { s with challenge := c }

/-- Replace `attempts`. -/
@[simps] def setAttempts (n : Option ℕ) (s : LoginDb) : LoginDb := { s with attempts := n }

/-- A number of the supply is spent. -/
@[simps] def spendId (s : LoginDb) : LoginDb := { s with nextId := s.nextId + 1 }

/-- A mark enters the history. -/
@[simps] def note (l : LoginMark) (s : LoginDb) : LoginDb :=
  { s with history := s.history ++ [l] }

instance : Supply LoginDb := ⟨nextId, spendId⟩

instance : History LoginMark LoginDb := ⟨note⟩

end LoginDb

/-- The exceptions. -/
inductive LoginError where
  | unauthorized (message : String)
  | forbidden (message : String)
  /-- the throttle refuses -/
  | throttled
  /-- the exception of `confirmSetup` -/
  | rejected
  deriving DecidableEq

/-- A command of Redis. -/
abbrev LoginStmt (α : Type) : Type := Block LoginError ℕ LoginMark LoginDb α

/-- A call. -/
abbrev LoginCall (α : Type) : Type 1 := Call LoginError ℕ LoginMark LoginDb α

/-! ## `LoginChallengeService` -/

/-- `DEL` of both keys. -/
def delBoth : LoginStmt Unit := Block.write fun s => (s.setChallenge none).setAttempts none

/-- `get` -/
def get (kind : AccountKind) (stages : List ChallengeStage) : LoginCall LoginChallenge := do
  let s ← Call.transaction Block.get
  let ch ← Call.getOrFail
    (s.challenge.filter fun ch => decide (ch.kind = kind) && decide (ch.stage ∈ stages))
    (.unauthorized EXPIRED_MESSAGE)
  let t ← Call.transaction Block.get
  let attempts := t.attempts.getD 0
  if MAX_CHALLENGE_ATTEMPTS ≤ attempts then do
    Call.transaction delBoth
    Call.fail (.unauthorized EXPIRED_MESSAGE)
  else pure { ch with attempts := attempts }

/-- `SETEX` of the next stage. -/
def storeStage (ch : LoginChallenge) (stage : ChallengeStage) : LoginStmt Unit := do
  Block.mark .advances
  Block.write (LoginDb.setChallenge (some { ch with stage := stage, attempts := 0 }))

/-- `advance` -/
def advance (ch : LoginChallenge) (stage : ChallengeStage) : LoginCall Unit := do
  Call.transaction (storeStage ch stage)
  Call.transaction (Block.write (LoginDb.setAttempts none))

/-- `INCR` of the attempts. -/
def incrAttempts : LoginStmt ℕ := do
  let s ← Block.get
  let attempts := s.attempts.getD 0 + 1
  Block.write (LoginDb.setAttempts (some attempts))
  pure attempts

/-- `fail`: the attempts left. -/
def fail : LoginCall ℕ := do
  let attempts ← Call.transaction incrAttempts
  if MAX_CHALLENGE_ATTEMPTS ≤ attempts then do
    Call.transaction delBoth
    pure 0
  else pure (MAX_CHALLENGE_ATTEMPTS - attempts)

/-- `DEL` of the record: whether it was there. `leads` tells in which case a session results. -/
def delChallenge (leads : Bool → Bool) : LoginStmt Bool := do
  let s ← Block.get
  let deleted := s.challenge.isSome
  if leads deleted then do
    Block.mark (.opens deleted)
    Block.write (LoginDb.setChallenge none)
    pure deleted
  else do
    Block.write (LoginDb.setChallenge none)
    pure deleted

/-- `consume` -/
def consume (leads : Bool → Bool) : LoginCall Bool := do
  Call.transaction (Block.write (LoginDb.setAttempts none))
  Call.transaction (delChallenge leads)

/-! ## Callers -/

/-- `UserStatus`, as far as it is asked for. -/
inductive UserStatus where
  | active
  | banned
  | other
  deriving DecidableEq

/-- What the other services say in a request. -/
structure LoginAnswers where
  /-- the account exists -/
  found : Bool
  status : UserStatus
  totpEnabled : Bool
  /-- the throttle lets the attempt pass -/
  allowed : Bool
  /-- the code is right -/
  right : Bool
  /-- the one-time code had no attempts left -/
  exceeded : Bool
  deriving DecidableEq

/-- What a call returns. -/
inductive LoginResult where
  | session
  | resetToken
  /-- the code of the application is asked for next -/
  | mfaRequired
  deriving DecidableEq

/-- The message of a wrong code. -/
def wrongCode (remaining : ℕ) : String :=
  if 0 < remaining then
    s!"کد وارد شده نادرست یا منقضی است ({localeFa remaining} تلاش باقی‌مانده)"
  else "تعداد تلاش‌های مجاز به پایان رسید؛ دوباره وارد شوید"

/-- `used`: the comparison of a code at the stage of the challenge. -/
def compareCode (ch : LoginChallenge) (right : Bool) : LoginStmt Bool := do
  Block.mark (.compares ch.stage ch.attempts)
  pure right

/-- `checkSecondFactor` -/
def checkSecondFactor (ch : LoginChallenge) (a : LoginAnswers) : LoginCall Unit := do
  Call.check a.allowed .throttled
  let used ← Call.transaction (compareCode ch a.right)
  if used then pure ()
  else do
    let remaining ← fail
    if decide (ch.stage = .smsOtp) && a.exceeded then do
      let _ ← consume fun _ => false
      Call.fail (.unauthorized "تعداد تلاش‌های مجاز به پایان رسید؛ دوباره وارد شوید")
    else Call.fail (.unauthorized (wrongCode remaining))

/-- The end of a stage that can be completed once. -/
def complete (result : LoginResult) : LoginCall LoginResult := do
  let deleted ← consume fun deleted => deleted
  Call.check deleted (.unauthorized "مرحله‌ی ورود نامعتبر است؛ دوباره وارد شوید")
  pure result

/-- `AuthService.verifyLoginMfa`, for an account that exists and may log in. -/
def verifyStage (ch : LoginChallenge) (a : LoginAnswers) : LoginCall LoginResult := do
  checkSecondFactor ch a
  if decide (ch.via = .smsOtp) && decide (ch.stage = .smsOtp) && a.totpEnabled then do
    advance ch .totp
    pure .mfaRequired
  else complete .session

/-- `AuthService.verifyLoginMfa` -/
def verifyLoginMfa (a : LoginAnswers) : LoginCall LoginResult := do
  let ch ← get .user [.smsOtp, .totp]
  Call.check (decide (ch.purpose = some .login))
    (.unauthorized "مرحله‌ی ورود نامعتبر است؛ دوباره وارد شوید")
  if a.found then
    if decide (ch.via = .smsOtp) && decide (a.status ≠ .active) then do
      let _ ← consume fun _ => false
      Call.fail (.forbidden (if a.status = .banned then "حساب کاربری شما مسدود شده است"
        else "حساب کاربری شما فعال نیست"))
    else verifyStage ch a
  else if ch.via = .smsOtp then do
    -- a challenge without an account answers like one with a wrong code
    let remaining ← fail
    Call.fail (.unauthorized (wrongCode remaining))
  else Call.fail (.unauthorized "مرحله‌ی ورود نامعتبر است؛ دوباره وارد شوید")

/-- `AuthService.verifyResetMfa` -/
def verifyResetMfa (a : LoginAnswers) : LoginCall LoginResult := do
  let ch ← get .user [.totp]
  Call.check (decide (ch.purpose = some .reset) && a.found)
    (.unauthorized "مرحله‌ی بازیابی نامعتبر است؛ دوباره تلاش کنید")
  checkSecondFactor ch a
  complete .resetToken

/-- `INVALID_CREDS_MSG` -/
def INVALID_CREDS_MSG : String := "نام کاربری یا رمز عبور نادرست است"

/-- `AdminAuthService.loginMfaVerify` -/
def loginMfaVerify (a : LoginAnswers) : LoginCall LoginResult := do
  let ch ← get .admin [.mfaVerify]
  Call.check a.found (.unauthorized INVALID_CREDS_MSG)
  Call.check a.allowed .throttled
  let used ← Call.transaction (compareCode ch a.right)
  if used then complete .session
  else do
    let remaining ← fail
    Call.fail (.unauthorized (if 0 < remaining then
      s!"کد نادرست است ({localeFa remaining} تلاش باقی‌مانده)"
      else "تعداد تلاش‌های مجاز به پایان رسید؛ دوباره وارد شوید"))

/-- `AdminAuthService.loginMfaSetupConfirm` -/
def loginMfaSetupConfirm (a : LoginAnswers) : LoginCall LoginResult := do
  let ch ← get .admin [.mfaSetup]
  Call.check a.found (.unauthorized INVALID_CREDS_MSG)
  let used ← Call.transaction (compareCode ch a.right)
  if used then do
    let _ ← consume fun _ => true
    pure .session
  else do
    let remaining ← fail
    Call.fail (if remaining = 0 then
      .unauthorized "تعداد تلاش‌های مجاز به پایان رسید؛ دوباره وارد شوید" else .rejected)

/-- A request. -/
inductive LoginRequest where
  | verifyLoginMfa (a : LoginAnswers)
  | verifyResetMfa (a : LoginAnswers)
  | loginMfaVerify (a : LoginAnswers)
  | loginMfaSetupConfirm (a : LoginAnswers)
  deriving DecidableEq

/-- The services. -/
def serve : LoginRequest → LoginCall LoginResult
  | .verifyLoginMfa a => verifyLoginMfa a
  | .verifyResetMfa a => verifyResetMfa a
  | .loginMfaVerify a => loginMfaVerify a
  | .loginMfaSetupConfirm a => loginMfaSetupConfirm a

end LoginChallengeService

end ArkanGold
