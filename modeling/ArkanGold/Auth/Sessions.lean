import ArkanGold.Lib.Statements

/-!
# Sessions of a user

The part of `AuthService` that opens, continues and ends sessions, for one user: the rows of
`user_sessions` here are those of that user.

- Every statement is a transaction of its own; between two of them anything may happen.
- The tokens are signed and hashed by libraries (`TokenService`). A token names its session.
- What is decided elsewhere (the second factor of a login, the rules for passwords, the
  throttle of wrong passwords) is an argument. The audit log and the alerts reach none of the
  rows here.
-/

namespace ArkanGold

/-- The exceptions of the service. -/
inductive AuthError where
  | unauthorized (message : String)
  | badRequest (message : String)
  | notFound (message : String)
  | tooMany (message : String)
  /-- a row that a statement needs does not exist, or its key is taken -/
  | database
  deriving DecidableEq, Repr

/-- A row of `user_sessions`. -/
structure UserSession where
  id : ℕ
  device : Option String
  ip : Option String
  refreshTokenHash : String
  accessTokenHash : String
  expiresAt : ℤ
  lastActivityAt : ℤ
  deriving DecidableEq

/-- The row of the user, as far as the sessions look at it. -/
structure UserAccount where
  id : ℕ
  phone : String
  passwordHash : Option String
  passwordChangedAt : Option ℤ
  deriving DecidableEq

/-- What a session continues. -/
inductive SessionOrigin where
  /-- a login -/
  | login
  /-- a session whose refresh token, of this hash, was presented -/
  | refreshed (hash : String) (old : ℕ)
  /-- a session that was replaced when a factor changed -/
  | rotated (old : ℕ)
  deriving DecidableEq

/-- The session that is continued. -/
def SessionOrigin.old : SessionOrigin → Option ℕ
  | .login => none
  | .refreshed _ old => some old
  | .rotated old => some old

/-- Statements that properties of runs speak about. -/
inductive SessionMark where
  /-- a session is created -/
  | creates (origin : SessionOrigin) (id : ℕ) (expiresAt : ℤ)
  /-- a session whose refresh token was presented is deleted -/
  | takes (id : ℕ)
  /-- all sessions, the ids of which are below `bound`, are revoked -/
  | revokes (bound : ℕ)
  deriving DecidableEq

/-- The state. -/
structure SessionDb where
  user : UserAccount
  sessions : Table UserSession UserSession.id
  /-- the reset tokens that were used, with the end of that entry -/
  usedResetTokens : List (String × ℤ)
  /-- the numbers in `system_config` -/
  number : String → Option ℚ
  now : ℤ
  nextId : ℕ
  history : List SessionMark

namespace SessionDb

def setSessions (t : Table UserSession UserSession.id) (s : SessionDb) : SessionDb :=
  { s with sessions := t }

@[simp] theorem setSessions_sessions (t : Table UserSession UserSession.id) (s : SessionDb) :
    (s.setSessions t).sessions = t := rfl

@[simp] theorem setSessions_history (t : Table UserSession UserSession.id) (s : SessionDb) :
    (s.setSessions t).history = s.history := rfl

@[simp] theorem setSessions_nextId (t : Table UserSession UserSession.id) (s : SessionDb) :
    (s.setSessions t).nextId = s.nextId := rfl

instance : Supply SessionDb where
  next := SessionDb.nextId
  bump s := { s with nextId := s.nextId + 1 }

instance : History SessionMark SessionDb where
  record l s := { s with history := s.history ++ [l] }

end SessionDb

/-- The names of the row locks. -/
inductive SessionRow where
  | session (id : ℕ)
  | user
  deriving DecidableEq

/-- A statement on the sessions. -/
abbrev SessionStmt (α : Type) : Type := Block AuthError SessionRow SessionMark SessionDb α

/-- A call of the service. -/
abbrev SessionCall (α : Type) : Type 1 := Call AuthError SessionRow SessionMark SessionDb α

/-- The sessions in the state. -/
def sessionRows : Relation SessionRow SessionDb UserSession UserSession.id where
  get := SessionDb.sessions
  set := SessionDb.setSessions
  row := .session

/-- What a token says. -/
structure TokenPayload where
  sub : ℕ
  phone : String
  sessionId : ℕ
  deriving DecidableEq

/-- Signing and hashing. The hashes of the refresh tokens of different sessions differ. -/
structure TokenService where
  signAccess : TokenPayload → ℤ → ℤ → String
  signRefresh : TokenPayload → ℤ → ℤ → String
  sha256 : String → String
  distinct : ∀ {p p' : TokenPayload} {ttl ttl' now now' : ℤ},
    sha256 (signRefresh p ttl now) = sha256 (signRefresh p' ttl' now') → p.sessionId = p'.sessionId

/-- What a user gets for a session. -/
structure SessionTokens where
  accessToken : String
  refreshToken : String
  expiresIn : ℤ
  refreshExpiresIn : ℤ
  idleTimeoutSeconds : ℤ
  deriving DecidableEq

/-! ## The policy -/

/-- `SessionPolicy` -/
structure SessionPolicy where
  accessTtlSeconds : ℤ
  refreshTtlSeconds : ℤ

/-- `clamp` -/
def clampRound (v : ℚ) (min max : ℤ) : ℤ := Min.min max (Max.max min (v + 1 / 2).floor)

/-- `getSessionPolicy('user')` -/
def getSessionPolicy (s : SessionDb) : SessionPolicy :=
  let timeoutMinutes := clampRound ((s.number "session.user.timeout_minutes").getD 15) 5 1440
  let refreshUnits := clampRound ((s.number "session.user.absolute_hours").getD 12) 1 168
  let accessTtlSeconds := timeoutMinutes * 60
  { accessTtlSeconds := accessTtlSeconds
    refreshTtlSeconds := max (refreshUnits * (60 * 60)) accessTtlSeconds }

namespace AuthService

/-! ## Opening a session -/

/-- The statement that inserts a session. -/
def insertSession (origin : SessionOrigin) (expiresAt : ℤ) (mk : ℕ → ℤ → UserSession) :
    SessionStmt ℕ := do
  let s ← Block.get
  let id ← sessionRows.create .session .database fun id => { mk id s.now with id := id }
  Block.mark (.creates origin id expiresAt)
  pure id

/-- `createSession` -/
def createSession (tokens : TokenService) (origin : SessionOrigin) (userId : ℕ) (phone : String)
    (ip device : Option String) (absoluteExpiresAt : Option ℤ) : SessionCall SessionTokens := do
  let s ← Call.transaction Block.get
  let policy := getSessionPolicy s
  let refreshTtlSeconds := match absoluteExpiresAt with
    | some t => max 1 ((t - s.now) / 1000)
    | none => policy.refreshTtlSeconds
  let accessToken := fun id => tokens.signAccess ⟨userId, phone, id⟩ refreshTtlSeconds s.now
  let refreshToken := fun id => tokens.signRefresh ⟨userId, phone, id⟩ refreshTtlSeconds s.now
  let expiresAt := absoluteExpiresAt.getD (s.now + refreshTtlSeconds * 1000)
  let sessionId ← Call.transaction (insertSession origin expiresAt fun id now =>
    { id := id
      device := device
      ip := ip
      refreshTokenHash := tokens.sha256 (refreshToken id)
      accessTokenHash := tokens.sha256 (accessToken id)
      expiresAt := expiresAt
      lastActivityAt := now })
  pure
    { accessToken := accessToken sessionId
      refreshToken := refreshToken sessionId
      expiresIn := refreshTtlSeconds
      refreshExpiresIn := refreshTtlSeconds
      idleTimeoutSeconds := policy.accessTtlSeconds }

/-- `verifyLoginMfa`, from the second factor on. -/
def verifyLoginMfa (tokens : TokenService) (secondFactor : Except AuthError Unit)
    (ip userAgent : Option String) : SessionCall SessionTokens := do
  let s ← Call.transaction Block.get
  Call.ofExcept secondFactor
  createSession tokens .login s.user.id s.user.phone ip userAgent none

/-! ## Continuing a session -/

/-- The statement that deletes the session whose refresh token was presented. -/
def takeSession (id : ℕ) : SessionStmt Unit := do
  Block.lock (.session id)
  let s ← Block.get
  Block.check (s.sessions.find? id).isSome .database
  Block.mark (.takes id)
  sessionRows.deleteMany fun r => r.id == id

/-- `refreshToken` -/
def refreshToken (tokens : TokenService) (presented : String) : SessionCall SessionTokens := do
  let hash := tokens.sha256 presented
  let s ← Call.transaction Block.get
  let session ← Call.getOrFail
    (s.sessions.rows.find? fun r => r.refreshTokenHash == hash && decide (s.now < r.expiresAt))
    (.unauthorized "رفرش توکن نامعتبر یا منقضی شده است")
  Call.transaction (takeSession session.id)
  let t ← Call.transaction Block.get
  Call.check (decide (t.now - session.lastActivityAt ≤ (getSessionPolicy t).accessTtlSeconds * 1000))
    (.unauthorized "نشست به‌دلیل عدم فعالیت منقضی شد؛ دوباره وارد شوید")
  createSession tokens (.refreshed hash session.id) s.user.id s.user.phone session.ip session.device
    (some session.expiresAt)

/-- `rotateAfterFactorChange` -/
def rotateAfterFactorChange (tokens : TokenService) (currentSessionId : ℕ)
    (ip userAgent : Option String) : SessionCall (Option SessionTokens) := do
  let s ← Call.transaction Block.get
  let current := s.sessions.find? currentSessionId
  Call.transaction (sessionRows.deleteMany fun _ => true)
  match current with
  | none => pure none
  | some current => do
    let created ← createSession tokens (.rotated current.id) s.user.id s.user.phone
      (current.ip.or ip) (current.device.or userAgent) (some current.expiresAt)
    pure (some created)

/-! ## Ending sessions -/

/-- `logout`; a session that is gone already is no error. -/
def logout (sessionId : ℕ) : SessionCall Unit :=
  Call.transaction (sessionRows.deleteMany fun r => r.id == sessionId)

/-- The statement that deletes all sessions for good. -/
def revokeSessions : SessionStmt Unit := do
  let s ← Block.get
  Block.mark (.revokes s.nextId)
  sessionRows.deleteMany fun _ => true

/-- `logoutAll` -/
def logoutAll : SessionCall Unit := Call.transaction revokeSessions

/-- Write the new password. -/
def setPassword (passwordHash : String) : SessionStmt Unit := do
  Block.lock .user
  let s ← Block.get
  Block.write fun t => { t with
    user := { t.user with passwordHash := some passwordHash, passwordChangedAt := some s.now } }

/-- Set the entry for a reset token, unless there is one. -/
def useResetToken (jti : String) : SessionStmt Unit := do
  let s ← Block.get
  Block.check (s.usedResetTokens.all fun x => x.1 != jti || decide (x.2 ≤ s.now))
    (.unauthorized "این لینک/توکن بازیابی قبلاً استفاده شده است")
  Block.write fun t => { t with usedResetTokens := (jti, s.now + 900 * 1000) :: t.usedResetTokens }

/-- What a reset token says. -/
structure ResetTokenPayload where
  purpose : String
  jti : Option String
  deriving DecidableEq

/-- What the token is good for once: it is used up before the password is written. -/
def spend : Option String → SessionCall Unit
  | none => pure ()
  | some jti => Call.transaction (useResetToken jti)

/-- `resetPassword`; `verified` is what the token turns out to be, `acceptable` what the rules
say about the new password. -/
def resetPassword (verified : Option ResetTokenPayload) (acceptable : Except AuthError Unit)
    (passwordHash : String) : SessionCall Unit := do
  let payload ← Call.getOrFail verified (.unauthorized "توکن بازیابی نامعتبر یا منقضی شده است")
  Call.check (payload.purpose == "reset_password") (.badRequest "توکن نامعتبر است")
  Call.ofExcept acceptable
  spend payload.jti
  Call.transaction (setPassword passwordHash)
  Call.transaction revokeSessions

/-- The new password, and what was decided about both passwords. -/
structure ChangePasswordDto where
  currentPassword : String
  newPassword : String
  /-- whether the current password may be tried now -/
  allowed : Except AuthError Unit
  /-- whether a hash is the one of the current password -/
  isCurrent : String → Bool
  /-- what the rules say about the new password -/
  acceptable : Except AuthError Unit
  passwordHash : String

/-- `changePassword` -/
def changePassword (sessionId : ℕ) (dto : ChangePasswordDto) : SessionCall Unit := do
  let s ← Call.transaction Block.get
  let currentHash ← Call.getOrFail s.user.passwordHash (.badRequest
    "برای حساب شما رمز عبوری ثبت نشده است. از بخش «فراموشی رمز عبور» اقدام کنید")
  Call.ofExcept dto.allowed
  Call.check (dto.isCurrent currentHash) (.badRequest "رمز عبور فعلی نادرست است")
  Call.check (dto.newPassword != dto.currentPassword)
    (.badRequest "رمز عبور جدید نباید با رمز عبور فعلی یکسان باشد")
  Call.ofExcept dto.acceptable
  Call.transaction (setPassword dto.passwordHash)
  Call.transaction (sessionRows.deleteMany fun r => r.id != sessionId)

/-! ## The service -/

/-- A request to the service. -/
inductive AuthRequest where
  | login (secondFactor : Except AuthError Unit) (ip userAgent : Option String)
  | refreshToken (presented : String)
  | rotateAfterFactorChange (currentSessionId : ℕ) (ip userAgent : Option String)
  | changePassword (sessionId : ℕ) (dto : ChangePasswordDto)
  | resetPassword (verified : Option ResetTokenPayload) (acceptable : Except AuthError Unit)
      (passwordHash : String)
  | logout (sessionId : ℕ)
  | logoutAll

/-- The service; the answer is the session that was opened, if any. -/
def serve (tokens : TokenService) : AuthRequest → SessionCall (Option SessionTokens)
  | .login secondFactor ip userAgent => do
    pure (some (← verifyLoginMfa tokens secondFactor ip userAgent))
  | .refreshToken presented => do
    pure (some (← refreshToken tokens presented))
  | .rotateAfterFactorChange id ip userAgent => rotateAfterFactorChange tokens id ip userAgent
  | .changePassword id dto => do
    changePassword id dto
    pure none
  | .resetPassword verified acceptable hash => do
    resetPassword verified acceptable hash
    pure none
  | .logout id => do
    logout id
    pure none
  | .logoutAll => do
    logoutAll
    pure none

end AuthService

end ArkanGold
