import ArkanGold.Common.Format
import ArkanGold.Lib.Statements

/-!
# One-time codes

`OtpSendLimiterService`, `AuthService.issueOtp` and `AuthService.validateOtp`, for one phone and
purpose: the keys of Redis and the rows of `user_otps` here are those of that phone and purpose.

- Every command of Redis and every statement on the database is a transaction of its own.
- A code is stored three times: its hash in Redis, its hash in a row of the database, and the
  attempts made on it in a counter of Redis that belongs to no code. The row has a counter of
  its own and is only looked at when Redis has no code.
- The hourly quota is a counter of Redis that starts with its first request.
- The digits of a code and the outcome of the text message are part of the request. The hash of
  a code contains its salt, which no other hash has.
-/

namespace ArkanGold

/-- A hash of `bcrypt`, with its salt. -/
structure CodeHash where
  salt : ℕ
  digest : String
  deriving DecidableEq

/-- A counter of Redis and its end, if it has one. -/
structure Counter where
  value : ℤ
  endsAt : Option ℤ
  deriving DecidableEq

/-- A row of `user_otps`. -/
structure UserOtp where
  id : ℕ
  codeHash : CodeHash
  attempts : ℕ
  expiresAt : ℤ
  createdAt : ℤ
  deriving DecidableEq

/-- What properties of runs say about codes; a code is named by its salt. -/
inductive CodeMark where
  /-- the code is stored in Redis -/
  | stores (salt : ℕ)
  /-- the counter of attempts is deleted for the new code -/
  | clears (salt : ℕ)
  /-- the counter of attempts is deleted by a validation -/
  | resets
  /-- the code is stored in the database -/
  | files (salt rowId : ℕ)
  /-- the code is about to be compared with a submitted one, `redis` tells which copy of it -/
  | compares (salt : ℕ) (redis : Bool)
  /-- a submitted code is accepted -/
  | accepts (salt : ℕ) (redis : Bool)
  deriving DecidableEq

/-- What properties of runs say about sends; a send is named by a number of its own, and an hour
by the send that has opened it. -/
inductive SendMark where
  /-- the send is counted in the hour -/
  | counts (send hour : ℕ)
  /-- the send is let through -/
  | lets (send hour : ℕ) (time : ℤ)
  /-- a send that was not delivered is released -/
  | releases (send : ℕ)
  /-- a send that was released is taken off the hour -/
  | returns (send hour : ℕ)
  deriving DecidableEq

/-- What the marks are about. -/
inductive OtpMark where
  | code (l : CodeMark)
  | send (l : SendMark)

/-- The code and the attempts made on it. -/
structure CodeState where
  /-- the hash in Redis and its end -/
  hash : Option (CodeHash × ℤ)
  attempts : Option Counter
  rows : Table UserOtp UserOtp.id
  history : List CodeMark

/-- The quota of sends. -/
structure SendState where
  /-- the end of the gap after a send -/
  gap : Option ℤ
  /-- the counter of the hour; no function reads which send has opened it -/
  hour : Option (ℕ × Counter)
  history : List SendMark

/-- The state. -/
structure OtpDb where
  codes : CodeState
  sends : SendState
  now : ℤ
  nextId : ℕ

namespace OtpDb

/-- Replace `codes`. -/
@[simps] def setCodes (c : CodeState) (s : OtpDb) : OtpDb := { s with codes := c }

/-- Replace `sends`. -/
@[simps] def setSends (c : SendState) (s : OtpDb) : OtpDb := { s with sends := c }

/-- A number of the supply is spent. -/
@[simps] def spendId (s : OtpDb) : OtpDb := { s with nextId := s.nextId + 1 }

/-- A mark enters the history it belongs to. -/
def note : OtpMark → OtpDb → OtpDb
  | .code l, s => s.setCodes { s.codes with history := s.codes.history ++ [l] }
  | .send l, s => s.setSends { s.sends with history := s.sends.history ++ [l] }

instance : Supply OtpDb := ⟨nextId, spendId⟩

instance : History OtpMark OtpDb := ⟨note⟩

end OtpDb

/-- The exceptions. -/
inductive OtpError where
  | badRequest (message : String)
  | tooMany (code message : String) (retryAfter : Option ℤ)
  /-- the text message was not delivered -/
  | undelivered
  deriving DecidableEq

/-- A command or a statement; the rows of the database are locked by their ids. -/
abbrev OtpStmt (α : Type) : Type := Block OtpError ℕ OtpMark OtpDb α

/-- A call of the services. -/
abbrev OtpCall (α : Type) : Type 1 := Call OtpError ℕ OtpMark OtpDb α

/-! ## Commands of Redis -/

namespace Counter

/-- The counter at an instant, unless it has ended. -/
def live (now : ℤ) (c : Option Counter) : Option Counter :=
  c.filter fun c => c.endsAt.all fun t => decide (now < t)

/-- `INCR` -/
def incr (now : ℤ) (c : Option Counter) : Counter :=
  match live now c with
  | some c => { c with value := c.value + 1 }
  | none => ⟨1, none⟩

/-- `DECR` -/
def decr (now : ℤ) (c : Option Counter) : Counter :=
  match live now c with
  | some c => { c with value := c.value - 1 }
  | none => ⟨-1, none⟩

/-- `EXPIRE`, in milliseconds -/
def expire (now ttl : ℤ) (c : Option Counter) : Option Counter :=
  (live now c).map fun c => { c with endsAt := some (now + ttl) }

end Counter

/-- The hash in Redis at an instant, unless it has ended. -/
def CodeState.live (now : ℤ) (c : CodeState) : Option CodeHash :=
  (c.hash.filter fun x => decide (now < x.2)).map Prod.fst

/-- The hour at an instant, unless it has ended. -/
def SendState.liveHour (now : ℤ) (c : SendState) : Option (ℕ × Counter) :=
  c.hour.filter fun h => h.2.endsAt.all fun t => decide (now < t)

/-- `TTL`: seconds to the end, rounded to the nearest. -/
def ttlSeconds (now : ℤ) (endsAt : Option ℤ) : ℤ :=
  match endsAt.filter fun t => decide (now < t) with
  | some t => (t - now + 500) / 1000
  | none => -2

/-! ## The quota of sends -/

namespace OtpSendLimiterService

/-- `OTP_RESEND_GAP_SECONDS`, in milliseconds -/
def OTP_RESEND_GAP : ℤ := 60 * 1000

/-- `OTP_MAX_SENDS_PER_HOUR` -/
def OTP_MAX_SENDS_PER_HOUR : ℤ := 5

/-- The lifetime of the hour, in milliseconds. -/
def HOUR : ℤ := 3600 * 1000

/-- The hour with a further request counted; a new one is opened by `send`. -/
def countSend (now : ℤ) (send : ℕ) (c : SendState) : ℕ × Counter :=
  (((c.liveHour now).map Prod.fst).getD send, Counter.incr now (c.hour.map Prod.snd))

/-- `INCR` of the hour: the number of the send, its hour, and the count. A request within the
quota counts as a send. -/
def incrHour : OtpStmt (ℕ × ℕ × ℤ) := do
  let send ← Block.fresh
  let s ← Block.get
  let hour := countSend s.now send s.sends
  if hour.2.value ≤ OTP_MAX_SENDS_PER_HOUR then do
    Block.mark (.send (.counts send hour.1))
    Block.write fun s => s.setSends { s.sends with hour := some hour }
    pure (send, hour.1, hour.2.value)
  else do
    Block.write fun s => s.setSends { s.sends with hour := some hour }
    pure (send, hour.1, hour.2.value)

/-- `EXPIRE` of the hour. -/
def expireHour : OtpStmt Unit :=
  Block.write fun s => s.setSends { s.sends with
    hour := (s.sends.liveHour s.now).map fun h => (h.1, { h.2 with endsAt := some (s.now + HOUR) }) }

/-- `SETEX` of the gap: the send is let through. -/
def setGap (send hour : ℕ) : OtpStmt Unit := do
  let s ← Block.get
  Block.mark (.send (.lets send hour s.now))
  Block.write fun s => s.setSends { s.sends with gap := some (s.now + OTP_RESEND_GAP) }

/-- The first request of an hour sets its end. -/
def expireFirst (sends : ℤ) : OtpCall Unit :=
  if sends = 1 then Call.transaction expireHour else pure ()

/-- `consume`: the send and its hour. -/
def consume : OtpCall (ℕ × ℕ) := do
  let s ← Call.transaction Block.get
  let gapTtl := ttlSeconds s.now s.sends.gap
  Call.check (decide (gapTtl ≤ 0)) (.tooMany "OTP_RESEND_TOO_SOON"
    s!"برای دریافت کد جدید {localeFa gapTtl} ثانیه دیگر صبر کنید" (some gapTtl))
  let (send, hour, sends) ← Call.transaction incrHour
  expireFirst sends
  Call.check (decide (sends ≤ OTP_MAX_SENDS_PER_HOUR)) (.tooMany "OTP_HOURLY_LIMIT"
    "تعداد درخواست کد برای این شماره بیش از حد مجاز است؛ ساعتی دیگر تلاش کنید" none)
  Call.transaction (setGap send hour)
  pure (send, hour)

/-- `DEL` of the gap. -/
def delGap (send : ℕ) : OtpStmt Unit := do
  Block.mark (.send (.releases send))
  Block.write fun s => s.setSends { s.sends with gap := none }

/-- `DECR` of the hour; without one it starts below zero, and `send` stands for its opener. -/
def decrHour (send hour : ℕ) : OtpStmt Unit := do
  Block.mark (.send (.returns send hour))
  Block.write fun s => s.setSends { s.sends with
    hour := some (((s.sends.liveHour s.now).map Prod.fst).getD send,
      Counter.decr s.now (s.sends.hour.map Prod.snd)) }

/-- `release` -/
def release (send hour : ℕ) : OtpCall Unit := do
  Call.transaction (delGap send)
  Call.transaction (decrHour send hour)

end OtpSendLimiterService

/-! ## Codes -/

namespace AuthService

open OtpSendLimiterService (consume release)

/-- `OTP_TTL_SECONDS`, in milliseconds -/
def OTP_TTL : ℤ := 180 * 1000

/-- `OTP_MAX_ATTEMPTS` -/
def OTP_MAX_ATTEMPTS : ℕ := 5

/-- `OTP_ATTEMPTS_EXCEEDED_MSG` -/
def OTP_ATTEMPTS_EXCEEDED_MSG : String := "تعداد تلاش‌های مجاز به پایان رسید"

/-- A code that there is none of, or no longer. -/
def staleOtp : OtpError := .badRequest "کد تایید منقضی شده یا نامعتبر است"

/-- A code that is not the one issued. -/
def wrongOtp : OtpError := .badRequest "کد تایید نادرست است"

/-- The row that a statement needs is gone. -/
def missingOtp : OtpError := .badRequest "Record to update not found"

/-- `user_otps` -/
def otpRows : Relation ℕ OtpDb UserOtp UserOtp.id where
  get s := s.codes.rows
  set t s := s.setCodes { s.codes with rows := t }
  row := id

/-- `DEL` of the hash. -/
def delHash : OtpStmt Unit := Block.write fun s => s.setCodes { s.codes with hash := none }

/-- `DEL` of the attempts. -/
def delAttempts (l : CodeMark) : OtpStmt Unit := do
  Block.mark (.code l)
  Block.write fun s => s.setCodes { s.codes with attempts := none }

/-- `deleteMany` of the rows. -/
def deleteRows : OtpStmt Unit := otpRows.deleteMany fun _ => true

/-! ## Issuing a code -/

/-- `SETEX` of the hash; its salt is new. -/
def storeHash (digest : ℕ → String) : OtpStmt CodeHash := do
  let salt ← Block.fresh
  Block.mark (.code (.stores salt))
  let hash : CodeHash := ⟨salt, digest salt⟩
  Block.write fun s => s.setCodes { s.codes with hash := some (hash, s.now + OTP_TTL) }
  pure hash

/-- `create` of the row. -/
def createRow (hash : CodeHash) : OtpStmt Unit := do
  let s ← Block.get
  let id ← otpRows.create id missingOtp fun id =>
    { id := id
      codeHash := hash
      attempts := 0
      expiresAt := s.now + OTP_TTL
      createdAt := s.now }
  Block.mark (.code (.files hash.salt id))

/-- The branch of `issueOtp` for a code that was not delivered. -/
def withdraw (send hour : ℕ) : OtpCall Unit := do
  Call.transaction delHash
  Call.transaction deleteRows
  release send hour

/-- `issueOtp`; without `deliver` no message is sent. -/
def issueOtp (digest : String → ℕ → String) (otp : String) (deliver : Bool)
    (delivered : Except OtpError Unit) : OtpCall String := do
  let (send, hour) ← consume
  let hash ← Call.transaction (storeHash (digest otp))
  Call.transaction (delAttempts (.clears hash.salt))
  Call.transaction deleteRows
  Call.transaction (createRow hash)
  match deliver, delivered with
  | true, .error e => do
    withdraw send hour
    Call.fail e
  | _, _ => pure otp

/-! ## Validating a code -/

/-- `INCR` of the attempts; a hash that is within the limit is compared next. -/
def incrAttempts (salt : ℕ) : OtpStmt ℤ := do
  let s ← Block.get
  let attempts := Counter.incr s.now s.codes.attempts
  if attempts.value ≤ OTP_MAX_ATTEMPTS then do
    Block.mark (.code (.compares salt true))
    Block.write fun s => s.setCodes { s.codes with attempts := some attempts }
    pure attempts.value
  else do
    Block.write fun s => s.setCodes { s.codes with attempts := some attempts }
    pure attempts.value

/-- `EXPIRE` of the attempts. -/
def expireAttempts : OtpStmt Unit :=
  Block.write fun s => s.setCodes { s.codes with
    attempts := Counter.expire s.now OTP_TTL s.codes.attempts }

/-- The first attempt sets the end of the counter. -/
def expireFirst (attempts : ℤ) : OtpCall Unit :=
  if attempts = 1 then Call.transaction expireAttempts else pure ()

/-- `DEL` of the hash, with the number of keys deleted. -/
def takeHash (salt : ℕ) : OtpStmt ℕ := do
  let s ← Block.get
  match s.codes.live s.now with
  | none => pure 0
  | some _ => do
    Block.mark (.code (.accepts salt true))
    Block.write fun s => s.setCodes { s.codes with hash := none }
    pure 1

/-- A code with too many attempts is deleted. -/
def exceed : OtpCall Unit := do
  Call.transaction delHash
  Call.transaction (delAttempts .resets)
  Call.transaction deleteRows
  Call.fail (.badRequest OTP_ATTEMPTS_EXCEEDED_MSG)

/-- `bcrypt.compare` -/
def compare (digest : String → ℕ → String) (code : String) (hash : CodeHash) : Bool :=
  digest code hash.salt == hash.digest

/-- `validateOtp`, for a hash found in Redis. -/
def validateInRedis (digest : String → ℕ → String) (code : String) (hash : CodeHash) :
    OtpCall Unit := do
  let attempts ← Call.transaction (incrAttempts hash.salt)
  expireFirst attempts
  if OTP_MAX_ATTEMPTS < attempts then exceed
  else do
    Call.check (compare digest code hash) wrongOtp
    let deleted ← Call.transaction (takeHash hash.salt)
    Call.check (deleted == 1) staleOtp
    Call.transaction (delAttempts .resets)
    Call.transaction deleteRows

/-- The latest row that has not ended. -/
def latestOtp (s : OtpDb) : Option UserOtp :=
  (s.codes.rows.rows.filter fun r => decide (s.now < r.expiresAt)).foldl
    (fun best r => match best with
      | none => some r
      | some b => if b.createdAt < r.createdAt then some r else some b) none

/-- `updateMany` of the row, with the number of rows written. -/
def claimRow (record : UserOtp) : OtpStmt ℕ := do
  let s ← Block.get
  match (s.codes.rows.find? record.id).filter fun r => decide (r.attempts < OTP_MAX_ATTEMPTS) with
  | none => pure 0
  | some _ => do
    Block.mark (.code (.compares record.codeHash.salt false))
    Block.write fun s => s.setCodes { s.codes with
      rows := s.codes.rows.update record.id fun r => { r with attempts := r.attempts + 1 } }
    pure 1

/-- `deleteMany` of the row, with the number of rows deleted. -/
def consumeRow (record : UserOtp) : OtpStmt ℕ := do
  let s ← Block.get
  match s.codes.rows.find? record.id with
  | none => pure 0
  | some _ => do
    Block.mark (.code (.accepts record.codeHash.salt false))
    Block.write fun s => s.setCodes { s.codes with
      rows := s.codes.rows.deleteWhere fun r => r.id == record.id }
    pure 1

/-- `validateOtp`, for a code that Redis does not have. -/
def validateInDatabase (digest : String → ℕ → String) (code : String) : OtpCall Unit := do
  let s ← Call.transaction Block.get
  let record ← Call.getOrFail (latestOtp s) staleOtp
  let claimed ← Call.transaction (claimRow record)
  if claimed = 0 then do
    Call.transaction (otpRows.deleteMany fun r => r.id == record.id)
    Call.fail (.badRequest OTP_ATTEMPTS_EXCEEDED_MSG)
  else do
    Call.check (compare digest code record.codeHash) wrongOtp
    let consumed ← Call.transaction (consumeRow record)
    Call.check (consumed == 1) staleOtp

/-- `validateOtp` -/
def validateOtp (digest : String → ℕ → String) (code : String) : OtpCall Unit := do
  let s ← Call.transaction Block.get
  match s.codes.live s.now with
  | some hash => validateInRedis digest code hash
  | none => validateInDatabase digest code

/-! ## Requests -/

/-- What is asked of the service. -/
inductive OtpRequest where
  | issue (otp : String) (deliver : Bool) (delivered : Except OtpError Unit)
  | validate (code : String)

/-- The service. -/
def serveOtp (digest : String → ℕ → String) : OtpRequest → OtpCall Unit
  | .issue otp deliver delivered => do
    let _ ← issueOtp digest otp deliver delivered
    pure ()
  | .validate code => validateOtp digest code

end AuthService

end ArkanGold
