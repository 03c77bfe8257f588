import ArkanGold.Common.IsoDay
import ArkanGold.Common.Text
import ArkanGold.Lib.Calls

/-!
# Forwarded identities

`signBffRequest` and `clientIpMiddleware`: a server in front of the API sends the address and the
user agent of its own client, with a signature on them, the time and a nonce.

- A call reads its headers and the clock, and then registers the nonce; time passes in between.
- The registry keeps a key for the lifetime it was asked for, and no longer. What the front servers
  have signed is part of the state, no function reads it.
- `createHmac('sha256', …)` and `isIP` are parameters.
-/

namespace ArkanGold

namespace ClientIp

/-- `PROXY_MAX_SKEW_MS` -/
def PROXY_MAX_SKEW_MS : ℤ := 60000

/-- What the platform computes. -/
structure Primitives where
  /-- `createHmac('sha256', secret).update(message, 'utf8').digest('base64url')` -/
  hmac : String → String → String
  /-- `isIP` -/
  isIP : String → Bool
  /-- addresses are written with digits, letters, dots, colons, hyphens and per cent signs -/
  isIP_bar : ∀ v, isIP v = true → '|' ∉ v.toList

/-- What is signed. -/
structure Forwarded where
  ts : String
  nonce : String
  ip : String
  ua : String
  deriving DecidableEq

/-- The message of `signBffRequest`. -/
def Forwarded.payload (f : Forwarded) : String :=
  "arkan-bff-v1|" ++ f.ts ++ "|" ++ f.nonce ++ "|" ++ f.ip ++ "|" ++ f.ua

/-- `signBffRequest` -/
def signBffRequest (P : Primitives) (secret : String) (f : Forwarded) : String :=
  P.hmac secret f.payload

/-- `/^\d{13}$/` -/
def isTimestamp (v : String) : Bool := v.toList.length == 13 && v.toList.all Char.isDigit

/-- `/[A-Za-z0-9_-]/` -/
def isNonceChar (c : Char) : Bool := c.isAlphanum || c == '_' || c == '-'

/-- `/^[A-Za-z0-9_-]{16,64}$/` -/
def isNonce (v : String) : Bool :=
  decide (16 ≤ v.toList.length) && decide (v.toList.length ≤ 64) && v.toList.all isNonceChar

/-- `Number(ts)` -/
def Forwarded.time (f : Forwarded) : ℤ := digitsValue f.ts.toList

/-! ## Requests -/

/-- The value of a header. -/
inductive HeaderValue where
  | one (v : String)
  | many (vs : List String)

/-- `headerValue(req, name) ?? ''`: a value of white space is none. -/
def headerValue (h : Option HeaderValue) : String :=
  match h with
  | none => ""
  | some (.one v) => trimText v
  | some (.many vs) => trimText (vs.headD "")

/-- What the following layers take the client to be. -/
structure Identity where
  ip : String
  userAgent : Option String
  deriving DecidableEq

/-- A request. -/
structure Request where
  /-- the identity on the transport -/
  transport : Identity
  clientIp : Option HeaderValue
  clientUa : Option HeaderValue
  ts : Option HeaderValue
  nonce : Option HeaderValue
  sig : Option HeaderValue
  /-- the registry answers -/
  registers : Bool

/-- The values forwarded. -/
def Request.forwarded (r : Request) : Forwarded :=
  ⟨headerValue r.ts, headerValue r.nonce, headerValue r.clientIp, headerValue r.clientUa⟩

/-- `apply` -/
def applyTo (P : Primitives) (r : Request) : Identity where
  ip := if P.isIP r.forwarded.ip then r.forwarded.ip else r.transport.ip
  userAgent := if r.forwarded.ua ≠ "" then some r.forwarded.ua else r.transport.userAgent

/-! ## State -/

/-- What properties of runs say about forwarded identities. -/
inductive ProxyMark where
  /-- the values are taken, with the signature that came with them -/
  | accepts (f : Forwarded) (sig : String)
  deriving DecidableEq

/-- The state. -/
structure ProxyDb where
  now : ℤ
  /-- the nonces and the ends of their keys -/
  nonces : List (String × ℤ)
  /-- what the front servers have signed -/
  signed : List Forwarded
  history : List ProxyMark
  nextId : ℕ

namespace ProxyDb

/-- Replace `nonces`. -/
@[simps] def setNonces (n : List (String × ℤ)) (s : ProxyDb) : ProxyDb := { s with nonces := n }

/-- A number of the supply is spent. -/
@[simps] def spendId (s : ProxyDb) : ProxyDb := { s with nextId := s.nextId + 1 }

/-- A mark enters the history. -/
@[simps] def note (l : ProxyMark) (s : ProxyDb) : ProxyDb := { s with history := s.history ++ [l] }

instance : Supply ProxyDb := ⟨nextId, spendId⟩

instance : History ProxyMark ProxyDb := ⟨note⟩

/-- The key of a nonce is there. -/
def holds (s : ProxyDb) (nonce : String) : Bool :=
  s.nonces.any fun k => k.1 == nonce && decide (s.now < k.2)

end ProxyDb

/-- A command; none of them fails. -/
abbrev ProxyStmt (α : Type) : Type := Block Empty ℕ ProxyMark ProxyDb α

/-- A call of the middleware. -/
abbrev ProxyCall (α : Type) : Type 1 := Call Empty ℕ ProxyMark ProxyDb α

/-! ## `clientIpMiddleware` -/

/-- `fresh` -/
def isFresh (now : ℤ) (f : Forwarded) : Bool :=
  isTimestamp f.ts && decide (|now - f.time| ≤ PROXY_MAX_SKEW_MS)

/-- `valid` -/
@[irreducible] def isValid (P : Primitives) (secret : Option String) (now : ℤ) (r : Request) :
    Bool :=
  match secret.filter (· ≠ "") with
  | none => false
  | some secret =>
    isFresh now r.forwarded && isNonce r.forwarded.nonce && decide (headerValue r.sig ≠ "") &&
      headerValue r.sig == signBffRequest P secret r.forwarded

/-- The lifetime asked of the registry, in milliseconds: the seconds are rounded up. -/
def nonceTtl : ℤ := (PROXY_MAX_SKEW_MS * 2 + 999) / 1000 * 1000

/-- `SET` with `NX` and `EX`: whether the nonce is seen for the first time; the values are taken
if it is. -/
def registerNonce (f : Forwarded) (sig : String) : ProxyStmt Bool := do
  let s ← Block.get
  if s.holds f.nonce then pure false
  else do
    Block.mark (.accepts f sig)
    Block.write (ProxyDb.setNonces
      ((f.nonce, s.now + nonceTtl) :: s.nonces.filter fun k => k.1 != f.nonce))
    pure true

/-- The values of a valid request are taken without a registry. -/
def takeValues (f : Forwarded) (sig : String) : ProxyStmt Unit := Block.mark (.accepts f sig)

/-- `clientIpMiddleware`; `registry` tells whether `registerNonce` was given. -/
def clientIpMiddleware (P : Primitives) (secret : Option String) (registry : Bool) (r : Request) :
    ProxyCall Identity := do
  let s ← Call.transaction Block.get
  if isValid P secret s.now r then
    if registry then
      -- when the registry fails the values are not taken
      if r.registers then do
        let first ← Call.transaction (registerNonce r.forwarded (headerValue r.sig))
        pure (if first then applyTo P r else r.transport)
      else pure r.transport
    else do
      Call.transaction (takeValues r.forwarded (headerValue r.sig))
      pure (applyTo P r)
  else pure r.transport

end ClientIp

end ArkanGold
