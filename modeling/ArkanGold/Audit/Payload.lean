import ArkanGold.Lib.Json

/-!
# Payloads of audit events

What the callers log is any value of the language. `redact` masks what must not be logged,
and `toJson` takes the value through its JSON text, so that what is hashed is what the
`jsonb` column holds.
-/

namespace ArkanGold

/-- A value as the callers pass it. Objects carry the identity that `redact` remembers; an
object with a method `toJSON` (a date, a decimal) is known by the JSON that comes of it. -/
inductive JsValue where
  | undefined
  | null
  | bool (b : Bool)
  /-- without a number: `NaN` or infinite -/
  | number (n : Option JsonNumber)
  | string (v : String)
  /-- a function or a symbol -/
  | callable
  /-- a value that `JSON.stringify` throws at, such as a big integer -/
  | unserializable
  | withToJSON (json : Option Json)
  | array (ref : ℕ) (items : List JsValue)
  | object (ref : ℕ) (entries : List (String × JsValue))

/-- `output[key] = value`; an assignment to `__proto__` makes no key. -/
def assign {α : Type} (output : List (String × α)) (key : String) (value : α) :
    List (String × α) :=
  if key = "__proto__" then output
  else if output.any fun e => e.1 == key then
    output.map fun e => if e.1 = key then (key, value) else e
  else output ++ [(key, value)]

/-- `SENSITIVE_KEY_FRAGMENTS` -/
def SENSITIVE_KEY_FRAGMENTS : List String :=
  ["password", "passwordhash", "secret", "token", "otp", "privatekey", "apikey", "totp",
    "backupcode", "authorization", "cookie", "sessionid", "refreshtokenhash", "pin", "cvv",
    "cvc", "expirydate", "creditscore", "creditlimit", "salary", "payroll", "investment",
    "assetvalue", "cardnumber", "iban", "shaba", "accountnumber", "nationalid",
    "nationalcode", "melicode", "cardserial", "birthdate", "birthplace", "phone", "mobile",
    "postaladdress", "postalcode", "latitude", "longitude", "gpscoordinate", "geolocation"]

/-- `normalizeKey` -/
def normalizeKey (key : String) : List Char :=
  (key.toLower.toList).filter fun c => c != '_' && c != '-'

/-- `isSensitiveKey` -/
def isSensitiveKey (key : String) : Bool :=
  SENSITIVE_KEY_FRAGMENTS.any fun fragment => decide (fragment.toList <:+: normalizeKey key)

/-- `MAX_DEPTH` -/
def MAX_DEPTH : ℕ := 6

mutual

/-- `redact`; `seen` are the objects visited so far. -/
def redact (depth : ℕ) (seen : List ℕ) : JsValue → JsValue × List ℕ
  | .array ref items =>
    if MAX_DEPTH ≤ depth then (.string "[Truncated]", seen)
    else if seen.contains ref then (.string "[Circular]", seen)
    else
      let (items', seen') := redactItems (depth + 1) (ref :: seen) items
      (.array ref items', seen')
  | .object ref entries =>
    if MAX_DEPTH ≤ depth then (.string "[Truncated]", seen)
    else if seen.contains ref then (.string "[Circular]", seen)
    else
      let (entries', seen') := redactEntries (depth + 1) (ref :: seen) [] entries
      (.object ref entries', seen')
  | value => (value, seen)

/-- The items of an array, from the first to the last. -/
def redactItems (depth : ℕ) (seen : List ℕ) : List JsValue → List JsValue × List ℕ
  | [] => ([], seen)
  | x :: xs =>
    let (x', seen₁) := redact depth seen x
    let (xs', seen₂) := redactItems depth seen₁ xs
    (x' :: xs', seen₂)

/-- The entries of an object, assigned to `output` one after the other. -/
def redactEntries (depth : ℕ) (seen : List ℕ) (output : List (String × JsValue)) :
    List (String × JsValue) → List (String × JsValue) × List ℕ
  | [] => (output, seen)
  | (key, value) :: rest =>
    if isSensitiveKey key then
      redactEntries depth seen (assign output key (.string "[REDACTED]")) rest
    else
      let (value', seen') := redact depth seen value
      redactEntries depth seen' (assign output key value') rest

end

mutual

/-- `JSON.parse(JSON.stringify(value))`; nothing comes of `undefined` and of functions. -/
def reparse : JsValue → Except Unit (Option Json)
  | .undefined => .ok none
  | .null => .ok (some .null)
  | .bool b => .ok (some (.bool b))
  | .number (some n) => .ok (some (.number n))
  | .number none => .ok (some .null)
  | .string v => .ok (some (.string v))
  | .callable => .ok none
  | .unserializable => .error ()
  | .withToJSON json => .ok json
  | .array _ items => (reparseItems items).map fun xs => some (.array xs)
  | .object _ entries => (reparseEntries [] entries).map fun es => some (.object es)

/-- The items of an array; what leaves no text is written as `null`. -/
def reparseItems : List JsValue → Except Unit (List Json)
  | [] => .ok []
  | x :: xs => do
    let y ← reparse x
    let ys ← reparseItems xs
    pure (y.getD .null :: ys)

/-- The entries of an object; a key whose value leaves no text is left out. -/
def reparseEntries (output : List (String × Json)) :
    List (String × JsValue) → Except Unit (List (String × Json))
  | [] => .ok output
  | (key, value) :: rest => do
    match ← reparse value with
    | some json => reparseEntries (assign output key json) rest
    | none => reparseEntries output rest

end

/-- `toJson` -/
def toJson (value : JsValue) : Option Json :=
  match value with
  | .undefined => none
  | .null => none
  | value =>
    match reparse (redact 0 [] value).1 with
    | .ok json => json
    | .error _ => none

/-- A key without a value leaves no trace, and a card number is masked. -/
example : (toJson (.object 0 [("reason", .undefined), ("card_number", .string "6037"),
    ("a", .bool true)])).map Json.canonicalize =
    some "\x7b\"a\":true,\"card_number\":\"[REDACTED]\"\x7d" := by decide +kernel

end ArkanGold
