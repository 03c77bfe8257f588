import ArkanGold.Common.Text
import ArkanGold.Lib.Fallible

/-!
# Inspection of archives

`archive-inspector`: the central directory of a ZIP file is read before anything is unpacked.

- A buffer is its bytes; reading outside of it is a `RangeError`, `subarray` cuts off at its end.
- `iterate` is a round of the loop of `inspectZip`: the record at the position `p` is read, `p` goes
  on to the next, and the record is checked.
- A name is decoded from UTF-8 as the standard decoder does it, with U+FFFD for what is malformed,
  or from Latin-1; a quotient is a `double`.
-/

namespace ArkanGold

namespace ArchiveInspector

open Fallible

/-! ## Buffers -/

/-- A `Buffer`. -/
abbrev Buffer := List UInt8

/-- The codes of `ArchiveRejectedError`. -/
inductive ArchiveCode where
  | invalid
  | tooManyEntries
  | tooLarge
  | ratio
  | symlink
  | pathTraversal
  | encrypted
  | unsupported
  deriving DecidableEq

/-- What the inspection throws. -/
inductive InspectError where
  /-- `ArchiveRejectedError` -/
  | rejected (code : ArchiveCode) (message : String)
  /-- `RangeError`, of a read outside of the buffer -/
  | range
  deriving DecidableEq

/-- The byte at an offset. -/
def byteAt (buf : Buffer) (offset : ℕ) : ℕ := (buf[offset]?.map UInt8.toNat).getD 0

/-- The two bytes at an offset as a number. -/
def word16 (buf : Buffer) (offset : ℕ) : ℕ := byteAt buf offset + 2 ^ 8 * byteAt buf (offset + 1)

/-- The four bytes at an offset as a number. -/
def word32 (buf : Buffer) (offset : ℕ) : ℕ :=
  word16 buf offset + 2 ^ 16 * word16 buf (offset + 2)

/-- `readUInt16LE` -/
def readUInt16LE (buf : Buffer) (offset : ℕ) : Except InspectError ℕ :=
  if offset + 2 ≤ buf.length then .ok (word16 buf offset) else .error .range

/-- `readUInt32LE` -/
def readUInt32LE (buf : Buffer) (offset : ℕ) : Except InspectError ℕ :=
  if offset + 4 ≤ buf.length then .ok (word32 buf offset) else .error .range

/-- `subarray` -/
def subarray (buf : Buffer) (start stop : ℕ) : List ℕ :=
  ((buf.take stop).drop start).map UInt8.toNat

/-! ## Names -/

/-- The state of the decoder: the code point so far, the bytes that are missing, and the bounds of
the next one. -/
structure Utf8State where
  point : ℕ := 0
  needed : ℕ := 0
  lower : ℕ := 0x80
  upper : ℕ := 0xBF

/-- A byte at the start of a character. -/
def utf8Start (b : ℕ) : List Char × Utf8State :=
  if b < 0x80 then ([Char.ofNat b], {})
  else if 0xC2 ≤ b ∧ b ≤ 0xDF then ([], { point := b - 0xC0, needed := 1 })
  else if 0xE0 ≤ b ∧ b ≤ 0xEF then
    ([], { point := b - 0xE0
           needed := 2
           lower := if b = 0xE0 then 0xA0 else 0x80
           upper := if b = 0xED then 0x9F else 0xBF })
  else if 0xF0 ≤ b ∧ b ≤ 0xF4 then
    ([], { point := b - 0xF0
           needed := 3
           lower := if b = 0xF0 then 0x90 else 0x80
           upper := if b = 0xF4 then 0x8F else 0xBF })
  else (['\uFFFD'], {})

/-- A byte in the state of the decoder. -/
def utf8Byte (st : Utf8State) (b : ℕ) : List Char × Utf8State :=
  if st.needed = 0 then utf8Start b
  else if st.lower ≤ b ∧ b ≤ st.upper then
    let point := 64 * st.point + (b - 0x80)
    if st.needed = 1 then ([Char.ofNat point], {})
    else ([], { point := point, needed := st.needed - 1 })
  else
    -- the byte ends the malformed character and is read again
    let (chars, next) := utf8Start b
    ('\uFFFD' :: chars, next)

/-- The characters of bytes in UTF-8, from a state of the decoder on. -/
def utf8Chars (st : Utf8State) : List ℕ → List Char
  | [] => if st.needed = 0 then [] else ['\uFFFD']
  | b :: bytes =>
    let (chars, next) := utf8Byte st b
    chars ++ utf8Chars next bytes

/-- `toString('utf8')`, `toString('latin1')` -/
def decodeName (utf8 : Bool) (bytes : List ℕ) : String :=
  String.ofList (if utf8 then utf8Chars {} bytes else bytes.map Char.ofNat)

/-- `isUnsafeEntryName` -/
def isUnsafeEntryName (name : String) : Bool :=
  let cs := name.toList
  let n := cs.map fun c => if c = '\\' then '/' else c
  cs.isEmpty || 512 < utf16Length name || cs.any (fun c => c.toNat ≤ 0x1F) ||
    n.head? == some '/' ||
    (match n with
      | letter :: ':' :: _ => letter.isAlpha
      | _ => false) ||
    (n.splitOn '/').any (· == ['.', '.'])

/-! ## Records -/

/-- `ArchiveLimits` -/
structure ArchiveLimits where
  maxEntries : ℚ
  maxTotalUncompressed : ℚ
  maxEntryUncompressed : ℚ
  maxCompressionRatio : ℚ

/-- `DEFAULT_ARCHIVE_LIMITS` -/
def DEFAULT_ARCHIVE_LIMITS : ArchiveLimits where
  maxEntries := 1000
  maxTotalUncompressed := 100 * 1024 * 1024
  maxEntryUncompressed := 50 * 1024 * 1024
  maxCompressionRatio := 100

/-- `ArchiveEntry` -/
structure ArchiveEntry where
  name : String
  compressedSize : ℕ
  uncompressedSize : ℕ
  isDirectory : Bool
  deriving DecidableEq

/-- `EOCD_SIG` -/
def EOCD_SIG : ℕ := 0x06054b50

/-- `CEN_SIG` -/
def CEN_SIG : ℕ := 0x02014b50

/-- `S_IFMT` -/
def S_IFMT : ℕ := 0o170000

/-- `S_IFLNK` -/
def S_IFLNK : ℕ := 0o120000

/-- What `inspectZip` reads of a record of the central directory. -/
structure CentralRecord where
  madeBy : ℕ
  flags : ℕ
  compressedSize : ℕ
  uncompressedSize : ℕ
  nameLen : ℕ
  extraLen : ℕ
  commentLen : ℕ
  externalAttr : ℕ
  name : String
  deriving DecidableEq

namespace CentralRecord

/-- The bytes that the record takes. -/
def size (r : CentralRecord) : ℕ := 46 + r.nameLen + r.extraLen + r.commentLen

/-- `flags & 0x1` -/
def isEncrypted (r : CentralRecord) : Bool := r.flags &&& 0x1 ≠ 0

/-- The type of the file is in the upper half of the attributes, on unix (3) and macOS (19). -/
def isSymlink (r : CentralRecord) : Bool :=
  let mode := (r.externalAttr >>> 16) &&& 0xFFFF
  (r.madeBy = 3 ∨ r.madeBy = 19) ∧ mode &&& S_IFMT = S_IFLNK

/-- The entry of the record. -/
def entry (r : CentralRecord) : ArchiveEntry where
  name := r.name
  compressedSize := r.compressedSize
  uncompressedSize := r.uncompressedSize
  isDirectory := r.name.toList.getLast? == some '/'

end CentralRecord

/-- The fields of the record at `p`. -/
def readRecord (buf : Buffer) (p : ℕ) : Except InspectError CentralRecord := do
  let madeBy := (← readUInt16LE buf (p + 4)) >>> 8
  let flags ← readUInt16LE buf (p + 8)
  let compressedSize ← readUInt32LE buf (p + 20)
  let uncompressedSize ← readUInt32LE buf (p + 24)
  let nameLen ← readUInt16LE buf (p + 28)
  let extraLen ← readUInt16LE buf (p + 30)
  let commentLen ← readUInt16LE buf (p + 32)
  let externalAttr ← readUInt32LE buf (p + 38)
  let name := decodeName (flags &&& 0x800 ≠ 0) (subarray buf (p + 46) (p + 46 + nameLen))
  pure { madeBy, flags, compressedSize, uncompressedSize, nameLen, extraLen, commentLen,
         externalAttr, name }

/-- The nearest integer, ties to the even one. -/
def roundEven (q : ℚ) : ℤ :=
  if Int.fract q < 1 / 2 then ⌊q⌋
  else if 1 / 2 < Int.fract q then ⌊q⌋ + 1
  else if 2 ∣ ⌊q⌋ then ⌊q⌋ else ⌊q⌋ + 1

/-- A positive number with the 53 digits of a `double`. -/
def double (q : ℚ) : ℚ :=
  let ulp : ℚ := 2 ^ (Int.log 2 q - 52)
  roundEven (q / ulp) * ulp

/-- `a / b` -/
def quotient (a b : ℕ) : ℚ := if a = 0 then 0 else double (a / b)

/-! ## The inspection -/

/-- The checks of a record; `total` is the size of the records before. -/
def checkRecord (limits : ArchiveLimits) (total : ℕ) (r : CentralRecord) :
    Except InspectError Unit := do
  rejectIf (r.isEncrypted = true)
    (.rejected .encrypted "فایل فشرده‌ی رمزدار قابل بررسی نیست و پذیرفته نمی‌شود")
  rejectIf (r.compressedSize = 0xFFFFFFFF ∨ r.uncompressedSize = 0xFFFFFFFF)
    (.rejected .unsupported "فایل فشرده‌ی ZIP64 پذیرفته نمی‌شود")
  rejectIf (r.isSymlink = true)
    (.rejected .symlink "فایل فشرده حاوی لینک نمادین (symlink) پذیرفته نمی‌شود")
  rejectIf (isUnsafeEntryName r.name = true)
    (.rejected .pathTraversal "فایل فشرده حاوی مسیر نامعتبر است")
  rejectIf (limits.maxEntryUncompressed < r.uncompressedSize)
    (.rejected .tooLarge "حجم یکی از فایل‌های داخل فایل فشرده بیش از حد مجاز است")
  rejectIf (0 < r.compressedSize ∧
      limits.maxCompressionRatio < quotient r.uncompressedSize r.compressedSize)
    (.rejected .ratio "نسبت فشرده‌سازی فایل غیرعادی است (احتمال ZIP bomb)")
  rejectIf (limits.maxTotalUncompressed < (total + r.uncompressedSize : ℕ))
    (.rejected .tooLarge "حجم فایل فشرده پس از بازگشایی بیش از حد مجاز است")

/-- The variables of the loop. -/
structure LoopState where
  entries : List ArchiveEntry
  total : ℕ
  totalCompressed : ℕ
  p : ℕ

/-- The variables after a record. -/
def LoopState.next (st : LoopState) (r : CentralRecord) : LoopState where
  entries := st.entries ++ [r.entry]
  total := st.total + r.uncompressedSize
  totalCompressed := st.totalCompressed + r.compressedSize
  p := st.p + r.size

/-- The error of a broken structure. -/
def brokenStructure : InspectError := .rejected .invalid "ساختار فایل فشرده معتبر نیست"

/-- A round of the loop. -/
def iterate (limits : ArchiveLimits) (buf : Buffer) (st : LoopState) :
    Except InspectError LoopState := do
  rejectIf (buf.length < st.p + 46) brokenStructure
  let signature ← readUInt32LE buf st.p
  rejectIf (signature ≠ CEN_SIG) brokenStructure
  let r ← readRecord buf st.p
  checkRecord limits st.total r
  pure (st.next r)

/-- The rounds of the loop that are left. -/
def rounds (limits : ArchiveLimits) (buf : Buffer) :
    ℕ → LoopState → Except InspectError LoopState
  | 0, st => pure st
  | n + 1, st => do
    let st' ← iterate limits buf st
    rounds limits buf n st'

/-- The search of `findEocd`, with the positions that are left. -/
def searchEocd (buf : Buffer) : ℕ → ℕ → Except InspectError (Option ℕ)
  | 0, _ => pure none
  | n + 1, i => do
    let signature ← readUInt32LE buf i
    if signature = EOCD_SIG then pure (some i) else searchEocd buf n (i - 1)

/-- `findEocd`, of a buffer of 22 bytes at least. -/
def findEocd (buf : Buffer) : Except InspectError (Option ℕ) :=
  let min := buf.length - 22 - 0xFFFF
  searchEocd buf (buf.length - 22 - min + 1) (buf.length - 22)

/-- What the end record says of the central directory. -/
structure EndRecord where
  totalEntries : ℕ
  cdSize : ℕ
  cdOffset : ℕ
  deriving DecidableEq

/-- The part of `inspectZip` before the loop. -/
def readEnd (buf : Buffer) (limits : ArchiveLimits) : Except InspectError EndRecord := do
  rejectIf (buf.length < 22) (.rejected .invalid "فایل فشرده معتبر نیست")
  match ← findEocd buf with
  | none => throw (.rejected .invalid "فایل فشرده معتبر نیست")
  | some eocd =>
    let diskNo ← readUInt16LE buf (eocd + 4)
    let totalEntries ← readUInt16LE buf (eocd + 10)
    let cdSize ← readUInt32LE buf (eocd + 12)
    let cdOffset ← readUInt32LE buf (eocd + 16)
    rejectIf (diskNo ≠ 0 ∨ totalEntries = 0xFFFF ∨ cdOffset = 0xFFFFFFFF)
      (.rejected .unsupported "فایل فشرده‌ی چندبخشی یا ZIP64 پذیرفته نمی‌شود")
    rejectIf (limits.maxEntries < totalEntries)
      (.rejected .tooManyEntries "تعداد فایل‌های داخل فایل فشرده بیش از حد مجاز است")
    rejectIf (eocd < cdOffset + cdSize) brokenStructure
    pure { totalEntries, cdSize, cdOffset }

/-- The variables before the loop. -/
def EndRecord.start (e : EndRecord) : LoopState where
  entries := []
  total := 0
  totalCompressed := 0
  p := e.cdOffset

/-- `inspectZip` -/
def inspectZip (buf : Buffer) (limits : ArchiveLimits) :
    Except InspectError (List ArchiveEntry) := do
  let e ← readEnd buf limits
  let st ← rounds limits buf e.totalEntries e.start
  rejectIf (0 < st.totalCompressed ∧
      limits.maxCompressionRatio < quotient st.total st.totalCompressed)
    (.rejected .ratio "نسبت فشرده‌سازی فایل غیرعادی است (احتمال ZIP bomb)")
  pure st.entries

end ArchiveInspector

end ArkanGold
