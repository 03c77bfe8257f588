import ArkanGold.Lib.Regroup

/-!
# Secrets of one-time passwords as text

`base32Encode` and `base32Decode`. Both loops keep their bits in a 32-bit integer that is never
masked.

`base32_survives`: a secret that was encoded is decoded to the same bytes, however the text is
spelled: in either case, with anything in between that is no symbol.
-/

namespace ArkanGold

namespace TotpUtil

open Positional Regroup

/-- `toUpperCase` of the runtime, character by character; outside ASCII a character may become
several. -/
structure UpperCase where
  upper : Char → List Char
  upper_ascii : ∀ c, c.toNat < 128 → upper c = [c.toUpper]

/-- `B32` -/
def B32 : List Char := "ABCDEFGHIJKLMNOPQRSTUVWXYZ234567".toList

/-- `v << n` -/
def shl (v : BitVec 32) (n : ℕ) : BitVec 32 := v <<< (n % 32)

/-- `v >>> n` -/
def ushr (v : BitVec 32) (n : ℕ) : BitVec 32 := v >>> (n % 32)

/-- What a loop keeps. -/
structure Loop (α : Type) where
  bits : ℕ
  value : BitVec 32
  out : List α

/-! ## Encoding -/

/-- `B32[v & 31]` -/
def symbol (v : BitVec 32) : Char := B32.getD (v &&& 31#32).toNat ' '

/-- `while (bits >= 5)` -/
def takeSymbols (value : BitVec 32) : ℕ → List Char → ℕ × List Char
  | bits + 5, out => takeSymbols value bits (out ++ [symbol (ushr value bits)])
  | bits, out => (bits, out)

/-- The loop over the bytes. -/
def encodeByte (st : Loop Char) (byte : UInt8) : Loop Char :=
  let value := shl st.value 8 ||| BitVec.ofNat 32 byte.toNat
  let taken := takeSymbols value (st.bits + 8) st.out
  ⟨taken.1, value, taken.2⟩

/-- `base32Encode` -/
def base32Encode (buf : List UInt8) : String :=
  let st := buf.foldl encodeByte ⟨0, 0, []⟩
  String.ofList
    (if 0 < st.bits then st.out ++ [symbol (shl st.value (5 - st.bits))] else st.out)

example : base32Encode [102, 111, 111, 98, 97, 114] = "MZXW6YTBOI" := by decide

/-! ## Decoding -/

/-- `/[A-Z2-7]/` -/
def isSymbol (c : Char) : Bool := ('A' ≤ c && c ≤ 'Z') || ('2' ≤ c && c ≤ '7')

/-- The loop over the characters. -/
def decodeChar (st : Loop UInt8) (ch : Char) : Loop UInt8 :=
  let value := shl st.value 5 ||| BitVec.ofNat 32 (B32.idxOf ch)
  let bits := st.bits + 5
  if 8 ≤ bits then
    ⟨bits - 8, value, st.out ++ [UInt8.ofNat (ushr value (bits - 8) &&& 255#32).toNat]⟩
  else ⟨bits, value, st.out⟩

/-- `clean` -/
def clean (U : UpperCase) (s : String) : List Char := (s.toList.flatMap U.upper).filter isSymbol

/-- `base32Decode` -/
def base32Decode (U : UpperCase) (s : String) : List UInt8 :=
  ((clean U s).foldl decodeChar ⟨0, 0, []⟩).out

/-! ## Symbols -/

/-- The symbol with the number `d`. -/
def symbolOf (d : ℕ) : Char := B32.getD d ' '

theorem symbol_eq (v : BitVec 32) : symbol v = symbolOf (v.toNat % 2 ^ 5) := by
  rw [symbol, symbolOf, BitVec.toNat_and]
  exact congrArg (B32.getD · ' ') (Nat.and_two_pow_sub_one_eq_mod v.toNat 5)

theorem symbolOf_spec : ∀ d < 32, B32.idxOf (symbolOf d) = d ∧ isSymbol (symbolOf d) = true ∧
    (symbolOf d).toNat < 128 ∧ (symbolOf d).toUpper = symbolOf d := by
  decide

/-! ## What the loops compute -/

/-- The symbols taken out of the word, and the bits that are left. -/
structure Encoding (N total : ℕ) (value : BitVec 32) (bits : ℕ) (out : List Char) : Prop where
  symbols : ∃ syms : List ℕ, out = syms.map symbolOf ∧ (∀ d ∈ syms, d < 32) ∧
    Pending N 5 syms value bits ∧ 5 * syms.length + bits = total

theorem takeSymbols_spec {N total : ℕ} {value : BitVec 32} {bits : ℕ} {out : List Char}
    (h : Encoding N total value bits out) :
    (takeSymbols value bits out).1 < 5 ∧
      Encoding N total value (takeSymbols value bits out).1 (takeSymbols value bits out).2 := by
  induction bits, out using takeSymbols.induct value with
  | case1 bits out ih =>
    rw [takeSymbols]
    refine ih ?_
    obtain ⟨syms, rfl, hlt, hpending, htotal⟩ := h
    have hbits : bits < 32 := by
      have := hpending.fits
      omega
    have hsymbol : symbol (ushr value bits) = symbolOf ((value >>> bits).toNat % 2 ^ 5) := by
      rw [symbol_eq, ushr, Nat.mod_eq_of_lt hbits]
    refine ⟨syms ++ [(value >>> bits).toNat % 2 ^ 5], ?_, ?_, ?_, ?_⟩
    · rw [List.map_append, hsymbol]
      rfl
    · intro d hd
      obtain hd | hd := List.mem_append.mp hd
      · exact hlt d hd
      · rw [List.mem_singleton.mp hd]
        exact Nat.mod_lt _ (by norm_num)
    · exact hpending.emit (by omega)
    · rw [List.length_append, List.length_singleton]
      omega
  | case2 bits out hsmall =>
    have hlt : bits < 5 := by
      by_contra hge
      exact hsmall (bits - 5) (by omega)
    rw [takeSymbols]
    · exact ⟨hlt, h⟩
    · exact hsmall

/-- The number that bytes make. -/
def numberOf (buf : List UInt8) : ℕ := number 256 (buf.map UInt8.toNat)

theorem encodeByte_spec {buf : List UInt8} {st : Loop Char} (byte : UInt8) (hbits : st.bits < 5)
    (h : Encoding (numberOf buf) (8 * buf.length) st.value st.bits st.out) :
    (encodeByte st byte).bits < 5 ∧
      Encoding (numberOf (buf ++ [byte])) (8 * (buf ++ [byte]).length) (encodeByte st byte).value
        (encodeByte st byte).bits (encodeByte st byte).out := by
  obtain ⟨syms, hout, hlt, hpending, htotal⟩ := h
  refine takeSymbols_spec ⟨syms, hout, hlt, ?_, ?_⟩
  · rw [numberOf, List.map_append, List.map_singleton, number_append_singleton, ← numberOf]
    exact hpending.push byte.toNat_lt (by omega)
  · rw [List.length_append, List.length_singleton]
    omega

theorem encodeLoop_spec (buf : List UInt8) :
    (buf.foldl encodeByte ⟨0, 0, []⟩).bits < 5 ∧
      Encoding (numberOf buf) (8 * buf.length) (buf.foldl encodeByte ⟨0, 0, []⟩).value
        (buf.foldl encodeByte ⟨0, 0, []⟩).bits (buf.foldl encodeByte ⟨0, 0, []⟩).out := by
  induction buf using List.reverseRecOn with
  | nil => exact ⟨by norm_num, [], rfl, by simp, pending_start, rfl⟩
  | append_singleton buf byte ih =>
    rw [List.foldl_append]
    exact encodeByte_spec byte ih.1 ih.2

/-- The symbols of the text are the digits of the number of the bytes, padded with zeros. -/
theorem base32Encode_spec (buf : List UInt8) :
    ∃ (syms : List ℕ) (pad : ℕ), (base32Encode buf).toList = syms.map symbolOf ∧
      (∀ d ∈ syms, d < 32) ∧ number 32 syms = numberOf buf * 2 ^ pad ∧
        5 * syms.length = 8 * buf.length + pad ∧ pad < 5 := by
  obtain ⟨hbits, syms, hout, hlt, hpending, htotal⟩ := encodeLoop_spec buf
  rw [base32Encode]
  generalize buf.foldl encodeByte ⟨0, 0, []⟩ = st at *
  have heq := hpending.eq
  by_cases hzero : st.bits = 0
  · rw [hzero, pow_zero, mul_one, Nat.mod_one, add_zero] at heq
    refine ⟨syms, 0, ?_, hlt, ?_, by omega, by norm_num⟩
    · simp only [hzero, lt_irrefl, if_false, String.toList_ofList]
      exact hout
    · rw [pow_zero, mul_one]
      exact heq
  · have hpos : 0 < st.bits := Nat.pos_of_ne_zero hzero
    -- the last symbol has the bits that are left, with zeros after them
    have hlast : (shl st.value (5 - st.bits)).toNat % 2 ^ 5 =
        st.value.toNat % 2 ^ st.bits * 2 ^ (5 - st.bits) := by
      have hsplit : 2 ^ 5 = 2 ^ st.bits * 2 ^ (5 - st.bits) := by
        rw [← pow_add, Nat.add_sub_cancel' hbits.le]
      rw [shl, Nat.mod_eq_of_lt (by omega : 5 - st.bits < 32), BitVec.toNat_shiftLeft,
        Nat.mod_mod_of_dvd _ (by norm_num : 2 ^ 5 ∣ 2 ^ 32), Nat.shiftLeft_eq, hsplit,
        Nat.mul_mod_mul_right]
    refine ⟨syms ++ [st.value.toNat % 2 ^ st.bits * 2 ^ (5 - st.bits)], 5 - st.bits, ?_, ?_, ?_, ?_,
      by omega⟩
    · simp only [hpos, if_true, String.toList_ofList]
      rw [List.map_append, List.map_singleton, symbol_eq, hlast, hout]
    · intro d hd
      obtain hd | hd := List.mem_append.mp hd
      · exact hlt d hd
      · rw [List.mem_singleton.mp hd, ← hlast]
        exact Nat.mod_lt _ (by norm_num)
    · have hsplit : 2 ^ st.bits * 2 ^ (5 - st.bits) = 2 ^ 5 := by
        rw [← pow_add, Nat.add_sub_cancel' hbits.le]
      rw [number_append_singleton, ← heq, add_mul, mul_assoc, hsplit]
      rfl
    · rw [List.length_append, List.length_singleton]
      omega

/-- The bytes taken out of the word, and the bits that are left. -/
structure Decoding (syms : List ℕ) (st : Loop UInt8) : Prop where
  bits_lt : st.bits < 8
  bytes : ∃ ds : List ℕ, st.out = ds.map UInt8.ofNat ∧ (∀ d ∈ ds, d < 256) ∧
    Pending (number 32 syms) 8 ds st.value st.bits ∧ 8 * ds.length + st.bits = 5 * syms.length

theorem decodeChar_spec {syms : List ℕ} {st : Loop UInt8} {d : ℕ} (hd : d < 32)
    (h : Decoding syms st) : Decoding (syms ++ [d]) (decodeChar st (symbolOf d)) := by
  obtain ⟨hbits, ds, hout, hlt, hpending, htotal⟩ := h
  have hpush : Pending (number 32 (syms ++ [d])) 8 ds
      (shl st.value 5 ||| BitVec.ofNat 32 (B32.idxOf (symbolOf d))) (st.bits + 5) := by
    rw [(symbolOf_spec d hd).1, number_append_singleton]
    exact hpending.push hd (by omega : st.bits + 5 ≤ 32)
  have hlength : (syms ++ [d]).length = syms.length + 1 := by
    rw [List.length_append, List.length_singleton]
  unfold decodeChar
  generalize shl st.value 5 ||| BitVec.ofNat 32 (B32.idxOf (symbolOf d)) = value at hpush ⊢
  dsimp only
  split
  case isTrue hge =>
    have hbyte : (ushr value (st.bits + 5 - 8) &&& 255#32).toNat =
        (value >>> (st.bits + 5 - 8)).toNat % 2 ^ 8 := by
      rw [ushr, Nat.mod_eq_of_lt (by omega : st.bits + 5 - 8 < 32), BitVec.toNat_and]
      exact Nat.and_two_pow_sub_one_eq_mod _ 8
    rw [hbyte]
    refine ⟨by dsimp only; omega, ds ++ [(value >>> (st.bits + 5 - 8)).toNat % 2 ^ 8], ?_, ?_,
      hpush.emit hge, ?_⟩
    · rw [hout, List.map_append]
      rfl
    · intro e he
      obtain he | he := List.mem_append.mp he
      · exact hlt e he
      · rw [List.mem_singleton.mp he]
        exact Nat.mod_lt _ (by norm_num)
    · rw [List.length_append, List.length_singleton, hlength]
      dsimp only
      omega
  case isFalse hsmall =>
    refine ⟨by dsimp only; omega, ds, hout, hlt, hpush, ?_⟩
    rw [hlength]
    dsimp only
    omega

theorem decodeLoop_spec {syms : List ℕ} (hlt : ∀ d ∈ syms, d < 32) :
    Decoding syms ((syms.map symbolOf).foldl decodeChar ⟨0, 0, []⟩) := by
  induction syms using List.reverseRecOn with
  | nil => exact ⟨by norm_num, [], rfl, by simp, pending_start, rfl⟩
  | append_singleton syms d ih =>
    rw [List.map_append, List.foldl_append]
    exact decodeChar_spec (hlt d (by simp)) (ih fun e he => hlt e (List.mem_append_left _ he))

/-- The symbols of an encoded secret are decoded to its bytes. -/
theorem decode_symbols (buf : List UInt8) :
    ((base32Encode buf).toList.foldl decodeChar ⟨0, 0, []⟩).out = buf := by
  obtain ⟨syms, pad, htext, hlt, hnumber, hlength, hpad⟩ := base32Encode_spec buf
  rw [htext]
  obtain ⟨hbits, ds, hout, hds, hpending, htotal⟩ := decodeLoop_spec hlt
  generalize (syms.map symbolOf).foldl decodeChar ⟨0, 0, []⟩ = st at *
  have hbitsPad : st.bits = pad := by omega
  have heq := hpending.eq
  rw [hbitsPad, hnumber] at heq
  have hsame : number (2 ^ 8) ds = numberOf buf := by
    have hrest : st.value.toNat % 2 ^ pad < 2 ^ pad := Nat.mod_lt _ (by positivity)
    have hdiv := congrArg (· / 2 ^ pad) heq
    simp only [Nat.mul_div_cancel _ (Nat.two_pow_pos pad)] at hdiv
    rwa [mul_comm, Nat.mul_add_div (Nat.two_pow_pos pad), Nat.div_eq_of_lt hrest, add_zero] at hdiv
  have hbytes : ds = buf.map UInt8.toNat := by
    refine number_inj (by norm_num : 1 < 256) ?_ hds ?_ hsame
    · rw [List.length_map]
      omega
    · intro e he
      obtain ⟨byte, -, rfl⟩ := List.mem_map.mp he
      exact byte.toNat_lt
  rw [hout, hbytes, List.map_map]
  have hid : UInt8.ofNat ∘ UInt8.toNat = id := funext fun byte => UInt8.ofNat_toNat
  rw [hid, List.map_id]

/-! ## Spellings -/

/-- A character that decoding drops. -/
def IsSeparator (U : UpperCase) (c : Char) : Prop := ∀ a ∈ U.upper c, isSymbol a = false

/-- The text on the left spells the symbols on the right: each in either case, with separators
anywhere. -/
inductive Spells (U : UpperCase) : List Char → List Char → Prop
  | nil : Spells U [] []
  | symbol {c d : Char} {cs ds : List Char} (hascii : c.toNat < 128) (hcase : c.toUpper = d)
      (h : Spells U cs ds) : Spells U (c :: cs) (d :: ds)
  | separator {c : Char} {cs ds : List Char} (hc : IsSeparator U c) (h : Spells U cs ds) :
      Spells U (c :: cs) ds

/-- White space and hyphens separate. -/
theorem isSeparator_ascii (U : UpperCase) :
    ∀ c ∈ [' ', '\t', '\n', '\r', '-', '_', '.', ':', '='], IsSeparator U c := by
  intro c hc a ha
  have hall : [' ', '\t', '\n', '\r', '-', '_', '.', ':', '='].all (fun c =>
      decide (c.toNat < 128) && !isSymbol c.toUpper) = true := by decide
  have hascii := List.all_eq_true.mp hall c hc
  rw [Bool.and_eq_true, decide_eq_true_eq, Bool.not_eq_true'] at hascii
  rw [U.upper_ascii c hascii.1, List.mem_singleton] at ha
  rw [ha]
  exact hascii.2

theorem clean_spells {U : UpperCase} {cs ds : List Char} (h : Spells U cs ds)
    (hsymbols : ∀ d ∈ ds, isSymbol d = true) : (cs.flatMap U.upper).filter isSymbol = ds := by
  induction h with
  | nil => rfl
  | @symbol c d cs ds hascii hcase _ ih =>
    obtain ⟨hd, hrest⟩ := List.forall_mem_cons.mp hsymbols
    rw [List.flatMap_cons, List.filter_append, ih hrest, U.upper_ascii c hascii, hcase]
    simp [hd]
  | @separator c cs ds hc _ ih =>
    have hnone : (U.upper c).filter isSymbol = [] :=
      List.filter_eq_nil_iff.mpr fun a ha => by simp [hc a ha]
    rw [List.flatMap_cons, List.filter_append, hnone, ih hsymbols, List.nil_append]

theorem isSymbol_encode (buf : List UInt8) : ∀ d ∈ (base32Encode buf).toList, isSymbol d = true ∧
    d.toNat < 128 ∧ d.toUpper = d := by
  obtain ⟨syms, pad, htext, hlt, -⟩ := base32Encode_spec buf
  rw [htext]
  intro d hd
  obtain ⟨e, he, rfl⟩ := List.mem_map.mp hd
  exact (symbolOf_spec e (hlt e he)).2

theorem spells_self {U : UpperCase} {ds : List Char}
    (h : ∀ d ∈ ds, isSymbol d = true ∧ d.toNat < 128 ∧ d.toUpper = d) : Spells U ds ds := by
  induction ds with
  | nil => exact .nil
  | cons d ds ih =>
    obtain ⟨hd, hrest⟩ := List.forall_mem_cons.mp h
    exact .symbol hd.2.1 hd.2.2 (ih hrest)

/-- A secret survives encoding, and every spelling of the encoded secret is decoded to its bytes. -/
theorem base32_survives (U : UpperCase) (buf : List UInt8) :
    base32Decode U (base32Encode buf) = buf ∧
      ∀ s : String, Spells U s.toList (base32Encode buf).toList → base32Decode U s = buf := by
  have hspelled : ∀ s : String, Spells U s.toList (base32Encode buf).toList →
      base32Decode U s = buf := by
    intro s hs
    rw [base32Decode, clean, clean_spells hs fun d hd => (isSymbol_encode buf d hd).1]
    exact decode_symbols buf
  exact ⟨hspelled _ (spells_self (isSymbol_encode buf)), hspelled⟩

end TotpUtil

end ArkanGold
