import ArkanGold.Common.Text
import ArkanGold.Lib.Pieces
import ArkanGold.Lib.Positional

/-!
# Addresses and their spellings

`isIP` of `node:net` as its documentation and its grammar have it, and the address that an accepted
text denotes.

- IPv4 is four octets without leading zeros. IPv6 is eight groups of up to four hexadecimal digits
  in either case; one `::` may stand for one or more groups of zeros, the last two groups may be
  written as an IPv4 address, and a zone may follow a per cent sign.
- An address is a number of 32 or 128 bits. One of `::ffff:0:0/96` is an IPv4 address.
-/

namespace ArkanGold

namespace IpAddress

open Pieces Positional

/-! ## The grammar -/

/-- `[0-9a-fA-F]` -/
def hexDigits : List Char := "0123456789abcdefABCDEF".toList

/-- `\d` -/
def decimalDigits : List Char := "0123456789".toList

/-- The value of a digit. -/
def digitValue (c : Char) : ℕ := "0123456789abcdef".toList.idxOf c.toLower

/-- `[0-9a-fA-F]{1,4}` -/
def segment (p : List Char) : Option ℕ :=
  if p ≠ [] ∧ p.length ≤ 4 ∧ p.all (hexDigits.contains ·) then
    some (number 16 (p.map digitValue))
  else none

/-- `25[0-5]|2[0-4]\d|1\d\d|[1-9]\d|\d` -/
def octet (p : List Char) : Option ℕ :=
  if p ≠ [] ∧ p.all (decimalDigits.contains ·) ∧ (p.length = 1 ∨ p.head? ≠ some '0') ∧
      number 10 (p.map digitValue) ≤ 255 then
    some (number 10 (p.map digitValue))
  else none

/-- The octets of an IPv4 address. -/
def dotted (cs : List Char) : Option (List ℕ) :=
  if (cs.splitOn '.').length = 4 then (cs.splitOn '.').mapM octet else none

/-- What stands between colons. -/
def pieces (cs : List Char) : List (List Char) := if cs = [] then [] else cs.splitOn ':'

/-- The groups of these pieces, the last of which may be an IPv4 address. -/
def segments : List (List Char) → Option (List ℕ)
  | [] => some []
  | [p] =>
    match segment p with
    | some n => some [n]
    | none => (dotted p).map fun ds => [number 256 (ds.take 2), number 256 (ds.drop 2)]
  | p :: q :: ps => do
    let n ← segment p
    let ns ← segments (q :: ps)
    return n :: ns

/-- The gap. -/
def gap : List Char := [':', ':']

/-- A text without its zone. -/
def bare (cs : List Char) : List Char := cs.takeWhile (· ≠ '%')

/-- The zone with its per cent sign. -/
def zone (cs : List Char) : List Char := cs.dropWhile (· ≠ '%')

/-- `[0-9a-zA-Z-.:]` -/
def isZoneChar (c : Char) : Bool := c.isAlphanum || c == '-' || c == '.' || c == ':'

/-- `(?:%[0-9a-zA-Z-.:]{1,})?` -/
def isZone (z : List Char) : Bool := z.isEmpty || (!(z.drop 1).isEmpty && (z.drop 1).all isZoneChar)

/-- The eight groups of an IPv6 address. -/
def groups (cs : List Char) : Option (List ℕ) :=
  if isZone (zone cs) then
    match after gap (bare cs) with
    | none => (segments (pieces (bare cs))).filter (·.length = 8)
    | some tail => do
      let hs ← (pieces (before gap (bare cs))).mapM segment
      let ts ← segments (pieces tail)
      if hs.length + ts.length ≤ 7 then
        some (hs ++ (List.replicate (8 - hs.length - ts.length) 0 ++ ts))
      else none
  else none

/-- `isIP` -/
def isIP (v : String) : ℕ :=
  if (dotted v.toList).isSome then 4 else if (groups v.toList).isSome then 6 else 0

/-! ## Addresses -/

/-- An address. -/
inductive Address where
  | v4 (n : ℕ)
  | v6 (n : ℕ)
  deriving DecidableEq

/-- The address of 128 bits: `::ffff:0:0/96` is IPv4. -/
def Address.ofBits (n : ℕ) : Address := if n / 2 ^ 32 = 0xffff then .v4 (n % 2 ^ 32) else .v6 n

/-- The address that a text denotes. -/
def address (v : String) : Option Address :=
  match dotted v.toList with
  | some ds => some (.v4 (number 256 ds))
  | none => (groups v.toList).map fun gs => .ofBits (number 65536 gs)

/-- The network: `/24` or `/64`. -/
def Address.network : Address → Address
  | .v4 n => .v4 (n / 2 ^ 8)
  | .v6 n => .v6 (n / 2 ^ 64)

/-- Both texts denote addresses, and of one network. -/
def InOneNetwork (a b : String) : Prop :=
  ∃ p q, address a = some p ∧ address b = some q ∧ p.network = q.network

/-! ## Digits -/

theorem mem_hexDigits {p : List Char} (h : p.all (hexDigits.contains ·) = true) {c : Char}
    (hc : c ∈ p) : c ∈ hexDigits :=
  List.contains_iff_mem.mp (List.all_eq_true.mp h c hc)

theorem digitValue_lt {c : Char} (h : c ∈ hexDigits) : digitValue c < 16 := by
  have hall : hexDigits.all (fun c => decide (digitValue c < 16)) = true := by decide
  exact of_decide_eq_true (List.all_eq_true.mp hall c h)

theorem digitChar_digitValue {c : Char} (h : c ∈ hexDigits) :
    Nat.digitChar (digitValue c) = c.toLower := by
  have hall : hexDigits.all (fun c => Nat.digitChar (digitValue c) == c.toLower) = true := by
    decide
  exact eq_of_beq (List.all_eq_true.mp hall c h)

theorem digitChar_mem : ∀ n < 16, Nat.digitChar n ∈ hexDigits := by decide

theorem digitValue_digitChar : ∀ n < 16, digitValue (Nat.digitChar n) = n := by decide

theorem decimalDigits_spec {c : Char} (h : c ∈ decimalDigits) :
    digitValue c < 10 ∧ Nat.digitChar (digitValue c) = c ∧ (digitValue c = 0 → c = '0') := by
  have hall : decimalDigits.all (fun c => decide (digitValue c < 10 ∧
      Nat.digitChar (digitValue c) = c ∧ (digitValue c = 0 → c = '0'))) = true := by
    decide
  exact of_decide_eq_true (List.all_eq_true.mp hall c h)

theorem decimal_mem_hexDigits {c : Char} (h : c ∈ decimalDigits) : c ∈ hexDigits := by
  have hall : decimalDigits.all (hexDigits.contains ·) = true := by decide
  exact List.contains_iff_mem.mp (List.all_eq_true.mp hall c h)

/-! ## Octets -/

theorem octet_eq_some {p : List Char} {n : ℕ} (h : octet p = some n) :
    p ≠ [] ∧ (∀ c ∈ p, c ∈ decimalDigits) ∧ (p.length = 1 ∨ p.head? ≠ some '0') ∧ n ≤ 255 ∧
      number 10 (p.map digitValue) = n := by
  rw [octet] at h
  split at h
  case isTrue hp =>
    obtain ⟨hne, hall, hhead, hle⟩ := hp
    obtain rfl := Option.some.inj h
    have hmem (c : Char) (hc : c ∈ p) : c ∈ decimalDigits :=
      List.contains_iff_mem.mp (List.all_eq_true.mp hall c hc)
    exact ⟨hne, hmem, hhead, hle, rfl⟩
  case isFalse => cases h

/-- Digits without leading zeros are the text of their number. -/
theorem toDigits_number {p : List Char} (hne : p ≠ []) (hdigits : ∀ c ∈ p, c ∈ decimalDigits)
    (hhead : p.length = 1 ∨ p.head? ≠ some '0') :
    Nat.toDigits 10 (number 10 (p.map digitValue)) = p := by
  induction p using List.reverseRecOn with
  | nil => exact absurd rfl hne
  | append_singleton q c ih =>
    obtain ⟨hlt, hchar, -⟩ :=
      decimalDigits_spec (hdigits c (List.mem_append_right q List.mem_cons_self))
    cases q with
    | nil => simpa [number, hchar] using Nat.toDigits_of_lt_base hlt
    | cons d q =>
      have hd : d ≠ '0' := by simpa using hhead
      have hq := ih (List.cons_ne_nil d q) (fun c hc => hdigits c (List.mem_append_left _ hc))
        (Or.inr (by simpa using hd))
      have hpos : 0 < number 10 ((d :: q).map digitValue) := by
        refine Nat.pos_of_ne_zero fun hzero => hd ?_
        rw [hzero, Nat.toDigits_zero] at hq
        exact (List.cons.inj hq).1.symm
      rw [List.map_append, List.map_singleton, number_append_singleton, mul_comm,
        ← Nat.toDigits_append_toDigits (by decide) hpos hlt, hq, Nat.toDigits_of_lt_base hlt, hchar]

theorem octet_inj {p q : List Char} {n : ℕ} (hp : octet p = some n) (hq : octet q = some n) :
    p = q := by
  obtain ⟨hpne, hpdigits, hphead, -, hpn⟩ := octet_eq_some hp
  obtain ⟨hqne, hqdigits, hqhead, -, hqn⟩ := octet_eq_some hq
  rw [← toDigits_number hpne hpdigits hphead, ← toDigits_number hqne hqdigits hqhead, hpn, hqn]

theorem octet_toDigits : ∀ n < 256, octet (Nat.toDigits 10 n) = some n := by decide +kernel

/-! ## Segments -/

theorem segment_eq_some {p : List Char} {n : ℕ} (h : segment p = some n) :
    p ≠ [] ∧ p.length ≤ 4 ∧ (∀ c ∈ p, c ∈ hexDigits) ∧ number 16 (p.map digitValue) = n := by
  rw [segment] at h
  split at h
  case isTrue hp =>
    exact ⟨hp.1, hp.2.1, fun c hc => mem_hexDigits hp.2.2 hc, Option.some.inj h⟩
  case isFalse => cases h

/-- The four digits of a group. -/
def nibbles (n : ℕ) : List ℕ := [n / 4096 % 16, n / 256 % 16, n / 16 % 16, n % 16]

/-- The group in four lower-case digits. -/
def fullSegment (n : ℕ) : List Char := (nibbles n).map Nat.digitChar

theorem nibbles_lt (n : ℕ) : ∀ d ∈ nibbles n, d < 16 := by
  simp only [nibbles, List.mem_cons, List.not_mem_nil, or_false]
  rintro d (rfl | rfl | rfl | rfl) <;> exact Nat.mod_lt _ (by decide)

theorem number_nibbles {n : ℕ} (h : n < 65536) : number 16 (nibbles n) = n := by
  simp only [nibbles, number, List.foldl_cons, List.foldl_nil]
  omega

theorem segment_fullSegment {n : ℕ} (h : n < 65536) : segment (fullSegment n) = some n := by
  have hall : (fullSegment n).all (hexDigits.contains ·) = true := by
    refine List.all_eq_true.mpr fun c hc => List.contains_iff_mem.mpr ?_
    obtain ⟨d, hd, rfl⟩ := List.mem_map.mp hc
    exact digitChar_mem d (nibbles_lt n d hd)
  have hvalues : (fullSegment n).map digitValue = nibbles n := by
    rw [fullSegment, List.map_map]
    exact (List.map_congr_left fun d hd => digitValue_digitChar d (nibbles_lt n d hd)).trans
      (List.map_id _)
  rw [segment, if_pos ⟨List.cons_ne_nil _ _, le_refl 4, hall⟩, hvalues, number_nibbles h]

theorem fullSegment_inj {m n : ℕ} (hm : m < 65536) (hn : n < 65536)
    (h : fullSegment m = fullSegment n) : m = n := by
  have hsegment := segment_fullSegment hm
  rw [h, segment_fullSegment hn] at hsegment
  exact (Option.some.inj hsegment).symm

/-! ## Groups -/

/-- A row of segments is read as these groups. -/
def Reads : List (List Char) → List ℕ → Prop := List.Forall₂ fun p n => segment p = some n

theorem nil_not_mem_of_reads {ps : List (List Char)} {ns : List ℕ} (h : Reads ps ns) : [] ∉ ps := by
  intro hnil
  obtain ⟨n, -, hn⟩ := exists_of_forall₂ h hnil
  exact (segment_eq_some hn).1 rfl

/-- All pieces are segments, or all but the last, which is an IPv4 address. -/
theorem segments_eq_some {ps : List (List Char)} {ns : List ℕ} (h : segments ps = some ns) :
    Reads ps ns ∨
      ∃ qs d ms ds, ps = qs ++ [d] ∧ Reads qs ms ∧ dotted d = some ds ∧
        ns = ms ++ [number 256 (ds.take 2), number 256 (ds.drop 2)] := by
  induction ps using segments.induct generalizing ns with
  | case1 =>
    obtain rfl := Option.some.inj h
    exact Or.inl List.Forall₂.nil
  | case2 p n hp =>
    rw [segments, hp] at h
    obtain rfl := Option.some.inj h
    exact Or.inl (List.Forall₂.cons hp List.Forall₂.nil)
  | case3 p hp =>
    rw [segments, hp] at h
    obtain ⟨ds, hds, rfl⟩ := Option.map_eq_some_iff.mp h
    exact Or.inr ⟨[], p, [], ds, rfl, List.Forall₂.nil, hds, rfl⟩
  | case4 p q ps ih =>
    rw [segments] at h
    obtain ⟨n, hn, h⟩ := Option.bind_eq_some_iff.mp h
    obtain ⟨ms, hms, h⟩ := Option.bind_eq_some_iff.mp h
    obtain rfl := Option.some.inj h
    obtain hread | ⟨qs, d, ks, ds, hqs, hread, hd, rfl⟩ := ih hms
    · exact Or.inl (List.Forall₂.cons hn hread)
    · exact Or.inr ⟨p :: qs, d, n :: ks, ds, by rw [hqs]; rfl, List.Forall₂.cons hn hread, hd, rfl⟩

theorem segments_of_reads {ps : List (List Char)} {ns : List ℕ} (h : Reads ps ns) :
    segments ps = some ns := by
  induction ps using segments.induct generalizing ns with
  | case1 =>
    cases h
    rfl
  | case2 p n hp =>
    obtain ⟨m, ms, hm, hms, rfl⟩ := List.forall₂_cons_left_iff.mp h
    cases hms
    rw [segments, hm]
  | case3 p hp =>
    obtain ⟨m, ms, hm, -, -⟩ := List.forall₂_cons_left_iff.mp h
    exact absurd hm (by rw [hp]; exact nofun)
  | case4 p q ps ih =>
    obtain ⟨m, ms, hm, hms, rfl⟩ := List.forall₂_cons_left_iff.mp h
    rw [segments, hm, ih hms]
    rfl

theorem dotted_eq_some {cs : List Char} {ds : List ℕ} :
    dotted cs = some ds ↔
      (cs.splitOn '.').length = 4 ∧
        List.Forall₂ (fun p n => octet p = some n) (cs.splitOn '.') ds := by
  rw [dotted]
  split
  case isTrue h => rw [mapM_eq_some, and_iff_right h]
  case isFalse h => exact ⟨nofun, fun h' => absurd h'.1 h⟩

theorem dot_mem_of_dotted {cs : List Char} {ds : List ℕ} (h : dotted cs = some ds) : '.' ∈ cs := by
  by_contra hdot
  have hlength := (dotted_eq_some.mp h).1
  rw [List.splitOn_eq_singleton hdot] at hlength
  cases hlength

/-- The characters of an IPv4 address are digits and dots. -/
theorem mem_of_dotted {cs : List Char} {ds : List ℕ} (h : dotted cs = some ds) {c : Char}
    (hc : c ∈ cs) : c = '.' ∨ c ∈ hexDigits := by
  refine (mem_splitOn hc).imp_right ?_
  rintro ⟨p, hp, hcp⟩
  obtain ⟨n, -, hn⟩ := exists_of_forall₂ (dotted_eq_some.mp h).2 hp
  exact decimal_mem_hexDigits ((octet_eq_some hn).2.1 c hcp)

theorem segments_cons {p : List Char} {ps : List (List Char)} (h : ps ≠ []) :
    segments (p :: ps) = (segment p).bind fun n => (segments ps).map (n :: ·) := by
  obtain ⟨q, qs, rfl⟩ := List.exists_cons_of_ne_nil h
  rw [segments]
  cases segment p with
  | none => rfl
  | some n => cases segments (q :: qs) <;> rfl

theorem nil_not_mem_of_segments {ps : List (List Char)} {ns : List ℕ}
    (h : segments ps = some ns) : [] ∉ ps := by
  obtain hread | ⟨qs, d, ms, ds, rfl, hread, hd, -⟩ := segments_eq_some h
  · exact nil_not_mem_of_reads hread
  · refine List.not_mem_append (nil_not_mem_of_reads hread) fun hnil => ?_
    have hdot := dot_mem_of_dotted hd
    rw [← List.mem_singleton.mp hnil] at hdot
    exact List.not_mem_nil hdot

/-- Readable pieces are not empty, so there is no gap among them. -/
theorem after_gap_of_segments {cs : List Char} {ns : List ℕ} (h : segments (pieces cs) = some ns) :
    after gap cs = none := by
  have hnil := nil_not_mem_of_segments h
  rw [pieces] at hnil
  split at hnil
  case isTrue hcs =>
    rw [hcs]
    rfl
  case isFalse => exact after_pair_eq_none hnil

/-- The pieces of a readable text with more text behind: segments, and then one that is none. -/
theorem pieces_append {cs z : List Char} {ns : List ℕ} (h : segments (pieces cs) = some ns)
    (hz : ∀ c ∈ z.head?, c = '%') :
    ∃ qs rs, pieces (cs ++ z) = qs ++ rs ∧ Reads qs (ns.take qs.length) ∧
      ns.length ≤ qs.length + 2 ∧ ∀ r ∈ rs.head?, '.' ∈ r ∨ '%' ∈ r := by
  have hends := segments_eq_some h
  cases z with
  | nil =>
    rw [List.append_nil]
    obtain hread | ⟨qs, d, ms, ds, hqs, hread, hd, rfl⟩ := hends
    · refine ⟨pieces cs, [], (List.append_nil _).symm, ?_, ?_, nofun⟩
      · rwa [hread.length_eq, List.take_length]
      · rw [hread.length_eq]
        omega
    · refine ⟨qs, [d], hqs, ?_, ?_, ?_⟩
      · rwa [hread.length_eq, List.take_left]
      · rw [List.length_append, hread.length_eq]
        rfl
      · rintro r ⟨⟩
        exact Or.inl (dot_mem_of_dotted hd)
  | cons c w =>
    obtain rfl := hz c rfl
    obtain ⟨q, qs, hq⟩ := List.exists_cons_of_ne_nil (List.splitOn_ne_nil ':' w)
    have hw : List.splitOn ':' ('%' :: w) = ('%' :: q) :: qs := by
      rw [List.splitOn_cons_eq_if_modifyHead, if_neg (by decide), hq]
      rfl
    by_cases hcs : cs = []
    · subst hcs
      obtain rfl := Option.some.inj h
      refine ⟨[], ('%' :: q) :: qs, ?_, List.Forall₂.nil, Nat.zero_le _, ?_⟩
      · rw [List.nil_append, pieces, if_neg (List.cons_ne_nil _ _), hw, List.nil_append]
      · rintro r ⟨⟩
        exact Or.inr List.mem_cons_self
    · rw [pieces, if_neg (by simp), splitOn_append, hw]
      rw [pieces, if_neg hcs] at hends
      refine ⟨(List.splitOn ':' cs).dropLast, _, rfl, ?_, ?_, ?_⟩
      · obtain hread | ⟨qs', d, ms, ds, hqs, hread, hd, rfl⟩ := hends
        · rw [List.length_dropLast, List.dropLast_eq_take]
          exact List.forall₂_take _ hread
        · rw [hqs, List.dropLast_concat, hread.length_eq, List.take_left]
          exact hread
      · obtain hread | ⟨qs', d, ms, ds, hqs, hread, hd, rfl⟩ := hends
        · rw [List.length_dropLast, hread.length_eq]
          omega
        · rw [hqs, List.dropLast_concat, List.length_append, hread.length_eq]
          rfl
      · rintro r ⟨⟩
        exact Or.inr (List.mem_append_right _ List.mem_cons_self)

end IpAddress

end ArkanGold
