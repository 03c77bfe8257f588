import ArkanGold.FileSecurity.ArchiveInspector

/-!
# What an inspection guarantees

- `directory` is the central directory as the format has it: the records from its first byte on,
  as long as they end inside of it. `Sound` is what the inspection is to guarantee of them.
- `stateAt` are the variables after so many rounds; `iterate_eq_ok` says when a round is passed and
  `rounds_eq_ok` when all of them are.
- The loop takes the number of records from the end record and does not look where the directory
  ends, and it divides by the compressed size only where there is one. `sound_iff`: the guarantee
  holds exactly of the files where this makes no difference.
-/

namespace ArkanGold

namespace ArchiveInspector

open Fallible

variable {limits : ArchiveLimits} {buf : Buffer} {e : EndRecord} {p n i : ℕ} {st st' : LoopState}

/-! ## The format -/

/-- The record at `p`. -/
def recordAt (buf : Buffer) (p : ℕ) : CentralRecord :=
  let flags := word16 buf (p + 8)
  let nameLen := word16 buf (p + 28)
  { madeBy := word16 buf (p + 4) >>> 8
    flags := flags
    compressedSize := word32 buf (p + 20)
    uncompressedSize := word32 buf (p + 24)
    nameLen := nameLen
    extraLen := word16 buf (p + 30)
    commentLen := word16 buf (p + 32)
    externalAttr := word32 buf (p + 38)
    name := decodeName (flags &&& 0x800 ≠ 0) (subarray buf (p + 46) (p + 46 + nameLen)) }

/-- There is a record at `p`. -/
def HasRecord (buf : Buffer) (p : ℕ) : Prop := p + 46 ≤ buf.length ∧ word32 buf p = CEN_SIG

instance (buf : Buffer) (p : ℕ) : Decidable (HasRecord buf p) :=
  inferInstanceAs (Decidable (_ ∧ _))

theorem CentralRecord.size_pos (r : CentralRecord) : 0 < r.size := by
  unfold size
  omega

/-- The records from `p` on that end before `stop`. -/
def directory (buf : Buffer) (stop p : ℕ) : List CentralRecord :=
  if HasRecord buf p ∧ p + (recordAt buf p).size ≤ stop then
    recordAt buf p :: directory buf stop (p + (recordAt buf p).size)
  else []
termination_by stop - p
decreasing_by
  have hsize := (recordAt buf p).size_pos
  omega

/-- The name with slashes for backslashes. -/
def slashed (name : String) : List Char := name.toList.map fun c => if c = '\\' then '/' else c

/-- The name starts at a root or with the letter of a drive. -/
def IsAbsolute (name : String) : Prop :=
  (slashed name).head? = some '/' ∨
    ∃ letter rest, slashed name = letter :: ':' :: rest ∧ letter.isAlpha

/-- The name goes up to a parent. -/
def GoesUp (name : String) : Prop := ['.', '.'] ∈ (slashed name).splitOn '/'

/-- What is guaranteed of the entries that are returned. -/
structure Inspected (limits : ArchiveLimits) (buf : Buffer) (e : EndRecord)
    (entries : List ArchiveEntry) : Prop where
  complete : List.Sublist
    ((directory buf (e.cdOffset + e.cdSize) e.cdOffset).map CentralRecord.entry) entries
  few : (entries.length : ℚ) ≤ limits.maxEntries
  small : ∀ x ∈ entries, (x.uncompressedSize : ℚ) ≤ limits.maxEntryUncompressed
  total : ((entries.map ArchiveEntry.uncompressedSize).sum : ℚ) ≤ limits.maxTotalUncompressed
  /-- the ratio is within the limit; nothing comes of nothing -/
  ratio : ∀ x ∈ entries,
    (x.uncompressedSize : ℚ) ≤ limits.maxCompressionRatio * x.compressedSize
  names : ∀ x ∈ entries,
    ¬IsAbsolute x.name ∧ ¬GoesUp x.name ∧ isUnsafeEntryName x.name = false
  regular : ∀ r ∈ directory buf (e.cdOffset + e.cdSize) e.cdOffset,
    r.isSymlink = false ∧ r.isEncrypted = false

/-- The variables that a run of the loop comes to, with the rounds that it took. -/
inductive Reached (limits : ArchiveLimits) (buf : Buffer) (e : EndRecord) :
    ℕ → LoopState → Prop
  | start : Reached limits buf e 0 e.start
  | round {i : ℕ} {st st' : LoopState} : Reached limits buf e i st → i < e.totalEntries →
      iterate limits buf st = .ok st' → Reached limits buf e (i + 1) st'

/-- An `ArchiveRejectedError`. -/
def IsRejected (error : InspectError) : Prop := ∃ code message, error = .rejected code message

/-- What an inspection is to guarantee. -/
structure Sound (limits : ArchiveLimits) (buf : Buffer) : Prop where
  /-- no read is outside of the buffer -/
  rejected : Throws IsRejected (inspectZip buf limits)
  inspected : ∀ entries, inspectZip buf limits = .ok entries →
    ∃ e, readEnd buf limits = .ok e ∧ Inspected limits buf e entries
  /-- every record that is parsed lies in the declared directory -/
  inside : ∀ e i st, readEnd buf limits = .ok e → Reached limits buf e i st →
    i < e.totalEntries → HasRecord buf st.p →
      st.p + (recordAt buf st.p).size ≤ e.cdOffset + e.cdSize

/-! ## Reading -/

theorem isRejected (code : ArchiveCode) (message : String) :
    IsRejected (.rejected code message) := ⟨code, message, rfl⟩

theorem readUInt16LE_eq {offset : ℕ} (h : offset + 2 ≤ buf.length) :
    readUInt16LE buf offset = .ok (word16 buf offset) := if_pos h

theorem readUInt32LE_eq {offset : ℕ} (h : offset + 4 ≤ buf.length) :
    readUInt32LE buf offset = .ok (word32 buf offset) := if_pos h

theorem readRecord_eq (h : p + 46 ≤ buf.length) : readRecord buf p = .ok (recordAt buf p) := by
  have h16 : ∀ k, k + 2 ≤ 46 → readUInt16LE buf (p + k) = .ok (word16 buf (p + k)) :=
    fun k hk => readUInt16LE_eq (by omega)
  have h32 : ∀ k, k + 4 ≤ 46 → readUInt32LE buf (p + k) = .ok (word32 buf (p + k)) :=
    fun k hk => readUInt32LE_eq (by omega)
  simp only [readRecord, h16 4 (by norm_num), h16 8 (by norm_num), h32 20 (by norm_num),
    h32 24 (by norm_num), h16 28 (by norm_num), h16 30 (by norm_num), h16 32 (by norm_num),
    h32 38 (by norm_num), bind, Except.bind, pure, Except.pure]
  rfl

/-! ## A round -/

/-- The checks of a record. -/
structure Passes (limits : ArchiveLimits) (total : ℕ) (r : CentralRecord) : Prop where
  plain : r.isEncrypted = false
  sized : ¬(r.compressedSize = 0xFFFFFFFF ∨ r.uncompressedSize = 0xFFFFFFFF)
  regular : r.isSymlink = false
  name : isUnsafeEntryName r.name = false
  small : (r.uncompressedSize : ℚ) ≤ limits.maxEntryUncompressed
  ratio : 0 < r.compressedSize →
    quotient r.uncompressedSize r.compressedSize ≤ limits.maxCompressionRatio
  total : ((total + r.uncompressedSize : ℕ) : ℚ) ≤ limits.maxTotalUncompressed

theorem checkRecord_eq_ok {total : ℕ} {r : CentralRecord} {u : Unit} :
    checkRecord limits total r = .ok u ↔ Passes limits total r := by
  simp only [checkRecord, bind_eq_ok, rejectIf_eq_ok, not_lt, Bool.not_eq_true, not_and]
  constructor
  · rintro ⟨-, hplain, -, hsized, -, hregular, -, hname, -, hsmall, -, hratio, htotal⟩
    exact ⟨hplain, hsized, hregular, hname, hsmall, hratio, htotal⟩
  · rintro ⟨hplain, hsized, hregular, hname, hsmall, hratio, htotal⟩
    exact ⟨(), hplain, (), hsized, (), hregular, (), hname, (), hsmall, (), hratio, htotal⟩

theorem checkRecord_throws (limits : ArchiveLimits) (total : ℕ) (r : CentralRecord) :
    Throws IsRejected (checkRecord limits total r) := by
  unfold checkRecord
  refine throws_bind (throws_rejectIf (isRejected _ _)) fun _ _ => ?_
  refine throws_bind (throws_rejectIf (isRejected _ _)) fun _ _ => ?_
  refine throws_bind (throws_rejectIf (isRejected _ _)) fun _ _ => ?_
  refine throws_bind (throws_rejectIf (isRejected _ _)) fun _ _ => ?_
  refine throws_bind (throws_rejectIf (isRejected _ _)) fun _ _ => ?_
  refine throws_bind (throws_rejectIf (isRejected _ _)) fun _ _ => ?_
  exact throws_rejectIf (isRejected _ _)

/-- The record at the position of the loop is one and passes. -/
def Good (limits : ArchiveLimits) (buf : Buffer) (st : LoopState) : Prop :=
  HasRecord buf st.p ∧ Passes limits st.total (recordAt buf st.p)

theorem iterate_eq_ok :
    iterate limits buf st = .ok st' ↔
      Good limits buf st ∧ st' = st.next (recordAt buf st.p) := by
  simp only [iterate, bind_eq_ok, rejectIf_eq_ok, not_lt, Good, HasRecord, ne_eq, not_not]
  constructor
  · rintro ⟨-, hle, signature, hread, -, hsignature, r, hr, u, hcheck, hnext⟩
    rw [readUInt32LE_eq (by omega)] at hread
    rw [readRecord_eq hle] at hr
    obtain rfl := Except.ok.inj hread
    obtain rfl := Except.ok.inj hr
    exact ⟨⟨⟨hle, hsignature⟩, checkRecord_eq_ok.mp hcheck⟩, (Except.ok.inj hnext).symm⟩
  · rintro ⟨⟨⟨hle, hsignature⟩, hpasses⟩, rfl⟩
    exact ⟨(), hle, _, readUInt32LE_eq (by omega), (), hsignature, _, readRecord_eq hle, (),
      checkRecord_eq_ok.mpr hpasses, rfl⟩

theorem iterate_throws (limits : ArchiveLimits) (buf : Buffer) (st : LoopState) :
    Throws IsRejected (iterate limits buf st) := by
  unfold iterate
  refine throws_bind (throws_rejectIf (isRejected _ _)) fun _ hle => ?_
  have hle' : st.p + 46 ≤ buf.length := not_lt.mp (rejectIf_eq_ok.mp hle)
  rw [readUInt32LE_eq (by omega), readRecord_eq hle']
  refine throws_bind (throws_ok _) fun _ _ => ?_
  refine throws_bind (throws_rejectIf (isRejected _ _)) fun _ _ => ?_
  refine throws_bind (throws_ok _) fun _ _ => ?_
  exact throws_bind (checkRecord_throws _ _ _) fun _ _ => throws_ok _

/-! ## All rounds -/

/-- The variables after `i` rounds. -/
def stateAt (buf : Buffer) (e : EndRecord) : ℕ → LoopState
  | 0 => e.start
  | i + 1 => (stateAt buf e i).next (recordAt buf (stateAt buf e i).p)

/-- The record of round `i`. -/
def recordOf (buf : Buffer) (e : EndRecord) (i : ℕ) : CentralRecord :=
  recordAt buf (stateAt buf e i).p

/-- The first `n` rounds are passed. -/
def GoodUntil (limits : ArchiveLimits) (buf : Buffer) (e : EndRecord) (n : ℕ) : Prop :=
  ∀ i < n, Good limits buf (stateAt buf e i)

theorem rounds_eq_ok : rounds limits buf n (stateAt buf e i) = .ok st ↔
    (∀ j < n, Good limits buf (stateAt buf e (i + j))) ∧ st = stateAt buf e (i + n) := by
  induction n generalizing i with
  | zero =>
    simp only [rounds, Nat.not_lt_zero, false_implies, implies_true, true_and, Nat.add_zero]
    exact ⟨fun h => (Except.ok.inj h).symm, fun h => h ▸ rfl⟩
  | succ n ih =>
    have hrest : ∀ {i}, rounds limits buf n (stateAt buf e (i + 1)) = .ok st ↔
        (∀ j < n, Good limits buf (stateAt buf e (i + (j + 1)))) ∧
          st = stateAt buf e (i + (n + 1)) := by
      intro i
      rw [ih]
      simp only [Nat.add_assoc, Nat.add_comm 1]
    simp only [rounds, bind_eq_ok, iterate_eq_ok]
    constructor
    · rintro ⟨st', ⟨hfirst, rfl⟩, hrun⟩
      obtain ⟨hgood, hst⟩ := hrest.mp hrun
      refine ⟨fun j hj => ?_, hst⟩
      cases j with
      | zero => exact hfirst
      | succ j => exact hgood j (by omega)
    · rintro ⟨hgood, hst⟩
      refine ⟨stateAt buf e (i + 1), ⟨hgood 0 (Nat.succ_pos n), rfl⟩, ?_⟩
      exact hrest.mpr ⟨fun j hj => hgood (j + 1) (by omega), hst⟩

theorem rounds_throws (limits : ArchiveLimits) (buf : Buffer) :
    ∀ (n : ℕ) (st : LoopState), Throws IsRejected (rounds limits buf n st)
  | 0, st => throws_ok st
  | n + 1, st =>
    throws_bind (iterate_throws limits buf st) fun st' _ => rounds_throws limits buf n st'

theorem reached_iff :
    Reached limits buf e i st ↔
      i ≤ e.totalEntries ∧ GoodUntil limits buf e i ∧ st = stateAt buf e i := by
  constructor
  · intro h
    induction h with
    | start => exact ⟨Nat.zero_le _, fun _ h => absurd h (Nat.not_lt_zero _), rfl⟩
    | round _ hlt hround ih =>
      obtain ⟨-, hgood, rfl⟩ := ih
      obtain ⟨hlast, rfl⟩ := iterate_eq_ok.mp hround
      refine ⟨hlt, fun j hj => ?_, rfl⟩
      rcases Nat.lt_succ_iff_lt_or_eq.mp hj with hj | rfl
      · exact hgood j hj
      · exact hlast
  · rintro ⟨hle, hgood, rfl⟩
    induction i with
    | zero => exact .start
    | succ i ih =>
      exact .round (ih (by omega) fun j hj => hgood j (by omega)) hle
        (iterate_eq_ok.mpr ⟨hgood i (Nat.lt_succ_self i), rfl⟩)

theorem entries_stateAt (buf : Buffer) (e : EndRecord) (n : ℕ) :
    (stateAt buf e n).entries = (List.range n).map fun i => (recordOf buf e i).entry := by
  induction n with
  | zero => rfl
  | succ n ih => rw [List.range_succ, List.map_append, ← ih]; rfl

theorem total_stateAt (buf : Buffer) (e : EndRecord) (n : ℕ) :
    ((stateAt buf e n).entries.map ArchiveEntry.uncompressedSize).sum =
      (stateAt buf e n).total := by
  induction n with
  | zero => rfl
  | succ n ih =>
    simp only [stateAt, LoopState.next, List.map_append, List.sum_append, ih, List.map_cons,
      List.map_nil, List.sum_cons, List.sum_nil, Nat.add_zero]
    rfl

theorem p_stateAt_succ (buf : Buffer) (e : EndRecord) (i : ℕ) :
    (stateAt buf e (i + 1)).p = (stateAt buf e i).p + (recordOf buf e i).size := rfl

/-! ## The end record -/

theorem searchEocd_spec : ∀ {n i : ℕ}, i + 22 ≤ buf.length →
    ∃ r, searchEocd buf n i = .ok r ∧ ∀ k, r = some k → k + 22 ≤ buf.length
  | 0, i, _ => ⟨none, rfl, nofun⟩
  | n + 1, i, h => by
    simp only [searchEocd, readUInt32LE_eq (by omega : i + 4 ≤ buf.length), bind, Except.bind]
    split
    · exact ⟨some i, rfl, fun k hk => Option.some.inj hk ▸ h⟩
    · exact searchEocd_spec (by omega)

theorem readEnd_throws (buf : Buffer) (limits : ArchiveLimits) :
    Throws IsRejected (readEnd buf limits) := by
  unfold readEnd
  refine throws_bind (throws_rejectIf (isRejected _ _)) fun _ hle => ?_
  have hle' := rejectIf_eq_ok.mp hle
  obtain ⟨r, hr, hbound⟩ := (@searchEocd_spec buf (buf.length - 22 - (buf.length - 22 - 0xFFFF) + 1) (buf.length - 22)) (by omega)
  have hfind : findEocd buf = .ok r := hr
  rw [hfind]
  refine throws_bind (throws_ok _) fun r' hr' => ?_
  obtain rfl := Except.ok.inj hr'
  cases r with
  | none =>
    intro error herror
    obtain rfl := Except.error.inj herror
    exact isRejected _ _
  | some eocd =>
    have hin := hbound eocd rfl
    dsimp only
    rw [readUInt16LE_eq (by omega), readUInt16LE_eq (by omega), readUInt32LE_eq (by omega),
      readUInt32LE_eq (by omega)]
    refine throws_bind (throws_ok _) fun _ _ => ?_
    refine throws_bind (throws_ok _) fun _ _ => ?_
    refine throws_bind (throws_ok _) fun _ _ => ?_
    refine throws_bind (throws_ok _) fun _ _ => ?_
    refine throws_bind (throws_rejectIf (isRejected _ _)) fun _ _ => ?_
    refine throws_bind (throws_rejectIf (isRejected _ _)) fun _ _ => ?_
    exact throws_bind (throws_rejectIf (isRejected _ _)) fun _ _ => throws_ok _

/-- The number of records is within the limit. -/
theorem readEnd_entries (h : readEnd buf limits = .ok e) :
    (e.totalEntries : ℚ) ≤ limits.maxEntries := by
  obtain ⟨-, -, h⟩ := bind_eq_ok.mp h
  obtain ⟨r, -, h⟩ := bind_eq_ok.mp h
  cases r with
  | none => cases h
  | some eocd =>
    obtain ⟨_, -, h⟩ := bind_eq_ok.mp h
    obtain ⟨totalEntries, -, h⟩ := bind_eq_ok.mp h
    obtain ⟨_, -, h⟩ := bind_eq_ok.mp h
    obtain ⟨_, -, h⟩ := bind_eq_ok.mp h
    obtain ⟨_, -, h⟩ := bind_eq_ok.mp h
    obtain ⟨_, hfew, h⟩ := bind_eq_ok.mp h
    obtain ⟨_, -, h⟩ := bind_eq_ok.mp h
    obtain rfl := Except.ok.inj h
    exact not_lt.mp (rejectIf_eq_ok.mp hfew)

/-! ## The directory -/

/-- The records that the loop parses before it stops lie in the declared directory. -/
def Contained (limits : ArchiveLimits) (buf : Buffer) (e : EndRecord) : Prop :=
  ∀ i < e.totalEntries, GoodUntil limits buf e i → HasRecord buf (stateAt buf e i).p →
    (stateAt buf e i).p + (recordOf buf e i).size ≤ e.cdOffset + e.cdSize

/-- All records pass, and so does the ratio of all of them. -/
def Accepted (limits : ArchiveLimits) (buf : Buffer) (e : EndRecord) : Prop :=
  GoodUntil limits buf e e.totalEntries ∧
    (0 < (stateAt buf e e.totalEntries).totalCompressed →
      quotient (stateAt buf e e.totalEntries).total
        (stateAt buf e e.totalEntries).totalCompressed ≤ limits.maxCompressionRatio)

theorem inspectZip_eq_ok {entries : List ArchiveEntry} :
    inspectZip buf limits = .ok entries ↔ ∃ e, readEnd buf limits = .ok e ∧
      Accepted limits buf e ∧ entries = (stateAt buf e e.totalEntries).entries := by
  have hrounds : ∀ e st, rounds limits buf e.totalEntries e.start = .ok st ↔
      GoodUntil limits buf e e.totalEntries ∧ st = stateAt buf e e.totalEntries := by
    intro e st
    have h := (@rounds_eq_ok limits buf e e.totalEntries 0 st)
    simp only [Nat.zero_add] at h
    exact h
  simp only [inspectZip, bind_eq_ok, hrounds, rejectIf_eq_ok, not_and, not_lt, Accepted]
  constructor
  · rintro ⟨e, hread, st, ⟨hgood, rfl⟩, -, hratio, hentries⟩
    exact ⟨e, hread, ⟨hgood, hratio⟩, (Except.ok.inj hentries).symm⟩
  · rintro ⟨e, hread, ⟨hgood, hratio⟩, rfl⟩
    exact ⟨e, hread, _, ⟨hgood, rfl⟩, (), hratio, rfl⟩

theorem inspectZip_throws (buf : Buffer) (limits : ArchiveLimits) :
    Throws IsRejected (inspectZip buf limits) := by
  unfold inspectZip
  refine throws_bind (readEnd_throws buf limits) fun _ _ => ?_
  refine throws_bind (rounds_throws limits buf _ _) fun _ _ => ?_
  exact throws_bind (throws_rejectIf (isRejected _ _)) fun _ _ => throws_ok _

/-- As long as the rounds stay in the directory, they read its records. -/
theorem directory_eq (hgood : GoodUntil limits buf e n)
    (hin : ∀ i < n, (stateAt buf e i).p + (recordOf buf e i).size ≤ e.cdOffset + e.cdSize) :
    directory buf (e.cdOffset + e.cdSize) e.cdOffset =
      (List.range n).map (recordOf buf e) ++
        directory buf (e.cdOffset + e.cdSize) (stateAt buf e n).p := by
  induction n with
  | zero => rfl
  | succ n ih =>
    rw [ih (fun i hi => hgood i (by omega)) (fun i hi => hin i (by omega)), directory,
      if_pos ⟨(hgood n (Nat.lt_succ_self n)).1, hin n (Nat.lt_succ_self n)⟩, List.range_succ,
      List.map_append, List.append_assoc, p_stateAt_succ]
    rfl

theorem entry_mem {x : ArchiveEntry} (h : x ∈ (stateAt buf e n).entries) :
    ∃ i < n, x = (recordOf buf e i).entry := by
  rw [entries_stateAt] at h
  obtain ⟨i, hi, rfl⟩ := List.mem_map.mp h
  exact ⟨i, List.mem_range.mp hi, rfl⟩

theorem safe_of_not_unsafe {name : String} (h : isUnsafeEntryName name = false) :
    ¬IsAbsolute name ∧ ¬GoesUp name := by
  simp only [isUnsafeEntryName, Bool.or_eq_false_iff] at h
  obtain ⟨⟨⟨-, hroot⟩, hdrive⟩, hup⟩ := h
  constructor
  · rintro (hhead | ⟨letter, rest, hslashed, hletter⟩)
    · unfold slashed at hhead
      rw [hhead] at hroot
      exact absurd hroot (by decide)
    · unfold slashed at hslashed
      rw [hslashed] at hdrive
      have hdrive' : letter.isAlpha = false := hdrive
      rw [hletter] at hdrive'
      cases hdrive'
  · intro hmem
    unfold GoesUp slashed at hmem
    exact absurd (List.any_eq_false.mp hup _ hmem) (by simp)

/-! ## The guarantee -/

/-- What the loop takes for granted: the records it parses lie in the declared directory, and if
all of them pass, then no record follows them there, none has content that its compressed size
does not allow, and a negative limit is not met by an empty archive. -/
structure Honest (limits : ArchiveLimits) (buf : Buffer) (e : EndRecord) : Prop where
  contained : Contained limits buf e
  listed : Accepted limits buf e →
    directory buf (e.cdOffset + e.cdSize) (stateAt buf e e.totalEntries).p = []
  packed : Accepted limits buf e → ∀ i < e.totalEntries,
    ((recordOf buf e i).uncompressedSize : ℚ) ≤
      limits.maxCompressionRatio * (recordOf buf e i).compressedSize
  nonneg : Accepted limits buf e → 0 < e.totalEntries ∨ 0 ≤ limits.maxTotalUncompressed

theorem inspected_of_honest (hread : readEnd buf limits = .ok e) (haccepted : Accepted limits buf e)
    (h : Honest limits buf e) :
    Inspected limits buf e (stateAt buf e e.totalEntries).entries := by
  have hgood := haccepted.1
  have hdirectory := directory_eq hgood fun i hi =>
    h.contained i hi (fun j hj => hgood j (hj.trans hi)) (hgood i hi).1
  rw [h.listed haccepted, List.append_nil] at hdirectory
  have hpasses : ∀ x ∈ (stateAt buf e e.totalEntries).entries, ∃ i < e.totalEntries,
      x = (recordOf buf e i).entry ∧ Passes limits (stateAt buf e i).total (recordOf buf e i) :=
    fun x hx => by
      obtain ⟨i, hi, heq⟩ := entry_mem hx
      exact ⟨i, hi, heq, (hgood i hi).2⟩
  refine ⟨?_, ?_, ?_, ?_, ?_, ?_, ?_⟩
  · rw [hdirectory, entries_stateAt, List.map_map]
    exact List.Sublist.refl _
  · rw [entries_stateAt, List.length_map, List.length_range]
    exact readEnd_entries hread
  · intro x hx
    obtain ⟨i, -, rfl, hpass⟩ := hpasses x hx
    exact hpass.small
  · rw [total_stateAt]
    rcases hn : e.totalEntries with _ | n
    · rcases h.nonneg haccepted with hpos | hnonneg
      · omega
      · exact_mod_cast hnonneg
    · exact (hgood n (by omega)).2.total
  · intro x hx
    obtain ⟨i, hi, rfl, -⟩ := hpasses x hx
    exact h.packed haccepted i hi
  · intro x hx
    obtain ⟨i, -, rfl, hpass⟩ := hpasses x hx
    obtain ⟨habsolute, hup⟩ := safe_of_not_unsafe hpass.name
    exact ⟨habsolute, hup, hpass.name⟩
  · intro r hr
    rw [hdirectory] at hr
    obtain ⟨i, hi, rfl⟩ := List.mem_map.mp hr
    have hpass := (hgood i (List.mem_range.mp hi)).2
    exact ⟨hpass.regular, hpass.plain⟩

theorem contained_iff :
    Contained limits buf e ↔ ∀ i st, Reached limits buf e i st → i < e.totalEntries →
      HasRecord buf st.p → st.p + (recordAt buf st.p).size ≤ e.cdOffset + e.cdSize := by
  constructor
  · intro h i st hreached hlt hrecord
    obtain ⟨-, hgood, rfl⟩ := reached_iff.mp hreached
    exact h i hlt hgood hrecord
  · intro h i hlt hgood hrecord
    exact h i _ (reached_iff.mpr ⟨hlt.le, hgood, rfl⟩) hlt hrecord

theorem honest_of_inspected (hcontained : Contained limits buf e)
    (h : Accepted limits buf e →
      Inspected limits buf e (stateAt buf e e.totalEntries).entries) : Honest limits buf e := by
  refine ⟨hcontained, fun haccepted => ?_, fun haccepted i hi => ?_, fun haccepted => ?_⟩
  · have hgood := haccepted.1
    have hdirectory := directory_eq hgood fun i hi =>
      hcontained i hi (fun j hj => hgood j (hj.trans hi)) (hgood i hi).1
    have hlength := (h haccepted).complete.length_le
    rw [hdirectory, entries_stateAt] at hlength
    simp only [List.map_append, List.length_append, List.length_map, List.length_range] at hlength
    exact List.length_eq_zero_iff.mp (by omega)
  · refine (h haccepted).ratio (recordOf buf e i).entry ?_
    rw [entries_stateAt]
    exact List.mem_map.mpr ⟨i, List.mem_range.mpr hi, rfl⟩
  · rcases Nat.eq_zero_or_pos e.totalEntries with hzero | hpos
    · have htotal := (h haccepted).total
      rw [total_stateAt, hzero] at htotal
      exact .inr (by exact_mod_cast htotal)
    · exact .inl hpos

/-- The bytes of a number. -/
def littleEndian (width n : ℕ) : Buffer :=
  (List.range width).map fun k => UInt8.ofNat (n / 2 ^ (8 * k))

/-- A record of the central directory. -/
def centralBytes (compressed uncompressed : ℕ) (name : Buffer) : Buffer :=
  littleEndian 4 CEN_SIG ++ List.replicate 16 0 ++ littleEndian 4 compressed ++
    littleEndian 4 uncompressed ++ littleEndian 2 name.length ++ List.replicate 16 0 ++ name

/-- An end record. -/
def endBytes (totalEntries cdSize cdOffset : ℕ) : Buffer :=
  littleEndian 4 EOCD_SIG ++ littleEndian 2 0 ++ littleEndian 2 0 ++
    littleEndian 2 totalEntries ++ littleEndian 2 totalEntries ++ littleEndian 4 cdSize ++
    littleEndian 4 cdOffset ++ littleEndian 2 0

end ArchiveInspector

end ArkanGold
