import ArkanGold.Auth.SecondFactor

/-!
# Second factors are used once

What calls of `verify` on one account have accepted, in the order in which the statements have
committed.

- `StepsSound`: the step is written under a condition on the row, so the steps accepted increase
  in every run.
- `CodesSound`: the codes that are left are the issued ones less the accepted ones. The list is
  written back as it was read, and `StillAsRead` asks that it has not changed since; the condition
  of the statement only asks that the hash is still there.
- `recovery_code_returns`: of two calls with different codes the later one writes the code of the
  other back.
-/

namespace ArkanGold

namespace MfaService

variable {P : Primitives} {s s' : MfaDb} {issued : List String}

/-! ## What was accepted -/

/-- The step of a TOTP code. -/
def acceptedStep : MfaMark → Option ℤ
  | .acceptsTotp step => some step
  | .acceptsRecovery _ _ _ => none

/-- A recovery code and its hash. -/
def acceptedRecovery : MfaMark → Option (String × String)
  | .acceptsTotp _ => none
  | .acceptsRecovery code hash _ => some (code, hash)

/-- The TOTP steps accepted. -/
def acceptedSteps (s : MfaDb) : List ℤ := s.history.filterMap acceptedStep

/-- The recovery codes accepted, with their hashes. -/
def acceptedRecoveries (s : MfaDb) : List (String × String) := s.history.filterMap acceptedRecovery

/-- The hashes of the recovery codes accepted. -/
def acceptedHashes (s : MfaDb) : List String := (acceptedRecoveries s).map Prod.snd

/-- A code belongs to one hash at most: the codes are different, and `compare` tells them apart. -/
def CodesApart (P : Primitives) (issued : List String) : Prop :=
  ∀ code, ∀ h ∈ issued, ∀ h' ∈ issued, P.compare code h = true → P.compare code h' = true → h = h'

/-- The property. -/
structure OneTime (P : Primitives) (issued : List String) (s : MfaDb) : Prop where
  steps : (acceptedSteps s).Pairwise (· < ·)
  hashes : (acceptedHashes s).Nodup
  codes : CodesApart P issued → ((acceptedRecoveries s).map Prod.fst).Nodup
  remaining : ∀ h, h ∈ s.row.backupCodesHash ↔ h ∈ issued ∧ h ∉ acceptedHashes s

/-! ## The statements -/

theorem advanceStep_ok {step : ℤ} {n : ℕ} (h : (advanceStep step).Ok s n s') :
    (n = 1 ∧ (∀ l, s.row.totpLastStep = some l → l < step) ∧
        s' = (s.note (.acceptsTotp step)).setRow { s.row with totpLastStep := some step }) ∨
      (n = 0 ∧ s' = s) := by
  simp only [advanceStep, Block.ok_bind, Block.ok_get] at h
  obtain ⟨_, _, ⟨rfl, rfl⟩, h⟩ := h
  split at h
  case isTrue hlast =>
    simp only [Block.ok_bind, Block.ok_mark, Block.ok_write, Block.ok_pure] at h
    obtain ⟨_, _, rfl, _, _, rfl, rfl, rfl⟩ := h
    exact .inl ⟨rfl, fun l hl => by simpa [hl] using hlast, rfl⟩
  case isFalse => exact .inr (Block.ok_pure.mp h)

theorem takeRecovery_ok {code hash : String} {read : List String} {n : ℕ}
    (h : (takeRecovery code hash read).Ok s n s') :
    (n = 1 ∧ hash ∈ s.row.backupCodesHash ∧
        s' = (s.note (.acceptsRecovery code hash read)).setRow
          { s.row with backupCodesHash := read.filter (· ≠ hash) }) ∨
      (n = 0 ∧ s' = s) := by
  simp only [takeRecovery, Block.ok_bind, Block.ok_get] at h
  obtain ⟨_, _, ⟨rfl, rfl⟩, h⟩ := h
  split at h
  case isTrue hmem =>
    simp only [Block.ok_bind, Block.ok_mark, Block.ok_write, Block.ok_pure] at h
    obtain ⟨_, _, rfl, _, _, rfl, rfl, rfl⟩ := h
    exact .inl ⟨rfl, hmem, rfl⟩
  case isFalse => exact .inr (Block.ok_pure.mp h)

/-- The code read is still on the list as it was read. -/
def StillAsRead : MfaMark → MfaDb → Prop
  | .acceptsTotp _, _ => True
  | .acceptsRecovery _ _ read, s => s.row.backupCodesHash = read

theorem meets_takeRecovery {code hash : String} {read : List String}
    (h : (takeRecovery code hash read).Meets StillAsRead s)
    (hmem : hash ∈ s.row.backupCodesHash) : s.row.backupCodesHash = read := by
  have h := (Block.meets_bind.mp h).2 s s (Block.ok_get.mpr ⟨rfl, rfl⟩)
  rw [if_pos hmem] at h
  exact (Block.meets_bind.mp h).1.1

section Keeps

variable {I : MfaDb → Prop} {cond : MfaMark → MfaDb → Prop}

theorem keeps_verifyApp {row : OwnerRow} {totpSecret code : String}
    (h : ∀ step s n s', I s → (advanceStep step).Ok s n s' → I s') :
    (verifyApp P row totpSecret code).Keeps I cond := by
  refine Call.keeps_getOrFail_bind fun secret _ => ?_
  refine Call.keeps_bind (Call.keeps_readOnly fun _ _ _ hok => (Block.ok_get.mp hok).2) fun s => ?_
  split
  · exact Call.keeps_pure _
  · exact Call.keeps_bind (Call.keeps_transaction fun s n s' hs _ hok => h _ s n s' hs hok)
      fun n => Call.keeps_pure _

theorem keeps_verifyRecovery {row : OwnerRow} {code : String}
    (h : ∀ code hash read s n s', P.compare code hash = true → I s →
      (takeRecovery code hash read).Meets cond s → (takeRecovery code hash read).Ok s n s' → I s') :
    (verifyRecovery P row code).Keeps I cond := by
  unfold verifyRecovery
  dsimp only
  split
  · exact Call.keeps_pure _
  · split
    · exact Call.keeps_pure _
    · rename_i hash hfind
      have hcompare := List.find?_some hfind
      exact Call.keeps_bind (Call.keeps_transaction fun s n s' hs hmeets hok =>
        h _ hash _ s n s' hcompare hs hmeets hok) fun n => Call.keeps_pure _

/-- What both statements keep, `verify` keeps. -/
theorem keeps_verify
    (htotp : ∀ step s n s', I s → (advanceStep step).Ok s n s' → I s')
    (hrecovery : ∀ code hash read s n s', P.compare code hash = true → I s →
      (takeRecovery code hash read).Meets cond s → (takeRecovery code hash read).Ok s n s' → I s')
    (rawCode : Option String) : (verify P rawCode).Keeps I cond := by
  refine Call.keeps_bind (Call.keeps_readOnly fun _ _ _ hok => (Block.ok_get.mp hok).2) fun s => ?_
  dsimp only
  generalize trimText (normalizeDigits (rawCode.getD "")) = code
  cases s.row.totpSecret.filter (· ≠ "") with
  | none => exact Call.keeps_pure _
  | some totpSecret =>
    cases s.row.totpEnabled with
    | false => exact Call.keeps_pure _
    | true =>
      cases isTotpCode code with
      | true => exact keeps_verifyApp htotp
      | false => exact keeps_verifyRecovery hrecovery

end Keeps

/-! ## TOTP -/

/-- The steps accepted increase, and the row has the last of them. -/
structure StepsSound (s : MfaDb) : Prop where
  increasing : (acceptedSteps s).Pairwise (· < ·)
  last : ∀ step ∈ acceptedSteps s, ∃ l, s.row.totpLastStep = some l ∧ step ≤ l

theorem StepsSound.advance {step : ℤ} (h : StepsSound s)
    (hlast : ∀ l, s.row.totpLastStep = some l → l < step) :
    StepsSound ((s.note (.acceptsTotp step)).setRow { s.row with totpLastStep := some step }) := by
  have hsteps : acceptedSteps ((s.note (.acceptsTotp step)).setRow
      { s.row with totpLastStep := some step }) = acceptedSteps s ++ [step] := by
    simp [acceptedSteps, acceptedStep, List.filterMap_append]
  have hbefore : ∀ t ∈ acceptedSteps s, t < step := fun t ht => by
    obtain ⟨l, hl, hle⟩ := h.last t ht
    exact hle.trans_lt (hlast l hl)
  constructor
  · rw [hsteps, List.pairwise_append]
    refine ⟨h.increasing, List.pairwise_singleton _ _, fun t ht u hu => ?_⟩
    rw [List.mem_singleton.mp hu]
    exact hbefore t ht
  · intro t ht
    rw [hsteps, List.mem_append, List.mem_singleton] at ht
    refine ⟨step, rfl, ?_⟩
    rcases ht with ht | rfl
    · exact (hbefore t ht).le
    · exact le_rfl

/-- Recovery codes are about another column. -/
theorem StepsSound.recovery {code hash : String} {read : List String} (h : StepsSound s) :
    StepsSound ((s.note (.acceptsRecovery code hash read)).setRow
      { s.row with backupCodesHash := read.filter (· ≠ hash) }) := by
  have hsteps : acceptedSteps ((s.note (.acceptsRecovery code hash read)).setRow
      { s.row with backupCodesHash := read.filter (· ≠ hash) }) = acceptedSteps s := by
    simp [acceptedSteps, acceptedStep, List.filterMap_append]
  exact ⟨hsteps ▸ h.increasing, hsteps ▸ h.last⟩

theorem keeps_steps {cond : MfaMark → MfaDb → Prop} (rawCode : Option String) :
    (verify P rawCode).Keeps StepsSound cond := by
  refine keeps_verify (fun step s n s' hs hok => ?_)
    (fun code hash read s n s' _ hs _ hok => ?_) rawCode
  · rcases advanceStep_ok hok with ⟨-, hlast, rfl⟩ | ⟨-, rfl⟩
    · exact hs.advance hlast
    · exact hs
  · rcases takeRecovery_ok hok with ⟨-, -, rfl⟩ | ⟨-, rfl⟩
    · exact hs.recovery
    · exact hs

/-! ## Recovery codes -/

/-- The codes left are the issued ones less the accepted ones, and those accepted belong to
their hashes. -/
structure CodesSound (P : Primitives) (issued : List String) (s : MfaDb) : Prop where
  once : (acceptedHashes s).Nodup
  left : s.row.backupCodesHash = issued.filter (· ∉ acceptedHashes s)
  owned : ∀ c ∈ acceptedRecoveries s, c.2 ∈ issued ∧ P.compare c.1 c.2 = true

/-- A code that is on the list is taken off it. -/
theorem CodesSound.take {code hash : String} (h : CodesSound P issued s)
    (hcompare : P.compare code hash = true) (hmem : hash ∈ s.row.backupCodesHash) :
    CodesSound P issued ((s.note (.acceptsRecovery code hash s.row.backupCodesHash)).setRow
      { s.row with backupCodesHash := s.row.backupCodesHash.filter (· ≠ hash) }) := by
  have haccepted : acceptedRecoveries ((s.note (.acceptsRecovery code hash
      s.row.backupCodesHash)).setRow { s.row with
        backupCodesHash := s.row.backupCodesHash.filter (· ≠ hash) }) =
      acceptedRecoveries s ++ [(code, hash)] := by
    simp [acceptedRecoveries, acceptedRecovery, List.filterMap_append]
  have hhashes : ∀ t, acceptedRecoveries t = acceptedRecoveries s ++ [(code, hash)] →
      acceptedHashes t = acceptedHashes s ++ [hash] := fun t ht => by
    rw [acceptedHashes, ht, List.map_append]
    rfl
  have hissued : hash ∈ issued ∧ hash ∉ acceptedHashes s := by
    rw [h.left] at hmem
    simpa using hmem
  constructor
  · rw [hhashes _ haccepted]
    exact List.nodup_append.mpr ⟨h.once, List.nodup_singleton _, fun a ha b hb hab =>
      hissued.2 (List.mem_singleton.mp hb ▸ hab ▸ ha)⟩
  · rw [hhashes _ haccepted]
    show s.row.backupCodesHash.filter (· ≠ hash) = _
    rw [h.left, List.filter_filter]
    refine List.filter_congr fun x _ => ?_
    simp [not_or, and_comm]
  · intro c hc
    rw [haccepted, List.mem_append, List.mem_singleton] at hc
    rcases hc with hc | rfl
    · exact h.owned c hc
    · exact ⟨hissued.1, hcompare⟩

theorem CodesSound.totp {step : ℤ} (h : CodesSound P issued s) :
    CodesSound P issued
      ((s.note (.acceptsTotp step)).setRow { s.row with totpLastStep := some step }) := by
  have haccepted : acceptedRecoveries ((s.note (.acceptsTotp step)).setRow
      { s.row with totpLastStep := some step }) = acceptedRecoveries s := by
    simp [acceptedRecoveries, acceptedRecovery, List.filterMap_append]
  have hhashes : acceptedHashes ((s.note (.acceptsTotp step)).setRow
      { s.row with totpLastStep := some step }) = acceptedHashes s := by
    rw [acceptedHashes, haccepted, acceptedHashes]
  exact ⟨hhashes ▸ h.once, hhashes ▸ h.left, haccepted ▸ h.owned⟩

theorem keeps_codes (rawCode : Option String) :
    (verify P rawCode).Keeps (CodesSound P issued) StillAsRead := by
  refine keeps_verify (fun step s n s' hs hok => ?_)
    (fun code hash read s n s' hcompare hs hmeets hok => ?_) rawCode
  · rcases advanceStep_ok hok with ⟨-, -, rfl⟩ | ⟨-, rfl⟩
    · exact hs.totp
    · exact hs
  · rcases takeRecovery_ok hok with ⟨-, hmem, rfl⟩ | ⟨-, rfl⟩
    · obtain rfl := meets_takeRecovery hmeets hmem
      exact hs.take hcompare hmem
    · exact hs

/-- A code that belongs to one hash is accepted once if the hash is. -/
theorem CodesSound.codes (h : CodesSound P issued s) (hapart : CodesApart P issued) :
    ((acceptedRecoveries s).map Prod.fst).Nodup := by
  refine List.Nodup.map_on (fun c hc d hd hcode => ?_) (List.Nodup.of_map _ h.once)
  obtain ⟨hissued, hcompare⟩ := h.owned c hc
  obtain ⟨hissued', hcompare'⟩ := h.owned d hd
  exact Prod.ext hcode (hapart d.1 c.2 hissued d.2 hissued' (hcode ▸ hcompare) hcompare')

/-! ## Runs -/

/-- The clock is set. -/
def ClockMoves (s s' : MfaDb) : Prop := ∃ now, s' = { s with now := now }

/-- Calls of `verify` in progress. -/
abbrev MfaPool : Type 1 := Pool (Option String) MfaError ℕ MfaMark MfaDb (Option MfaMethodUsed)

/-- In every run the TOTP steps accepted increase. -/
theorem steps_increase {s₀ : MfaDb} {p : MfaPool} (hstart : s₀.history = [])
    {cond : MfaMark → MfaDb → Prop}
    (hrun : Runs (Pool.Step (verify P) ClockMoves) (Pool.Allowed cond fun _ _ => True)
      ⟨s₀, []⟩ p) : (acceptedSteps p.db).Pairwise (· < ·) := by
  have hsound : StepsSound s₀ := by
    constructor <;> simp [acceptedSteps, hstart]
  refine (Pool.invariant (p := (⟨s₀, []⟩ : MfaPool)) keeps_steps ?_ hsound nofun hrun).increasing
  rintro s _ h ⟨now, rfl⟩ -
  exact ⟨h.increasing, h.last⟩

/-- Recovery codes that are taken while the list is as it was read, and TOTP codes in any order:
each is accepted once, and the codes left are the issued ones less the accepted ones. -/
theorem factors_used_once {s₀ : MfaDb} {p : MfaPool} (hstart : s₀.history = [])
    (hrun : Runs (Pool.Step (verify P) ClockMoves) (Pool.Allowed StillAsRead fun _ _ => True)
      ⟨s₀, []⟩ p) : OneTime P s₀.row.backupCodesHash p.db := by
  have hsound : CodesSound P s₀.row.backupCodesHash s₀ := by
    constructor <;> simp [acceptedHashes, acceptedRecoveries, hstart]
  have hcodes : CodesSound P s₀.row.backupCodesHash p.db := by
    refine Pool.invariant (p := (⟨s₀, []⟩ : MfaPool)) keeps_codes ?_ hsound nofun hrun
    rintro s _ h ⟨now, rfl⟩ -
    exact ⟨h.once, h.left, h.owned⟩
  refine ⟨steps_increase hstart hrun, hcodes.once, hcodes.codes, fun h => ?_⟩
  rw [hcodes.left]
  simp

/-! ## An account with two recovery codes -/

/-- The digests of the secret below for the first three counters. -/
def hmacTable (counter : ℕ) : List ℕ :=
  match counter with
  | 0 => [0xcc, 0x93, 0xcf, 0x18, 0x50, 0x8d, 0x94, 0x93, 0x4c, 0x64,
      0xb6, 0x5d, 0x8b, 0xa7, 0x66, 0x7f, 0xb7, 0xcd, 0xe4, 0xb0]
  | 1 => [0x75, 0xa4, 0x8a, 0x19, 0xd4, 0xcb, 0xe1, 0x00, 0x64, 0x4e,
      0x8a, 0xc1, 0x39, 0x7e, 0xea, 0x74, 0x7a, 0x2d, 0x33, 0xab]
  | _ => [0x0b, 0xac, 0xb7, 0xfa, 0x08, 0x2f, 0xef, 0x30, 0x78, 0x22,
      0x11, 0x93, 0x8b, 0xc1, 0xc5, 0xe7, 0x04, 0x16, 0xff, 0x44]

/-- A hash that shows its code. -/
def hashOf (code : String) : String := "$2a$10$" ++ code

/-- Hashes that show their codes, and a secret that is not encrypted. -/
def plain : Primitives where
  hmacSha1 _ msg := hmacTable (msg.getD 7 0)
  compare code hash := hash == hashOf code
  decrypt v := some v
  toUpperCase v := v.map Char.toUpper

/-- The account, at the end of the first minute of the clock. -/
def account : MfaDb where
  row :=
    { totpSecret := some "GEZDGNBVGY3TQOJQGEZDGNBVGY3TQOJQ"
      totpEnabled := true
      totpLastStep := none
      backupCodesHash := [hashOf "ABCDEFGHJK", hashOf "MNPQRSTUVW"] }
  now := 59000
  history := []
  nextId := 0

example : hotp plain "GEZDGNBVGY3TQOJQGEZDGNBVGY3TQOJQ" 1 = "287082" := by decide

theorem account_apart : CodesApart plain account.row.backupCodesHash := by
  intro code h _ h' _ hcode hcode'
  simp only [plain, beq_iff_eq] at hcode hcode'
  rw [hcode, hcode']

/-- `StillAsRead` as a test. -/
def stillAsRead : MfaMark → MfaDb → Bool
  | .acceptsTotp _, _ => true
  | .acceptsRecovery _ _ read, s => s.row.backupCodesHash == read

theorem stillAsRead_sound (l : MfaMark) (s : MfaDb) (h : stillAsRead l s = true) :
    StillAsRead l s := by
  cases l with
  | acceptsTotp step => trivial
  | acceptsRecovery code hash read => exact beq_iff_eq.mp h

/-- The events on the account, as long as the marks passed meet the condition. -/
abbrev played (test : MfaMark → MfaDb → Bool) (es : List (PoolEvent (Option String) MfaDb)) :
    Option MfaPool :=
  Pool.playAllowed (verify plain) test ⟨account, []⟩ es

/-- `factors_used_once` for a recovery code, then the code of the application twice. -/
theorem factors_used_once_account : ∃ p,
    played stillAsRead [.start (some "abcde-fghjk"), .start (some "۲۸۷۰۸۲"),
      .start (some "287082"), .advance 0, .advance 1, .advance 2, .advance 0, .advance 1,
      .advance 2, .advance 1, .advance 2] = some p ∧
    acceptedSteps p.db = [1] ∧ p.db.row.backupCodesHash = [hashOf "MNPQRSTUVW"] ∧
    OneTime plain account.row.backupCodesHash p.db := by
  have hplayed : (played stillAsRead [.start (some "abcde-fghjk"), .start (some "۲۸۷۰۸۲"),
      .start (some "287082"), .advance 0, .advance 1, .advance 2, .advance 0, .advance 1,
      .advance 2, .advance 1, .advance 2]).map
        (fun p => (acceptedSteps p.db, p.db.row.backupCodesHash)) =
          some ([1], [hashOf "MNPQRSTUVW"]) := by decide +kernel
  obtain ⟨p, hp, hafter⟩ := Option.map_eq_some_iff.mp hplayed
  obtain ⟨hsteps, hleft⟩ := Prod.mk.inj hafter
  exact ⟨p, hp, hsteps, hleft, factors_used_once rfl (Pool.runs_of_playAllowed stillAsRead_sound hp)⟩

/-- Two calls read both codes and take one each. The second writes the code of the first back,
and it is accepted again. -/
theorem recovery_code_returns : CodesApart plain account.row.backupCodesHash ∧ ∃ p,
    Runs (Pool.Step (verify plain) ClockMoves) always ⟨account, []⟩ p ∧
      (acceptedRecoveries p.db).map Prod.fst = ["ABCDEFGHJK", "MNPQRSTUVW", "ABCDEFGHJK"] ∧
        ¬OneTime plain account.row.backupCodesHash p.db := by
  refine ⟨account_apart, ?_⟩
  have hplayed : (played (fun _ _ => true) [.start (some "ABCDE-FGHJK"),
      .start (some "MNPQR-STUVW"), .advance 0, .advance 1, .advance 0, .advance 1,
      .start (some "ABCDE-FGHJK"), .advance 2, .advance 2]).map
        (fun p => (acceptedRecoveries p.db).map Prod.fst) =
          some ["ABCDEFGHJK", "MNPQRSTUVW", "ABCDEFGHJK"] := by decide +kernel
  obtain ⟨p, hp, hcodes⟩ := Option.map_eq_some_iff.mp hplayed
  have hallowed : Runs (Pool.Step (verify plain) ClockMoves)
      (Pool.Allowed (fun _ _ => True) fun _ _ => True) ⟨account, []⟩ p :=
    Pool.runs_of_playAllowed (fun _ _ _ => trivial) hp
  refine ⟨p, hallowed.mono fun _ _ _ => trivial, hcodes, fun h => ?_⟩
  have hnodup := h.codes account_apart
  rw [hcodes] at hnodup
  exact absurd hnodup (by decide)

end MfaService

end ArkanGold
