import ArkanGold.Common.IpAddress

/-!
# What accepted texts denote

- `groups_eq_some`: an accepted IPv6 text has a gap or all its groups.
- `v4_network_iff`, `v6_network_iff`: a network is its first three octets, or first four groups.
- `dotted_fullV4`, `groups_fullV6`: every address has a full spelling.
- `not_isSpace_of_isIP`: an accepted text has no white space.
-/

namespace ArkanGold

namespace IpAddress

open Pieces Positional

/-! ## Accepted texts -/

theorem dotted_bounds {cs : List Char} {ds : List ℕ} (h : dotted cs = some ds) :
    ∃ a b c d, ds = [a, b, c, d] ∧ a ≤ 255 ∧ b ≤ 255 ∧ c ≤ 255 ∧ d ≤ 255 := by
  obtain ⟨hlength, hread⟩ := dotted_eq_some.mp h
  obtain ⟨p, q, r, t, hps⟩ := List.length_eq_four.mp hlength
  rw [hps] at hread
  obtain ⟨a, ds₁, ha, hread₁, rfl⟩ := List.forall₂_cons_left_iff.mp hread
  obtain ⟨b, ds₂, hb, hread₂, rfl⟩ := List.forall₂_cons_left_iff.mp hread₁
  obtain ⟨c, ds₃, hc, hread₃, rfl⟩ := List.forall₂_cons_left_iff.mp hread₂
  obtain ⟨d, ds₄, hd, hread₄, rfl⟩ := List.forall₂_cons_left_iff.mp hread₃
  cases hread₄
  exact ⟨a, b, c, d, rfl, (octet_eq_some ha).2.2.2.1, (octet_eq_some hb).2.2.2.1,
    (octet_eq_some hc).2.2.2.1, (octet_eq_some hd).2.2.2.1⟩

theorem segment_lt {p : List Char} {n : ℕ} (h : segment p = some n) : n < 65536 := by
  obtain ⟨-, hlength, hdigits, rfl⟩ := segment_eq_some h
  have hlt : number 16 (p.map digitValue) < 16 ^ (p.map digitValue).length := by
    refine number_lt (by decide) fun d hd => ?_
    obtain ⟨c, hc, rfl⟩ := List.mem_map.mp hd
    exact digitValue_lt (hdigits c hc)
  rw [List.length_map] at hlt
  exact hlt.trans_le (Nat.pow_le_pow_right (by decide) hlength)

theorem reads_lt {ps : List (List Char)} {ns : List ℕ} (h : Reads ps ns) : ∀ n ∈ ns, n < 65536 := by
  induction h with
  | nil => exact fun n hn => absurd hn List.not_mem_nil
  | cons hp _ ih => exact List.forall_mem_cons.mpr ⟨segment_lt hp, ih⟩

theorem segments_lt {ps : List (List Char)} {ns : List ℕ} (h : segments ps = some ns) :
    ∀ n ∈ ns, n < 65536 := by
  obtain hread | ⟨qs, d, ms, ds, -, hread, hd, rfl⟩ := segments_eq_some h
  · exact reads_lt hread
  · refine List.forall_mem_append.mpr ⟨reads_lt hread, ?_⟩
    obtain ⟨a, b, c, d, rfl, ha, hb, hc, hd⟩ := dotted_bounds hd
    simp only [List.take_succ_cons, List.take_zero, List.drop_succ_cons, List.drop_zero, number,
      List.foldl_cons, List.foldl_nil, List.mem_cons, List.not_mem_nil, or_false]
    rintro n (rfl | rfl) <;> omega

theorem groups_eq_some {cs : List Char} {gs : List ℕ} (h : groups cs = some gs) :
    isZone (zone cs) = true ∧
      ((after gap (bare cs) = none ∧ segments (pieces (bare cs)) = some gs ∧ gs.length = 8) ∨
        ∃ tail hs ts, after gap (bare cs) = some tail ∧ Reads (pieces (before gap (bare cs))) hs ∧
          segments (pieces tail) = some ts ∧ hs.length + ts.length ≤ 7 ∧
          gs = hs ++ (List.replicate (8 - hs.length - ts.length) 0 ++ ts)) := by
  rw [groups] at h
  split at h
  case isFalse => cases h
  case isTrue hz =>
    refine ⟨hz, ?_⟩
    split at h
    case h_1 hgap =>
      obtain ⟨hgs, hlength⟩ := Option.filter_eq_some_iff.mp h
      exact Or.inl ⟨hgap, hgs, of_decide_eq_true hlength⟩
    case h_2 tail hgap =>
      obtain ⟨hs, hhs, h⟩ := Option.bind_eq_some_iff.mp h
      obtain ⟨ts, hts, h⟩ := Option.bind_eq_some_iff.mp h
      split at h
      case isFalse => cases h
      case isTrue hle =>
        exact Or.inr ⟨tail, hs, ts, hgap, mapM_eq_some.mp hhs, hts, hle, (Option.some.inj h).symm⟩

theorem groups_length {cs : List Char} {gs : List ℕ} (h : groups cs = some gs) : gs.length = 8 := by
  obtain ⟨-, ⟨-, -, hlength⟩ | ⟨tail, hs, ts, -, -, -, hle, rfl⟩⟩ := groups_eq_some h
  · exact hlength
  · rw [List.length_append, List.length_append, List.length_replicate]
    omega

theorem groups_lt {cs : List Char} {gs : List ℕ} (h : groups cs = some gs) :
    ∀ g ∈ gs, g < 65536 := by
  obtain ⟨-, ⟨-, hgs, -⟩ | ⟨tail, hs, ts, -, hhs, hts, -, rfl⟩⟩ := groups_eq_some h
  · exact segments_lt hgs
  · refine List.forall_mem_append.mpr
      ⟨reads_lt hhs, List.forall_mem_append.mpr ⟨?_, segments_lt hts⟩⟩
    intro g hg
    rw [List.eq_of_mem_replicate hg]
    decide

theorem isIP_eq_four {v : String} : isIP v = 4 ↔ ∃ ds, dotted v.toList = some ds := by
  rw [isIP, ← Option.isSome_iff_exists]
  split
  case isTrue h => exact iff_of_true rfl h
  case isFalse h =>
    refine iff_of_false ?_ h
    split <;> decide

theorem isIP_eq_six {v : String} :
    isIP v = 6 ↔ dotted v.toList = none ∧ ∃ gs, groups v.toList = some gs := by
  rw [isIP, ← Option.isSome_iff_exists, ← Option.not_isSome_iff_eq_none]
  split
  case isTrue h => exact iff_of_false (by decide) (fun h' => h'.1 h)
  case isFalse h =>
    split
    case isTrue h' => exact iff_of_true rfl ⟨h, h'⟩
    case isFalse h' => exact iff_of_false (by decide) (fun h'' => h' h''.2)

theorem isIP_cases (v : String) : isIP v = 0 ∨ isIP v = 4 ∨ isIP v = 6 := by
  rw [isIP]
  split
  · exact Or.inr (Or.inl rfl)
  · split
    · exact Or.inr (Or.inr rfl)
    · exact Or.inl rfl

/-! ## Networks -/

theorem address_of_dotted {v : String} {ds : List ℕ} (h : dotted v.toList = some ds) :
    address v = some (.v4 (number 256 ds)) := by
  rw [address, h]

theorem address_of_groups {v : String} {gs : List ℕ} (hdotted : dotted v.toList = none)
    (h : groups v.toList = some gs) : address v = some (.ofBits (number 65536 gs)) := by
  rw [address, hdotted, h]
  rfl

/-- Two IPv4 addresses are of one network if their first three octets are the same. -/
theorem v4_network_iff {ds es : List ℕ} (hds : ds.length = 4) (hes : es.length = 4)
    (hdlt : ∀ d ∈ ds, d < 256) (helt : ∀ e ∈ es, e < 256) :
    (Address.v4 (number 256 ds)).network = (Address.v4 (number 256 es)).network ↔
      ds.take 3 = es.take 3 := by
  have hdiv {ds : List ℕ} (hds : ds.length = 4) (hlt : ∀ d ∈ ds, d < 256) :
      number 256 ds / 2 ^ 8 = number 256 (ds.take 3) := by
    have h := number_append_div (b := 256) (by decide) (ds.take 3)
      (fun e he => hlt e (List.mem_of_mem_drop (i := 3) he))
    rwa [List.take_append_drop, List.length_drop, hds] at h
  rw [Address.network, Address.network, Address.v4.injEq, hdiv hds hdlt, hdiv hes helt]
  refine ⟨fun h => number_inj (by decide) ?_ ?_ ?_ h, fun h => by rw [h]⟩
  · rw [List.length_take, List.length_take, hds, hes]
  · exact fun d hd => hdlt d (List.mem_of_mem_take hd)
  · exact fun e he => helt e (List.mem_of_mem_take he)

/-- Two IPv6 addresses are of one network if their first four groups are the same. -/
theorem v6_network_iff {gs ks : List ℕ} (hgs : gs.length = 8) (hks : ks.length = 8)
    (hglt : ∀ g ∈ gs, g < 65536) (hklt : ∀ k ∈ ks, k < 65536) :
    (Address.v6 (number 65536 gs)).network = (Address.v6 (number 65536 ks)).network ↔
      gs.take 4 = ks.take 4 := by
  have hdiv {gs : List ℕ} (hgs : gs.length = 8) (hlt : ∀ g ∈ gs, g < 65536) :
      number 65536 gs / 2 ^ 64 = number 65536 (gs.take 4) := by
    have h := number_append_div (b := 65536) (by decide) (gs.take 4)
      (fun e he => hlt e (List.mem_of_mem_drop (i := 4) he))
    rwa [List.take_append_drop, List.length_drop, hgs] at h
  rw [Address.network, Address.network, Address.v6.injEq, hdiv hgs hglt, hdiv hks hklt]
  refine ⟨fun h => number_inj (by decide) ?_ ?_ ?_ h, fun h => by rw [h]⟩
  · rw [List.length_take, List.length_take, hgs, hks]
  · exact fun d hd => hglt d (List.mem_of_mem_take hd)
  · exact fun e he => hklt e (List.mem_of_mem_take he)

/-! ## Full spellings -/

/-- `n` in dotted decimals. -/
def fullV4 (ds : List ℕ) : List Char := List.intercalate ['.'] (ds.map (Nat.toDigits 10))

/-- All eight groups in four digits. -/
def fullV6 (gs : List ℕ) : List Char := List.intercalate [':'] (gs.map fullSegment)

theorem dotted_fullV4 {ds : List ℕ} (hlength : ds.length = 4) (hlt : ∀ d ∈ ds, d < 256) :
    dotted (fullV4 ds) = some ds := by
  have hdot : ∀ p ∈ ds.map (Nat.toDigits 10), '.' ∉ p := by
    intro p hp hdot
    obtain ⟨d, -, rfl⟩ := List.mem_map.mp hp
    exact absurd (Nat.isDigit_of_mem_toDigits (by decide) (by decide) hdot) (by decide)
  have hne : ds.map (Nat.toDigits 10) ≠ [] := by
    intro h
    rw [List.map_eq_nil_iff.mp h] at hlength
    cases hlength
  rw [dotted_eq_some, fullV4, List.splitOn_intercalate '.' hdot hne]
  refine ⟨by rw [List.length_map, hlength], List.forall₂_map_left_iff.mpr ?_⟩
  exact List.forall₂_same.mpr fun d hd => octet_toDigits d (hlt d hd)

theorem mem_fullSegment {n : ℕ} {c : Char} (h : c ∈ fullSegment n) : c ∈ hexDigits := by
  obtain ⟨d, hd, rfl⟩ := List.mem_map.mp h
  exact digitChar_mem d (nibbles_lt n d hd)

theorem splitOn_fullV6 {gs : List ℕ} (hlength : gs.length = 8) :
    (fullV6 gs).splitOn ':' = gs.map fullSegment := by
  refine List.splitOn_intercalate ':' ?_ ?_
  · intro p hp hcolon
    obtain ⟨g, -, rfl⟩ := List.mem_map.mp hp
    exact absurd (mem_fullSegment hcolon) (by decide)
  · intro h
    rw [List.map_eq_nil_iff.mp h] at hlength
    cases hlength

theorem mem_fullV6 {gs : List ℕ} (hlength : gs.length = 8) {c : Char} (h : c ∈ fullV6 gs) :
    c = ':' ∨ c ∈ hexDigits := by
  refine (mem_splitOn h).imp_right ?_
  rintro ⟨p, hp, hc⟩
  rw [splitOn_fullV6 hlength] at hp
  obtain ⟨g, -, rfl⟩ := List.mem_map.mp hp
  exact mem_fullSegment hc

/-- A text without per cent signs has no zone. -/
theorem bare_of_not_mem {cs : List Char} (h : '%' ∉ cs) : bare cs = cs ∧ zone cs = [] := by
  have hall : ∀ c ∈ cs, decide (c ≠ '%') = true := fun c hc =>
    decide_eq_true fun heq => h (heq ▸ hc)
  exact ⟨List.takeWhile_eq_self_iff.mpr hall, List.dropWhile_eq_nil_iff.mpr hall⟩

theorem reads_fullV6 {gs : List ℕ} (hlength : gs.length = 8) (hlt : ∀ g ∈ gs, g < 65536) :
    Reads (pieces (fullV6 gs)) gs := by
  have hne : fullV6 gs ≠ [] := by
    intro h
    have hsplit := congrArg List.length (splitOn_fullV6 hlength)
    rw [h, List.length_map, hlength] at hsplit
    cases hsplit
  rw [pieces, if_neg hne, splitOn_fullV6 hlength]
  exact List.forall₂_map_left_iff.mpr
    (List.forall₂_same.mpr fun g hg => segment_fullSegment (hlt g hg))

theorem groups_fullV6 {gs : List ℕ} (hlength : gs.length = 8) (hlt : ∀ g ∈ gs, g < 65536) :
    groups (fullV6 gs) = some gs ∧ after gap (bare (fullV6 gs)) = none ∧
      dotted (fullV6 gs) = none := by
  have hsegments := segments_of_reads (reads_fullV6 hlength hlt)
  have hpercent : '%' ∉ fullV6 gs := by
    intro h
    obtain h | h := mem_fullV6 hlength h
    · cases h
    · exact absurd h (by decide)
  obtain ⟨hbare, hzone⟩ := bare_of_not_mem hpercent
  have hgap : after gap (bare (fullV6 gs)) = none := hbare.symm ▸ after_gap_of_segments hsegments
  refine ⟨?_, hgap, ?_⟩
  · have hnone : isZone [] = true := rfl
    rw [groups, hzone, if_pos hnone, hgap, hbare]
    simp only [hsegments]
    rw [Option.filter_eq_some_iff]
    exact ⟨rfl, decide_eq_true hlength⟩
  · rw [Option.eq_none_iff_forall_ne_some]
    intro ds hds
    obtain h | h := mem_fullV6 hlength (dot_mem_of_dotted hds)
    · cases h
    · exact absurd h (by decide)

/-! ## Characters -/

theorem not_isSpace_of_mem_hexDigits {c : Char} (h : c ∈ hexDigits) : isSpace c = false := by
  have hall : hexDigits.all (!isSpace ·) = true := by decide
  simpa using List.all_eq_true.mp hall c h

theorem not_isSpace_of_isZoneChar {c : Char} (h : isZoneChar c = true) : isSpace c = false := by
  simp only [isZoneChar, Char.isAlphanum, Char.isAlpha, Char.isUpper, Char.isLower, Char.isDigit,
    Bool.or_eq_true, Bool.and_eq_true, decide_eq_true_eq, beq_iff_eq, ge_iff_le,
    UInt32.le_iff_toNat_le] at h
  have hrange : 45 ≤ c.toNat ∧ c.toNat ≤ 122 := by
    obtain ((((h | h) | h) | rfl) | rfl) | rfl := h
    · exact ⟨le_trans (by decide) h.1, le_trans h.2 (by decide)⟩
    · exact ⟨le_trans (by decide) h.1, le_trans h.2 (by decide)⟩
    · exact ⟨le_trans (by decide) h.1, le_trans h.2 (by decide)⟩
    · decide
    · decide
    · decide
  simp only [isSpace, Bool.or_eq_false_iff, Bool.and_eq_false_iff, decide_eq_false_iff_not,
    beq_eq_false_iff_ne]
  omega

theorem not_isSpace_of_dotted {cs : List Char} {ds : List ℕ} (h : dotted cs = some ds) :
    ∀ c ∈ cs, isSpace c = false := by
  intro c hc
  obtain rfl | hc := mem_of_dotted h hc
  · decide
  · exact not_isSpace_of_mem_hexDigits hc

theorem not_isSpace_of_reads {ps : List (List Char)} {ns : List ℕ} (h : Reads ps ns) :
    ∀ p ∈ ps, ∀ c ∈ p, isSpace c = false := by
  intro p hp c hc
  obtain ⟨n, -, hn⟩ := exists_of_forall₂ h hp
  exact not_isSpace_of_mem_hexDigits ((segment_eq_some hn).2.2.1 c hc)

theorem not_isSpace_of_segments {ps : List (List Char)} {ns : List ℕ} (h : segments ps = some ns) :
    ∀ p ∈ ps, ∀ c ∈ p, isSpace c = false := by
  obtain hread | ⟨qs, d, ms, ds, rfl, hread, hd, -⟩ := segments_eq_some h
  · exact not_isSpace_of_reads hread
  · refine List.forall_mem_append.mpr ⟨not_isSpace_of_reads hread, fun p hp => ?_⟩
    rw [List.mem_singleton.mp hp]
    exact not_isSpace_of_dotted hd

theorem not_isSpace_of_pieces {cs : List Char} (h : ∀ p ∈ pieces cs, ∀ c ∈ p, isSpace c = false) :
    ∀ c ∈ cs, isSpace c = false := by
  intro c hc
  obtain rfl | ⟨p, hp, hcp⟩ := mem_splitOn (a := ':') hc
  · decide
  · refine h p ?_ c hcp
    rwa [pieces, if_neg (List.ne_nil_of_mem hc)]

/-- A zone starts with its per cent sign. -/
theorem zone_head (cs : List Char) : ∀ c ∈ (zone cs).head?, c = '%' := by
  intro c hc
  have h := List.head?_dropWhile_not (fun c => decide (c ≠ '%')) cs
  rw [← zone, hc] at h
  simpa using h

theorem not_isSpace_of_isZone {z : List Char} (h : isZone z = true)
    (hhead : ∀ c ∈ z.head?, c = '%') : ∀ c ∈ z, isSpace c = false := by
  cases z with
  | nil => exact fun c hc => absurd hc List.not_mem_nil
  | cons d w =>
    refine List.forall_mem_cons.mpr ⟨?_, fun c hc => not_isSpace_of_isZoneChar ?_⟩
    · rw [hhead d rfl]
      decide
    · have hall : w.all isZoneChar = true := by simp_all [isZone]
      exact List.all_eq_true.mp hall c hc

/-- An accepted text has no white space. -/
theorem not_isSpace_of_isIP {v : String} (h : isIP v ≠ 0) : ∀ c ∈ v.toList, isSpace c = false := by
  obtain h0 | h4 | h6 := isIP_cases v
  · exact absurd h0 h
  · obtain ⟨ds, hds⟩ := isIP_eq_four.mp h4
    exact not_isSpace_of_dotted hds
  · obtain ⟨-, gs, hgs⟩ := isIP_eq_six.mp h6
    obtain ⟨hzone, hgroups⟩ := groups_eq_some hgs
    rw [← List.takeWhile_append_dropWhile (p := fun c => decide (c ≠ '%')) (l := v.toList)]
    refine List.forall_mem_append.mpr ⟨?_, ?_⟩
    · change ∀ c ∈ bare v.toList, isSpace c = false
      obtain ⟨-, hsegments, -⟩ | ⟨tail, hs, ts, htail, hhs, hts, -, -⟩ := hgroups
      · exact not_isSpace_of_pieces (not_isSpace_of_segments hsegments)
      · rw [eq_of_after_eq_some htail]
        refine List.forall_mem_append.mpr ⟨List.forall_mem_append.mpr ⟨?_, ?_⟩, ?_⟩
        · exact not_isSpace_of_pieces (not_isSpace_of_reads hhs)
        · simp only [gap, List.mem_cons, List.not_mem_nil, or_false, or_self]
          rintro c rfl
          decide
        · exact not_isSpace_of_pieces (not_isSpace_of_segments hts)
    · change ∀ c ∈ zone v.toList, isSpace c = false
      exact not_isSpace_of_isZone hzone (zone_head v.toList)

end IpAddress

end ArkanGold
