import ArkanGold.Common.ClientIp
import ArkanGold.Lib.Guarantee

/-!
# Forwarded identities are authentic

Every interleaving of requests, with front servers that sign what they forward.

- `payload_injective`: the message determines what is forwarded as long as the address has no bar in
  it. The address is the one value that nobody looks at before the signature.
- `Trusted` is what is asked of a request whose values are taken: the signature of a message comes
  from a front server, and the nonce is registered within the skew.
- `forwarded_authentic`: what is taken was signed as it is exactly when the address has no bar, and
  no token is taken twice. `forged_and_replayed` is what happens otherwise.
-/

namespace ArkanGold

namespace ClientIp

variable {P : Primitives} {secret : Option String} {registry : Bool} {s s' : ProxyDb}
  {f g : Forwarded} {r : Request} {sig : String}

/-! ## The message -/

/-- A text without a separator ends at the first one. -/
theorem cut_unique {α : Type} {c : α} {a b : List α} {u v : List α} (ha : c ∉ a) (hb : c ∉ b)
    (h : a ++ c :: u = b ++ c :: v) : a = b ∧ u = v := by
  induction a generalizing b with
  | nil =>
    cases b with
    | nil => exact ⟨rfl, (List.cons.inj h).2⟩
    | cons d b =>
      simp only [List.nil_append, List.cons_append, List.cons.injEq] at h
      exact absurd (h.1 ▸ List.mem_cons_self) hb
  | cons d a ih =>
    cases b with
    | nil =>
      simp only [List.nil_append, List.cons_append, List.cons.injEq] at h
      exact absurd (h.1 ▸ List.mem_cons_self) ha
    | cons e b =>
      simp only [List.cons_append, List.cons.injEq] at h
      obtain ⟨rfl, htail⟩ := h
      obtain ⟨rfl, rfl⟩ := ih (fun hm => ha (List.mem_cons_of_mem _ hm))
        (fun hm => hb (List.mem_cons_of_mem _ hm)) htail
      exact ⟨rfl, rfl⟩

theorem toList_payload : f.payload.toList = "arkan-bff-v1|".toList ++
    (f.ts.toList ++ '|' :: (f.nonce.toList ++ '|' :: (f.ip.toList ++ '|' :: f.ua.toList))) := by
  have hbar : "|".toList = ['|'] := by simp
  unfold Forwarded.payload
  rw [String.toList_append, String.toList_append, String.toList_append, String.toList_append,
    String.toList_append, String.toList_append, String.toList_append, hbar]
  generalize "arkan-bff-v1|".toList = l
  simp only [List.append_assoc, List.cons_append, List.nil_append]

/-- The checks before the signature. -/
structure Passes (f : Forwarded) : Prop where
  ts : isTimestamp f.ts = true
  nonce : isNonce f.nonce = true

theorem Passes.ts_bar (h : Passes f) : '|' ∉ f.ts.toList := by
  have hdigits := (Bool.and_eq_true_iff.mp h.ts).2
  intro hmem
  exact absurd (List.all_eq_true.mp hdigits _ hmem) (by decide)

theorem Passes.nonce_bar (h : Passes f) : '|' ∉ f.nonce.toList := by
  have hchars := (Bool.and_eq_true_iff.mp h.nonce).2
  intro hmem
  exact absurd (List.all_eq_true.mp hchars _ hmem) (by decide)

/-- The message determines what is forwarded, if the addresses have no bar. -/
theorem payload_injective (hf : Passes f) (hg : Passes g) (hfip : '|' ∉ f.ip.toList)
    (hgip : '|' ∉ g.ip.toList) (h : f.payload = g.payload) : f = g := by
  have h := congrArg String.toList h
  rw [toList_payload, toList_payload] at h
  obtain ⟨hts, h⟩ := cut_unique hf.ts_bar hg.ts_bar (List.append_cancel_left h)
  obtain ⟨hnonce, h⟩ := cut_unique hf.nonce_bar hg.nonce_bar h
  obtain ⟨hip, hua⟩ := cut_unique hfip hgip h
  obtain ⟨ts, nonce, ip, ua⟩ := f
  obtain ⟨ts', nonce', ip', ua'⟩ := g
  rw [Forwarded.mk.injEq]
  exact ⟨String.toList_inj.mp hts, String.toList_inj.mp hnonce, String.toList_inj.mp hip,
    String.toList_inj.mp hua⟩

/-! ## The surroundings -/

/-- What a front server signs: the time, a nonce of its own, and an address if it has found one. -/
structure FromFront (P : Primitives) (f : Forwarded) : Prop where
  passes : Passes f
  ip : f.ip = "" ∨ P.isIP f.ip = true

theorem FromFront.ip_bar (h : FromFront P f) : '|' ∉ f.ip.toList := by
  rcases h.ip with hip | hip
  · simp [hip]
  · exact P.isIP_bar _ hip

/-- What happens besides the requests. -/
inductive Surroundings (P : Primitives) (s s' : ProxyDb) : Prop where
  /-- time passes -/
  | later (now : ℤ) (hnow : s.now ≤ now) (heq : s' = { s with now := now })
  /-- keys that have come to their end are dropped -/
  | expires (n : List (String × ℤ)) (hkeeps : ∀ k ∈ s.nonces, s.now < k.2 → k ∈ n)
      (heq : s' = s.setNonces n)
  /-- a front server signs -/
  | signs (f : Forwarded) (hf : FromFront P f) (heq : s' = { s with signed := f :: s.signed })

/-- Whoever has the signature of a message has it from a front server. -/
def Unforged (P : Primitives) (secret : Option String) : ProxyMark → ProxyDb → Prop
  | .accepts f sig, s =>
    ∀ k, secret = some k → sig = signBffRequest P k f → ∃ g ∈ s.signed, g.payload = f.payload

/-- And the nonce is registered before the time of the token has passed. -/
def Trusted (P : Primitives) (secret : Option String) : ProxyMark → ProxyDb → Prop
  | .accepts f sig, s =>
    Unforged P secret (.accepts f sig) s ∧ s.now < f.time + PROXY_MAX_SKEW_MS

/-! ## The invariant -/

/-- The token of an accepted request. -/
def tokenOf : ProxyMark → String × String
  | .accepts f _ => (f.ts, f.nonce)

/-- What holds in every state reached. -/
structure ProxySound (P : Primitives) (registry : Bool) (s : ProxyDb) : Prop where
  front : ∀ f ∈ s.signed, FromFront P f
  accepted : ∀ f sig, .accepts f sig ∈ s.history → Passes f ∧ ∃ g ∈ s.signed, g.payload = f.payload
  covered : registry = true → ∀ f sig, .accepts f sig ∈ s.history →
    f.time + PROXY_MAX_SKEW_MS ≤ s.now ∨ ∃ e, (f.nonce, e) ∈ s.nonces ∧
      f.time + PROXY_MAX_SKEW_MS ≤ e
  once : registry = true → (s.history.map tokenOf).Nodup

/-- Calls rely on time that does not go back, and on what was signed and taken. -/
structure Proceeds (s s' : ProxyDb) : Prop where
  now : s.now ≤ s'.now
  signed : ∀ f ∈ s.signed, f ∈ s'.signed
  history : ∀ l ∈ s.history, l ∈ s'.history

/-- The guarantee. -/
def proxyGuarantee (P : Primitives) (secret : Option String) (registry : Bool) :
    Guarantee ProxyMark ProxyDb where
  inv := ProxySound P registry
  step := Proceeds
  cond := Trusted P secret
  refl _ := ⟨le_rfl, fun _ h => h, fun _ h => h⟩
  trans _ _ _ h h' := ⟨h.now.trans h'.now, fun f hf => h'.signed f (h.signed f hf),
    fun l hl => h'.history l (h.history l hl)⟩

theorem ProxySound.surroundings (hs : ProxySound P registry s) (h : Surroundings P s s') :
    (proxyGuarantee P secret registry).Allows s s' := by
  cases h with
  | later now hnow heq =>
    subst heq
    refine ⟨⟨hs.front, hs.accepted, fun hreg f sig hmem => ?_, hs.once⟩,
      ⟨hnow, fun _ h => h, fun _ h => h⟩⟩
    exact (hs.covered hreg f sig hmem).imp_left fun hpast => hpast.trans hnow
  | expires n hkeeps heq =>
    subst heq
    refine ⟨⟨hs.front, hs.accepted, fun hreg f sig hmem => ?_, hs.once⟩,
      ⟨le_rfl, fun _ h => h, fun _ h => h⟩⟩
    rcases hs.covered hreg f sig hmem with hpast | ⟨e, he, hle⟩
    · exact .inl hpast
    · by_cases hlive : s.now < e
      · exact .inr ⟨e, hkeeps _ he hlive, hle⟩
      · exact .inl (hle.trans (not_lt.mp hlive))
  | signs f hf heq =>
    subst heq
    refine ⟨⟨fun g hg => ?_, fun g sig hmem => ?_, hs.covered, hs.once⟩,
      ⟨le_rfl, fun _ h => List.mem_cons_of_mem _ h, fun _ h => h⟩⟩
    · rcases List.mem_cons.mp hg with rfl | hg
      · exact hf
      · exact hs.front g hg
    · obtain ⟨hpasses, g', hg', heq⟩ := hs.accepted g sig hmem
      exact ⟨hpasses, g', List.mem_cons_of_mem _ hg', heq⟩

/-- What a valid request has. -/
structure Valid (P : Primitives) (secret : Option String) (r : Request) (now : ℤ) : Prop where
  passes : Passes r.forwarded
  since : r.forwarded.time - PROXY_MAX_SKEW_MS ≤ now
  sig : ∃ k, secret = some k ∧ headerValue r.sig = signBffRequest P k r.forwarded

theorem valid_of_isValid {now : ℤ} (h : isValid P secret now r = true) :
    Valid P secret r now := by
  unfold isValid at h
  split at h
  case h_1 => cases h
  case h_2 k hk =>
    simp only [isFresh, Bool.and_eq_true, decide_eq_true_eq, beq_iff_eq] at h
    obtain ⟨⟨⟨⟨hts, hfresh⟩, hnonce⟩, -⟩, hsig⟩ := h
    have hbound := (abs_le.mp hfresh).1
    exact ⟨⟨hts, hnonce⟩, by linarith, k, (Option.filter_eq_some_iff.mp hk).1, hsig⟩

/-- An accepted request is valid, and signed in some way. -/
theorem ProxySound.note (hs : ProxySound P registry s) (hvalid : Valid P secret r s.now)
    (htrusted : Trusted P secret (.accepts r.forwarded (headerValue r.sig)) s) :
    ∀ f sig, .accepts f sig ∈ s.history ++ [.accepts r.forwarded (headerValue r.sig)] →
      Passes f ∧ ∃ g ∈ s.signed, g.payload = f.payload := by
  intro f sig hmem
  rcases List.mem_append.mp hmem with hmem | hmem
  · exact hs.accepted f sig hmem
  · cases List.mem_singleton.mp hmem
    obtain ⟨k, hk, hsig⟩ := hvalid.sig
    exact ⟨hvalid.passes, htrusted.1 k hk hsig⟩

/-- The registry has no key for the nonce: the token was not taken before. -/
theorem ProxySound.register (hs : ProxySound P true s) (hvalid : Valid P secret r s.now)
    (htrusted : Trusted P secret (.accepts r.forwarded (headerValue r.sig)) s)
    (hnone : s.holds r.forwarded.nonce = false) :
    ProxySound P true ((s.note (.accepts r.forwarded (headerValue r.sig))).setNonces
      ((r.forwarded.nonce, s.now + nonceTtl) ::
        s.nonces.filter fun k => k.1 != r.forwarded.nonce)) := by
  have hgone : ∀ e, (r.forwarded.nonce, e) ∈ s.nonces → e ≤ s.now := by
    intro e he
    have := List.any_eq_false.mp hnone _ he
    simpa using this
  refine ⟨hs.front, hs.note hvalid htrusted, fun _ f sig hmem => ?_, fun _ => ?_⟩
  · rcases List.mem_append.mp hmem with hmem | hmem
    · rcases hs.covered rfl f sig hmem with hpast | ⟨e, he, hle⟩
      · exact .inl hpast
      · by_cases hnonce : f.nonce = r.forwarded.nonce
        · exact .inl (hle.trans (hgone e (hnonce ▸ he)))
        · refine .inr ⟨e, List.mem_cons_of_mem _ (List.mem_filter.mpr ⟨he, ?_⟩), hle⟩
          simpa using hnonce
    · cases List.mem_singleton.mp hmem
      refine .inr ⟨s.now + nonceTtl, List.mem_cons_self, ?_⟩
      have := hvalid.since
      simp only [nonceTtl, PROXY_MAX_SKEW_MS] at this ⊢
      omega
  · show ((s.history ++ [ProxyMark.accepts r.forwarded (headerValue r.sig)]).map tokenOf).Nodup
    rw [List.map_append, List.nodup_append]
    refine ⟨hs.once rfl, List.nodup_singleton _, fun a ha b hb hab => ?_⟩
    obtain ⟨⟨f, sig⟩, hmem, rfl⟩ := List.mem_map.mp ha
    obtain rfl := List.mem_singleton.mp hb
    obtain ⟨hts, hnonce⟩ := Prod.mk.inj hab
    have htime : f.time = r.forwarded.time := by rw [Forwarded.time, hts, Forwarded.time]
    have hlate : f.time + PROXY_MAX_SKEW_MS ≤ s.now := by
      rcases hs.covered rfl f sig hmem with hpast | ⟨e, he, hle⟩
      · exact hpast
      · exact hle.trans (hgone e (hnonce ▸ he))
    exact absurd htrusted.2 (not_lt.mpr (htime ▸ hlate))

/-! ## Calls -/

/-- A call that does not return the identity on the transport has taken the values. -/
def Takes (r : Request) (i : Identity) (s : ProxyDb) : Prop :=
  i ≠ r.transport → ∃ sig, .accepts r.forwarded sig ∈ s.history

theorem honors_clientIpMiddleware {s : ProxyDb} :
    (clientIpMiddleware P secret registry r).Honors (proxyGuarantee P secret registry)
      (Takes r) s := by
  have hrefused : ∀ t, Takes r r.transport t := fun _ hne => absurd rfl hne
  refine Call.honors_get_bind fun t _ _ => ?_
  cases hisValid : isValid P secret t.now r with
  | false => exact Call.honors_pure (hrefused _)
  | true =>
    have hvalid := valid_of_isValid hisValid
    have hlater : ∀ u, Proceeds t u → Valid P secret r u.now := fun u hu =>
      ⟨hvalid.passes, hvalid.since.trans hu.now, hvalid.sig⟩
    cases registry with
    | false =>
      refine Call.honors_transaction_bind fun u a u' htu hu hmeets hok => ?_
      obtain rfl := Block.ok_mark.mp hok
      refine ⟨⟨⟨hu.front, hu.note (hlater u htu) hmeets.1, nofun, nofun⟩, ?_⟩,
        Call.honors_pure fun _ => ⟨_, List.mem_append_right _ (List.mem_singleton_self _)⟩⟩
      exact ⟨le_rfl, fun _ h => h, fun _ h => List.mem_append_left _ h⟩
    | true =>
      cases r.registers with
      | false => exact Call.honors_pure (hrefused _)
      | true =>
        refine Call.honors_transaction_bind fun u first u' htu hu hmeets hok => ?_
        have hmeets := (Block.meets_bind.mp hmeets).2 u u (Block.ok_get.mpr ⟨rfl, rfl⟩)
        simp only [registerNonce, Block.ok_bind, Block.ok_get] at hok
        obtain ⟨_, _, ⟨rfl, rfl⟩, hok⟩ := hok
        split at hok
        case isTrue =>
          obtain ⟨rfl, rfl⟩ := Block.ok_pure.mp hok
          exact ⟨Guarantee.allows_self hu, Call.honors_pure (hrefused _)⟩
        case isFalse hholds =>
          simp only [Block.ok_bind, Block.ok_mark, Block.ok_write, Block.ok_pure] at hok
          obtain ⟨_, _, rfl, _, _, rfl, rfl, rfl⟩ := hok
          rw [if_neg hholds] at hmeets
          refine ⟨⟨hu.register (hlater _ htu) hmeets.1 (by simpa using hholds), ?_⟩,
            Call.honors_pure fun _ => ⟨_, List.mem_append_right _ (List.mem_singleton_self _)⟩⟩
          exact ⟨le_rfl, fun _ h => h, fun _ h => List.mem_append_left _ h⟩

/-! ## Runs -/

/-- Calls of the middleware in progress. -/
abbrev ProxyPool : Type 1 := Pool Request Empty ℕ ProxyMark ProxyDb Identity

/-- The property, up to addresses with a bar in them. -/
structure Authentic (registry : Bool) (p : ProxyPool) : Prop where
  /-- an identity that is not the one on the transport was signed, value by value, unless its
  address has a bar -/
  signed : ∀ c ∈ p.calls, ∀ i, c.2 = .done (.ok i) → i ≠ c.1.transport →
    (c.1.forwarded ∈ p.db.signed ↔ '|' ∉ c.1.forwarded.ip.toList)
  /-- no token is taken twice -/
  once : registry = true → (p.db.history.map tokenOf).Nodup
  /-- the message determines what passes the checks, unless an address has a bar -/
  decodes : ∀ f g, Passes f → Passes g → '|' ∉ f.ip.toList → '|' ∉ g.ip.toList →
    f.payload = g.payload → f = g

/-- What a front server has signed of an accepted request is what was forwarded, exactly when the
address has no bar. -/
theorem ProxySound.signed_iff (hs : ProxySound P registry s)
    (hmem : .accepts f sig ∈ s.history) : f ∈ s.signed ↔ '|' ∉ f.ip.toList := by
  obtain ⟨hpasses, g, hg, hpayload⟩ := hs.accepted f sig hmem
  have hfront := hs.front g hg
  constructor
  · exact fun hf => (hs.front f hf).ip_bar
  · intro hbar
    rwa [payload_injective hpasses hfront.passes hbar hfront.ip_bar hpayload.symm]

/-- Nothing was taken yet. -/
structure Quiet (P : Primitives) (s : ProxyDb) : Prop where
  signed : ∀ f ∈ s.signed, FromFront P f
  history : s.history = []

/-- With signatures that cannot be forged and nonces registered in time, an identity without a bar
in its address was signed as it is, and no token is taken twice. -/
theorem forwarded_authentic {s₀ : ProxyDb} {p : ProxyPool} (hstart : Quiet P s₀)
    (hrun : Runs (Pool.Step (clientIpMiddleware P secret registry) (Surroundings P))
      (Pool.Allowed (Trusted P secret) fun _ _ => True) ⟨s₀, []⟩ p) : Authentic registry p := by
  have hsound : ProxySound P registry s₀ := by
    refine ⟨hstart.signed, ?_, ?_, ?_⟩ <;> simp [hstart.history]
  have hhonored : p.Honored (proxyGuarantee P secret registry) Takes s₀ :=
    Pool.honored_run (G := proxyGuarantee P secret registry) (p := (⟨s₀, []⟩ : ProxyPool))
      (fun _ _ _ => honors_clientIpMiddleware) (fun _ _ hs henv _ => hs.surroundings henv) hsound rfl
      hrun
  refine ⟨fun c hc i hi hne => ?_, hhonored.1.1.once, fun f g hf hg hfip hgip heq =>
    payload_injective hf hg hfip hgip heq⟩
  obtain ⟨r, c⟩ := c
  subst hi
  obtain ⟨s, hs, htakes⟩ := hhonored.returned hc
  obtain ⟨sig, hmem⟩ := htakes hne
  exact hhonored.1.1.signed_iff (hs.history _ hmem)

/-! ## A front server and its client -/

/-- Signatures that show their message, and one address. -/
def shown : Primitives where
  hmac secret message := secret ++ ":" ++ message
  isIP v := v == "203.0.113.7"
  isIP_bar v hv := by
    rw [beq_iff_eq.mp hv]
    decide

/-- What the front server has signed: the client has a bar in its user agent. -/
def signedOnce : Forwarded := ⟨"1700000000000", "abcdefghijklmnop", "203.0.113.7", "x|Mozilla"⟩

/-- The token at an instant, not yet used. -/
def unused (now : ℤ) : ProxyDb := ⟨now, [], [signedOnce], [], 0⟩

theorem unused_quiet (now : ℤ) : Quiet shown (unused now) := by
  refine ⟨fun f hf => ?_, rfl⟩
  obtain rfl := List.mem_singleton.mp hf
  exact ⟨⟨by decide, by decide⟩, .inr rfl⟩

/-- A request with the token, and the address and the user agent as they are given. -/
def presents (ip ua : String) : Request where
  transport := ⟨"10.0.0.5", some "node"⟩
  clientIp := some (.one ip)
  clientUa := some (.one ua)
  ts := some (.one signedOnce.ts)
  nonce := some (.one signedOnce.nonce)
  sig := some (.one (signBffRequest shown "key" signedOnce))
  registers := true

/-- `Unforged` as a test. -/
def unforged : ProxyMark → ProxyDb → Bool
  | .accepts f sig, s => sig != signBffRequest shown "key" f ||
    s.signed.any fun g => g.payload == f.payload

theorem unforged_sound (l : ProxyMark) (s : ProxyDb) (h : unforged l s = true) :
    Unforged shown (some "key") l s := by
  obtain ⟨f, sig⟩ := l
  intro k hk hsig
  cases hk
  simpa [unforged, hsig] using h

/-- `Trusted` as a test. -/
def trusted : ProxyMark → ProxyDb → Bool
  | .accepts f sig, s => unforged (.accepts f sig) s && decide (s.now < f.time + PROXY_MAX_SKEW_MS)

theorem trusted_sound (l : ProxyMark) (s : ProxyDb) (h : trusted l s = true) :
    Trusted shown (some "key") l s := by
  obtain ⟨f, sig⟩ := l
  obtain ⟨hunforged, hnow⟩ := Bool.and_eq_true_iff.mp h
  exact ⟨unforged_sound _ s hunforged, of_decide_eq_true hnow⟩

/-- The events from a pool, as long as the marks passed meet the condition. -/
abbrev played (test : ProxyMark → ProxyDb → Bool) (p : ProxyPool)
    (es : List (PoolEvent Request ProxyDb)) : Option ProxyPool :=
  Pool.playAllowed (clientIpMiddleware shown (some "key") true) test p es

/-- The identities that calls have returned. -/
def returned (p : ProxyPool) : List (Option Identity) :=
  p.calls.map fun c => match c.2 with
    | .done (.ok i) => some i
    | _ => none

/-- `forwarded_authentic` for a token that is presented twice. -/
theorem forwarded_authentic_twice : ∃ p,
    played trusted ⟨unused 1700000000000, []⟩ [.start (presents "203.0.113.7" "x|Mozilla"),
      .start (presents "203.0.113.7" "x|Mozilla"), .advance 0, .advance 1, .advance 0,
      .advance 1] = some p ∧
    returned p = [some ⟨"203.0.113.7", some "x|Mozilla"⟩, some ⟨"10.0.0.5", some "node"⟩] ∧
    Authentic true p := by
  have hplayed : (played trusted ⟨unused 1700000000000, []⟩
      [.start (presents "203.0.113.7" "x|Mozilla"), .start (presents "203.0.113.7" "x|Mozilla"),
      .advance 0, .advance 1, .advance 0, .advance 1]).map returned =
        some [some ⟨"203.0.113.7", some "x|Mozilla"⟩, some ⟨"10.0.0.5", some "node"⟩] := by
    decide +kernel
  obtain ⟨p, hp, hreturned⟩ := Option.map_eq_some_iff.mp hplayed
  exact ⟨p, hp, hreturned, forwarded_authentic (unused_quiet _)
    (Pool.runs_of_playAllowed trusted_sound hp)⟩

/-- A part of the user agent goes to the address: the message is the same, and the user agent that
is left is taken. And a token that is used at the beginning of its time is taken again at the
end, when the registry has dropped its key. -/
theorem forged_and_replayed :
    (∃ p, Runs (Pool.Step (clientIpMiddleware shown (some "key") true) (Surroundings shown))
        (Pool.Allowed (Trusted shown (some "key")) fun _ _ => True) ⟨unused 1700000000000, []⟩ p ∧
      p.db.signed = [signedOnce] ∧
      p.calls.map (fun c => c.1.forwarded) =
        [{ signedOnce with ip := "203.0.113.7|x", ua := "Mozilla" }] ∧
      returned p = [some ⟨"10.0.0.5", some "Mozilla"⟩]) ∧
    ∃ p, Runs (Pool.Step (clientIpMiddleware shown (some "key") true) (Surroundings shown))
        (Pool.Allowed (Unforged shown (some "key")) fun _ _ => True) ⟨unused 1699999940000, []⟩ p ∧
      p.db.history.map tokenOf = List.replicate 2 (signedOnce.ts, signedOnce.nonce) := by
  constructor
  · have hplayed : (played trusted ⟨unused 1700000000000, []⟩
        [.start (presents "203.0.113.7|x" "Mozilla"), .advance 0, .advance 0]).map
          (fun p => (p.db.signed, p.calls.map (fun c => c.1.forwarded), returned p)) =
        some ([signedOnce], [{ signedOnce with ip := "203.0.113.7|x", ua := "Mozilla" }],
          [some ⟨"10.0.0.5", some "Mozilla"⟩]) := by decide +kernel
    obtain ⟨p, hp, hafter⟩ := Option.map_eq_some_iff.mp hplayed
    obtain ⟨hsigned, hafter⟩ := Prod.mk.inj hafter
    obtain ⟨hforwarded, hreturned⟩ := Prod.mk.inj hafter
    exact ⟨p, Pool.runs_of_playAllowed trusted_sound hp, hsigned, hforwarded, hreturned⟩
  · have hplayed : ((played unforged ⟨unused 1699999940000, []⟩
        [.start (presents "203.0.113.7" "x|Mozilla"), .advance 0, .advance 0]).bind fun p =>
          played unforged { p with db := { p.db with now := 1700000060000 } }
            [.start (presents "203.0.113.7" "x|Mozilla"), .advance 1, .advance 1]).map
              (fun p => p.db.history.map tokenOf) =
        some (List.replicate 2 (signedOnce.ts, signedOnce.nonce)) := by decide +kernel
    obtain ⟨p, hp, htokens⟩ := Option.map_eq_some_iff.mp hplayed
    obtain ⟨p₁, hp₁, hp⟩ := Option.bind_eq_some_iff.mp hp
    have hnow : (played unforged ⟨unused 1699999940000, []⟩
        [.start (presents "203.0.113.7" "x|Mozilla"), .advance 0, .advance 0]).map
          (fun p => p.db.now) = some 1699999940000 := by decide +kernel
    obtain ⟨p₂, hp₂, hnow⟩ := Option.map_eq_some_iff.mp hnow
    obtain rfl := Option.some.inj (hp₁.symm.trans hp₂)
    have hlater : Pool.Step (clientIpMiddleware shown (some "key") true) (Surroundings shown) p₁
        (.outside { p₁.db with now := 1700000060000 })
        { p₁ with db := { p₁.db with now := 1700000060000 } } := by
      refine ⟨rfl, ?_⟩
      rintro s ⟨⟩
      exact .later 1700000060000 (by rw [hnow]; norm_num) rfl
    have hallowed : p₁.Allowed (Unforged shown (some "key")) (fun _ _ => True)
        (.outside { p₁.db with now := 1700000060000 }) := trivial
    exact ⟨p, ((Pool.runs_of_playAllowed unforged_sound hp₁).tail hallowed hlater).trans
      (Pool.runs_of_playAllowed unforged_sound hp), htokens⟩

end ClientIp

end ArkanGold
