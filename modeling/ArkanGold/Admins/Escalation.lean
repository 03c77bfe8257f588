import ArkanGold.Admins.LastSuperAdmin

/-!
# Privilege escalation

A coalition of admins without a super admin works with the accounts of its members and with
every account that it controls: the temporary password in force went to one of its phones, and
there is no second factor. `U` are the permissions that the members held at the start.

- `Reaches`: an account that the coalition has or can come to control by resetting a password.
- `Harmless`: an update neither brings an account with more than `U` within reach, nor gives back
  a role that nobody has checked. The code asks for neither: `update` protects the accounts of
  super admins and no others (`phone_of_a_stronger_account`).
- `coalition_confined`: with that, what the coalition controls stays within `U`.
-/

namespace ArkanGold

namespace AdminManagementService

variable {G : Guarantee AdminMark AdminDb} {actor : AdminActor} {s s' t : AdminDb}

/-- Admins who act together, and the phones they have. -/
structure Coalition where
  members : List ℕ
  phones : List String

variable {c : Coalition} {U : Set String}

/-! ## Control -/

/-- The password in force was sent to one of the phones. -/
def KnowsPassword (c : Coalition) (s : AdminDb) (u : AdminUser) : Prop :=
  ∃ m ∈ s.sms.rows, u.passwordHash = .temp m.id ∧ m.phone ∈ c.phones

/-- The account is controlled: its temporary password was sent to one of the phones, and it has
no second factor. -/
def controls (c : Coalition) (s : AdminDb) (u : AdminUser) : Bool :=
  (s.sms.rows.any fun m => u.passwordHash == .temp m.id && c.phones.contains m.phone) &&
    !u.totpEnabled

theorem knowsPassword_of_controls {u : AdminUser} (h : controls c s u = true) :
    KnowsPassword c s u := by
  obtain ⟨m, hm, hsent⟩ := List.any_eq_true.mp (Bool.and_eq_true_iff.mp h).1
  obtain ⟨hhash, hphone⟩ := Bool.and_eq_true_iff.mp hsent
  exact ⟨m, hm, eq_of_beq hhash, List.contains_iff_mem.mp hphone⟩

/-- The account is a member's, or the coalition can have its password. -/
def Reaches (c : Coalition) (s : AdminDb) (u : AdminUser) : Prop :=
  u.id ∈ c.members ∨ (∃ p ∈ c.phones, u.phone = some p) ∨ KnowsPassword c s u

/-- A permission that a member holds. -/
def Held (c : Coalition) (s : AdminDb) : Set String :=
  {k | ∃ u ∈ s.users.rows, u.id ∈ c.members ∧ k ∈ s.permissionsOf u}

/-- A role with permissions in `U` that is not the super admin's. -/
def RoleWithin (U : Set String) (s : AdminDb) (r : AdminRole) : Prop :=
  r.key ≠ SUPER_ADMIN ∧ ∀ k ∈ s.permissionKeys r, k ∈ U

/-- The roles of the account are within `U`. -/
def AccountWithin (U : Set String) (s : AdminDb) (u : AdminUser) : Prop :=
  ∀ r ∈ s.roles.rows, r.id ∈ u.roles → RoleWithin U s r

theorem mem_permissionKeys {r : AdminRole} {k : String} :
    k ∈ s.permissionKeys r ↔ ∃ p ∈ s.permissions.rows, p.id ∈ r.permissions ∧ p.key = k := by
  simp only [AdminDb.permissionKeys, List.mem_filterMap, Option.map_eq_some_iff,
    Table.find?_eq_some]
  constructor
  · rintro ⟨id, hid, p, ⟨hp, rfl⟩, rfl⟩
    exact ⟨p, hp, hid, rfl⟩
  · rintro ⟨p, hp, hid, rfl⟩
    exact ⟨p.id, hid, p, ⟨hp, rfl⟩, rfl⟩

theorem mem_permissionsOf {u : AdminUser} {k : String} :
    k ∈ s.permissionsOf u ↔ ∃ r ∈ s.roles.rows, r.id ∈ u.roles ∧ k ∈ s.permissionKeys r := by
  simp only [AdminDb.permissionsOf, AdminDb.rolesOf, List.mem_eraseDups, List.mem_flatMap,
    List.mem_filterMap, Table.find?_eq_some]
  constructor
  · rintro ⟨r, ⟨id, hid, hr, rfl⟩, hk⟩
    exact ⟨r, hr, hid, hk⟩
  · rintro ⟨r, hr, hid, hk⟩
    exact ⟨r, ⟨r.id, hid, hr, rfl⟩, hk⟩

theorem AccountWithin.permissions {u : AdminUser} (h : AccountWithin U s u) :
    ∀ k ∈ s.permissionsOf u, k ∈ U := by
  intro k hk
  obtain ⟨r, hr, hid, hk⟩ := mem_permissionsOf.mp hk
  exact (h r hr hid).2 k hk

theorem AccountWithin.not_super {u : AdminUser} (h : AccountWithin U s u) :
    SUPER_ADMIN ∉ s.roleKeysOf u := by
  intro hkey
  obtain ⟨r, hr, hid, heq⟩ := mem_roleKeysOf.mp hkey
  exact (h r hr hid).1 heq

/-- What a role permits depends on its permissions only. -/
theorem RoleWithin.congr {r r' : AdminRole} (h : RoleWithin U s r)
    (hpermissions : t.permissions = s.permissions) (hkey : r'.key = r.key)
    (hids : r'.permissions = r.permissions) : RoleWithin U t r' := by
  refine ⟨hkey ▸ h.1, ?_⟩
  rw [AdminDb.permissionKeys, hids, hpermissions]
  exact h.2

/-- Admins who are not above `U`. -/
structure Restrained (U : Set String) (actor : AdminActor) : Prop where
  notSuper : actor.isSuperAdmin = false
  permissions : ∀ k ∈ actor.permissions, k ∈ U

theorem Restrained.of_canGrant {keys : List String} (h : Restrained U actor)
    (hgrant : canGrant actor keys = true) : ∀ k ∈ keys, k ∈ U := by
  rw [canGrant, h.notSuper, Bool.false_or, List.all_eq_true] at hgrant
  exact fun k hk => h.permissions k (List.contains_iff_mem.mp (hgrant k hk))

theorem AccountWithin.restrained {u : AdminUser} (h : AccountWithin U s u) :
    Restrained U (s.actorOf u) := by
  refine ⟨?_, h.permissions⟩
  rw [AdminActor.isSuperAdmin, Bool.eq_false_iff]
  exact fun hmem => h.not_super (List.contains_iff_mem.mp hmem)

/-! ## The guarantee -/

/-- Everything within reach is within `U`. -/
structure Confined (c : Coalition) (U : Set String) (s : AdminDb) : Prop where
  accounts : ∀ u ∈ s.users.rows, Reaches c s u → AccountWithin U s u
  passwords : ∀ u ∈ s.users.rows, ∀ n, u.passwordHash = .temp n → n < s.nextId

/-- Roles and accounts within `U` stay within `U`, and messages are not rewritten. -/
structure StaysWithin (U : Set String) (s t : AdminDb) : Prop where
  next : s.nextId ≤ t.nextId
  permissions : t.permissions = s.permissions
  sms : ∀ m ∈ t.sms.rows, m ∈ s.sms.rows ∨ s.nextId ≤ m.id
  roles : ∀ r' ∈ t.roles.rows,
    (∃ r ∈ s.roles.rows, r.id = r'.id ∧ r.key = r'.key ∧ (RoleWithin U s r → RoleWithin U t r')) ∨
      RoleWithin U t r' ∧ s.nextId ≤ r'.id
  users : ∀ u ∈ s.users.rows, AccountWithin U s u →
    ∃ u' ∈ t.users.rows, u'.id = u.id ∧ AccountWithin U t u'

theorem StaysWithin.refl (s : AdminDb) : StaysWithin U s s :=
  ⟨le_rfl, rfl, fun _ hm => .inl hm, fun r hr => .inl ⟨r, hr, rfl, rfl, id⟩,
    fun u hu h => ⟨u, hu, rfl, h⟩⟩

theorem StaysWithin.trans {r : AdminDb} (h : StaysWithin U r s) (h' : StaysWithin U s t) :
    StaysWithin U r t := by
  refine ⟨h.next.trans h'.next, h'.permissions.trans h.permissions, fun m hm => ?_, fun r₂ hr₂ => ?_,
    fun u hu hwithin => ?_⟩
  · rcases h'.sms m hm with hm | hnew
    · exact h.sms m hm
    · exact .inr (h.next.trans hnew)
  · rcases h'.roles r₂ hr₂ with ⟨r₁, hr₁, hid, hkey, himp⟩ | ⟨hwithin, hnew⟩
    · rcases h.roles r₁ hr₁ with ⟨r₀, hr₀, hid₀, hkey₀, himp₀⟩ | ⟨hwithin, hnew⟩
      · exact .inl ⟨r₀, hr₀, hid₀.trans hid, hkey₀.trans hkey, fun hw => himp (himp₀ hw)⟩
      · exact .inr ⟨himp hwithin, hid ▸ hnew⟩
    · exact .inr ⟨hwithin, h.next.trans hnew⟩
  · obtain ⟨u₁, hu₁, hid, hwithin⟩ := h.users u hu hwithin
    obtain ⟨u₂, hu₂, hid', hwithin⟩ := h'.users u₁ hu₁ hwithin
    exact ⟨u₂, hu₂, hid'.trans hid, hwithin⟩

/-- What the commit of an update must not do, in the state in which it commits. -/
def Harmless (c : Coalition) (U : Set String) : AdminMark → AdminDb → Prop
  | .updates targetId _ phone roles unchecked, s => ∀ u ∈ s.users.rows, u.id = targetId →
    (∀ p ∈ c.phones, phone = some p →
      ∀ r ∈ s.roles.rows, r.id ∈ roles.getD u.roles → RoleWithin U s r) ∧
    ∀ r ∈ s.roles.rows, r.id ∈ unchecked → r.id ∈ u.roles ∨ RoleWithin U s r

/-- What the coalition reaches stays within `U`. -/
def confinement (c : Coalition) (U : Set String) : Guarantee AdminMark AdminDb where
  inv := Confined c U
  step := StaysWithin U
  cond := Harmless c U
  refl := StaysWithin.refl
  trans _ _ _ := StaysWithin.trans

/-! ## Effects -/

theorem AccountWithin.later {u : AdminUser} (h : AccountWithin U s u)
    (hroles : ∀ r' ∈ t.roles.rows,
      (∃ r ∈ s.roles.rows, r.id = r'.id ∧ r.key = r'.key ∧ (RoleWithin U s r → RoleWithin U t r')) ∨
        RoleWithin U t r' ∧ s.nextId ≤ r'.id) : AccountWithin U t u := by
  intro r' hr' hid
  rcases hroles r' hr' with ⟨r, hr, hidr, -, himp⟩ | ⟨hwithin, -⟩
  · exact himp (h r hr (hidr ▸ hid))
  · exact hwithin

/-- Accounts and messages stay, and no role comes to hold more. -/
theorem allows_roles (hs : Confined c U s) (husers : s'.users = s.users) (hsms : s'.sms = s.sms)
    (hpermissions : s'.permissions = s.permissions) (hnext : s.nextId ≤ s'.nextId)
    (hroles : ∀ r' ∈ s'.roles.rows,
      (∃ r ∈ s.roles.rows, r.id = r'.id ∧ r.key = r'.key ∧ (RoleWithin U s r → RoleWithin U s' r')) ∨
        RoleWithin U s' r' ∧ s.nextId ≤ r'.id) : (confinement c U).Allows s s' := by
  refine ⟨⟨fun u hu hreach => ?_, fun u hu n hn => ?_⟩, ⟨hnext, hpermissions, fun m hm => ?_, hroles,
    fun u hu hwithin => ⟨u, husers ▸ hu, rfl, hwithin.later hroles⟩⟩⟩
  · rw [Reaches, KnowsPassword, hsms] at hreach
    exact (hs.accounts u (husers ▸ hu) hreach).later hroles
  · exact (hs.passwords u (husers ▸ hu) n hn).trans_le hnext
  · exact .inl (hsms ▸ hm)

/-- An account is rewritten, and stays within `U` if it was or if it can be reached. -/
theorem allows_update {targetId : ℕ} {f : AdminUser → AdminUser} {hf : ∀ u, (f u).id = u.id}
    (hs : Confined c U s)
    (hwithin : ∀ u ∈ s.users.rows, u.id = targetId → AccountWithin U s u → AccountWithin U s (f u))
    (hreach : ∀ u ∈ s.users.rows, u.id = targetId → Reaches c s (f u) → AccountWithin U s (f u))
    (hpasswords : ∀ u ∈ s.users.rows, u.id = targetId → ∀ n, (f u).passwordHash = .temp n →
      n < s.nextId) :
    (confinement c U).Allows s (s.setUsers (s.users.update targetId f hf)) := by
  refine ⟨⟨fun u' hu' => ?_, fun u' hu' => ?_⟩, ⟨le_rfl, rfl, fun m hm => .inl hm,
    fun r hr => .inl ⟨r, hr, rfl, rfl, id⟩, fun u hu hw => ⟨_, mem_setUsers_update.mpr ⟨u, hu, rfl⟩, ?_⟩⟩⟩
  · obtain ⟨u, hu, rfl⟩ := mem_setUsers_update.mp hu'
    split
    · exact hreach u hu ‹_›
    · exact hs.accounts u hu
  · obtain ⟨u, hu, rfl⟩ := mem_setUsers_update.mp hu'
    split
    · exact hpasswords u hu ‹_›
    · exact hs.passwords u hu
  · split
    · exact ⟨hf u, hwithin u hu ‹_› hw⟩
    · exact ⟨rfl, hw⟩

/-- What a role is granted is within `U`. -/
theorem within_of_granted {ids : List ℕ} {r : AdminRole} (hactor : Restrained U actor)
    (hgranted : Granted (confinement c U) actor ids s) (hpermissions : s'.permissions = s.permissions)
    (hr : r.permissions = ids) : ∀ k ∈ s'.permissionKeys r, k ∈ U := by
  obtain ⟨keys, s₁, hpast, hgrant, hids⟩ := hgranted
  intro k hk
  obtain ⟨p, hp, hid, rfl⟩ := mem_permissionKeys.mp hk
  obtain ⟨p₁, hp₁, hid₁, hkey⟩ := hids p.id (hr ▸ hid)
  rw [hpermissions, hpast.2.permissions] at hp
  have heq : p = p₁ := List.inj_on_of_nodup_map s₁.permissions.nodup hp hp₁ hid₁.symm
  exact hactor.of_canGrant hgrant _ (heq ▸ hkey)

theorem roleCreated_allows {key name : String} {dto : RoleInput} {ids : List ℕ}
    (hactor : Restrained U actor) (hs : Confined c U s) (hkey : key ∉ SYSTEM_ROLE_KEYS)
    (hgranted : Granted (confinement c U) actor ids s) :
    (confinement c U).Allows s
      (s.spendId.setRoles (s.roles.insert (newRole key name dto ids s.nextId))) := by
  refine allows_roles hs rfl rfl rfl (Nat.le_succ _) fun r' hr' => ?_
  rcases Table.mem_insert hr' with hr' | rfl
  · exact .inl ⟨r', hr', rfl, rfl, fun h => h.congr rfl rfl rfl⟩
  · refine .inr ⟨⟨fun (heq : key = SUPER_ADMIN) => hkey ?_,
      within_of_granted hactor hgranted rfl rfl⟩, le_rfl⟩
    exact heq ▸ List.mem_cons_self

theorem roleChanged_allows {roleId : ℕ} {dto : RoleInput} {ids : Option (List ℕ)}
    (hactor : Restrained U actor) (hs : Confined c U s)
    (hgranted : ∀ l, ids = some l → Granted (confinement c U) actor l s) :
    (confinement c U).Allows s
      (s.setRoles (s.roles.update roleId (changedRole dto ids))) := by
  refine allows_roles hs rfl rfl rfl le_rfl fun r' hr' => ?_
  obtain ⟨r, hr, rfl⟩ := mem_setRoles_update.mp hr'
  split
  · refine .inl ⟨r, hr, rfl, rfl, fun h => ?_⟩
    cases ids with
    | none => exact h.congr rfl rfl rfl
    | some l => exact ⟨h.1, within_of_granted hactor (hgranted l rfl) rfl rfl⟩
  · exact .inl ⟨r, hr, rfl, rfl, fun h => h.congr rfl rfl rfl⟩

/-- A role that the admin was allowed to assign is within `U`. -/
theorem Assignable.within {r r' : AdminRole} (hactor : Restrained U actor)
    (h : Assignable (confinement c U) actor r s) (hr' : r' ∈ s.roles.rows) (hid : r'.id = r.id) :
    RoleWithin U s r' := by
  obtain ⟨keys, s₁, s₂, h₁, h₂, hchecked, hkey, hr⟩ := h
  have hwithin : ∀ r₁ ∈ s₁.roles.rows, r₁.key ∈ keys → RoleWithin U s₁ r₁ := fun r₁ hr₁ hmem => by
    refine ⟨fun heq => ?_, hactor.of_canGrant (hchecked.granted r₁ hr₁ hmem)⟩
    have hsuper := hchecked.superAdmin (heq ▸ hmem)
    rw [hactor.notSuper] at hsuper
    cases hsuper
  have hread : RoleWithin U s₂ r := by
    rcases h₁.2.roles r hr with ⟨r₁, hr₁, -, hkey₁, himp⟩ | ⟨hnew, -⟩
    · exact himp (hwithin r₁ hr₁ (hkey₁ ▸ hkey))
    · exact hnew
  rcases h₂.2.roles r' hr' with ⟨r₂, hr₂, hid₂, -, himp⟩ | ⟨hnew, -⟩
  · have heq : r₂ = r := List.inj_on_of_nodup_map s₂.roles.nodup hr₂ hr (hid₂.trans hid)
    exact himp (heq ▸ hread)
  · exact hnew

theorem accountCreated_allows {username : String} {dto : CreateAdminDto} {roles : List AdminRole}
    {n m : ℕ} (hactor : Restrained U actor) (hs : Confined c U s)
    (hroles : ∀ r ∈ roles, Assignable (confinement c U) actor r s) :
    (confinement c U).Allows s (s.spendId.setUsers
      (s.users.insert (newAccount actor username dto roles (.unusable n m) s.nextId))) := by
  have hnew : AccountWithin U s (newAccount actor username dto roles (.unusable n m) s.nextId) := by
    intro r' hr' hid
    obtain ⟨r, hr, hrid⟩ := List.mem_map.mp hid
    exact (hroles r hr).within hactor hr' hrid.symm
  have hmem : ∀ u ∈ (s.users.insert (newAccount actor username dto roles (.unusable n m)
      s.nextId)).rows, u ∈ s.users.rows ∨
        u = newAccount actor username dto roles (.unusable n m) s.nextId := fun u hu =>
    Table.mem_insert hu
  refine ⟨⟨fun u hu hreach => ?_, fun u hu k hk => ?_⟩, ⟨Nat.le_succ _, rfl, fun m hm => .inl hm,
    fun r hr => .inl ⟨r, hr, rfl, rfl, id⟩,
    fun u hu hw => ⟨u, Table.mem_insert_of_mem hu, rfl, hw⟩⟩⟩
  · rcases hmem u hu with hu | rfl
    · exact hs.accounts u hu hreach
    · exact hnew
  · rcases hmem u hu with hu | rfl
    · exact (hs.passwords u hu k hk).trans (Nat.lt_succ_self _)
    · cases hk

/-- A role that was reassigned is one of `unchecked`, or it is within `U`. -/
theorem Reassigned.within {targetId : ℕ} {currentKeys : List String} {roles : List AdminRole}
    (hactor : Restrained U actor)
    (h : Reassigned (confinement c U) actor targetId currentKeys roles s) {r' : AdminRole}
    (hr' : r' ∈ s.roles.rows) (hid : r'.id ∈ roles.map AdminRole.id) :
    r'.id ∈ (roles.filter fun r => currentKeys.contains r.key).map AdminRole.id ∨
      RoleWithin U s r' := by
  obtain ⟨s₁, target, -, -, -, -, -, hroles⟩ := h
  obtain ⟨r, hr, hrid⟩ := List.mem_map.mp hid
  rcases hroles r hr with ⟨hkey, -⟩ | hassignable
  · refine .inl (List.mem_map.mpr ⟨r, List.mem_filter.mpr ⟨hr, ?_⟩, hrid⟩)
    exact List.contains_iff_mem.mpr hkey
  · exact .inr (hassignable.within hactor hr' hrid.symm)

theorem accountChanged_allows {targetId : ℕ} {dto : UpdateAdminDto} {currentKeys : List String}
    {roles : Option (List AdminRole)} (hactor : Restrained U actor) (hs : Confined c U s)
    (hcond : Harmless c U (.updates targetId dto.isActive dto.phone
      (roles.map fun rs => rs.map AdminRole.id)
      (((roles.getD []).filter fun r => currentKeys.contains r.key).map AdminRole.id)) s)
    (hroles : ∀ rs, roles = some rs →
      Reassigned (confinement c U) actor targetId currentKeys rs s) :
    (confinement c U).Allows s
      (s.setUsers (s.users.update targetId (changedAccount dto roles))) := by
  have hwithin : ∀ u ∈ s.users.rows, u.id = targetId → AccountWithin U s u →
      AccountWithin U s (changedAccount dto roles u) := by
    intro u hu htarget hw r hr hid
    cases roles with
    | none => exact hw r hr hid
    | some rs =>
      rcases (hroles rs rfl).within hactor hr hid with hold | hnew
      · rcases (hcond u hu htarget).2 r hr hold with hheld | hwithin
        · exact hw r hr hheld
        · exact hwithin
      · exact hnew
  refine allows_update hs hwithin (fun u hu htarget hreach => ?_) fun u hu _ n hn =>
    hs.passwords u hu n hn
  -- the coalition reached the account before, or the update has set one of its phones
  by_cases hphone : ∃ p ∈ c.phones, dto.phone = some p
  · obtain ⟨p, hp, hset⟩ := hphone
    exact (hcond u hu htarget).1 p hp hset
  · refine hwithin u hu htarget (hs.accounts u hu ?_)
    rcases hreach with hmember | ⟨p, hp, hset⟩ | hknows
    · exact .inl hmember
    · refine .inr (.inl ⟨p, hp, ?_⟩)
      cases hdto : dto.phone with
      | none => simpa [changedAccount, hdto] using hset
      | some q =>
        have heq : q = p := by simpa [changedAccount, hdto] using hset
        exact absurd ⟨q, heq ▸ hp, hdto⟩ hphone
    · exact .inr (.inr hknows)

theorem messageSent_allows {m : TempPasswordSms} (hs : Confined c U s) (hm : m.id = s.nextId) :
    (confinement c U).Allows s (s.spendId.setSms (s.sms.insert m)) := by
  have hmem : ∀ m' ∈ (s.sms.insert m).rows, m' ∈ s.sms.rows ∨ m' = m := fun m' h =>
    Table.mem_insert h
  refine ⟨⟨fun u hu hreach => hs.accounts u hu ?_, fun u hu n hn => ?_⟩, ⟨Nat.le_succ _, rfl,
    fun m' hm' => (hmem m' hm').imp_right fun (h : m' = m) => h ▸ hm.ge,
    fun r hr => .inl ⟨r, hr, rfl, rfl, id⟩, fun u hu hw => ⟨u, hu, rfl, hw⟩⟩⟩
  · refine hreach.imp_right (Or.imp_right ?_)
    rintro ⟨m', hm', hhash, hphone⟩
    rcases hmem m' hm' with hm' | rfl
    · exact ⟨m', hm', hhash, hphone⟩
    · -- nobody has a password that is only being sent
      have hlt := hs.passwords u hu _ hhash
      omega
  · exact (hs.passwords u hu n hn).trans (Nat.lt_succ_self _)

theorem passwordStored_allows {target : AdminUser} {n : ℕ} {expiresAt : ℤ} (hs : Confined c U s)
    (hsent : ∃ s₁ s₂ m, Past (confinement c U) s₁ s₂ ∧ Past (confinement c U) s₂ s ∧
      target ∈ s₁.users.rows ∧ m ∈ s₂.sms.rows ∧ m.id = n ∧ n < s₂.nextId ∧
        target.phone = some m.phone) :
    (confinement c U).Allows s
      (s.setUsers (s.users.update target.id (withTempPassword n expiresAt))) := by
  obtain ⟨s₁, s₂, m, h₁, h₂, htarget, hm, rfl, hlt, hphone⟩ := hsent
  refine allows_update hs (fun u _ _ hw => hw) (fun u hu hid hreach => ?_) fun u _ _ n hn => ?_
  · show AccountWithin U s u
    rcases hreach with hmember | hown | ⟨m', hm', hhash, hp⟩
    · exact hs.accounts u hu (.inl hmember)
    · exact hs.accounts u hu (.inr (.inl hown))
    · -- the message is the one that was sent, and it went to the phone that the account had
      have hsame : m' = m := by
        have hid' : m.id = m'.id := by simpa [withTempPassword] using hhash
        rcases h₂.2.sms m' hm' with hold | hnew
        · exact List.inj_on_of_nodup_map s₂.sms.nodup hold hm hid'.symm
        · omega
      have hreached : AccountWithin U s₁ target :=
        h₁.1.accounts target htarget (.inr (.inl ⟨m.phone, hsame ▸ hp, hphone⟩))
      obtain ⟨u', hu', hid', hwithin⟩ := (h₁.trans h₂.2).2.users target htarget hreached
      have heq : u = u' := List.inj_on_of_nodup_map s.users.nodup hu hu' (hid.trans hid'.symm)
      exact heq ▸ hwithin
  · have heq : m.id = n := by simpa [withTempPassword] using hn
    exact heq ▸ hlt.trans_le h₂.2.next

/-- Every effect of an admin who is not above `U`. -/
theorem confinement_admits (hactor : Restrained U actor) : Admits (confinement c U) actor := by
  intro s s' hs h
  cases h with
  | aside s' husers hroles hpermissions hsms hnext =>
    refine allows_roles hs husers hsms hpermissions hnext fun r hr => ?_
    exact .inl ⟨r, hroles ▸ hr, rfl, rfl, fun h => h.congr hpermissions rfl rfl⟩
  | roleCreated key name dto ids hkey _ hgranted => exact roleCreated_allows hactor hs hkey hgranted
  | roleChanged roleId dto ids _ hgranted => exact roleChanged_allows hactor hs hgranted
  | roleDeleted roleId _ =>
    refine allows_roles hs rfl rfl rfl le_rfl fun r hr => ?_
    exact .inl ⟨r, (Table.mem_deleteWhere.mp hr).1, rfl, rfl, fun h => h.congr rfl rfl rfl⟩
  | accountCreated username dto roles n m _ _ hroles =>
    exact accountCreated_allows hactor hs hroles
  | accountChanged targetId dto currentKeys roles hcond _ hroles =>
    exact accountChanged_allows hactor hs hcond hroles
  | messageSent m hm _ => exact messageSent_allows hs hm
  | passwordStored target n expiresAt hsent => exact passwordStored_allows hs hsent
  | mfaDisabled id =>
    exact allows_update hs (fun _ _ _ hw => hw) (fun u hu _ hreach => hs.accounts u hu hreach)
      fun u hu _ => hs.passwords u hu

/-! ## Runs -/

/-- A request of the coalition. -/
structure CoalitionRequest where
  adminUserId : ℕ
  operation : AdminOperation
  deriving DecidableEq

/-- Operations of the coalition in progress. -/
abbrev CoalitionPool : Type 1 :=
  Pool CoalitionRequest AdminError AdminDb.AdminRow AdminMark AdminDb Unit

/-- Whether the coalition can log in to an account. -/
def actsAs (c : Coalition) (s : AdminDb) (u : AdminUser) : Bool :=
  c.members.contains u.id || controls c s u

/-- A request passes `AdminJwtStrategy.validate` and the guard of the controller; the coalition
comes with the session of an account that it can log in to. -/
def serveCoalition (c : Coalition) (q : CoalitionRequest) : AdminCall Unit := do
  let s ← read
  let user ← Call.getOrFail (s.users.find? q.adminUserId) (.unauthorized "نشست ادمین نامعتبر است")
  Call.check (actsAs c s user) (.unauthorized "نشست ادمین نامعتبر است")
  Call.check user.isActive (.unauthorized "حساب ادمین غیرفعال است")
  Call.check ((s.permissionsOf user).contains "admin.manage")
    (.forbidden "شما دسترسی لازم برای این عملیات را ندارید")
  handle (s.actorOf user) q.operation

theorem honors_serveCoalition (q : CoalitionRequest) :
    (serveCoalition c q).Honors (confinement c U) (fun _ _ => True) s := by
  refine honors_read_bind fun t ht => Call.honors_getOrFail_bind fun user huser => ?_
  refine Call.honors_check_bind fun hacts => Call.honors_check_bind fun _ => ?_
  refine Call.honors_check_bind fun _ => honors_handle q.operation (confinement_admits ?_)
  have hreach : Reaches c t user := by
    rcases Bool.or_eq_true_iff.mp hacts with hmember | hcontrols
    · exact .inl (List.contains_iff_mem.mp hmember)
    · exact .inr (.inr (knowsPassword_of_controls hcontrols))
  exact (ht.1.accounts user (Table.mem_of_find? huser) hreach).restrained

/-- No member is a super admin, the phones of the coalition are registered for its members only,
and so are the temporary passwords that went there; a password was sent under a number that the
supply has given out. -/
structure Gathers (c : Coalition) (s : AdminDb) : Prop where
  members : ∀ u ∈ s.users.rows, u.id ∈ c.members → SUPER_ADMIN ∉ s.roleKeysOf u
  phones : ∀ u ∈ s.users.rows, (∃ p ∈ c.phones, u.phone = some p) → u.id ∈ c.members
  sent : ∀ u ∈ s.users.rows, KnowsPassword c s u → u.id ∈ c.members
  passwords : ∀ u ∈ s.users.rows, ∀ n, u.passwordHash = .temp n → n < s.nextId

theorem Gathers.confined (h : Gathers c s) : Confined c (Held c s) s := by
  refine ⟨fun u hu hreach r hr hid => ?_, h.passwords⟩
  have hmember : u.id ∈ c.members := by
    rcases hreach with hmember | hphone | hknows
    · exact hmember
    · exact h.phones u hu hphone
    · exact h.sent u hu hknows
  refine ⟨fun hkey => h.members u hu hmember ?_, fun k hk => ⟨u, hu, hmember, ?_⟩⟩
  · exact mem_roleKeysOf.mpr ⟨r, hr, hid, hkey⟩
  · exact mem_permissionsOf.mpr ⟨r, hr, hid, hk⟩

theorem confinement_time (hs : Confined c U s) (h : TimePasses s s') :
    (confinement c U).Allows s s' := by
  obtain ⟨t, rfl⟩ := h
  refine allows_roles hs rfl rfl rfl le_rfl fun r hr => ?_
  exact .inl ⟨r, hr, rfl, rfl, fun h => h.congr rfl rfl rfl⟩

/-- Whatever the coalition does, the accounts that it can log in to hold no permission that its
members did not hold at the start, as long as the updates are harmless when they commit. -/
theorem coalition_confined {s₀ : AdminDb} (hstart : Gathers c s₀) {p : CoalitionPool}
    (hrun : Runs (Pool.Step (serveCoalition c) TimePasses)
      (Pool.Allowed (Harmless c (Held c s₀)) fun _ _ => True) ⟨s₀, []⟩ p) :
    ∀ u ∈ p.db.users.rows, actsAs c p.db u = true → ∀ k ∈ p.db.permissionsOf u, k ∈ Held c s₀ := by
  have hkept := Pool.guaranteed (G := confinement c (Held c s₀)) (p := (⟨s₀, []⟩ : CoalitionPool))
    (fun q s _ => honors_serveCoalition q) (fun s s' hs h _ => confinement_time hs h)
    hstart.confined rfl hrun
  intro u hu hacts
  refine (hkept.1.accounts u hu ?_).permissions
  rcases Bool.or_eq_true_iff.mp hacts with hmember | hcontrols
  · exact .inl (List.contains_iff_mem.mp hmember)
  · exact .inr (.inr (knowsPassword_of_controls hcontrols))

/-! ## The phone of a stronger account -/

/-- An office with a custom role that may manage accounts, and the role of the finance admin. -/
def office : AdminDb where
  users := (Table.empty.insert (account 3 "m.rezaei" "09120000003" none [1])).insert
    (account 4 "n.moradi" "09120000004" none [2])
  roles := (Table.empty.insert ⟨1, "OFFICE", "", none, false, [1]⟩).insert
    ⟨2, "FINANCE_ADMIN", "", none, true, [2]⟩
  permissions := (Table.empty.insert ⟨1, "admin.manage"⟩).insert ⟨2, "withdrawal.pay"⟩
  sessions := .empty
  sms := .empty
  throttles := []
  mfaSetups := []
  now := 0
  nextId := 5

/-- The manager of the office, alone. -/
def manager : Coalition := ⟨[3], ["09120000003"]⟩

theorem manager_gathers : Gathers manager office := by
  have hmembers : (office.users.rows.all fun u => !manager.members.contains u.id ||
      !(office.roleKeysOf u).contains SUPER_ADMIN) = true := by decide
  have hphones : (office.users.rows.all fun u => manager.members.contains u.id ||
      !(u.phone.any manager.phones.contains)) = true := by decide
  have hchosen : (office.users.rows.all fun u => u.passwordHash == .chosen u.username) = true := by
    decide
  refine ⟨fun u hu hmember => ?_, fun u hu hphone => ?_, fun u hu hknows => ?_, fun u hu n hn => ?_⟩
  · have hu := List.all_eq_true.mp hmembers u hu
    simpa [hmember] using hu
  · obtain ⟨p, hp, hphone⟩ := hphone
    have hu := List.all_eq_true.mp hphones u hu
    simpa [hphone, hp] using hu
  · obtain ⟨m, hm, -⟩ := hknows
    cases hm
  · have hu := eq_of_beq (List.all_eq_true.mp hchosen u hu)
    rw [hn] at hu
    cases hu

/-- An account with the role and the phone of the manager. -/
def assistant : CreateAdminDto where
  username := "p.sadeghi"
  fullName := ""
  roleKeys := some ["OFFICE"]
  phone := "09120000003"

/-- The manager creates an account for the own use. -/
def hires : CoalitionRequest := ⟨3, .create assistant true⟩

/-- An update that sets no phone of the coalition and leaves no role unchecked is harmless. -/
def plain (c : Coalition) : AdminMark → AdminDb → Bool
  | .updates _ _ phone _ unchecked, _ => !(phone.any c.phones.contains) && unchecked.isEmpty

theorem plain_sound (U : Set String) (l : AdminMark) (s : AdminDb) (h : plain c l s = true) :
    Harmless c U l s := by
  cases l with
  | updates targetId isActive phone roles unchecked =>
    obtain ⟨hphone, hunchecked⟩ := Bool.and_eq_true_iff.mp h
    intro u _ _
    refine ⟨fun p hp hset => ?_, fun r _ hid => ?_⟩
    · simp [hset, hp] at hphone
    · rw [List.isEmpty_iff.mp hunchecked] at hid
      cases hid

/-- The events, as long as the marks passed meet the condition. -/
abbrev playedBy (c : Coalition) (test : AdminMark → AdminDb → Bool)
    (es : List (PoolEvent CoalitionRequest AdminDb)) : Option CoalitionPool :=
  Pool.playAllowed (serveCoalition c) test ⟨office, []⟩ es

/-- `coalition_confined` for a manager who hires somebody. -/
theorem coalition_confined_office : ∃ p,
    playedBy manager (plain manager) (.start hires :: List.replicate 4 (.advance 0)) = some p ∧
    p.db.users.rows.map (controls manager p.db) = [false, false, true] ∧
    ∀ u ∈ p.db.users.rows, actsAs manager p.db u = true →
      ∀ k ∈ p.db.permissionsOf u, k ∈ Held manager office := by
  have hplayed : (playedBy manager (plain manager)
      (.start hires :: List.replicate 4 (.advance 0))).map
        (fun p => p.db.users.rows.map (controls manager p.db)) = some [false, false, true] := by
    decide +kernel
  obtain ⟨p, hp, hcontrols⟩ := Option.map_eq_some_iff.mp hplayed
  exact ⟨p, hp, hcontrols, coalition_confined manager_gathers
    (Pool.runs_of_playAllowed (plain_sound _) hp)⟩

/-- The manager sets the own phone on the account of the finance admin and resets its second
factor. -/
theorem phone_of_a_stronger_account : Gathers manager office ∧ ∃ p : CoalitionPool,
    Runs (Pool.Step (serveCoalition manager) TimePasses) always ⟨office, []⟩ p ∧
      ∃ u ∈ p.db.users.rows, controls manager p.db u = true ∧
        "withdrawal.pay" ∈ p.db.permissionsOf u ∧ "withdrawal.pay" ∉ Held manager office := by
  refine ⟨manager_gathers, ?_⟩
  have hplayed : (playedBy manager (fun _ _ => true)
      (.start ⟨3, .update 4 { phone := some "09120000003" }⟩ :: List.replicate 3 (.advance 0) ++
        .start ⟨3, .resetMfa 4 true⟩ :: List.replicate 8 (.advance 1))).map
      (fun p => p.db.users.rows.any fun u => controls manager p.db u &&
        (p.db.permissionsOf u).contains "withdrawal.pay") = some true := by decide +kernel
  obtain ⟨p, hp, hany⟩ := Option.map_eq_some_iff.mp hplayed
  have hallowed : Runs (Pool.Step (serveCoalition manager) TimePasses)
      (Pool.Allowed (fun _ _ => True) fun _ _ => True) ⟨office, []⟩ p :=
    Pool.runs_of_playAllowed (fun _ _ _ => trivial) hp
  obtain ⟨u, hu, hboth⟩ := List.any_eq_true.mp hany
  obtain ⟨hcontrols, hpay⟩ := Bool.and_eq_true_iff.mp hboth
  refine ⟨p, hallowed.mono fun _ _ _ => trivial, u, hu, hcontrols, List.contains_iff_mem.mp hpay, ?_⟩
  have hheld : (office.users.rows.all fun u => !manager.members.contains u.id ||
      !(office.permissionsOf u).contains "withdrawal.pay") = true := by decide +kernel
  rintro ⟨v, hv, hmember, hk⟩
  have hv := List.all_eq_true.mp hheld v hv
  simp [hmember, hk] at hv

end AdminManagementService

end ArkanGold
