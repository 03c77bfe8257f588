import ArkanGold.Lib.Guarantee
import ArkanGold.Admins.AdminManagement

/-!
# What the management of accounts does

Every statement that an operation writes with is one of a few effects, and each comes with what
the operation has read and checked before: `Effect` lists them. What was read is known of a past
state, and what of it is still true is up to the guarantee that all operations keep.

- `Assignable`: a role that the admin was allowed to assign when the roles were checked.
- `honors_handle`: a guarantee that admits all effects is honored by every operation.
-/

namespace ArkanGold

namespace AdminManagementService

variable {G : Guarantee AdminMark AdminDb} {actor : AdminActor} {s s' t : AdminDb}

/-! ## Effects -/

/-- An earlier state. -/
def Past (G : Guarantee AdminMark AdminDb) (s t : AdminDb) : Prop := G.inv s ∧ G.step s t

theorem Past.trans {r : AdminDb} (h : Past G r s) (hst : G.step s t) : Past G r t :=
  ⟨h.1, G.trans _ _ _ h.2 hst⟩

theorem Past.self (h : G.inv s) : Past G s s := ⟨h, G.refl s⟩

/-- The admin may grant the permissions with these ids. -/
def Granted (G : Guarantee AdminMark AdminDb) (actor : AdminActor) (ids : List ℕ) (s : AdminDb) :
    Prop :=
  ∃ keys s₁, Past G s₁ s ∧ canGrant actor keys = true ∧
    ∀ id ∈ ids, ∃ p ∈ s₁.permissions.rows, p.id = id ∧ p.key ∈ keys

theorem Granted.later {ids : List ℕ} (h : Granted G actor ids s) (hst : G.step s t) :
    Granted G actor ids t := by
  obtain ⟨keys, s₁, hpast, hgrant, hids⟩ := h
  exact ⟨keys, s₁, hpast.trans hst, hgrant, hids⟩

/-- The roles with the keys pass the checks of `resolveAssignableRoles`. -/
structure Checked (actor : AdminActor) (keys : List String) (s : AdminDb) : Prop where
  agent : AGENT_ROLE_KEY ∉ keys
  superAdmin : SUPER_ADMIN ∈ keys → actor.isSuperAdmin = true
  granted : ∀ r ∈ s.roles.rows, r.key ∈ keys → canGrant actor (s.permissionKeys r) = true

/-- The role was read, and before that its key was checked. -/
def Assignable (G : Guarantee AdminMark AdminDb) (actor : AdminActor) (r : AdminRole) (s : AdminDb) :
    Prop :=
  ∃ keys s₁ s₂, Past G s₁ s₂ ∧ Past G s₂ s ∧ Checked actor keys s₁ ∧ r.key ∈ keys ∧
    r ∈ s₂.roles.rows

theorem Assignable.later {r : AdminRole} (h : Assignable G actor r s) (hst : G.step s t) :
    Assignable G actor r t := by
  obtain ⟨keys, s₁, s₂, h₁, h₂, hchecked, hkey, hmem⟩ := h
  exact ⟨keys, s₁, s₂, h₁, h₂.trans hst, hchecked, hkey, hmem⟩

/-- The new roles of an account: it was no agent's, and every role is one that it had or one
that was checked. -/
def Reassigned (G : Guarantee AdminMark AdminDb) (actor : AdminActor) (targetId : ℕ)
    (currentKeys : List String) (roles : List AdminRole) (s : AdminDb) : Prop :=
  ∃ s₁ target, Past G s₁ s ∧ target ∈ s₁.users.rows ∧ target.id = targetId ∧
    target.agentId = none ∧ AGENT_ROLE_KEY ∉ currentKeys ∧
    ∀ r ∈ roles, (r.key ∈ currentKeys ∧ ∃ s₂, Past G s₂ s ∧ r ∈ s₂.roles.rows) ∨
      Assignable G actor r s

/-- What one statement does. -/
inductive Effect (G : Guarantee AdminMark AdminDb) (actor : AdminActor) (s : AdminDb) :
    AdminDb → Prop where
  /-- no account, no role and no message is touched -/
  | aside (s' : AdminDb) (husers : s'.users = s.users) (hroles : s'.roles = s.roles)
    (hpermissions : s'.permissions = s.permissions) (hsms : s'.sms = s.sms)
    (hnext : s.nextId ≤ s'.nextId) : Effect G actor s s'
  | roleCreated (key name : String) (dto : RoleInput) (ids : List ℕ)
    (hkey : key ∉ SYSTEM_ROLE_KEYS) (hfree : s.roles.find? s.nextId = none)
    (hgranted : Granted G actor ids s) :
    Effect G actor s (s.spendId.setRoles (s.roles.insert (newRole key name dto ids s.nextId)))
  | roleChanged (roleId : ℕ) (dto : RoleInput) (ids : Option (List ℕ))
    (hcustom : ∃ s₁ r, Past G s₁ s ∧ r ∈ s₁.roles.rows ∧ r.id = roleId ∧ r.key ∉ SYSTEM_ROLE_KEYS)
    (hgranted : ∀ l, ids = some l → Granted G actor l s) :
    Effect G actor s (s.setRoles (s.roles.update roleId (changedRole dto ids)))
  | roleDeleted (roleId : ℕ) (hunused : ∀ u ∈ s.users.rows, roleId ∉ u.roles) :
    Effect G actor s (s.setRoles (s.roles.deleteWhere fun r => r.id == roleId))
  | accountCreated (username : String) (dto : CreateAdminDto) (roles : List AdminRole) (n m : ℕ)
    (hfree : s.users.find? s.nextId = none) (hexist : rolesExist s roles = true)
    (hroles : ∀ r ∈ roles, Assignable G actor r s) :
    Effect G actor s (s.spendId.setUsers
      (s.users.insert (newAccount actor username dto roles (.unusable n m) s.nextId)))
  | accountChanged (targetId : ℕ) (dto : UpdateAdminDto) (currentKeys : List String)
    (roles : Option (List AdminRole))
    (hcond : G.cond (.updates targetId dto.isActive dto.phone
      (roles.map fun rs => rs.map AdminRole.id)
      (((roles.getD []).filter fun r => currentKeys.contains r.key).map AdminRole.id)) s)
    (hexist : rolesExist s (roles.getD []) = true)
    (hroles : ∀ rs, roles = some rs → Reassigned G actor targetId currentKeys rs s) :
    Effect G actor s (s.setUsers (s.users.update targetId (changedAccount dto roles)))
  | messageSent (m : TempPasswordSms) (hm : m.id = s.nextId) (hfree : s.sms.find? s.nextId = none) :
    Effect G actor s (s.spendId.setSms (s.sms.insert m))
  | passwordStored (target : AdminUser) (n : ℕ) (expiresAt : ℤ)
    (hsent : ∃ s₁ s₂ m, Past G s₁ s₂ ∧ Past G s₂ s ∧ target ∈ s₁.users.rows ∧
      m ∈ s₂.sms.rows ∧ m.id = n ∧ n < s₂.nextId ∧ target.phone = some m.phone) :
    Effect G actor s (s.setUsers (s.users.update target.id (withTempPassword n expiresAt)))
  | mfaDisabled (id : ℕ) : Effect G actor s (s.setUsers (s.users.update id withoutMfa))

/-- A guarantee that every effect keeps. -/
def Admits (G : Guarantee AdminMark AdminDb) (actor : AdminActor) : Prop :=
  ∀ s s', G.inv s → Effect G actor s s' → G.Allows s s'

/-- A role is rewritten. -/
theorem mem_setRoles_update {roleId : ℕ} {f : AdminRole → AdminRole} {hf : ∀ r, (f r).id = r.id}
    {r' : AdminRole} : r' ∈ (s.setRoles (s.roles.update roleId f hf)).roles.rows ↔
      ∃ r ∈ s.roles.rows, (if r.id = roleId then f r else r) = r' := by
  rw [AdminDb.setRoles_roles, Table.mem_update]

/-- An account is rewritten. -/
theorem mem_setUsers_update {targetId : ℕ} {f : AdminUser → AdminUser}
    {hf : ∀ u, (f u).id = u.id} {u' : AdminUser} :
    u' ∈ (s.setUsers (s.users.update targetId f hf)).users.rows ↔
      ∃ u ∈ s.users.rows, (if u.id = targetId then f u else u) = u' := by
  rw [AdminDb.setUsers_users, Table.mem_update]

/-! ## Reading -/

variable {α : Type} {post : α → AdminDb → Prop}

theorem honors_read_bind {f : AdminDb → AdminCall α}
    (h : ∀ t, G.Allows s t → (f t).Honors G post t) : (read >>= f).Honors G post s :=
  Call.honors_get_bind fun t hst ht => h t ⟨ht, hst⟩

/-- The ids found belong to permissions that were asked for. -/
theorem honors_resolvePermissionIds (keys : List String) :
    (resolvePermissionIds keys).Honors G (fun ids t => G.Allows s t ∧
      ∀ id ∈ ids, ∃ p ∈ t.permissions.rows, p.id = id ∧ p.key ∈ keys) s := by
  refine honors_read_bind fun t ht => Call.honors_check_bind fun _ => Call.honors_pure ⟨ht, ?_⟩
  intro id hid
  obtain ⟨p, hp, rfl⟩ := List.mem_map.mp hid
  obtain ⟨hmem, hkey⟩ := List.mem_filter.mp hp
  exact ⟨p, hmem, rfl, List.mem_eraseDups.mp (List.contains_iff_mem.mp hkey)⟩

theorem mem_rolesByKey {keys : List String} {r : AdminRole} :
    r ∈ rolesByKey s keys ↔ r ∈ s.roles.rows ∧ r.key ∈ keys := by
  rw [rolesByKey, List.mem_filter, List.contains_iff_mem]

theorem mem_of_mapM_find {roles found : List AdminRole} {keys : List String}
    (h : (keys.mapM fun k => roles.find? fun r => r.key == k) = some found) :
    ∀ r ∈ found, r ∈ roles := by
  induction keys generalizing found with
  | nil =>
    cases h
    exact fun r hr => absurd hr List.not_mem_nil
  | cons k keys ih =>
    rw [List.mapM_cons] at h
    obtain ⟨r₀, hr₀, h⟩ := Option.bind_eq_some_iff.mp h
    obtain ⟨rest, hrest, h⟩ := Option.bind_eq_some_iff.mp h
    cases h
    intro r hr
    rcases List.mem_cons.mp hr with rfl | hr
    · exact List.mem_of_find?_eq_some hr₀
    · exact ih hrest r hr

theorem honors_inOrder {roles : List AdminRole} {keys : List String}
    {post : List AdminRole → AdminDb → Prop}
    (h : ∀ found, (∀ r ∈ found, r ∈ roles) → post found s) :
    (inOrder roles keys).Honors G post s := by
  unfold inOrder
  cases hfound : keys.mapM fun k => roles.find? fun r => r.key == k with
  | none => exact Call.honors_fail _
  | some found => exact h found (mem_of_mapM_find hfound)

theorem honors_resolveAssignableRoles (keys : List String) :
    (resolveAssignableRoles actor keys).Honors G (fun roles t => G.Allows s t ∧
      Checked actor keys t ∧ ∀ r ∈ roles, r ∈ t.roles.rows ∧ r.key ∈ keys) s := by
  refine honors_read_bind fun t ht => Call.honors_check_bind fun _ => ?_
  refine Call.honors_check_bind fun hagent => Call.honors_check_bind fun hsuper => ?_
  refine Call.honors_check_bind fun hgrant => honors_inOrder fun found hfound => ?_
  refine ⟨ht, ⟨by simpa using hagent, fun hmem => ?_, fun r hr hkey => ?_⟩,
    fun r hr => mem_rolesByKey.mp (hfound r hr)⟩
  · simpa [hmem] using hsuper
  · rw [canGrant, Bool.or_eq_true, List.all_eq_true] at hgrant ⊢
    refine hgrant.imp_right fun h k hk => h k (List.mem_flatMap.mpr ⟨r, ?_, hk⟩)
    exact mem_rolesByKey.mpr ⟨hr, hkey⟩

/-- The account is one of the table, and the keys are those of its roles. -/
theorem honors_findTarget (targetId : ℕ) :
    (findTarget targetId).Honors G (fun found t => G.Allows s t ∧ found.1 ∈ t.users.rows ∧
      found.1.id = targetId ∧ found.2 = t.roleKeysOf found.1) s := by
  refine honors_read_bind fun t ht => Call.honors_getOrFail_bind fun target htarget => ?_
  obtain ⟨hmem, hid⟩ := Table.find?_eq_some.mp htarget
  exact Call.honors_pure ⟨ht, hmem, hid, rfl⟩

/-! ## Writing -/

/-- A transaction that has one effect. -/
theorem honors_effect {b : AdminStmt α} (hG : Admits G actor)
    (h : ∀ t a t', G.step s t → G.inv t → b.Ok t a t' → Effect G actor t t') :
    (Call.transaction b).Honors G (fun _ t' => G.Allows s t') s := by
  refine Call.honors_transaction fun t a t' hst ht _ hok => ?_
  have hallows : G.Allows t t' := hG t t' ht (h t a t' hst ht hok)
  exact ⟨hallows, hallows.1, G.trans _ _ _ hst hallows.2⟩

theorem honors_write_aside {g : AdminDb → AdminDb} (hG : Admits G actor)
    (h : ∀ t, Effect G actor t (g t)) :
    (Call.transaction (Block.write g) : AdminCall Unit).Honors G (fun _ t' => G.Allows s t') s :=
  honors_effect hG fun t _ t' _ _ hok => by
    obtain rfl := Block.ok_write.mp hok
    exact h t

theorem closeSessions_effect {targetId : ℕ} {u : Unit} (h : (closeSessions targetId).Ok s u s') :
    Effect G actor s s' := by
  obtain rfl := AdminDb.sessionRows.ok_deleteMany.mp h
  exact .aside _ rfl rfl rfl rfl le_rfl

theorem sendTempPassword_effect {target : AdminUser} {phone : String} {accepted : Bool}
    {n : ℕ} {expiresAt : ℤ} (h : (sendTempPassword target phone accepted).Ok s (n, expiresAt) s') :
    Effect G actor s s' ∧ s'.users = s.users ∧ n < s'.nextId ∧
      ∃ m ∈ s'.sms.rows, m.id = n ∧ m.phone = phone := by
  simp only [sendTempPassword, Block.ok_bind, Block.ok_get, Block.ok_check, Relation.ok_create,
    Block.ok_pure] at h
  obtain ⟨_, _, ⟨rfl, rfl⟩, _, _, ⟨-, rfl⟩, _, _, ⟨rfl, hfree, rfl⟩, heq, rfl⟩ := h
  obtain ⟨rfl, -⟩ := Prod.mk.inj heq
  refine ⟨.messageSent _ rfl hfree, rfl, Nat.lt_succ_self _, ?_⟩
  exact ⟨_, Table.mem_of_find? (Table.find?_insert_self hfree), rfl, rfl⟩

theorem storeTempPassword_effect {target : AdminUser} {n : ℕ} {expiresAt : ℤ} {u : Unit}
    (h : (storeTempPassword target.id n expiresAt).Ok s u s')
    (hsent : ∃ s₁ s₂ m, Past G s₁ s₂ ∧ Past G s₂ s ∧ target ∈ s₁.users.rows ∧
      m ∈ s₂.sms.rows ∧ m.id = n ∧ n < s₂.nextId ∧ target.phone = some m.phone) :
    Effect G actor s s' := by
  obtain ⟨-, rfl⟩ := AdminDb.userRows.ok_update.mp h
  exact .passwordStored target n expiresAt hsent

theorem phoneOf_eq_ok {target : AdminUser} {phone : String} (h : phoneOf target = .ok phone) :
    target.phone = some phone := by
  unfold phoneOf at h
  split at h
  · rename_i hphone
    cases h
    exact (Option.filter_eq_some_iff.mp hphone).1
  · cases h

/-- A temporary password within a transaction. -/
theorem issueTempPasswordIn_allows {target : AdminUser} {accepted : Bool} {d : Delivery}
    (hG : Admits G actor) (hs : G.inv s) (htarget : target ∈ s.users.rows)
    (h : (issueTempPasswordIn target accepted).Ok s d s') : G.Allows s s' := by
  simp only [issueTempPasswordIn, Block.ok_bind, Block.ok_ofExcept, Block.ok_pure] at h
  obtain ⟨phone, _, ⟨hphone, hget⟩, ⟨n, expiresAt⟩, s₁, hsend, _, s₂, hstore, _, s₃, hclose, -, rfl⟩ := h
  rw [hget] at hsend
  obtain ⟨heffect, -, hlt, m, hm, hid, hmphone⟩ := sendTempPassword_effect hsend
  have h₁ : G.Allows s s₁ := hG _ _ hs heffect
  have hsent : Effect G actor s₁ s₂ := storeTempPassword_effect hstore
    ⟨_, s₁, m, ⟨hs, h₁.2⟩, Past.self h₁.1, htarget, hm, hid, hlt, by rw [phoneOf_eq_ok hphone, hmphone]⟩
  have h₂ : G.Allows s₁ s₂ := hG _ _ h₁.1 hsent
  exact h₁.trans (h₂.trans (hG _ _ h₂.1 (closeSessions_effect hclose)))

/-- A temporary password in three statements of their own. -/
theorem honors_issueTempPassword {target : AdminUser} (accepted : Bool) (hG : Admits G actor)
    (hs : G.inv s) (htarget : target ∈ s.users.rows) :
    (issueTempPassword target accepted).Honors G (fun _ _ => True) s := by
  refine Call.honors_ofExcept_bind fun phone hphone => ?_
  refine Call.honors_transaction_bind fun t a t₁ hst ht _ hsend => ?_
  obtain ⟨n, expiresAt⟩ := a
  obtain ⟨heffect, -, hlt, m, hm, hid, hmphone⟩ := sendTempPassword_effect hsend
  have h₁ : G.Allows t t₁ := hG _ _ ht heffect
  refine ⟨h₁, Call.honors_seq (honors_effect hG fun _ _ _ h₂ _ hstore => ?_) fun _ _ _ => ?_⟩
  · exact storeTempPassword_effect hstore
      ⟨s, t₁, m, ⟨hs, G.trans _ _ _ hst h₁.2⟩, ⟨h₁.1, h₂⟩, htarget, hm, hid, hlt,
        by rw [phoneOf_eq_ok hphone, hmphone]⟩
  · exact Call.honors_seq (honors_effect hG fun _ _ _ _ _ hclose => closeSessions_effect hclose)
      fun _ _ _ => Call.honors_pure trivial

/-! ## Roles -/

theorem honors_createRole (dto : RoleInput) (hG : Admits G actor) :
    (createRole actor dto).Honors G (fun _ _ => True) s := by
  refine Call.honors_check_bind fun _ => Call.honors_check_bind fun hkey => ?_
  refine Call.honors_getOrFail_bind fun name _ => Call.honors_check_bind fun _ => ?_
  refine Call.honors_check_bind fun hgrant => honors_read_bind fun t ht => ?_
  refine Call.honors_check_bind fun _ => ?_
  refine Call.honors_seq (honors_resolvePermissionIds (dto.permissionKeys.getD [])) ?_
  rintro ids t₁ ⟨h₁, hids⟩
  refine Call.honors_mono (fun _ _ _ => trivial) (honors_effect hG fun t₂ _ t₃ h₂ _ hok => ?_)
  simp only [insertRole, Block.ok_bind, Block.ok_get, Block.ok_check, Relation.ok_create] at hok
  obtain ⟨_, _, ⟨rfl, rfl⟩, _, _, ⟨-, rfl⟩, rfl, hfree, rfl⟩ := hok
  exact .roleCreated _ name dto ids (by simpa using hkey) hfree
    ⟨_, t₁, ⟨h₁.1, h₂⟩, hgrant, hids⟩

theorem honors_requestedPermissions (dto : RoleInput) (hs : G.inv s) :
    (requestedPermissions actor dto).Honors G (fun ids t => G.Allows s t ∧
      ∀ l, ids = some l → Granted G actor l t) s := by
  unfold requestedPermissions
  cases dto.permissionKeys with
  | none => exact Call.honors_pure ⟨⟨hs, G.refl s⟩, nofun⟩
  | some keys =>
    refine Call.honors_check_bind fun _ => Call.honors_check_bind fun hgrant => ?_
    refine Call.honors_seq (honors_resolvePermissionIds keys) ?_
    rintro ids t ⟨ht, hids⟩
    refine Call.honors_pure ⟨ht, fun l hl => ?_⟩
    cases hl
    exact ⟨keys, t, Past.self ht.1, hgrant, hids⟩

theorem honors_updateRole (roleId : ℕ) (dto : RoleInput) (hG : Admits G actor) :
    (updateRole actor roleId dto).Honors G (fun _ _ => True) s := by
  refine honors_read_bind fun t ht => Call.honors_getOrFail_bind fun role hrole => ?_
  refine Call.honors_check_bind fun hcustom => ?_
  refine Call.honors_seq (honors_requestedPermissions dto ht.1) ?_
  rintro ids t₁ ⟨h₁, hgranted⟩
  obtain ⟨hmem, hid⟩ := Table.find?_eq_some.mp hrole
  rw [Bool.not_eq_true', Bool.or_eq_false_iff] at hcustom
  refine Call.honors_seq (honors_effect hG fun t₂ _ t₃ h₂ _ hok => ?_)
    fun _ _ _ => Call.honors_pure trivial
  obtain ⟨-, rfl⟩ := AdminDb.roleRows.ok_update.mp hok
  refine .roleChanged roleId dto ids
    ⟨t, role, ⟨ht.1, G.trans _ _ _ h₁.2 h₂⟩, hmem, hid, by simpa using hcustom.2⟩ ?_
  exact fun l hl => (hgranted l hl).later h₂

theorem userCount_eq_zero {roleId : ℕ} (h : userCount s roleId = 0) :
    ∀ u ∈ s.users.rows, roleId ∉ u.roles := by
  intro u hu
  have hnone := List.countP_eq_zero.mp h u hu
  simpa using hnone

theorem honors_deleteRole (roleId : ℕ) (hG : Admits G actor) :
    (deleteRole roleId).Honors G (fun _ _ => True) s := by
  refine honors_read_bind fun t ht => Call.honors_getOrFail_bind fun role _ => ?_
  refine Call.honors_check_bind fun _ => Call.honors_check_bind fun _ => ?_
  refine Call.honors_seq (honors_effect hG fun t₁ _ t₂ _ _ hok => ?_)
    fun _ _ _ => Call.honors_pure trivial
  simp only [dropRole, Block.ok_bind, Block.ok_get, Block.ok_check, Relation.ok_deleteMany] at hok
  obtain ⟨_, _, ⟨rfl, rfl⟩, _, _, ⟨-, rfl⟩, _, _, ⟨hunused, rfl⟩, rfl⟩ := hok
  exact .roleDeleted roleId (userCount_eq_zero (eq_of_beq hunused))

/-! ## Accounts -/

theorem insertAccount_effect {username : String} {dto : CreateAdminDto} {roles : List AdminRole}
    {admin : AdminUser} (hG : Admits G actor) (hs : G.inv s)
    (hroles : ∀ r ∈ roles, Assignable G actor r s)
    (h : (insertAccount actor username dto roles).Ok s admin s') :
    G.Allows s s' ∧ admin ∈ s'.users.rows := by
  simp only [insertAccount, Block.ok_bind, Block.ok_fresh, Block.ok_get, Block.ok_check,
    Relation.ok_create, Block.ok_pure] at h
  obtain ⟨n, s₁, ⟨-, rfl⟩, m, s₂, ⟨-, rfl⟩, _, _, ⟨rfl, rfl⟩, _, _, ⟨-, rfl⟩, _, _, ⟨hexist, rfl⟩,
    _, _, ⟨rfl, hfree, rfl⟩, rfl, rfl⟩ := h
  have h₁ : G.Allows s s.spendId := hG _ _ hs (.aside _ rfl rfl rfl rfl (Nat.le_succ _))
  have h₂ : G.Allows s.spendId s.spendId.spendId :=
    hG _ _ h₁.1 (.aside _ rfl rfl rfl rfl (Nat.le_succ _))
  have h₃ := h₁.trans h₂
  refine ⟨h₃.trans (hG _ _ h₃.1 (.accountCreated username dto roles n m hfree hexist
    fun r hr => (hroles r hr).later h₃.2)), ?_⟩
  exact Table.mem_of_find? (Table.find?_insert_self hfree)

theorem honors_create (dto : CreateAdminDto) (accepted : Bool) (hG : Admits G actor) :
    (create actor dto accepted).Honors G (fun _ _ => True) s := by
  dsimp only [create]
  refine Call.honors_check_bind fun _ => honors_read_bind fun t ht => ?_
  refine Call.honors_check_bind fun _ => Call.honors_ofExcept_bind fun keys _ => ?_
  refine Call.honors_getOrFail_bind fun keys _ => ?_
  refine Call.honors_seq (honors_resolveAssignableRoles keys) ?_
  rintro roles t₁ ⟨h₁, hchecked, hroles⟩
  refine Call.honors_transaction fun t₂ a t₃ h₂ ht₂ _ hok => ⟨?_, trivial⟩
  simp only [createAccount, Block.ok_bind, Block.ok_get, Block.ok_pure] at hok
  obtain ⟨admin, t₄, hinsert, _, _, ⟨rfl, rfl⟩, d, _, hissue, -, rfl⟩ := hok
  obtain ⟨h₄, hadmin⟩ := insertAccount_effect hG ht₂
    (fun r hr => ⟨keys, t₁, t₁, Past.self h₁.1, ⟨h₁.1, h₂⟩, hchecked, (hroles r hr).2,
      (hroles r hr).1⟩) hinsert
  exact h₄.trans (issueTempPasswordIn_allows hG h₄.1 hadmin hissue)

theorem honors_checkAddedKeys (addedKeys : List String) (hs : G.inv s) :
    (checkAddedKeys actor addedKeys).Honors G (fun _ t => G.Allows s t ∧
      ∀ k ∈ addedKeys, Checked actor addedKeys t) s := by
  unfold checkAddedKeys
  cases addedKeys with
  | nil => exact Call.honors_pure ⟨Guarantee.allows_self hs, nofun⟩
  | cons k addedKeys =>
    refine Call.honors_seq (honors_resolveAssignableRoles _) ?_
    exact fun _ t ht => Call.honors_pure ⟨ht.1, fun _ _ => ht.2.1⟩

/-- The new roles of an account were its own, or they were checked. -/
theorem honors_resolveNewRoles (currentKeys : List String) (newKeys : Option (List String))
    (hs : G.inv s) :
    (resolveNewRoles actor currentKeys newKeys).Honors G (fun roles t => G.Allows s t ∧
      ∀ rs, roles = some rs → newKeys.isSome = true ∧
        ∀ r ∈ rs, (r.key ∈ currentKeys ∧ r ∈ t.roles.rows) ∨ Assignable G actor r t) s := by
  cases newKeys with
  | none => exact Call.honors_pure ⟨Guarantee.allows_self hs, nofun⟩
  | some keys =>
    refine Call.honors_seq (honors_checkAddedKeys _ hs) ?_
    rintro _ t ⟨ht, hchecked⟩
    refine honors_read_bind fun t₁ h₁ => Call.honors_check_bind fun _ => Call.honors_bind ?_
    refine honors_inOrder fun roles hroles => Call.honors_pure ⟨ht.trans h₁, fun rs hrs => ?_⟩
    cases hrs
    refine ⟨rfl, fun r hr => ?_⟩
    obtain ⟨hmem, hkey⟩ := mem_rolesByKey.mp (hroles r hr)
    by_cases hold : r.key ∈ currentKeys
    · exact .inl ⟨hold, hmem⟩
    · have hadded : r.key ∈ keys.filter fun k => !currentKeys.contains k :=
        List.mem_filter.mpr ⟨hkey, by simpa using hold⟩
      exact .inr ⟨_, t, t₁, ⟨ht.1, h₁.2⟩, Past.self h₁.1, hchecked _ hadded, hadded, hmem⟩

theorem honors_assertNotLast (currentKeys : List String) (isActive : Option Bool)
    (newKeys : Option (List String)) (hs : G.inv s) :
    (assertNotLast currentKeys isActive newKeys).Honors G (fun _ t => G.Allows s t) s := by
  unfold assertNotLast
  split
  · exact honors_read_bind fun t ht => Call.honors_check fun _ => ht
  · exact Call.honors_pure (Guarantee.allows_self hs)

theorem updateAccount_effect {targetId : ℕ} {dto : UpdateAdminDto} {currentKeys : List String}
    {roles : Option (List AdminRole)} {a : AdminSummary}
    (hroles : ∀ rs, roles = some rs → Reassigned G actor targetId currentKeys rs s)
    (hmeets : (updateAccount targetId dto currentKeys roles).Meets G.cond s)
    (h : (updateAccount targetId dto currentKeys roles).Ok s a s') : Effect G actor s s' := by
  have hcond := (Block.meets_bind.mp hmeets).1.1
  simp only [updateAccount, Block.ok_bind, Block.ok_mark, Block.ok_get, Block.ok_check,
    Block.ok_getOrFail, Block.ok_pure] at h
  obtain ⟨_, _, rfl, _, _, ⟨rfl, rfl⟩, _, _, ⟨hexist, rfl⟩, _, _, hupdate, _, _, ⟨-, rfl⟩, _, _,
    ⟨-, rfl⟩, -, rfl⟩ := h
  obtain ⟨-, rfl⟩ := AdminDb.userRows.ok_update.mp hupdate
  exact .accountChanged targetId dto currentKeys roles hcond hexist hroles

theorem honors_update (targetId : ℕ) (dto : UpdateAdminDto) (hG : Admits G actor) :
    (update actor targetId dto).Honors G (fun _ _ => True) s := by
  refine Call.honors_seq (honors_findTarget targetId) ?_
  rintro ⟨target, currentKeys⟩ t ⟨ht, hmem, hid, hkeys⟩
  refine Call.honors_check_bind fun _ => Call.honors_ofExcept_bind fun requestedKeys _ => ?_
  refine Call.honors_check_bind fun _ => Call.honors_check_bind fun hagent => ?_
  refine Call.honors_seq (honors_resolveNewRoles _ _ ht.1) ?_
  rintro roles t₁ ⟨h₁, hroles⟩
  refine Call.honors_seq (honors_assertNotLast _ _ _ h₁.1) ?_
  intro _ t₂ h₂
  refine Call.honors_transaction_bind fun t₃ a t₄ h₃ ht₃ hmeets hok => ?_
  have hstep := G.trans _ _ _ h₂.2 h₃
  have heffect : Effect G actor t₃ t₄ := updateAccount_effect (fun rs hrs => ?_) hmeets hok
  · refine ⟨hG _ _ ht₃ heffect, ?_⟩
    split
    · exact Call.honors_seq (honors_effect hG fun _ _ _ _ _ hclose => closeSessions_effect hclose)
        fun _ _ _ => Call.honors_pure trivial
    · exact Call.honors_pure trivial
  · obtain ⟨hchanged, hroles⟩ := hroles rs hrs
    rw [hchanged, Bool.true_and, Bool.not_eq_true', Bool.or_eq_false_iff] at hagent
    refine ⟨t, target, ⟨ht.1, G.trans _ _ _ h₁.2 hstep⟩, hmem, hid, by simpa using hagent.1,
      by simpa using hagent.2, fun r hr => ?_⟩
    rcases hroles r hr with ⟨hkey, hold⟩ | hnew
    · exact .inl ⟨hkey, t₁, ⟨h₁.1, hstep⟩, hold⟩
    · exact .inr (hnew.later hstep)

/-! ## Credentials -/

theorem honors_resetPassword (targetId : ℕ) (accepted : Bool) (hG : Admits G actor) :
    (resetPassword actor targetId accepted).Honors G (fun _ _ => True) s := by
  refine Call.honors_seq (honors_findTarget targetId) ?_
  rintro ⟨target, currentKeys⟩ t ⟨ht, hmem, -, -⟩
  refine Call.honors_check_bind fun _ => ?_
  refine Call.honors_seq (honors_issueTempPassword accepted hG ht.1 hmem) fun d t₁ _ => ?_
  exact Call.honors_seq (honors_write_aside hG fun _ => .aside _ rfl rfl rfl rfl le_rfl)
    fun _ _ _ => Call.honors_pure trivial

theorem honors_disableMfa (id : ℕ) (hG : Admits G actor) :
    (disableMfa id).Honors G (fun _ _ => True) s := by
  refine Call.honors_seq (honors_effect hG fun t _ t' _ _ hok => ?_) fun _ _ _ => ?_
  · obtain ⟨-, rfl⟩ := AdminDb.userRows.ok_update.mp hok
    exact .mfaDisabled id
  · exact Call.honors_mono (fun _ _ _ => trivial)
      (honors_write_aside hG fun _ => .aside _ rfl rfl rfl rfl le_rfl)

theorem honors_resetMfa (targetId : ℕ) (accepted : Bool) (hG : Admits G actor) :
    (resetMfa actor targetId accepted).Honors G (fun _ _ => True) s := by
  refine Call.honors_seq (honors_findTarget targetId) ?_
  rintro ⟨target, currentKeys⟩ t ⟨ht, hmem, -, -⟩
  refine Call.honors_check_bind fun _ => Call.honors_check_bind fun _ => ?_
  refine Call.honors_check_bind fun _ => ?_
  refine Call.honors_seq (honors_issueTempPassword accepted hG ht.1 hmem) fun d t₁ _ => ?_
  refine Call.honors_seq (honors_disableMfa target.id hG) fun _ _ _ => ?_
  exact Call.honors_seq (honors_write_aside hG fun _ => .aside _ rfl rfl rfl rfl le_rfl)
    fun _ _ _ => Call.honors_pure trivial

/-! ## The service -/

/-- A guarantee that admits all effects is honored by every operation. -/
theorem honors_handle (op : AdminOperation) (hG : Admits G actor) :
    (handle actor op).Honors G (fun _ _ => True) s := by
  have hdone : ∀ {β : Type} {c : AdminCall β}, c.Honors G (fun _ _ => True) s →
      (do let _ ← c : AdminCall Unit).Honors G (fun _ _ => True) s := fun h =>
    Call.honors_seq h fun _ _ _ => Call.honors_pure trivial
  cases op with
  | createRole dto => exact hdone (honors_createRole dto hG)
  | updateRole roleId dto => exact hdone (honors_updateRole roleId dto hG)
  | deleteRole roleId => exact hdone (honors_deleteRole roleId hG)
  | create dto accepted => exact hdone (honors_create dto accepted hG)
  | update targetId dto => exact hdone (honors_update targetId dto hG)
  | resetPassword targetId accepted => exact hdone (honors_resetPassword targetId accepted hG)
  | resetMfa targetId accepted => exact hdone (honors_resetMfa targetId accepted hG)

end AdminManagementService

end ArkanGold
