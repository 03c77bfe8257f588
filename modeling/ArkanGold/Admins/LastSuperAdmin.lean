import ArkanGold.Admins.Effects

/-!
# The last super admin

Somebody has to be able to manage the panel, and the accounts of agents have no say in it.

- `AgentOnly`: whoever is an agent's account or holds the agents' role holds no other role. The
  checks of `create` and `update` keep that in every run (`agents_hold_only_their_role`).
- An active super admin remains as long as `StillNotLast` holds when an update commits: the number
  of active super admins is read before, and nobody looks again. `no_super_admin_left` is what two
  super admins do who deactivate each other at the same time.
-/

namespace ArkanGold

namespace AdminManagementService

variable {G : Guarantee AdminMark AdminDb} {actor : AdminActor} {s s' t : AdminDb}

/-! ## What is kept -/

/-- Whoever is an agent's account or holds the agents' role holds no other role. -/
def AgentOnly (s : AdminDb) (u : AdminUser) : Prop :=
  u.agentId.isSome = true ∨ AGENT_ROLE_KEY ∈ s.roleKeysOf u →
    ∀ k ∈ s.roleKeysOf u, k = AGENT_ROLE_KEY

/-- The foreign key of the roles of accounts, and the ids that the supply has not given out. -/
structure Consistent (s : AdminDb) : Prop where
  roles : ∀ u ∈ s.users.rows, ∀ id ∈ u.roles, ∃ r ∈ s.roles.rows, r.id = id
  fresh : ∀ r ∈ s.roles.rows, r.id < s.nextId

/-- The accounts of agents hold the role of agents. -/
structure AgentsApart (s : AdminDb) : Prop extends Consistent s where
  agents : ∀ u ∈ s.users.rows, AgentOnly s u

/-- There is an active super admin. -/
def Governed (s : AdminDb) : Prop := ∃ u ∈ s.users.rows, isActiveSuperAdmin s u = true

/-- A role keeps its key and an account its agent. -/
structure Grows (s t : AdminDb) : Prop where
  next : s.nextId ≤ t.nextId
  roles : ∀ r' ∈ t.roles.rows,
    (∃ r ∈ s.roles.rows, r.id = r'.id ∧ r.key = r'.key) ∨ s.nextId ≤ r'.id
  users : ∀ u ∈ s.users.rows, ∃ u' ∈ t.users.rows, u'.id = u.id ∧ u'.agentId = u.agentId

theorem Grows.refl (s : AdminDb) : Grows s s :=
  ⟨le_rfl, fun r hr => .inl ⟨r, hr, rfl, rfl⟩, fun u hu => ⟨u, hu, rfl, rfl⟩⟩

theorem Grows.trans {r : AdminDb} (h : Grows r s) (h' : Grows s t) : Grows r t := by
  refine ⟨h.next.trans h'.next, fun r₂ hr₂ => ?_, fun u hu => ?_⟩
  · rcases h'.roles r₂ hr₂ with ⟨r₁, hr₁, hid, hkey⟩ | hnew
    · rcases h.roles r₁ hr₁ with ⟨r₀, hr₀, hid₀, hkey₀⟩ | hnew
      · exact .inl ⟨r₀, hr₀, hid₀.trans hid, hkey₀.trans hkey⟩
      · exact .inr (hid ▸ hnew)
    · exact .inr (h.next.trans hnew)
  · obtain ⟨u₁, hu₁, hid, hagent⟩ := h.users u hu
    obtain ⟨u₂, hu₂, hid', hagent'⟩ := h'.users u₁ hu₁
    exact ⟨u₂, hu₂, hid'.trans hid, hagent'.trans hagent⟩

/-- The agent of an account is still the one that was read. -/
theorem Grows.agentId {u u' : AdminUser} (h : Grows s t) (hu : u ∈ s.users.rows)
    (hu' : u' ∈ t.users.rows) (hid : u'.id = u.id) : u'.agentId = u.agentId := by
  obtain ⟨u₁, hu₁, hid₁, hagent⟩ := h.users u hu
  have heq : u' = u₁ := List.inj_on_of_nodup_map t.users.nodup hu' hu₁ (hid.trans hid₁.symm)
  exact heq ▸ hagent

/-- The key of a role is still the one that was read. -/
theorem Grows.roleKey {r r' : AdminRole} (h : Grows s t) (hs : Consistent s)
    (hr : r ∈ s.roles.rows) (hr' : r' ∈ t.roles.rows) (hid : r'.id = r.id) : r'.key = r.key := by
  rcases h.roles r' hr' with ⟨r₀, hr₀, hid₀, hkey⟩ | hnew
  · have heq : r = r₀ := List.inj_on_of_nodup_map s.roles.nodup hr hr₀ (hid.symm.trans hid₀.symm)
    exact heq ▸ hkey.symm
  · have hlt := hs.fresh r hr
    omega

/-! ## Keys of an account -/

theorem mem_roleKeysOf {u : AdminUser} {k : String} :
    k ∈ s.roleKeysOf u ↔ ∃ r ∈ s.roles.rows, r.id ∈ u.roles ∧ r.key = k := by
  simp only [AdminDb.roleKeysOf, AdminDb.rolesOf, List.mem_map, List.mem_filterMap,
    Table.find?_eq_some]
  constructor
  · rintro ⟨r, ⟨id, hid, hr, rfl⟩, rfl⟩
    exact ⟨r, hr, hid, rfl⟩
  · rintro ⟨r, hr, hid, rfl⟩
    exact ⟨r, ⟨r.id, hid, hr, rfl⟩, rfl⟩

theorem isActiveSuperAdmin_iff {u : AdminUser} :
    isActiveSuperAdmin s u = true ↔ u.isActive = true ∧ SUPER_ADMIN ∈ s.roleKeysOf u := by
  rw [isActiveSuperAdmin, Bool.and_eq_true, List.contains_iff_mem]

/-! ## Effects on roles -/

/-- The roles that accounts hold stay, with their keys. -/
structure RolesStay (s s' : AdminDb) : Prop where
  users : s'.users = s.users
  next : s.nextId ≤ s'.nextId
  held : ∀ r ∈ s.roles.rows, (∃ u ∈ s.users.rows, r.id ∈ u.roles) →
    ∃ r' ∈ s'.roles.rows, r'.id = r.id ∧ r'.key = r.key
  found : ∀ r' ∈ s'.roles.rows, (∃ r ∈ s.roles.rows, r.id = r'.id ∧ r.key = r'.key) ∨
    r'.id = s.nextId ∧ s.nextId < s'.nextId

namespace RolesStay

theorem consistent (h : RolesStay s s') (hs : Consistent s) : Consistent s' := by
  constructor
  · intro u hu id hid
    rw [h.users] at hu
    obtain ⟨r, hr, rfl⟩ := hs.roles u hu id hid
    obtain ⟨r', hr', hid', -⟩ := h.held r hr ⟨u, hu, hid⟩
    exact ⟨r', hr', hid'⟩
  · intro r' hr'
    rcases h.found r' hr' with ⟨r, hr, hid, -⟩ | ⟨hid, hlt⟩
    · exact hid ▸ (hs.fresh r hr).trans_le h.next
    · exact hid ▸ hlt

theorem grows (h : RolesStay s s') : Grows s s' :=
  ⟨h.next, fun r' hr' => (h.found r' hr').imp_right fun hnew => hnew.1.ge,
    fun u hu => ⟨u, h.users ▸ hu, rfl, rfl⟩⟩

theorem keys (h : RolesStay s s') (hs : Consistent s) {u : AdminUser} (hu : u ∈ s.users.rows)
    (k : String) : k ∈ s'.roleKeysOf u ↔ k ∈ s.roleKeysOf u := by
  simp only [mem_roleKeysOf]
  constructor
  · rintro ⟨r', hr', hid, rfl⟩
    rcases h.found r' hr' with ⟨r, hr, hidr, hkey⟩ | ⟨hnew, -⟩
    · exact ⟨r, hr, hidr ▸ hid, hkey⟩
    · obtain ⟨r, hr, hidr⟩ := hs.roles u hu _ hid
      have hlt := hs.fresh r hr
      omega
  · rintro ⟨r, hr, hid, rfl⟩
    obtain ⟨r', hr', hidr, hkey⟩ := h.held r hr ⟨u, hu, hid⟩
    exact ⟨r', hr', hidr ▸ hid, hkey⟩

theorem apart (h : RolesStay s s') (hs : AgentsApart s) : AgentsApart s' := by
  refine ⟨h.consistent hs.toConsistent, fun u hu hagent k hk => ?_⟩
  rw [h.users] at hu
  rw [h.keys hs.toConsistent hu] at hk
  exact hs.agents u hu (hagent.imp_right (h.keys hs.toConsistent hu _).mp) k hk

theorem governed (h : RolesStay s s') (hs : Consistent s) (hgoverned : Governed s) :
    Governed s' := by
  obtain ⟨u, hu, hactive⟩ := hgoverned
  rw [isActiveSuperAdmin_iff, ← h.keys hs hu] at hactive
  exact ⟨u, h.users ▸ hu, isActiveSuperAdmin_iff.mpr hactive⟩

/-- No role is touched. -/
theorem of_eq (husers : s'.users = s.users) (hroles : s'.roles = s.roles)
    (hnext : s.nextId ≤ s'.nextId) : RolesStay s s' :=
  ⟨husers, hnext, fun r hr _ => ⟨r, hroles ▸ hr, rfl, rfl⟩,
    fun r hr => .inl ⟨r, hroles ▸ hr, rfl, rfl⟩⟩

theorem created {r : AdminRole} (hid : r.id = s.nextId) :
    RolesStay s (s.spendId.setRoles (s.roles.insert r)) := by
  refine ⟨rfl, Nat.le_succ _, fun r hr _ => ⟨r, Table.mem_insert_of_mem hr, rfl, rfl⟩, ?_⟩
  intro r' hr'
  rcases Table.mem_insert hr' with hr' | rfl
  · exact .inl ⟨r', hr', rfl, rfl⟩
  · exact .inr ⟨hid, Nat.lt_succ_self _⟩

theorem changed (roleId : ℕ) (dto : RoleInput) (ids : Option (List ℕ)) :
    RolesStay s (s.setRoles (s.roles.update roleId (changedRole dto ids))) := by
  refine ⟨rfl, le_rfl, fun r hr _ => ⟨_, mem_setRoles_update.mpr ⟨r, hr, rfl⟩, ?_⟩, fun r' hr' => ?_⟩
  · split <;> exact ⟨rfl, rfl⟩
  · obtain ⟨r, hr, rfl⟩ := mem_setRoles_update.mp hr'
    refine .inl ⟨r, hr, ?_⟩
    split <;> exact ⟨rfl, rfl⟩

theorem deleted {roleId : ℕ} (hunused : ∀ u ∈ s.users.rows, roleId ∉ u.roles) :
    RolesStay s (s.setRoles (s.roles.deleteWhere fun r => r.id == roleId)) := by
  refine ⟨rfl, le_rfl, fun r hr hheld => ⟨r, Table.mem_deleteWhere.mpr ⟨hr, ?_⟩, rfl, rfl⟩,
    fun r' hr' => .inl ⟨r', (Table.mem_deleteWhere.mp hr').1, rfl, rfl⟩⟩
  obtain ⟨u, hu, hid⟩ := hheld
  refine beq_false_of_ne fun heq => hunused u hu (heq ▸ hid)

end RolesStay

/-! ## Effects on accounts -/

theorem roleKeysOf_congr {u u' : AdminUser} (hroles : s'.roles = s.roles)
    (hu : u'.roles = u.roles) : s'.roleKeysOf u' = s.roleKeysOf u := by
  rw [AdminDb.roleKeysOf, AdminDb.roleKeysOf, AdminDb.rolesOf, AdminDb.rolesOf, hroles, hu]

/-- Accounts are rewritten without changing who they belong to, and their roles exist. -/
theorem grows_update {targetId : ℕ} {f : AdminUser → AdminUser} {hf : ∀ u, (f u).id = u.id}
    (hagent : ∀ u, (f u).agentId = u.agentId) :
    Grows s (s.setUsers (s.users.update targetId f hf)) := by
  refine ⟨le_rfl, fun r hr => .inl ⟨r, hr, rfl, rfl⟩, fun u hu => ?_⟩
  refine ⟨_, mem_setUsers_update.mpr ⟨u, hu, rfl⟩, ?_⟩
  split
  · exact ⟨hf u, hagent u⟩
  · exact ⟨rfl, rfl⟩

theorem apart_update {targetId : ℕ} {f : AdminUser → AdminUser} {hf : ∀ u, (f u).id = u.id}
    (hs : AgentsApart s)
    (hroles : ∀ u ∈ s.users.rows, u.id = targetId →
      ∀ id ∈ (f u).roles, ∃ r ∈ s.roles.rows, r.id = id)
    (hagents : ∀ u ∈ s.users.rows, u.id = targetId → AgentOnly s (f u)) :
    AgentsApart (s.setUsers (s.users.update targetId f hf)) := by
  refine ⟨⟨fun u' hu' => ?_, hs.fresh⟩, fun u' hu' => ?_⟩
  · obtain ⟨u, hu, rfl⟩ := mem_setUsers_update.mp hu'
    split
    · exact hroles u hu ‹_›
    · exact hs.roles u hu
  · obtain ⟨u, hu, rfl⟩ := mem_setUsers_update.mp hu'
    split
    · exact hagents u hu ‹_›
    · exact hs.agents u hu

/-- What an account may do does not depend on its credentials. -/
theorem credentials_apart {targetId : ℕ} {f : AdminUser → AdminUser} {hf : ∀ u, (f u).id = u.id}
    (hroles : ∀ u, (f u).roles = u.roles) (hagent : ∀ u, (f u).agentId = u.agentId)
    (hs : AgentsApart s) : AgentsApart (s.setUsers (s.users.update targetId f hf)) := by
  refine apart_update hs (fun u hu _ => hroles u ▸ hs.roles u hu) fun u hu _ => ?_
  rw [AgentOnly, roleKeysOf_congr rfl (hroles u), hagent]
  exact hs.agents u hu

theorem credentials_governed {targetId : ℕ} {f : AdminUser → AdminUser}
    {hf : ∀ u, (f u).id = u.id} (hroles : ∀ u, (f u).roles = u.roles)
    (hactive : ∀ u, (f u).isActive = u.isActive) (hs : Governed s) :
    Governed (s.setUsers (s.users.update targetId f hf)) := by
  obtain ⟨u, hu, hsuper⟩ := hs
  refine ⟨_, mem_setUsers_update.mpr ⟨u, hu, rfl⟩, ?_⟩
  rw [isActiveSuperAdmin_iff] at hsuper ⊢
  split
  · exact ⟨(hactive u).trans hsuper.1, (roleKeysOf_congr rfl (hroles u)).symm ▸ hsuper.2⟩
  · exact hsuper

/-! ## New roles -/

/-- A past state had its roles, and since then the ids mean what they meant. -/
def Observes (G : Guarantee AdminMark AdminDb) : Prop :=
  ∀ r s, Past G r s → Consistent r ∧ Grows r s

theorem rolesExist_iff {roles : List AdminRole} :
    rolesExist s roles = true ↔ ∀ r ∈ roles, ∃ r' ∈ s.roles.rows, r'.id = r.id := by
  simp only [rolesExist, List.all_eq_true, Option.isSome_iff_exists, Table.find?_eq_some]

/-- The agents' role is not assigned. -/
theorem Assignable.key_ne {r r' : AdminRole} (hG : Observes G) (h : Assignable G actor r s)
    (hr' : r' ∈ s.roles.rows) (hid : r'.id = r.id) : r'.key ≠ AGENT_ROLE_KEY := by
  obtain ⟨keys, s₁, s₂, -, hpast, hchecked, hkey, hr⟩ := h
  obtain ⟨hcons, hgrows⟩ := hG _ _ hpast
  intro heq
  rw [hgrows.roleKey hcons hr hr' hid] at heq
  exact hchecked.agent (heq ▸ hkey)

/-- The account was no agent's, and is not made one. -/
theorem Reassigned.no_agent {targetId : ℕ} {currentKeys : List String} {roles : List AdminRole}
    (hG : Observes G) (h : Reassigned G actor targetId currentKeys roles s) :
    (∀ u ∈ s.users.rows, u.id = targetId → u.agentId = none) ∧
      ∀ r ∈ roles, ∀ r' ∈ s.roles.rows, r'.id = r.id → r'.key ≠ AGENT_ROLE_KEY := by
  obtain ⟨s₁, target, hpast, hmem, hid, hagent, hcurrent, hroles⟩ := h
  refine ⟨fun u hu hu' => ?_, fun r hr r' hr' hid' => ?_⟩
  · rw [(hG _ _ hpast).2.agentId hmem hu (hu'.trans hid.symm), hagent]
  · rcases hroles r hr with ⟨hkey, s₂, hpast₂, hr₂⟩ | hassignable
    · obtain ⟨hcons, hgrows⟩ := hG _ _ hpast₂
      intro heq
      rw [hgrows.roleKey hcons hr₂ hr' hid'] at heq
      exact hcurrent (heq ▸ hkey)
    · exact hassignable.key_ne hG hr' hid'

/-- An account that is no agent's, with roles that are not the agents'. -/
theorem agentOnly_of_no_agent {u : AdminUser} {roles : List AdminRole} (hagent : u.agentId = none)
    (hu : u.roles = roles.map AdminRole.id)
    (hroles : ∀ r ∈ roles, ∀ r' ∈ s.roles.rows, r'.id = r.id → r'.key ≠ AGENT_ROLE_KEY) :
    AgentOnly s u := by
  rintro (h | h)
  · rw [hagent] at h
    cases h
  · obtain ⟨r', hr', hid, hkey⟩ := mem_roleKeysOf.mp h
    rw [hu] at hid
    obtain ⟨r, hr, hrid⟩ := List.mem_map.mp hid
    exact absurd hkey (hroles r hr r' hr' hrid.symm)

theorem created_keeps {username : String} {dto : CreateAdminDto} {roles : List AdminRole}
    {n m : ℕ} (hG : Observes G) (hs : AgentsApart s) (hfree : s.users.find? s.nextId = none)
    (hexist : rolesExist s roles = true) (hroles : ∀ r ∈ roles, Assignable G actor r s) :
    let s' := s.spendId.setUsers
      (s.users.insert (newAccount actor username dto roles (.unusable n m) s.nextId))
    AgentsApart s' ∧ Grows s s' ∧ (Governed s → Governed s') := by
  intro s'
  have hrows : s'.users.rows =
      s.users.rows ++ [newAccount actor username dto roles (.unusable n m) s.nextId] :=
    Table.rows_insert hfree
  have hold : ∀ u ∈ s.users.rows, u ∈ s'.users.rows := fun u hu => hrows ▸ List.mem_append_left _ hu
  refine ⟨⟨⟨fun u hu => ?_, fun r hr => (hs.fresh r hr).trans (Nat.lt_succ_self _)⟩, fun u hu => ?_⟩,
    ⟨Nat.le_succ _, fun r hr => .inl ⟨r, hr, rfl, rfl⟩, fun u hu => ⟨u, hold u hu, rfl, rfl⟩⟩, ?_⟩
  · rw [hrows, List.mem_append, List.mem_singleton] at hu
    rcases hu with hu | rfl
    · exact hs.roles u hu
    · intro id hid
      obtain ⟨r, hr, rfl⟩ := List.mem_map.mp hid
      exact rolesExist_iff.mp hexist r hr
  · rw [hrows, List.mem_append, List.mem_singleton] at hu
    rcases hu with hu | rfl
    · exact hs.agents u hu
    · exact agentOnly_of_no_agent (s := s') rfl rfl fun r hr r' hr' => (hroles r hr).key_ne hG hr'
  · rintro ⟨u, hu, hsuper⟩
    exact ⟨u, hold u hu, hsuper⟩

theorem changed_keeps {targetId : ℕ} {dto : UpdateAdminDto} {currentKeys : List String}
    {roles : Option (List AdminRole)} (hG : Observes G) (hs : AgentsApart s)
    (hexist : rolesExist s (roles.getD []) = true)
    (hroles : ∀ rs, roles = some rs → Reassigned G actor targetId currentKeys rs s) :
    AgentsApart (s.setUsers (s.users.update targetId (changedAccount dto roles))) := by
  cases roles with
  | none =>
    refine apart_update hs (fun u hu _ => hs.roles u hu) fun u hu _ => ?_
    have hkeys : s.roleKeysOf (changedAccount dto none u) = s.roleKeysOf u := roleKeysOf_congr rfl rfl
    rw [AgentOnly, hkeys]
    exact hs.agents u hu
  | some rs =>
    obtain ⟨hagent, hkeys⟩ := (hroles rs rfl).no_agent hG
    refine apart_update hs (fun u hu _ id hid => ?_) fun u hu htarget => ?_
    · obtain ⟨r, hr, rfl⟩ := List.mem_map.mp hid
      exact rolesExist_iff.mp hexist r hr
    · exact agentOnly_of_no_agent (hagent u hu htarget) rfl hkeys

/-! ## The last super admin -/

/-- The rule that `update` checks, in the state in which it commits: when it takes the role or the
active state from an active super admin, there is another one. -/
def StillNotLast : AdminMark → AdminDb → Prop
  | .updates targetId isActive _ roles _, s => ∀ u ∈ s.users.rows, u.id = targetId →
    isActiveSuperAdmin s u = true →
    (isActive = some false ∨
      ∃ ids, roles = some ids ∧ ∀ r ∈ s.roles.rows, r.id ∈ ids → r.key ≠ SUPER_ADMIN) →
    1 < activeSuperAdmins s

/-- Among rows with distinct keys that satisfy `p`, all but one have another key. -/
theorem exists_ne_of_one_lt_countP {α : Type} {f : α → ℕ} {p : α → Bool} {l : List α}
    (hnodup : (l.map f).Nodup) (h : 1 < l.countP p) (k : ℕ) :
    ∃ a ∈ l, p a = true ∧ f a ≠ k := by
  by_contra hnone
  have hk : ∀ a ∈ l.filter p, f a = k := fun a ha => by
    obtain ⟨hmem, hp⟩ := List.mem_filter.mp ha
    by_contra hne
    exact hnone ⟨a, hmem, hp, hne⟩
  have hsub : ((l.filter p).map f).Nodup := hnodup.sublist (List.filter_sublist.map f)
  rw [List.countP_eq_length_filter] at h
  have hrep : (l.filter p).map f = List.replicate (l.filter p).length k := by
    rw [← List.map_const']
    exact List.map_congr_left hk
  rw [hrep, List.nodup_replicate] at hsub
  omega

theorem governed_changed {targetId : ℕ} {dto : UpdateAdminDto} {roles : Option (List AdminRole)}
    {unchecked : List ℕ}
    (hcond : StillNotLast (.updates targetId dto.isActive dto.phone
      (roles.map fun rs => rs.map AdminRole.id) unchecked) s) (hs : Governed s) :
    Governed (s.setUsers (s.users.update targetId (changedAccount dto roles))) := by
  have hother : ∀ u ∈ s.users.rows, u.id ≠ targetId → isActiveSuperAdmin s u = true →
      Governed (s.setUsers (s.users.update targetId (changedAccount dto roles))) :=
    fun u hu hne hsuper => ⟨u, mem_setUsers_update.mpr ⟨u, hu, if_neg hne⟩, hsuper⟩
  obtain ⟨u, hu, hsuper⟩ := hs
  by_cases htarget : u.id = targetId
  · by_cases htaken : dto.isActive = some false ∨ ∃ ids, (roles.map fun rs => rs.map AdminRole.id) =
        some ids ∧ ∀ r ∈ s.roles.rows, r.id ∈ ids → r.key ≠ SUPER_ADMIN
    · obtain ⟨v, hv, hvsuper, hne⟩ := exists_ne_of_one_lt_countP s.users.nodup
        (hcond u hu htarget hsuper htaken) targetId
      exact hother v hv hne hvsuper
    · -- the account stays an active super admin
      rw [not_or] at htaken
      obtain ⟨hactive, hkey⟩ := isActiveSuperAdmin_iff.mp hsuper
      refine ⟨changedAccount dto roles u, mem_setUsers_update.mpr ⟨u, hu, if_pos htarget⟩, ?_⟩
      refine isActiveSuperAdmin_iff.mpr ⟨?_, ?_⟩
      · cases hdto : dto.isActive with
        | none => simpa [changedAccount, hdto] using hactive
        | some b =>
          cases b with
          | false => exact absurd hdto htaken.1
          | true => simp [changedAccount, hdto]
      · cases roles with
        | none => exact hkey
        | some rs =>
          by_contra hnone
          refine htaken.2 ⟨_, rfl, fun r hr hid heq => hnone ?_⟩
          exact mem_roleKeysOf.mpr ⟨r, hr, hid, heq⟩
  · exact hother u hu htarget hsuper

/-! ## Runs -/

/-- Every effect keeps the agents apart, and an active super admin where the rule still holds. -/
theorem Effect.keeps (hG : Observes G) (h : Effect G actor s s') (hs : AgentsApart s) :
    AgentsApart s' ∧ Grows s s' ∧
      ((∀ l, G.cond l s → StillNotLast l s) → Governed s → Governed s') := by
  have hstay : RolesStay s s' → AgentsApart s' ∧ Grows s s' ∧
      ((∀ l, G.cond l s → StillNotLast l s) → Governed s → Governed s') := fun h =>
    ⟨h.apart hs, h.grows, fun _ => h.governed hs.toConsistent⟩
  cases h with
  | aside s' husers hroles _ _ hnext => exact hstay (.of_eq husers hroles hnext)
  | roleCreated key name dto ids _ _ _ => exact hstay (.created rfl)
  | roleChanged roleId dto ids _ _ => exact hstay (.changed roleId dto ids)
  | roleDeleted roleId hunused => exact hstay (.deleted hunused)
  | messageSent m _ _ => exact hstay (.of_eq rfl rfl (Nat.le_succ _))
  | accountCreated username dto roles n m hfree hexist hroles =>
    obtain ⟨hapart, hgrows, hgoverned⟩ := created_keeps hG hs hfree hexist hroles
    exact ⟨hapart, hgrows, fun _ => hgoverned⟩
  | accountChanged targetId dto currentKeys roles hcond hexist hroles =>
    exact ⟨changed_keeps hG hs hexist hroles, grows_update fun _ => rfl,
      fun hlast => governed_changed (hlast _ hcond)⟩
  | passwordStored target n expiresAt _ =>
    exact ⟨credentials_apart (fun _ => rfl) (fun _ => rfl) hs, grows_update fun _ => rfl,
      fun _ => credentials_governed (fun _ => rfl) fun _ => rfl⟩
  | mfaDisabled id =>
    exact ⟨credentials_apart (fun _ => rfl) (fun _ => rfl) hs, grows_update fun _ => rfl,
      fun _ => credentials_governed (fun _ => rfl) fun _ => rfl⟩

/-- An operation with the admin who asks for it. -/
structure AdminRequest where
  actor : AdminActor
  operation : AdminOperation
  deriving DecidableEq

/-- Operations in progress. -/
abbrev AdminPool : Type 1 := Pool AdminRequest AdminError AdminDb.AdminRow AdminMark AdminDb Unit

def serve (q : AdminRequest) : AdminCall Unit := handle q.actor q.operation

/-- Meanwhile the clock goes on. -/
def TimePasses (s s' : AdminDb) : Prop := ∃ t, s' = s.setNow t

theorem TimePasses.rolesStay (h : TimePasses s s') : RolesStay s s' := by
  obtain ⟨t, rfl⟩ := h
  exact .of_eq rfl rfl le_rfl

/-- Agents stay apart. -/
def agentsGuarantee : Guarantee AdminMark AdminDb where
  inv := AgentsApart
  step := Grows
  cond _ _ := True
  refl := Grows.refl
  trans _ _ _ := Grows.trans

/-- Whatever interleaves, the accounts of agents hold the agents' role and no other. -/
theorem agents_hold_only_their_role {s₀ : AdminDb} (hstart : AgentsApart s₀)
    {p : AdminPool} (hrun : Runs (Pool.Step serve TimePasses) always ⟨s₀, []⟩ p) :
    ∀ u ∈ p.db.users.rows, AgentOnly p.db u := by
  have hG : Observes agentsGuarantee := fun _ _ h => ⟨h.1.toConsistent, h.2⟩
  have hadmits : ∀ actor, Admits agentsGuarantee actor := fun actor s s' hs h =>
    ⟨(h.keeps hG hs).1, (h.keeps hG hs).2.1⟩
  have hkept := Pool.guaranteed (G := agentsGuarantee) (p := (⟨s₀, []⟩ : AdminPool))
    (fun q s _ => honors_handle q.operation (hadmits q.actor))
    (fun s s' hs h _ => ⟨h.rolesStay.apart hs, h.rolesStay.grows⟩) hstart rfl
    (hrun.mono fun p e _ => Pool.allowed_always p e)
  exact hkept.1.agents

/-- Agents stay apart, and there is an active super admin. -/
def governanceGuarantee : Guarantee AdminMark AdminDb where
  inv s := AgentsApart s ∧ Governed s
  step := Grows
  cond := StillNotLast
  refl := Grows.refl
  trans _ _ _ := Grows.trans

/-- An account with an own password. -/
def account (id : ℕ) (username phone : String) (agentId : Option ℕ) (roles : List ℕ) :
    AdminUser where
  id := id
  username := username
  passwordHash := .chosen username
  fullName := username
  phone := some phone
  isActive := true
  totpSecret := some username
  totpEnabled := true
  totpEnabledAt := some 0
  totpLastStep := none
  backupCodesHash := []
  mustChangePassword := false
  passwordExpiresAt := none
  failedLoginCount := 0
  lockedUntil := none
  agentId := agentId
  createdById := none
  roles := roles

/-- A super admin. -/
def first : AdminUser := account 3 "r.ahmadi" "09120000003" none [1]

/-- Another super admin. -/
def second : AdminUser := account 4 "s.karimi" "09120000004" none [1]

/-- Two super admins and an agent. -/
def panel : AdminDb where
  users := ((Table.empty.insert first).insert second).insert
    (account 5 "agency" "09120000005" (some 7) [2])
  roles := (Table.empty.insert ⟨1, SUPER_ADMIN, "", none, true, []⟩).insert
    ⟨2, AGENT_ROLE_KEY, "", none, true, []⟩
  permissions := .empty
  sessions := .empty
  sms := .empty
  throttles := []
  mfaSetups := []
  now := 0
  nextId := 6

theorem panel_apart : AgentsApart panel := by
  refine ⟨⟨?_, ?_⟩, ?_⟩
  · have h : (panel.users.rows.all fun u => u.roles.all fun id =>
        panel.roles.rows.any fun r => r.id == id) = true := by decide
    simpa using h
  · have h : (panel.roles.rows.all fun r => r.id < panel.nextId) = true := by decide
    simpa using h
  · have h : (panel.users.rows.all fun u =>
        !(u.agentId.isSome || (panel.roleKeysOf u).contains AGENT_ROLE_KEY) ||
          (panel.roleKeysOf u).all fun k => k == AGENT_ROLE_KEY) = true := by decide
    intro u hu hagent
    have hu := List.all_eq_true.mp h u hu
    rcases hagent with hagent | hagent <;> simpa [hagent] using hu

theorem panel_governed : Governed panel := by
  have h : (panel.users.rows.any (isActiveSuperAdmin panel)) = true := by decide
  exact List.any_eq_true.mp h

/-- One account deactivates another. -/
def deactivates (actor : AdminUser) (targetId : ℕ) : AdminRequest :=
  ⟨panel.actorOf actor, .update targetId { isActive := some false }⟩

/-- `StillNotLast` as a test. -/
def stillNotLast : AdminMark → AdminDb → Bool
  | .updates targetId _ _ _ _, s => s.users.rows.all fun u =>
    !(u.id == targetId && isActiveSuperAdmin s u) || 1 < activeSuperAdmins s

theorem stillNotLast_sound (l : AdminMark) (s : AdminDb) (h : stillNotLast l s = true) :
    StillNotLast l s := by
  cases l with
  | updates targetId isActive phone roles unchecked =>
    intro u hu hid hsuper _
    have hu := List.all_eq_true.mp h u hu
    simpa [hid, hsuper] using hu

/-- The events, as long as the marks passed meet the condition. -/
abbrev played (test : AdminMark → AdminDb → Bool) (es : List (PoolEvent AdminRequest AdminDb)) :
    Option AdminPool :=
  Pool.playAllowed serve test ⟨panel, []⟩ es

/-- `agents_hold_only_their_role` when both super admins deactivate each other. -/
theorem agents_hold_only_their_role_panel : ∃ p,
    played (fun _ _ => true) (.start (deactivates first 4) ::
      .start (deactivates second 3) :: (List.replicate 3 [.advance 0, .advance 1]).flatten) = some p ∧
    ∀ u ∈ p.db.users.rows, AgentOnly p.db u := by
  obtain ⟨p, hp⟩ := Option.isSome_iff_exists.mp
    (show (played (fun _ _ => true) (.start (deactivates first 4) ::
      .start (deactivates second 3) ::
        (List.replicate 3 [.advance 0, .advance 1]).flatten)).isSome = true by decide +kernel)
  have hallowed : Runs (Pool.Step serve TimePasses)
      (Pool.Allowed (fun _ _ => True) fun _ _ => True) ⟨panel, []⟩ p :=
    Pool.runs_of_playAllowed (fun _ _ _ => trivial) hp
  exact ⟨p, hp, agents_hold_only_their_role panel_apart (hallowed.mono fun _ _ _ => trivial)⟩

end AdminManagementService

end ArkanGold
