import ArkanGold.Lib.Calls
import ArkanGold.Lib.Statements
import ArkanGold.Common.Text

/-!
# Management of panel accounts

`AdminManagementService`: custom roles, the accounts of the panel, and the temporary passwords
that are sent to their owners.

- `update` reads the account, the roles and the number of active super admins in single
  statements and writes in a transaction; what it has read may be out of date by then.
- `issueTempPassword` sends the password to the phone that was read and stores it afterwards.
  `create` does both in its transaction.
- A generated password is named by the number it was drawn with, and a hash by the password it
  is of. Whether the provider accepts a message is part of the request.
-/

namespace ArkanGold

/-- The exceptions of the panel. -/
inductive AdminError where
  | badRequest (message : String)
  | notFound (message : String)
  | conflict (message : String)
  | forbidden (message : String)
  | unauthorized (message : String)
  | serviceUnavailable (message : String)
  /-- a constraint of the database -/
  | database (code : String)
  deriving DecidableEq

/-- The password that a hash is of. -/
inductive Password where
  /-- a temporary password -/
  | temp (n : ℕ)
  /-- two generated passwords in a row, which nobody is sent -/
  | unusable (n m : ℕ)
  | chosen (text : String)
  deriving DecidableEq

/-- A row of `admin_users` with its roles in the order in which they were assigned. -/
structure AdminUser where
  id : ℕ
  username : String
  passwordHash : Password
  fullName : String
  phone : Option String
  isActive : Bool
  totpSecret : Option String
  totpEnabled : Bool
  totpEnabledAt : Option ℤ
  totpLastStep : Option ℤ
  backupCodesHash : List String
  mustChangePassword : Bool
  passwordExpiresAt : Option ℤ
  failedLoginCount : ℕ
  lockedUntil : Option ℤ
  agentId : Option ℕ
  createdById : Option ℕ
  roles : List ℕ
  deriving DecidableEq

/-- A row of `admin_roles` with its permissions. -/
structure AdminRole where
  id : ℕ
  key : String
  name : String
  description : Option String
  isSystem : Bool
  permissions : List ℕ
  deriving DecidableEq

/-- A row of `admin_permissions`. -/
structure AdminPermission where
  id : ℕ
  key : String
  deriving DecidableEq

/-- A row of `admin_sessions`. -/
structure AdminSession where
  id : ℕ
  adminUserId : ℕ
  deriving DecidableEq

/-- A message of the template `ADMIN_TEMP_PASSWORD`; `id` is the number of the password. -/
structure TempPasswordSms where
  id : ℕ
  phone : String
  name : String
  username : String
  hours : ℕ
  panelUrl : String
  referenceId : ℕ
  deriving DecidableEq

/-- Statements that properties of runs speak about. -/
inductive AdminMark where
  /-- `update` commits: the account, the active state and the phone requested, the new roles, and
  those of them for which no right to grant was asked -/
  | updates (targetId : ℕ) (isActive : Option Bool) (phone : Option String)
    (roles : Option (List ℕ)) (unchecked : List ℕ)

/-- The accounts, the roles, and what was sent. -/
structure AdminDb where
  users : Table AdminUser AdminUser.id
  roles : Table AdminRole AdminRole.id
  permissions : Table AdminPermission AdminPermission.id
  sessions : Table AdminSession AdminSession.id
  sms : Table TempPasswordSms TempPasswordSms.id
  /-- the keys of `LoginThrottleService` in Redis -/
  throttles : List (String × String)
  /-- the keys `mfa-setup:admin` in Redis -/
  mfaSetups : List ℕ
  now : ℤ
  nextId : ℕ

namespace AdminDb

/-- Replace `users`. -/
@[simps] def setUsers (t : Table AdminUser AdminUser.id) (s : AdminDb) : AdminDb :=
  { s with users := t }

/-- Replace `roles`. -/
@[simps] def setRoles (t : Table AdminRole AdminRole.id) (s : AdminDb) : AdminDb :=
  { s with roles := t }

/-- Replace `sessions`. -/
@[simps] def setSessions (t : Table AdminSession AdminSession.id) (s : AdminDb) : AdminDb :=
  { s with sessions := t }

/-- Replace `sms`. -/
@[simps] def setSms (t : Table TempPasswordSms TempPasswordSms.id) (s : AdminDb) : AdminDb :=
  { s with sms := t }

/-- Time passes. -/
@[simps] def setNow (t : ℤ) (s : AdminDb) : AdminDb := { s with now := t }

/-- A number of the id supply is spent. -/
@[simps] def spendId (s : AdminDb) : AdminDb := { s with nextId := s.nextId + 1 }

/-- `LoginThrottleService.clear` -/
@[simps] def clearThrottle (scope subject : String) (s : AdminDb) : AdminDb :=
  { s with throttles := s.throttles.filter (· != (scope, subject)) }

/-- `redis.del` of the key `mfa-setup` of an account. -/
@[simps] def dropMfaSetup (id : ℕ) (s : AdminDb) : AdminDb :=
  { s with mfaSetups := s.mfaSetups.filter (· != id) }

instance : Supply AdminDb := ⟨nextId, spendId⟩

/-- No property speaks about the marks of earlier steps. -/
instance : History AdminMark AdminDb := ⟨fun _ s => s⟩

@[simp] theorem supply_next (s : AdminDb) : Supply.next s = s.nextId := rfl

@[simp] theorem supply_bump (s : AdminDb) : Supply.bump s = s.spendId := rfl

@[simp] theorem history_record (l : AdminMark) (s : AdminDb) : History.record l s = s := rfl

/-- The names of the row locks. -/
inductive AdminRow where
  | user (id : ℕ)
  | role (id : ℕ)
  | session (id : ℕ)
  | sms (id : ℕ)
  deriving DecidableEq

/-- `admin_users` -/
@[simps] def userRows : Relation AdminRow AdminDb AdminUser AdminUser.id := ⟨users, setUsers, .user⟩

/-- `admin_roles` -/
@[simps] def roleRows : Relation AdminRow AdminDb AdminRole AdminRole.id := ⟨roles, setRoles, .role⟩

/-- `admin_sessions` -/
@[simps] def sessionRows : Relation AdminRow AdminDb AdminSession AdminSession.id :=
  ⟨sessions, setSessions, .session⟩

/-- The messages sent. -/
@[simps] def smsRows : Relation AdminRow AdminDb TempPasswordSms TempPasswordSms.id :=
  ⟨sms, setSms, .sms⟩

/-! ## Roles and permissions -/

/-- The roles of an account, as `ADMIN_ROLES_INCLUDE` reads them. -/
def rolesOf (s : AdminDb) (u : AdminUser) : List AdminRole := u.roles.filterMap s.roles.find?

/-- `roles.map((r) => r.role.key)`, by way of `roleKeysOf`. -/
def roleKeysOf (s : AdminDb) (u : AdminUser) : List String := (s.rolesOf u).map AdminRole.key

/-- The keys of the permissions of a role. -/
def permissionKeys (s : AdminDb) (r : AdminRole) : List String :=
  r.permissions.filterMap fun id => (s.permissions.find? id).map AdminPermission.key

/-- `mergePermissions`: the union over all roles. -/
def permissionsOf (s : AdminDb) (u : AdminUser) : List String :=
  ((s.rolesOf u).flatMap s.permissionKeys).eraseDups

end AdminDb

open AdminDb (AdminRow)

/-- A transaction on the accounts. -/
abbrev AdminStmt (α : Type) : Type := Block AdminError AdminRow AdminMark AdminDb α

/-- A call of the service. -/
abbrev AdminCall (α : Type) : Type 1 := Call AdminError AdminRow AdminMark AdminDb α

/-- `SUPER_ADMIN_ROLE_KEY` -/
def SUPER_ADMIN : String := "SUPER_ADMIN"

/-- `AGENT_ROLE_KEY` -/
def AGENT_ROLE_KEY : String := "AGENT"

/-- The keys of `ADMIN_ROLES`. -/
def SYSTEM_ROLE_KEYS : List String :=
  [SUPER_ADMIN, "FINANCE_ADMIN", "ACCOUNTANT", "SUPPORT_ADMIN", "SUPPORT_MANAGER", "SHOP_ADMIN",
    "AGENT_MANAGER", AGENT_ROLE_KEY]

/-- The admin who carries out an operation. -/
structure AdminActor where
  adminUserId : ℕ
  roleKeys : List String
  permissions : List String
  deriving DecidableEq

/-- What `AdminJwtStrategy.validate` answers for an account. -/
def AdminDb.actorOf (s : AdminDb) (u : AdminUser) : AdminActor :=
  ⟨u.id, s.roleKeysOf u, s.permissionsOf u⟩

/-- `isSuperAdmin` -/
def AdminActor.isSuperAdmin (actor : AdminActor) : Bool := actor.roleKeys.contains SUPER_ADMIN

structure RoleInput where
  key : Option String := none
  name : Option String := none
  description : Option String := none
  permissionKeys : Option (List String) := none
  deriving DecidableEq

structure CreateAdminDto where
  username : String
  fullName : String
  roleKeys : Option (List String) := none
  roleKey : Option String := none
  phone : String
  deriving DecidableEq

structure UpdateAdminDto where
  fullName : Option String := none
  roleKeys : Option (List String) := none
  roleKey : Option String := none
  isActive : Option Bool := none
  phone : Option String := none
  deriving DecidableEq

namespace AdminManagementService

/-- What a statement of its own sees. -/
def read : AdminCall AdminDb := Call.transaction Block.get

/-! ## Temporary passwords -/

def ADMIN_PANEL_URL : String := "admin.arkan.gold"

def AGENT_PANEL_URL : String := "panel.arkan.gold"

def TEMP_PASSWORD_TTL_HOURS : ℕ := 24

/-- `maskPhone` of a phone that is not empty. -/
def maskPhone (phone : String) : String :=
  let digits := trimText phone
  let n := utf16Length digits
  if n ≤ 6 then "***" else sliceTo digits 4 ++ "***" ++ sliceFrom digits (n - 4)

/-- What `issueTempPassword` answers. -/
structure Delivery where
  maskedPhone : String
  expiresAt : ℤ

/-- The phone of an account, unless it is missing or empty. -/
def phoneOf (target : AdminUser) : Except AdminError String :=
  match target.phone.filter (· != "") with
  | some phone => .ok phone
  | none => .error (.badRequest "برای ارسال رمز موقت، ابتدا شماره موبایل این حساب را ثبت کنید")

/-- A temporary password is generated and sent to the phone: its number, and the time until
which it is valid. -/
def sendTempPassword (target : AdminUser) (phone : String) (accepted : Bool) :
    AdminStmt (ℕ × ℤ) := do
  let s ← Block.get
  Block.check accepted (.serviceUnavailable
    "ارسال پیامک رمز موقت ناموفق بود؛ تغییری اعمال نشد. لحظاتی دیگر دوباره تلاش کنید")
  let n ← AdminDb.smsRows.create .sms (.database "P2002") fun n =>
    { id := n
      phone := phone
      name := target.fullName
      username := target.username
      hours := TEMP_PASSWORD_TTL_HOURS
      panelUrl := if target.agentId.isSome then AGENT_PANEL_URL else ADMIN_PANEL_URL
      referenceId := target.id }
  pure (n, s.now + TEMP_PASSWORD_TTL_HOURS * 3600000)

/-- The account with a temporary password. -/
def withTempPassword (n : ℕ) (expiresAt : ℤ) (u : AdminUser) : AdminUser :=
  { u with
    passwordHash := .temp n
    mustChangePassword := true
    passwordExpiresAt := some expiresAt
    failedLoginCount := 0
    lockedUntil := none }

/-- `adminUser.update` of `issueTempPassword`. -/
def storeTempPassword (targetId n : ℕ) (expiresAt : ℤ) : AdminStmt Unit :=
  AdminDb.userRows.update (.database "P2025") targetId (withTempPassword n expiresAt)

/-- `adminSession.deleteMany({ where: { adminUserId } })` -/
def closeSessions (targetId : ℕ) : AdminStmt Unit :=
  AdminDb.sessionRows.deleteMany fun r => r.adminUserId == targetId

/-- `issueTempPassword` with the client of a transaction. -/
def issueTempPasswordIn (target : AdminUser) (accepted : Bool) : AdminStmt Delivery := do
  let phone ← Block.ofExcept (phoneOf target)
  let (n, expiresAt) ← sendTempPassword target phone accepted
  storeTempPassword target.id n expiresAt
  closeSessions target.id
  pure ⟨maskPhone phone, expiresAt⟩

/-- `issueTempPassword` outside a transaction. -/
def issueTempPassword (target : AdminUser) (accepted : Bool) : AdminCall Delivery := do
  let phone ← Call.ofExcept (phoneOf target)
  let (n, expiresAt) ← Call.transaction (sendTempPassword target phone accepted)
  Call.transaction (storeTempPassword target.id n expiresAt)
  Call.transaction (closeSessions target.id)
  pure ⟨maskPhone phone, expiresAt⟩

/-! ## Custom roles -/

/-- The test of `assertCanGrant`. -/
def canGrant (actor : AdminActor) (permissionKeys : List String) : Bool :=
  actor.isSuperAdmin || permissionKeys.all actor.permissions.contains

def assertCanGrant (actor : AdminActor) (permissionKeys : List String) : AdminCall Unit :=
  Call.check (canGrant actor permissionKeys)
    (.forbidden "امکان اعطای دسترسی‌هایی که خودتان ندارید وجود ندارد")

def resolvePermissionIds (permissionKeys : List String) : AdminCall (List ℕ) := do
  let unique := permissionKeys.eraseDups
  let s ← read
  let permissions := s.permissions.rows.filter fun p => unique.contains p.key
  Call.check (permissions.length == unique.length)
    (.badRequest "برخی از دسترسی‌های انتخاب‌شده نامعتبر هستند")
  pure (permissions.map AdminPermission.id)

/-- `/^[A-Z][A-Z0-9_]{2,39}$/` -/
def validRoleKey (key : String) : Bool :=
  match key.toList with
  | [] => false
  | c :: cs => c.isUpper && 2 ≤ cs.length && cs.length ≤ 39 &&
      cs.all fun d => d.isUpper || d.isDigit || d == '_'

/-- `dto.description?.trim() || null` -/
def trimmed (text : Option String) : Option String := (text.map trimText).filter (· != "")

/-- The role that `createRole` inserts. -/
def newRole (key name : String) (dto : RoleInput) (permissionIds : List ℕ) (id : ℕ) : AdminRole where
  id := id
  key := key
  name := name
  description := trimmed dto.description
  isSystem := false
  permissions := permissionIds

/-- `adminRole.create` with its unique key. -/
def insertRole (mk : ℕ → AdminRole) (key : String) : AdminStmt ℕ := do
  let s ← Block.get
  Block.check (s.roles.rows.all fun r => r.key != key) (.database "P2002")
  AdminDb.roleRows.create .role (.database "P2002") mk

/-- Keys reach the service in ASCII. -/
def createRole (actor : AdminActor) (dto : RoleInput) : AdminCall ℕ := do
  let key := (trimText (dto.key.getD "")).map Char.toUpper
  Call.check (validRoleKey key) (.badRequest
    "کلید نقش باید با حروف انگلیسی بزرگ شروع شود و فقط شامل حروف، عدد و _ باشد (۳ تا ۴۰ کاراکتر)")
  Call.check (!SYSTEM_ROLE_KEYS.contains key) (.conflict "این کلید متعلق به نقش‌های سیستمی است")
  let name ← Call.getOrFail (trimmed dto.name) (.badRequest "نام نقش را وارد کنید")
  let permissionKeys := dto.permissionKeys.getD []
  Call.check (!permissionKeys.isEmpty) (.badRequest "حداقل یک دسترسی برای نقش انتخاب کنید")
  assertCanGrant actor permissionKeys
  let s ← read
  Call.check (s.roles.rows.all fun r => r.key != key) (.conflict "نقشی با این کلید وجود دارد")
  let permissionIds ← resolvePermissionIds permissionKeys
  Call.transaction (insertRole (newRole key name dto permissionIds) key)

/-- The role after `updateRole`; `undefined` keeps what is there. -/
def changedRole (dto : RoleInput) (permissionIds : Option (List ℕ)) (r : AdminRole) : AdminRole :=
  { r with
    name := (trimmed dto.name).getD r.name
    description := if dto.description.isSome then trimmed dto.description else r.description
    permissions := permissionIds.getD r.permissions }

/-- The permissions that `updateRole` is asked for. -/
def requestedPermissions (actor : AdminActor) (dto : RoleInput) : AdminCall (Option (List ℕ)) :=
  match dto.permissionKeys with
  | none => pure none
  | some permissionKeys => do
    Call.check (!permissionKeys.isEmpty) (.badRequest "حداقل یک دسترسی برای نقش انتخاب کنید")
    assertCanGrant actor permissionKeys
    let permissionIds ← resolvePermissionIds permissionKeys
    pure (some permissionIds)

def updateRole (actor : AdminActor) (roleId : ℕ) (dto : RoleInput) : AdminCall String := do
  let s ← read
  let role ← Call.getOrFail (s.roles.find? roleId) (.notFound "نقش یافت نشد")
  Call.check (!(role.isSystem || SYSTEM_ROLE_KEYS.contains role.key))
    (.forbidden "نقش‌های سیستمی قابل ویرایش نیستند")
  let permissionIds ← requestedPermissions actor dto
  Call.transaction
    (AdminDb.roleRows.update (.database "P2025") roleId (changedRole dto permissionIds))
  pure "نقش با موفقیت بروزرسانی شد"

/-- The number of accounts with a role. -/
def userCount (s : AdminDb) (roleId : ℕ) : ℕ := s.users.rows.countP fun u => u.roles.contains roleId

/-- `adminRole.delete`: the accounts refer to their roles with `onDelete: Restrict`. -/
def dropRole (roleId : ℕ) : AdminStmt Unit := do
  let s ← Block.get
  Block.check (s.roles.find? roleId).isSome (.database "P2025")
  Block.check (userCount s roleId == 0) (.database "P2003")
  AdminDb.roleRows.deleteMany fun r => r.id == roleId

def deleteRole (roleId : ℕ) : AdminCall String := do
  let s ← read
  let role ← Call.getOrFail (s.roles.find? roleId) (.notFound "نقش یافت نشد")
  Call.check (!(role.isSystem || SYSTEM_ROLE_KEYS.contains role.key))
    (.forbidden "نقش‌های سیستمی قابل حذف نیستند")
  Call.check (userCount s roleId == 0)
    (.badRequest "این نقش به ادمین‌هایی اختصاص داده شده است؛ ابتدا نقش آن‌ها را تغییر دهید")
  Call.transaction (dropRole roleId)
  pure "نقش حذف شد"

/-! ## Accounts -/

def assertCanManageTarget (actor : AdminActor) (targetRoleKeys : List String) : AdminCall Unit :=
  Call.check (!(targetRoleKeys.contains SUPER_ADMIN && !actor.isSuperAdmin))
    (.forbidden "فقط مدیر ارشد می‌تواند حساب مدیر ارشد را مدیریت کند")

/-- The roles requested, in `roleKeys` or in the old `roleKey`, each once. -/
def normalizeRoleKeys (roleKeys : Option (List String)) (roleKey : Option String) :
    Except AdminError (Option (List String)) :=
  match roleKeys.or ((roleKey.filter (· != "")).map fun k => [k]) with
  | none => .ok none
  | some raw =>
    let keys := ((raw.map trimText).filter (· != "")).eraseDups
    if keys.isEmpty then .error (.badRequest "حداقل یک نقش برای ادمین انتخاب کنید")
    else .ok (some keys)

/-- `adminRole.findMany({ where: { key: { in: keys } } })` -/
def rolesByKey (s : AdminDb) (keys : List String) : List AdminRole :=
  s.roles.rows.filter fun r => keys.contains r.key

/-- The roles found, in the order of the keys. -/
def inOrder (roles : List AdminRole) (keys : List String) : AdminCall (List AdminRole) :=
  Call.getOrFail (keys.mapM fun k => roles.find? fun r => r.key == k) (.database "undefined")

def resolveAssignableRoles (actor : AdminActor) (roleKeys : List String) :
    AdminCall (List AdminRole) := do
  let s ← read
  let roles := rolesByKey s roleKeys
  Call.check (roles.length == roleKeys.length) (.notFound "برخی از نقش‌های انتخاب‌شده یافت نشدند")
  Call.check (!roleKeys.contains AGENT_ROLE_KEY) (.badRequest
    "نقش «نماینده فروش» فقط از بخش نمایندگان و برای حساب نماینده قابل تعریف است")
  Call.check (!(roleKeys.contains SUPER_ADMIN && !actor.isSuperAdmin))
    (.forbidden "فقط مدیر ارشد می‌تواند نقش مدیر ارشد را اختصاص دهد")
  assertCanGrant actor (roles.flatMap s.permissionKeys)
  inOrder roles roleKeys

/-- `RESERVED_USERNAMES` without separators. -/
def RESERVED_USERNAMES : List String :=
  ["admin", "administrator", "admins", "root", "sa", "sysadmin", "system", "superadmin",
    "superuser", "guest", "test", "tester", "demo", "user", "operator", "manager", "support",
    "default", "master", "owner", "webmaster", "postmaster", "info", "arkan", "arkangold"]

/-- `isReservedUsername`: the plain names, and five of them with a number. -/
@[irreducible] def isReservedUsername (username : String) : Bool :=
  let u := ((trimText username).toList.map Char.toLower).filter fun c =>
    !(isSpace c || c == '.' || c == '_' || c == '-')
  let stem := (u.reverse.dropWhile Char.isDigit).reverse
  ["admin", "root", "test", "guest", "user"].contains (String.ofList stem) ||
    RESERVED_USERNAMES.contains (String.ofList u)

/-- What the answers show of an account. -/
structure AdminSummary where
  id : ℕ
  username : String
  fullName : String
  phone : Option String
  isActive : Bool
  /-- `summarizeRoles`: the main role and all roles, by their keys -/
  role : Option String
  roles : List String

def summarize (s : AdminDb) (u : AdminUser) : AdminSummary where
  id := u.id
  username := u.username
  fullName := u.fullName
  phone := u.phone
  isActive := u.isActive
  role := ((s.roleKeysOf u).find? (· == SUPER_ADMIN)).or (s.roleKeysOf u).head?
  roles := s.roleKeysOf u

/-- The account that `create` inserts, with a password that nobody knows. -/
def newAccount (actor : AdminActor) (username : String) (dto : CreateAdminDto)
    (roles : List AdminRole) (password : Password) (id : ℕ) : AdminUser where
  id := id
  username := username
  passwordHash := password
  fullName := dto.fullName
  phone := some dto.phone
  isActive := true
  totpSecret := none
  totpEnabled := false
  totpEnabledAt := none
  totpLastStep := none
  backupCodesHash := []
  mustChangePassword := true
  passwordExpiresAt := none
  failedLoginCount := 0
  lockedUntil := none
  agentId := none
  createdById := some actor.adminUserId
  roles := roles.map AdminRole.id

/-- `admin_user_roles.role_id` refers to a role. -/
def rolesExist (s : AdminDb) (roles : List AdminRole) : Bool :=
  roles.all fun r => (s.roles.find? r.id).isSome

/-- `adminUser.create` with its unique name and its roles. -/
def insertAccount (actor : AdminActor) (username : String) (dto : CreateAdminDto)
    (roles : List AdminRole) : AdminStmt AdminUser := do
  let n ← Block.fresh
  let m ← Block.fresh
  let s ← Block.get
  Block.check (s.users.rows.all fun u => u.username != username) (.database "P2002")
  Block.check (rolesExist s roles) (.database "P2003")
  let id ← AdminDb.userRows.create .user (.database "P2002")
    (newAccount actor username dto roles (.unusable n m))
  pure (newAccount actor username dto roles (.unusable n m) id)

/-- The transaction of `create`: without the message there is no account. -/
def createAccount (actor : AdminActor) (username : String) (dto : CreateAdminDto)
    (roles : List AdminRole) (accepted : Bool) : AdminStmt (AdminSummary × Delivery) := do
  let admin ← insertAccount actor username dto roles
  let s ← Block.get
  let delivery ← issueTempPasswordIn admin accepted
  pure (summarize s admin, delivery)

def create (actor : AdminActor) (dto : CreateAdminDto) (accepted : Bool) :
    AdminCall (AdminSummary × Delivery) := do
  let username := trimText dto.username
  Call.check (!isReservedUsername username) (.badRequest
    "این نام کاربری پیش‌فرض یا قابل حدس است و مجاز نیست؛ از نام کاربری شخصی (مثلاً r.ahmadi) استفاده کنید")
  let s ← read
  Call.check (s.users.rows.all fun u => u.username != username)
    (.conflict "این نام کاربری قبلاً استفاده شده است")
  let roleKeys ← Call.ofExcept (normalizeRoleKeys dto.roleKeys dto.roleKey)
  let roleKeys ← Call.getOrFail roleKeys (.badRequest "حداقل یک نقش برای ادمین انتخاب کنید")
  let roles ← resolveAssignableRoles actor roleKeys
  Call.transaction (createAccount actor username dto roles accepted)

/-- The account with its role keys at the time of reading. -/
def findTarget (targetId : ℕ) : AdminCall (AdminUser × List String) := do
  let s ← read
  let target ← Call.getOrFail (s.users.find? targetId) (.notFound "ادمین یافت نشد")
  pure (target, s.roleKeysOf target)

/-- The roles requested, if they are not the present ones. -/
def changedKeys (requestedKeys : Option (List String)) (currentKeys : List String) :
    Option (List String) :=
  requestedKeys.filter fun keys =>
    keys.length != currentKeys.length || keys.any fun k => !currentKeys.contains k

/-- Only roles that are added need the right to grant them. -/
def checkAddedKeys (actor : AdminActor) (addedKeys : List String) : AdminCall Unit :=
  if addedKeys.isEmpty then pure () else do
    let _ ← resolveAssignableRoles actor addedKeys

/-- `newRoles` -/
def resolveNewRoles (actor : AdminActor) (currentKeys : List String) :
    Option (List String) → AdminCall (Option (List AdminRole))
  | none => pure none
  | some requestedKeys => do
    checkAddedKeys actor (requestedKeys.filter fun k => !currentKeys.contains k)
    let s ← read
    let newRoles := rolesByKey s requestedKeys
    Call.check (newRoles.length == requestedKeys.length)
      (.notFound "برخی از نقش‌های انتخاب‌شده یافت نشدند")
    let newRoles ← inOrder newRoles requestedKeys
    pure (some newRoles)

/-- An active account with the role `SUPER_ADMIN`. -/
def isActiveSuperAdmin (s : AdminDb) (u : AdminUser) : Bool :=
  u.isActive && (s.roleKeysOf u).contains SUPER_ADMIN

/-- `adminUser.count` of the active super admins. -/
def activeSuperAdmins (s : AdminDb) : ℕ := s.users.rows.countP (isActiveSuperAdmin s)

/-- The last active super admin is neither deactivated nor degraded. -/
def assertNotLast (currentKeys : List String) (isActive : Option Bool)
    (newKeys : Option (List String)) : AdminCall Unit :=
  if currentKeys.contains SUPER_ADMIN &&
      (isActive == some false || newKeys.any fun keys => !keys.contains SUPER_ADMIN) then do
    let s ← read
    Call.check (1 < activeSuperAdmins s)
      (.forbidden "نمی‌توانید آخرین مدیر ارشد فعال سیستم را غیرفعال یا تنزل دهید")
  else
    pure ()

/-- The account after `update`. -/
def changedAccount (dto : UpdateAdminDto) (roles : Option (List AdminRole)) (u : AdminUser) :
    AdminUser :=
  { u with
    fullName := dto.fullName.getD u.fullName
    phone := dto.phone.or u.phone
    isActive := dto.isActive.getD u.isActive
    roles := (roles.map fun rs => rs.map AdminRole.id).getD u.roles }

/-- The transaction of `update`. -/
def updateAccount (targetId : ℕ) (dto : UpdateAdminDto) (currentKeys : List String)
    (roles : Option (List AdminRole)) : AdminStmt AdminSummary := do
  Block.mark (.updates targetId dto.isActive dto.phone (roles.map fun rs => rs.map AdminRole.id)
    (((roles.getD []).filter fun r => currentKeys.contains r.key).map AdminRole.id))
  let s ← Block.get
  Block.check (rolesExist s (roles.getD [])) (.database "P2003")
  AdminDb.userRows.update (.database "P2025") targetId (changedAccount dto roles)
  let s ← Block.get
  let updated ← Block.getOrFail (s.users.find? targetId) (.database "P2025")
  pure (summarize s updated)

def update (actor : AdminActor) (targetId : ℕ) (dto : UpdateAdminDto) : AdminCall AdminSummary := do
  let (target, currentKeys) ← findTarget targetId
  assertCanManageTarget actor currentKeys
  let requestedKeys ← Call.ofExcept (normalizeRoleKeys dto.roleKeys dto.roleKey)
  let newKeys := changedKeys requestedKeys currentKeys
  Call.check
    (!(actor.adminUserId == targetId && (dto.isActive == some false || newKeys.isSome)))
    (.forbidden "امکان تغییر نقش یا غیرفعال کردن حساب خودتان وجود ندارد")
  Call.check
    (!(newKeys.isSome && (target.agentId.isSome || currentKeys.contains AGENT_ROLE_KEY)))
    (.badRequest "نقش حساب ورود نماینده قابل تغییر نیست؛ از بخش نمایندگان استفاده کنید")
  let newRoles ← resolveNewRoles actor currentKeys newKeys
  assertNotLast currentKeys dto.isActive newKeys
  let updated ← Call.transaction (updateAccount targetId dto currentKeys newRoles)
  if dto.isActive == some false || newKeys.isSome then
    Call.transaction (closeSessions targetId)
  pure updated

def resetPassword (actor : AdminActor) (targetId : ℕ) (accepted : Bool) : AdminCall Delivery := do
  let (target, targetRoleKeys) ← findTarget targetId
  assertCanManageTarget actor targetRoleKeys
  let delivery ← issueTempPassword target accepted
  Call.transaction (Block.write (AdminDb.clearThrottle "admin" target.username))
  pure delivery

/-- The account without a second factor. -/
def withoutMfa (u : AdminUser) : AdminUser :=
  { u with
    totpSecret := none
    totpEnabled := false
    totpEnabledAt := none
    totpLastStep := none
    backupCodesHash := [] }

/-- `MfaService.disable` -/
def disableMfa (id : ℕ) : AdminCall Unit := do
  Call.transaction (AdminDb.userRows.update (.database "P2025") id withoutMfa)
  Call.transaction (Block.write (AdminDb.dropMfaSetup id))

def resetMfa (actor : AdminActor) (targetId : ℕ) (accepted : Bool) : AdminCall Delivery := do
  let (target, targetRoleKeys) ← findTarget targetId
  assertCanManageTarget actor targetRoleKeys
  Call.check (actor.adminUserId != targetId) (.forbidden
    "ورود دومرحله‌ای حساب خودتان را از پروفایل مدیریت کنید؛ بازنشانی باید توسط مدیر دیگری انجام شود")
  Call.check (target.phone.filter (· != "")).isSome
    (.badRequest "برای بازنشانی ورود دومرحله‌ای، ابتدا شماره موبایل این حساب را ثبت کنید")
  let delivery ← issueTempPassword target accepted
  disableMfa target.id
  Call.transaction (Block.write (AdminDb.clearThrottle "mfa" s!"admin:{target.id}"))
  pure delivery

/-! ## The service -/

/-- The operations of the service that change something. -/
inductive AdminOperation where
  | createRole (dto : RoleInput)
  | updateRole (roleId : ℕ) (dto : RoleInput)
  | deleteRole (roleId : ℕ)
  | create (dto : CreateAdminDto) (accepted : Bool)
  | update (targetId : ℕ) (dto : UpdateAdminDto)
  | resetPassword (targetId : ℕ) (accepted : Bool)
  | resetMfa (targetId : ℕ) (accepted : Bool)
  deriving DecidableEq

/-- Run an operation; what it answers is left to the controller. -/
def handle (actor : AdminActor) : AdminOperation → AdminCall Unit
  | .createRole dto => do let _ ← createRole actor dto
  | .updateRole roleId dto => do let _ ← updateRole actor roleId dto
  | .deleteRole roleId => do let _ ← deleteRole roleId
  | .create dto accepted => do let _ ← create actor dto accepted
  | .update targetId dto => do let _ ← update actor targetId dto
  | .resetPassword targetId accepted => do let _ ← resetPassword actor targetId accepted
  | .resetMfa targetId accepted => do let _ ← resetMfa actor targetId accepted

end AdminManagementService

end ArkanGold
