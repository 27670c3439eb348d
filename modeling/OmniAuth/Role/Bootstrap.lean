import Mathlib.Algebra.GroupWithZero.Nat
import Mathlib.Algebra.Order.BigOperators.Group.List
import Mathlib.Algebra.Order.Group.Nat
import OmniAuth.Role.Names

/-!
# The start-up

`app/db/init_admin.py`: the roles and the accounts every process start makes sure of. Each
lookup of a role here is by name alone, so it finds whichever row of the name comes first,
an organization's own among them.
-/

namespace OmniAuth

open Txn Prog

/-! ## The code -/

/-- `db.query(Role).filter(Role.name == name).first()` -/
def Database.roleByNameAlone (db : Database) (name : String) : Option Role :=
  db.roles.find? (·.name = name)

/-- The permissions of the role "admin". -/
def adminPermissions : List String :=
  ["manage_roles", "manage_licenses", "manage_config", "override_sso_enforcement",
    "platform.manage_infra", "platform.manage_cron", "platform.manage_content"]

/-- The permissions of these that a role does not hold. -/
def Role.lacks (role : Role) (permissionNames : List String) : List String :=
  permissionNames.filter (· ∉ role.permissions)

/-- A role of this name, made where there is none and given what it lacks where there is. -/
def ensureRole (name : String) (permissionNames : List String) : Op Role := do
  let found ← query (·.roleByNameAlone name)
  match found with
  | none => do
      let id ← draw
      let role : Role :=
        { id := id, name := name, organizationId := none, permissions := permissionNames }
      execute (.org (.insertRole role))
      return role
  | some role =>
      if role.lacks permissionNames = [] then return role
      else do
        let permissions := role.permissions ++ role.lacks permissionNames
        execute (.org (.setRolePermissions role.id permissions none))
        return { role with permissions := permissions }

/-- `User.roles.append`, where the role is not among them. -/
def appendRole (user : User) (role : Role) : Op Unit :=
  if role.id ∈ user.roleIds then return ()
  else execute (.account (.assignUserRole user.id role.id))

def designatedAdminUserId : ℕ := 1

/-- The account of the bootstrap identity, made only where there is no account at all. -/
def bootstrapAccount (A : AppEnv) (email : String) (password : Option String) :
    Op (Option User) := do
  let admin ← query (·.userByEmail email)
  match admin with
  | some admin => return some admin
  | none => do
      let anyone ← query fun db => ! db.users.isEmpty
      if anyone then return none
      else do
        let drawn ← draw
        let salt ← draw
        let id ← draw
        let admin : User :=
          { id := id
            email := some email
            hashedPassword := some (A.hashPassword salt (password.getD (A.secret drawn)))
            status := .active }
        execute (.account (.insertUser admin))
        return some admin

/-- The grant of the role, which goes to the designated account only. -/
def grantAdmin (role : Role) (admin : Option User) : Op Unit :=
  match admin with
  | none => return ()
  | some admin =>
      if admin.id ≠ designatedAdminUserId then return ()
      else do
        appendRole admin role
        commitNow

/-- `create_admin`; `password` is `ADMIN_BOOTSTRAP_PASSWORD`. -/
def createAdmin (A : AppEnv) (bootstrapEmail : Option String) (password : Option String) :
    Op Unit := do
  let _ ← getOrCreateRole "user" []
  let adminRole ← ensureRole "admin" adminPermissions
  commitNow
  let email := A.lower (A.strip (bootstrapEmail.getD ""))
  if email = "" then return ()
  else do
    let admin ← bootstrapAccount A email password
    grantAdmin adminRole admin

def ensurePlatformAdminRole : Op Unit := do
  let _ ← ensureRole "platform_admin" [manageAllOrgs]
  commitNow

/-- `ensure_platform_owner`; `ownerEmail` is `PLATFORM_OWNER_EMAIL`. -/
def ensurePlatformOwner (A : AppEnv) (ownerEmail : Option String) : Op Unit := do
  let email := A.strip (ownerEmail.getD "")
  if email = "" then return ()
  else do
    let platformAdminRole ← query (·.roleByNameAlone "platform_admin")
    match platformAdminRole with
    | none => return ()
    | some role => do
        let owner ← query (·.userByEmail email)
        match owner with
        | none => return ()
        | some owner =>
            if role.id ∈ owner.roleIds then return ()
            else do
              execute (.account (.assignUserRole owner.id role.id))
              logEvent
                { eventType := .roleAssigned
                  targetUserId := some owner.id
                  resourceType := some "role"
                  resourceId := some role.id
                  metadata :=
                    [("role", "platform_admin"), ("source", "bootstrap.platform_owner_email"),
                      ("email", email)] }
                false
              commitNow

/-! ## What it may touch -/

/-- The roles organizations own. -/
def tenantRoles (roles : List Role) : List Role := roles.filter (·.organizationId ≠ none)

/-- A role that a user holds and did not hold before is platform-wide. -/
def GrantsPlatform (roles : List Role) (users users' : List User) : Prop :=
  ∀ u' ∈ users', ∀ id ∈ u'.roleIds, (∃ u ∈ users, u.id = u'.id ∧ id ∈ u.roleIds) ∨
    ∀ r ∈ roles, r.id = id → r.organizationId = none

/-- **Only platform-wide roles** are modified and assigned. -/
structure OnlyPlatform (db db' : Database) : Prop where
  tenants : tenantRoles db'.roles = tenantRoles db.roles
  grants : GrantsPlatform db'.roles db.users db'.users

/-- However the start-up function runs on this database. -/
def TouchesOnlyPlatform (op : Op Unit) (db : Database) : Prop :=
  ∀ (w w' : World) (r : Except Err Unit), w.cur = db → w.base = db → op.Exec w r w' →
    OnlyPlatform db w'.base

/-- The first role of the name, if there is one, is platform-wide. -/
def Database.PlatformFirst (db : Database) (name : String) : Prop :=
  ∀ role, db.roleByNameAlone name = some role → role.organizationId = none

/-- What tenants can make of the roles: ids are primary keys, and no role of an organization
holds a permission of the platform. -/
structure Database.TenantState (db : Database) : Prop where
  unique : (db.roles.map (·.id)).Nodup
  allowed : ∀ r ∈ db.roles, PermissionsAllowed r.organizationId r.permissions

theorem GrantsPlatform.refl (roles : List Role) (users : List User) :
    GrantsPlatform roles users users := fun u' hu' _ hid => .inl ⟨u', hu', rfl, hid⟩

theorem OnlyPlatform.refl (db : Database) : OnlyPlatform db db := ⟨rfl, .refl _ _⟩

theorem Database.TenantState.eq_of_id {db : Database} (h : db.TenantState) {r r' : Role}
    (hr : r ∈ db.roles) (hr' : r' ∈ db.roles) (hid : r.id = r'.id) : r = r' :=
  List.inj_on_of_nodup_map h.unique hr hr' hid

/-! ## What tenants can make -/

theorem RolesStep.tenantState {clear : Prop} {db db' : Database} (h : RolesStep clear db db'.roles)
    (hdb : db.TenantState) : db'.TenantState := by
  generalize hroles : db'.roles = roles at h
  suffices hlist : (roles.map (·.id)).Nodup ∧
      ∀ r ∈ roles, PermissionsAllowed r.organizationId r.permissions by
    rw [← hroles] at hlist
    exact ⟨hlist.1, hlist.2⟩
  cases h with
  | same => exact ⟨hdb.unique, hdb.allowed⟩
  | created role _ hallowed hid _ =>
    constructor
    · rw [List.map_append, List.nodup_append]
      refine ⟨hdb.unique, by simp, ?_⟩
      intro id hold id' hnew heq
      obtain ⟨r, hr, rfl⟩ := List.mem_map.mp hold
      have hlast : id' = role.id := by simpa using hnew
      exact hid r hr (heq.trans hlast)
    · intro r hr
      rcases List.mem_append.mp hr with hr | hr
      · exact hdb.allowed r hr
      · rw [List.mem_singleton] at hr
        subst hr
        exact hallowed
  | edited role hrole permissions description hallowed =>
    constructor
    · have hids : (fun r : Role => r.id) ∘ Role.edit role.id permissions description =
          fun r => r.id := by
        funext r
        simp
      rw [List.map_map, hids]
      exact hdb.unique
    · intro r hr
      obtain ⟨r₀, hr₀, rfl⟩ := List.mem_map.mp hr
      rw [Role.edit_organizationId]
      by_cases hid : r₀.id = role.id
      · rw [hdb.eq_of_id hr₀ hrole hid]
        unfold Role.edit
        rw [if_pos rfl]
        exact hallowed
      · unfold Role.edit
        rw [if_neg hid]
        exact hdb.allowed r₀ hr₀
  | deleted id =>
    exact ⟨hdb.unique.sublist (List.filter_sublist.map _),
      fun r hr => hdb.allowed r (List.mem_filter.mp hr).1⟩

theorem RoleRun.tenantState {A : AppEnv} {ok : Database → RoleCall → Prop} {db db' : Database}
    (h : RoleRun A ok db db') (hdb : db.TenantState) : db'.TenantState := by
  induction h with
  | refl => exact hdb
  | call call r _ hidle _ hexec ih => exact ((RoleCall.step hidle call) r _ hexec).tenantState ih
  | aside _ hroles ih => exact ⟨hroles ▸ ih.unique, hroles ▸ ih.allowed⟩

/-! ## One role made sure of -/

variable {A : AppEnv} {w : World}

/-- The role of `ensure_role` and the roles it leaves. -/
inductive Ensured (db : Database) (name : String) (permissionNames : List String) :
    Role → List Role → Prop
  | made (role : Role) (hnone : db.roleByNameAlone name = none) (horg : role.organizationId = none)
      (hid : ∀ r ∈ db.roles, r.id ≠ role.id) :
      Ensured db name permissionNames role (db.roles ++ [role])
  | kept (role : Role) (hfound : db.roleByNameAlone name = some role)
      (hlacks : role.lacks permissionNames = []) :
      Ensured db name permissionNames role db.roles
  | given (role : Role) (hfound : db.roleByNameAlone name = some role)
      (hlacks : role.lacks permissionNames ≠ []) :
      Ensured db name permissionNames
        { role with permissions := role.permissions ++ role.lacks permissionNames }
        (db.roles.map
          (Role.edit role.id (role.permissions ++ role.lacks permissionNames) none))

theorem ensureRole_ends (name : String) (permissionNames : List String) :
    (ensureRole name permissionNames).Ends w fun r w' =>
      w'.base = w.base ∧ w'.cur.users = w.cur.users ∧
        match r with
        | .ok role => Ensured w.cur name permissionNames role w'.cur.roles
        | .error _ => w.cur.roleByNameAlone name = none := by
  simp only [ensureRole, bind_eq, ends_query_bind]
  split
  · rename_i hnone
    simp only [ends_draw_bind]
    rw [execute, ends_returning_bind]
    constructor
    · intro eff heff
      simp only [denote, OrgStmt.denote] at heff
      split at heff
      · cases heff
      rename_i hfree
      cases heff
      refine ends_ret.mpr ⟨rfl, rfl, ?_⟩
      exact .made _ hnone rfl fun r hr hid => hfree ⟨r, hr, hid⟩
    · intro x _
      exact ⟨rfl, rfl, hnone⟩
  · rename_i role hfound
    split
    · rename_i hlacks
      exact ends_ret.mpr ⟨rfl, rfl, .kept role hfound hlacks⟩
    · rename_i hlacks
      rw [execute, ends_returning_bind]
      refine ⟨?_, fun x hden => by cases hden⟩
      intro eff heff
      cases heff
      exact ends_ret.mpr ⟨rfl, rfl, .given role hfound hlacks⟩

/-- Editing a platform-wide row leaves the rows of organizations alone. -/
theorem tenantRoles_edit {db : Database} (hdb : db.TenantState) {role : Role}
    (hrole : role ∈ db.roles) (horg : role.organizationId = none) (permissions : List String)
    (description : Option String) :
    tenantRoles (db.roles.map (Role.edit role.id permissions description)) =
      tenantRoles db.roles := by
  have hkeep : (fun r : Role => decide (r.organizationId ≠ none)) ∘
      Role.edit role.id permissions description = fun r => decide (r.organizationId ≠ none) := by
    funext r
    simp
  unfold tenantRoles
  rw [List.filter_map, hkeep]
  refine (List.map_congr_left fun r hr => ?_).trans (List.map_id _)
  obtain ⟨hr, htenant⟩ := List.mem_filter.mp hr
  unfold Role.edit
  rw [if_neg]
  · rfl
  · intro hid
    rw [hdb.eq_of_id hr hrole hid, horg] at htenant
    exact absurd htenant (by decide)

theorem roleByNameAlone_some {db : Database} {name : String} {role : Role}
    (h : db.roleByNameAlone name = some role) : role ∈ db.roles ∧ role.name = name := by
  have hfound := List.find?_some h
  exact ⟨List.mem_of_find?_eq_some h, of_decide_eq_true hfound⟩

/-- **Where the first role of the name is platform-wide**, making sure of it leaves the
roles of organizations alone, and gives back a platform-wide one. -/
theorem Ensured.platform {db : Database} {name : String} {permissionNames : List String}
    {role : Role} {roles : List Role} (h : Ensured db name permissionNames role roles)
    (hdb : db.TenantState) (hfirst : db.PlatformFirst name) :
    tenantRoles roles = tenantRoles db.roles ∧
      ∀ r ∈ roles, r.id = role.id → r.organizationId = none := by
  cases h with
  | made _ hnone horg hid =>
    constructor
    · unfold tenantRoles
      rw [List.filter_append]
      simp [horg]
    · intro r hr hsame
      rcases List.mem_append.mp hr with hr | hr
      · exact absurd hsame (hid r hr)
      · rw [List.mem_singleton] at hr
        rw [hr, horg]
  | kept _ hfound hlacks =>
    refine ⟨rfl, fun r hr hsame => ?_⟩
    rw [hdb.eq_of_id hr (roleByNameAlone_some hfound).1 hsame]
    exact hfirst _ hfound
  | given role hfound hlacks =>
    have hrole := (roleByNameAlone_some hfound).1
    refine ⟨tenantRoles_edit hdb hrole (hfirst _ hfound) _ _, fun r hr hsame => ?_⟩
    obtain ⟨r₀, hr₀, rfl⟩ := List.mem_map.mp hr
    rw [Role.edit_id] at hsame
    rw [Role.edit_organizationId, hdb.eq_of_id hr₀ hrole hsame]
    exact hfirst _ hfound

/-- **Where it is an organization's**, its permissions become the platform's. -/
theorem Ensured.tenant {db : Database} {name : String} {permissionNames : List String}
    {role first : Role} {roles : List Role} (h : Ensured db name permissionNames role roles)
    (hdb : db.TenantState) (hfound : db.roleByNameAlone name = some first)
    (horg : first.organizationId ≠ none)
    (hglobal : ∃ p ∈ permissionNames, permissionScope p = some .global) :
    tenantRoles roles ≠ tenantRoles db.roles := by
  obtain ⟨p, hp, hscope⟩ := hglobal
  have hmem := (roleByNameAlone_some hfound).1
  have hlacking : p ∈ first.lacks permissionNames := by
    refine List.mem_filter.mpr ⟨hp, decide_eq_true fun hheld => ?_⟩
    exact hdb.allowed first hmem horg p hheld hscope
  cases h with
  | made _ hnone =>
    rw [hnone] at hfound
    cases hfound
  | kept _ hfound' hlacks =>
    obtain rfl := Option.some.inj (hfound'.symm.trans hfound)
    rw [hlacks] at hlacking
    cases hlacking
  | given role hfound' hlacks =>
    obtain rfl := Option.some.inj (hfound'.symm.trans hfound)
    intro heq
    -- the edited row is among the organizations' rows, and holds what none of them held
    have hedited : role.edit role.id (role.permissions ++ role.lacks permissionNames) none ∈
        tenantRoles db.roles := by
      rw [← heq]
      refine List.mem_filter.mpr ⟨List.mem_map.mpr ⟨role, hmem, rfl⟩, decide_eq_true ?_⟩
      rw [Role.edit_organizationId]
      exact horg
    have hallowed := hdb.allowed _ (List.mem_filter.mp hedited).1
    rw [Role.edit_organizationId] at hallowed
    refine hallowed horg p ?_ hscope
    unfold Role.edit
    rw [if_pos rfl]
    exact List.mem_append_right _ hlacking

/-! ## The three functions -/

/-- An account that was there, or one without roles. -/
theorem bootstrapAccount_ends (email : String) (password : Option String) :
    (bootstrapAccount A email password).Ends w fun _ w' =>
      w'.base = w.base ∧ w'.cur.roles = w.cur.roles ∧
        ∀ roles, GrantsPlatform roles w.cur.users w'.cur.users := by
  simp only [bootstrapAccount, bind_eq, ends_query_bind]
  split
  · exact ends_ret.mpr ⟨rfl, rfl, fun roles => .refl _ _⟩
  simp only [ends_query_bind]
  split
  · exact ends_ret.mpr ⟨rfl, rfl, fun roles => .refl _ _⟩
  simp only [ends_draw_bind]
  rw [execute, ends_returning_bind]
  constructor
  · intro eff heff
    simp only [denote, AccountStmt.denote] at heff
    split at heff
    · cases heff
    cases heff
    refine ends_ret.mpr ⟨rfl, rfl, fun roles u' hu' id hid => ?_⟩
    rcases List.mem_append.mp hu' with hu' | hu'
    · exact .inl ⟨u', hu', rfl, hid⟩
    · rw [List.mem_singleton] at hu'
      rw [hu'] at hid
      cases hid
  · intro x _
    exact ⟨rfl, rfl, fun roles => .refl _ _⟩

theorem assignUserRole_grants {roles : List Role} {role : Role} (users : List User) (userId : ℕ)
    (hplatform : ∀ r ∈ roles, r.id = role.id → r.organizationId = none) :
    GrantsPlatform roles users (users.map fun u => if u.id = userId then
      { u with roleIds := if role.id ∈ u.roleIds then u.roleIds else u.roleIds ++ [role.id] }
      else u) := by
  intro u' hu' id hid
  obtain ⟨u, hu, rfl⟩ := List.mem_map.mp hu'
  by_cases huser : u.id = userId
  · rw [if_pos huser] at hid ⊢
    dsimp only at hid
    split at hid
    · exact .inl ⟨u, hu, rfl, hid⟩
    · rcases List.mem_append.mp hid with hid | hid
      · exact .inl ⟨u, hu, rfl, hid⟩
      · rw [List.mem_singleton] at hid
        rw [hid]
        exact .inr hplatform
  · rw [if_neg huser] at hid ⊢
    exact .inl ⟨u, hu, rfl, hid⟩

theorem GrantsPlatform.trans {roles : List Role} {users users' users'' : List User}
    (h : GrantsPlatform roles users users') (h' : GrantsPlatform roles users' users'') :
    GrantsPlatform roles users users'' := by
  intro u'' hu'' id hid
  rcases h' u'' hu'' id hid with ⟨u', hu', hsame, hid'⟩ | hplatform
  · rw [← hsame]
    exact h u' hu' id hid'
  · exact .inr hplatform

theorem appendRole_ends {role : Role} (user : User) :
    (appendRole user role).Ends w fun _ w' =>
      w'.base = w.base ∧ w'.cur.roles = w.cur.roles ∧
        ((∀ r ∈ w.cur.roles, r.id = role.id → r.organizationId = none) →
          GrantsPlatform w.cur.roles w.cur.users w'.cur.users) := by
  unfold appendRole
  split
  · exact ends_ret.mpr ⟨rfl, rfl, fun _ => .refl _ _⟩
  · rw [execute, ends_returning]
    refine ⟨?_, fun x hden => by cases hden⟩
    intro eff heff
    cases heff
    exact ⟨rfl, rfl, fun hplatform => assignUserRole_grants _ _ hplatform⟩

/-- What `create_admin` does after its roles are committed: the roles stay, and the account
is granted the role if it is platform-wide. -/
theorem grantAdmin_ends {role : Role} (admin : Option User) (hroles : w.cur.roles = w.base.roles) :
    (grantAdmin role admin).Ends w fun _ w' => w'.base.roles = w.base.roles ∧
      ((∀ r ∈ w.base.roles, r.id = role.id → r.organizationId = none) →
        ∀ users, GrantsPlatform w.base.roles users w.base.users →
          GrantsPlatform w.base.roles users w.cur.users →
          GrantsPlatform w.base.roles users w'.base.users) := by
  unfold grantAdmin
  split
  · exact ends_ret.mpr ⟨rfl, fun _ users hbase _ => hbase⟩
  rename_i admin
  split
  · exact ends_ret.mpr ⟨rfl, fun _ users hbase _ => hbase⟩
  refine Ends.bind (M := fun _ (w' : World) => w'.cur.roles = w.base.roles ∧
      ((∀ r ∈ w.base.roles, r.id = role.id → r.organizationId = none) →
        GrantsPlatform w.base.roles w.cur.users w'.cur.users))
    ((appendRole_ends admin).mono ?_) ?_
  · rintro (x | ⟨⟩) w' ⟨hbase, hcur, hgranted⟩
    · rw [hbase]
      exact ⟨rfl, fun _ users hbase' _ => hbase'⟩
    · rw [hroles] at hcur hgranted
      exact ⟨hcur, hgranted⟩
  · rintro ⟨⟩ w' ⟨hcur, hgranted⟩
    exact ends_commitNow.mpr ⟨hcur, fun hplatform users _ hseen =>
      hseen.trans (hgranted hplatform)⟩

/-! ### The roles of `create_admin` -/

/-- The next id is above those of the roles. -/
def RoleIdsBelow (w : World) : Prop := ∀ r ∈ w.cur.roles, r.id < w.next

theorem getOrCreateRole_seeds (name : String) (permissionNames : List String) :
    (getOrCreateRole name permissionNames).Ends w fun r w' =>
      w'.base = w.base ∧ w'.cur.users = w.cur.users ∧ (RoleIdsBelow w → ∃ role, r = .ok role) := by
  simp only [getOrCreateRole, bind_eq, ends_query_bind]
  split
  · exact ends_ret.mpr ⟨rfl, rfl, fun _ => ⟨_, rfl⟩⟩
  simp only [ends_draw_bind]
  rw [execute, ends_returning_bind]
  constructor
  · intro eff heff
    simp only [denote, OrgStmt.denote] at heff
    split at heff
    · cases heff
    cases heff
    exact ends_ret.mpr ⟨rfl, rfl, fun _ => ⟨_, rfl⟩⟩
  · intro x hx
    refine ⟨rfl, rfl, fun hbelow => ?_⟩
    simp only [denote, OrgStmt.denote] at hx
    split at hx
    · rename_i hclash
      obtain ⟨r, hr, hid⟩ := hclash
      have hlt := hbelow r hr
      omega
    · cases hx

/-- The roles after the baseline role is made sure of: one more, platform-wide, at most. -/
structure Seeded (db db' : Database) : Prop where
  users : db'.users = db.users
  roles : db'.roles = db.roles ∨ ∃ user, RoleMade db "user" none user db'.roles

theorem Seeded.tenants {db db' : Database} (h : Seeded db db') :
    tenantRoles db'.roles = tenantRoles db.roles := by
  obtain hsame | ⟨user, hmade⟩ := h.roles
  · rw [hsame]
  · unfold tenantRoles
    rw [hmade.appended, List.filter_append]
    simp [hmade.organization]

theorem Seeded.tenantState {db db' : Database} (h : Seeded db db') (hdb : db.TenantState) :
    db'.TenantState := by
  have hstep : RolesStep False db db'.roles := by
    obtain hsame | ⟨user, hmade⟩ := h.roles
    · rw [hsame]
      exact .same
    · rw [hmade.appended]
      refine .created user ?_ ?_ hmade.newId fun hclear => hclear.elim
      · rw [hmade.name_eq, hmade.organization]
        exact hmade.available
      · rw [hmade.organization]
        exact hmade.allowed
  exact hstep.tenantState hdb

/-- The role "admin" is found as before. -/
theorem Seeded.admin {db db' : Database} (h : Seeded db db') :
    db'.roleByNameAlone "admin" = db.roleByNameAlone "admin" := by
  unfold Database.roleByNameAlone
  obtain hsame | ⟨user, hmade⟩ := h.roles
  · rw [hsame]
  · have hother : [user].find? (fun r => decide (r.name = "admin")) = none := by
      simp [hmade.name_eq]
    rw [hmade.appended, List.find?_append, hother, Option.or_none]

/-- **`create_admin`** commits the roles and then grants, or it changed nothing; the second
only where the role "admin" still was to be made. -/
theorem createAdmin_ends (h : w.cur = w.base) (email password : Option String) :
    (createAdmin A email password).Ends w fun _ w' =>
      (w'.base = w.base ∧ (RoleIdsBelow w → w.base.roleByNameAlone "admin" = none)) ∨
      ∃ (db : Database) (role : Role), Seeded w.base db ∧
        Ensured db "admin" adminPermissions role w'.base.roles ∧
        ((∀ r ∈ w'.base.roles, r.id = role.id → r.organizationId = none) →
          GrantsPlatform w'.base.roles w.base.users w'.base.users) := by
  refine Ends.bind (M := fun _ (w₁ : World) => w₁.base = w.base ∧ Seeded w.base w₁.cur)
    (((getOrCreateRole_ends h "user" []).and (getOrCreateRole_seeds "user" [])).mono ?_) ?_
  · rintro (x | role) w₁ ⟨⟨hbase, hend⟩, -, husers, hbelow⟩
    · refine .inl ⟨hbase, fun hw => ?_⟩
      obtain ⟨role, hok⟩ := hbelow hw
      cases hok
    · rw [h] at husers
      refine ⟨hbase, husers, ?_⟩
      obtain ⟨-, ⟨-, -, hsame⟩ | hmade⟩ := hend role rfl
      · exact .inl hsame
      · exact .inr ⟨role, hmade⟩
  rintro - w₁ ⟨hbase₁, hseeded⟩
  refine Ends.bind (M := fun role (w₂ : World) => w₂.cur.users = w.base.users ∧
      Ensured w₁.cur "admin" adminPermissions role w₂.cur.roles)
    ((ensureRole_ends "admin" adminPermissions).mono ?_) ?_
  · rintro (x | role) w₂ ⟨hbase, husers, hend⟩
    · exact .inl ⟨hbase.trans hbase₁, fun _ => hseeded.admin.symm.trans hend⟩
    · exact ⟨husers.trans hseeded.users, hend⟩
  rintro role w₂ ⟨husers₂, hensured⟩
  simp only [bind_eq, ends_commitNow_bind]
  split
  · refine ends_ret.mpr (.inr ⟨w₁.cur, role, hseeded, hensured, fun _ => ?_⟩)
    rw [← husers₂]
    exact .refl _ _
  -- from here on the roles are committed
  refine Ends.bind (M := fun _ (w₃ : World) => w₃.base = w₂.cur ∧ w₃.cur.roles = w₂.cur.roles ∧
      GrantsPlatform w₂.cur.roles w.base.users w₃.cur.users)
    ((bootstrapAccount_ends _ password).mono ?_) ?_
  · rintro (x | admin) w₃ ⟨hbase, hroles, hgrants⟩
    · refine .inr ⟨w₁.cur, role, hseeded, ?_, fun _ => ?_⟩
      · rw [hbase]
        exact hensured
      · rw [hbase, ← husers₂]
        exact .refl _ _
    · refine ⟨hbase, hroles, ?_⟩
      rw [← husers₂]
      exact hgrants _
  rintro admin w₃ ⟨hbase₃, hroles₃, hgrants₃⟩
  refine (grantAdmin_ends admin (by rw [hroles₃, hbase₃])).mono ?_
  rintro r w₄ ⟨hroles₄, hgranted⟩
  rw [hbase₃] at hroles₄ hgranted
  refine .inr ⟨w₁.cur, role, hseeded, hroles₄ ▸ hensured, ?_⟩
  rw [hroles₄]
  intro hplatform
  refine hgranted hplatform _ ?_ hgrants₃
  rw [← husers₂]
  exact .refl _ _

/-- The world a start-up function begins in, with ids left to draw. -/
def World.atStart (db : Database) : World :=
  ⟨db, db, 0, (db.roles.map (·.id)).sum + 1, []⟩

theorem roleIdsBelow_atStart (db : Database) : RoleIdsBelow (World.atStart db) := by
  intro r hr
  have hle : r.id ≤ (db.roles.map (·.id)).sum := List.le_sum_of_mem (List.mem_map_of_mem hr)
  exact Nat.lt_succ_of_le hle

theorem createAdmin_platform_iff {db : Database} (hdb : db.TenantState)
    (email password : Option String) :
    TouchesOnlyPlatform (createAdmin A email password) db ↔ db.PlatformFirst "admin" := by
  constructor
  · intro htouches first hfound
    by_contra horg
    obtain ⟨r, w', hexec⟩ := exec_total (createAdmin A email password) (World.atStart db)
    have honly := htouches _ _ r rfl rfl hexec
    rcases createAdmin_ends rfl email password _ _ hexec with ⟨-, hnone⟩ | ⟨db₁, role, hseeded, hend, -⟩
    · have hno := hnone (roleIdsBelow_atStart db)
      rw [show db.roleByNameAlone "admin" = none from hno] at hfound
      cases hfound
    · refine hend.tenant (hseeded.tenantState hdb) (hseeded.admin.trans hfound) horg ?_ ?_
      · exact ⟨"manage_roles", by decide, by decide⟩
      · rw [honly.tenants, hseeded.tenants]
        rfl
  · rintro hfirst w w' r rfl hbase hexec
    rcases createAdmin_ends hbase.symm email password _ _ hexec with
      ⟨hsame, -⟩ | ⟨db₁, role, hseeded, hend, hgrants⟩
    · rw [hsame, hbase]
      exact .refl _
    · rw [hbase] at hseeded hgrants
      obtain ⟨htenants, hplatform⟩ := hend.platform (hseeded.tenantState hdb) fun role' hrole' =>
        hfirst role' (hseeded.admin ▸ hrole')
      exact ⟨htenants.trans hseeded.tenants, hgrants hplatform⟩

theorem ensurePlatformAdminRole_ends :
    ensurePlatformAdminRole.Ends w fun _ w' =>
      (w'.base = w.base ∧ w.cur.roleByNameAlone "platform_admin" = none) ∨
      ∃ role, Ensured w.cur "platform_admin" [manageAllOrgs] role w'.base.roles ∧
        w'.base.users = w.cur.users := by
  refine Ends.bind (M := fun role (w₁ : World) => w₁.cur.users = w.cur.users ∧
      Ensured w.cur "platform_admin" [manageAllOrgs] role w₁.cur.roles)
    ((ensureRole_ends "platform_admin" [manageAllOrgs]).mono ?_) ?_
  · rintro (x | role) w₁ ⟨hbase, husers, hend⟩
    · exact .inl ⟨hbase, hend⟩
    · exact ⟨husers, hend⟩
  · rintro role w₁ ⟨husers, hend⟩
    exact ends_commitNow.mpr (.inr ⟨role, hend, husers⟩)

theorem ensurePlatformAdminRole_platform_iff {db : Database} (hdb : db.TenantState) :
    TouchesOnlyPlatform ensurePlatformAdminRole db ↔ db.PlatformFirst "platform_admin" := by
  constructor
  · intro htouches first hfound
    by_contra horg
    obtain ⟨r, w', hexec⟩ := exec_total ensurePlatformAdminRole (World.atStart db)
    have honly := htouches _ _ r rfl rfl hexec
    rcases ensurePlatformAdminRole_ends _ _ hexec with ⟨-, hnone⟩ | ⟨role, hend, -⟩
    · rw [show db.roleByNameAlone "platform_admin" = none from hnone] at hfound
      cases hfound
    · exact hend.tenant hdb hfound horg ⟨manageAllOrgs, by decide, by decide⟩ honly.tenants
  · rintro hfirst w w' r rfl hbase hexec
    rcases ensurePlatformAdminRole_ends _ _ hexec with ⟨hsame, -⟩ | ⟨role, hend, husers⟩
    · rw [hsame, hbase]
      exact .refl _
    · refine ⟨(hend.platform hdb hfirst).1, ?_⟩
      rw [husers]
      exact .refl _ _

/-- The role `ensure_platform_owner` is about to give the owner of this address. -/
def Database.OwnerPending (A : AppEnv) (db : Database) (ownerEmail : Option String) (role : Role)
    (owner : User) : Prop :=
  A.strip (ownerEmail.getD "") ≠ "" ∧ db.roleByNameAlone "platform_admin" = some role ∧
    db.userByEmail (A.strip (ownerEmail.getD "")) = some owner ∧ role.id ∉ owner.roleIds

/-- It is platform-wide. -/
def Database.OwnerGrantPlatform (A : AppEnv) (db : Database) (ownerEmail : Option String) : Prop :=
  ∀ role owner, db.OwnerPending A ownerEmail role owner → role.organizationId = none

/-- `User.roles.append` on the rows. -/
def grantRole (userId roleId : ℕ) (users : List User) : List User :=
  users.map fun u => if u.id = userId then
    { u with roleIds := if roleId ∈ u.roleIds then u.roleIds else u.roleIds ++ [roleId] } else u

theorem ensurePlatformOwner_ends (h : w.cur = w.base) (ownerEmail : Option String) :
    (ensurePlatformOwner A ownerEmail).Ends w fun _ w' =>
      w'.base.roles = w.base.roles ∧
      ((w'.base.users = w.base.users ∧ ∀ role owner, ¬ w.base.OwnerPending A ownerEmail role owner) ∨
      ∃ role owner, w.base.OwnerPending A ownerEmail role owner ∧
        w'.base.users = grantRole owner.id role.id w.base.users) := by
  simp only [ensurePlatformOwner, bind_eq]
  split
  · rename_i hempty
    exact ends_ret.mpr ⟨rfl, .inl ⟨rfl, fun _ _ hpending => hpending.1 hempty⟩⟩
  rename_i hemail
  simp only [ends_query_bind, h]
  split
  · rename_i hnone
    refine ends_ret.mpr ⟨rfl, .inl ⟨rfl, fun role owner hpending => ?_⟩⟩
    rw [hpending.2.1] at hnone
    cases hnone
  rename_i role hrole
  simp only [ends_query_bind, h]
  split
  · rename_i hnone
    refine ends_ret.mpr ⟨rfl, .inl ⟨rfl, fun role owner hpending => ?_⟩⟩
    rw [hpending.2.2.1] at hnone
    cases hnone
  rename_i owner howner
  split
  · rename_i hheld
    refine ends_ret.mpr ⟨rfl, .inl ⟨rfl, fun role' owner' hpending => ?_⟩⟩
    obtain ⟨-, hrole', howner', hnot⟩ := hpending
    obtain rfl := Option.some.inj (hrole.symm.trans hrole')
    obtain rfl := Option.some.inj (howner.symm.trans howner')
    exact hnot hheld
  rename_i hnot
  rw [execute, ends_returning_bind]
  refine ⟨?_, fun x hden => by cases hden⟩
  intro eff heff
  cases heff
  refine Ends.bind (M := fun _ (w' : World) => w'.cur.roles = w.base.roles ∧
      w'.cur.users = grantRole owner.id role.id w.base.users) ?_ ?_
  · intro r w' hexec
    obtain ⟨rfl, t, e, rfl⟩ := logEvent_exec hexec
    dsimp only
    rw [h]
    exact ⟨rfl, rfl⟩
  · rintro ⟨⟩ w' ⟨hroles, husers⟩
    exact ends_commitNow.mpr ⟨hroles, .inr ⟨role, owner, ⟨hemail, hrole, howner, hnot⟩, husers⟩⟩

theorem ensurePlatformOwner_platform_iff {db : Database} (hdb : db.TenantState)
    (hkeys : (db.users.map (·.id)).Nodup) (ownerEmail : Option String) :
    TouchesOnlyPlatform (ensurePlatformOwner A ownerEmail) db ↔
      db.OwnerGrantPlatform A ownerEmail := by
  constructor
  · intro htouches role owner hpending
    obtain ⟨r, w', hexec⟩ := exec_total (ensurePlatformOwner A ownerEmail) (World.atStart db)
    have honly := htouches _ _ r rfl rfl hexec
    obtain ⟨hroles, ⟨-, hno⟩ | ⟨role', owner', hpending', husers⟩⟩ :=
      ensurePlatformOwner_ends rfl ownerEmail _ _ hexec
    · exact absurd hpending (hno role owner)
    obtain ⟨-, hrole', howner', hnot⟩ := hpending'
    obtain rfl := Option.some.inj (hrole'.symm.trans hpending.2.1)
    obtain rfl := Option.some.inj (howner'.symm.trans hpending.2.2.1)
    have howner : owner' ∈ db.users := List.mem_of_find?_eq_some howner'
    -- the owner's row now holds the role, and no row of the same key held it before
    have hgrants := honly.grants
    rw [husers, hroles] at hgrants
    have hgranted := hgrants { owner' with roleIds := owner'.roleIds ++ [role'.id] }
      (List.mem_map.mpr ⟨owner', howner, by rw [if_pos rfl, if_neg hnot]⟩) role'.id (by simp)
    rcases hgranted with ⟨u, hu, hid, hheld⟩ | hplatform
    · obtain rfl := List.inj_on_of_nodup_map hkeys hu howner hid
      exact absurd hheld hnot
    · exact hplatform role' (roleByNameAlone_some hrole').1 rfl
  · rintro hgrant w w' r rfl hbase hexec
    obtain ⟨hroles, ⟨husers, -⟩ | ⟨role, owner, hpending, husers⟩⟩ :=
      ensurePlatformOwner_ends hbase.symm ownerEmail _ _ hexec
    · refine ⟨by rw [hroles, hbase], ?_⟩
      rw [husers, hbase]
      exact .refl _ _
    · refine ⟨by rw [hroles, hbase], ?_⟩
      rw [husers, hroles, hbase]
      rw [hbase] at hpending
      refine assignUserRole_grants _ _ fun r' hr' hid => ?_
      rw [hdb.eq_of_id hr' (roleByNameAlone_some hpending.2.1).1 hid]
      exact hgrant role owner hpending

/-- **The start-up keeps to the platform's roles** exactly where the first role of the name
each function looks up is not an organization's: of "admin" for `create_admin`, of
"platform_admin" for the other two, and for the owner only while it does not hold it. -/
theorem bootstrap_platform_only (A : AppEnv) {db₀ db : Database} (h₀ : db₀.TenantState)
    (hrun : RoleRun A (fun _ _ => True) db₀ db) (hkeys : (db.users.map (·.id)).Nodup)
    (bootstrapEmail password ownerEmail : Option String) :
    (TouchesOnlyPlatform (createAdmin A bootstrapEmail password) db ↔ db.PlatformFirst "admin") ∧
    (TouchesOnlyPlatform ensurePlatformAdminRole db ↔ db.PlatformFirst "platform_admin") ∧
    (TouchesOnlyPlatform (ensurePlatformOwner A ownerEmail) db ↔
      db.OwnerGrantPlatform A ownerEmail) :=
  have hdb := hrun.tenantState h₀
  ⟨createAdmin_platform_iff hdb _ _, ensurePlatformAdminRole_platform_iff hdb,
    ensurePlatformOwner_platform_iff hdb hkeys _⟩

/-- Organization 1 names a role of its own platform_admin. -/
def tenantPlatformAdmin : RoleCall :=
  .create "platform_admin" ["runs.read"] none (some 7) (some 1)

/-- The state it leaves. -/
def tenantPlatformAdminDb : Database :=
  ((tenantPlatformAdmin.op AppEnv.symbolic).run (World.ofDatabase .empty)).2.base

theorem tenantPlatformAdmin_run :
    RoleRun AppEnv.symbolic (fun _ _ => True) Database.empty tenantPlatformAdminDb :=
  .call (w := World.ofDatabase .empty) tenantPlatformAdmin _ .refl rfl trivial (exec_run _ _)

theorem empty_tenantState : Database.empty.TenantState :=
  ⟨List.nodup_nil, fun _ hr => by cases hr⟩

/-- **The role of an organization is given `manage_all_orgs`.** -/
theorem bootstrap_touches_tenant :
    ∃ db, RoleRun AppEnv.symbolic (fun _ _ => True) Database.empty db ∧
      ¬ TouchesOnlyPlatform ensurePlatformAdminRole db := by
  refine ⟨tenantPlatformAdminDb, tenantPlatformAdmin_run, fun htouches => ?_⟩
  have hfirst := (ensurePlatformAdminRole_platform_iff
    (tenantPlatformAdmin_run.tenantState empty_tenantState)).mp htouches
  have horg := hfirst _ rfl
  cases horg

/-- Its "admin" is the platform's. -/
theorem bootstrap_platform_admin :
    TouchesOnlyPlatform (createAdmin AppEnv.symbolic none none) tenantPlatformAdminDb :=
  ((bootstrap_platform_only AppEnv.symbolic empty_tenantState tenantPlatformAdmin_run
    List.nodup_nil none none none).1).mpr fun _ hfound => by cases hfound

end OmniAuth
