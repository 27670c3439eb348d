import OmniAuth.Login.Service
import OmniAuth.Role.Names

/-!
# The back-fill of the default organization

`scripts/backfill_default_org.py` copies the global roles of each user into a membership of
the default organization, and gives a global "admin" the role "org_admin" there. What it
reports as a mismatch is a membership whose permissions are not those of a fresh copy, for
an admin with `ORG_ADMIN_PERMISSIONS` in it. But the role it gives is the row there is, with
the permissions that row has.
-/

namespace OmniAuth

open Txn Prog

/-! ## The code -/

/-- `ORG_ADMIN_PERMISSIONS` -/
def orgAdminPermissions : List String :=
  ["manage_org", "manage_teams", "manage_api_keys", "manage_billing", "manage_oauth_clients",
    "manage_sso", "workflow.read", "workflow.manage", "runs.read", "model.resolve_ownership",
    "model.read"]

/-- `_get_default_org` -/
def Database.defaultOrganization (db : Database) : Option Organization :=
  db.organizations.find? (·.slug = "default")

/-- `is_global_admin`, of the global roles of a user. -/
def isGlobalAdmin (roles : List Role) : Bool := roles.any (·.name = "admin")

/-- `expected_perms` -/
def expectedPermissions (roles : List Role) : List String :=
  roles.flatMap (·.permissions) ++ if isGlobalAdmin roles then orgAdminPermissions else []

/-- Two sets of permissions are one. -/
def SamePermissions (names names' : List String) : Prop :=
  (∀ p ∈ names, p ∈ names') ∧ ∀ p ∈ names', p ∈ names

instance (names names' : List String) : Decidable (SamePermissions names names') :=
  inferInstanceAs (Decidable (_ ∧ _))

structure Mismatch where
  userId : ℕ
  reason : String
  global : List String
  org : List String
  deriving DecidableEq

structure BackfillReport where
  totalUsers : ℕ
  alreadyPresent : ℕ := 0
  backfilled : ℕ := 0
  mismatches : List Mismatch := []
  deriving DecidableEq

/-- What is reported of a membership: `roles` are the user's and `orgRoles` its own. -/
def mismatchOf (user : User) (roles orgRoles : List Role) : Option Mismatch :=
  let orgPerms := orgRoles.flatMap (·.permissions)
  if SamePermissions orgPerms (expectedPermissions roles) then none
  else some
    { userId := user.id
      reason := "existing_default_org_membership_diverged"
      global := sortedSet (expectedPermissions roles)
      org := sortedSet orgPerms }

/-- The roles of the new membership. -/
def rolesToCopy (roles : List Role) : Op (List Role) :=
  if isGlobalAdmin roles then do
    let role ← getOrCreateRole "org_admin" orgAdminPermissions
    return roles ++ [role]
  else return roles

/-- A membership and its rows in `membership_roles`, which has PRIMARY KEY(membership_id,
role_id): the ORM writes one for each entry of the list. -/
def addMembership (row : OrganizationMembership) : Op Unit :=
  if row.roleIds.Nodup then execute (.org (.insertMembership row)) else raise .integrity

/-- The body of the loop. -/
def backfillUser (org : Organization) (verifyOnly : Bool) (user : User)
    (report : BackfillReport) : Op BackfillReport := do
  let existing ← query (·.getMembership org.id user.id)
  let roles ← query (·.rolesOf user.roleIds)
  match existing with
  | some existing => do
      let orgRoles ← query (·.rolesOf existing.roleIds)
      return { report with
        alreadyPresent := report.alreadyPresent + 1
        mismatches := report.mismatches ++ (mismatchOf user roles orgRoles).toList }
  | none =>
      if verifyOnly then return { report with backfilled := report.backfilled + 1 }
      else do
        let copied ← rolesToCopy roles
        let id ← draw
        let joinedAt ← time
        addMembership
          { id := id
            organizationId := org.id
            userId := user.id
            status := .active
            roleIds := copied.map (·.id)
            joinedAt := joinedAt }
        return { report with backfilled := report.backfilled + 1 }

def backfillUsers (org : Organization) (verifyOnly : Bool) :
    List User → BackfillReport → Op BackfillReport
  | [], report => return report
  | user :: rest, report => do
      let report ← backfillUser org verifyOnly user report
      backfillUsers org verifyOnly rest report

/-- `backfill` -/
def backfill (verifyOnly : Bool) : Op BackfillReport := do
  let org ← query (·.defaultOrganization)
  match org with
  | none =>
      raise (.runtime ("No Default Organization found -- app/db/init_admin.py's " ++
        "ensure_default_organization() must have run at least once " ++
        "(i.e. the auth-service must have started at least once since " ++
        "Phase 1 PR2) before this backfill can run."))
  | some org => do
      let users ← query (·.users)
      let report ← backfillUsers org verifyOnly users { totalUsers := users.length }
      if verifyOnly then return report
      else do
        commitNow
        return report

/-- `main`, up to what it prints. -/
def backfillMain (verify : Bool) : Op BackfillReport := (backfill verify).close

/-! ## What there is to report -/

/-- What a run reports of a user that is a member. -/
def Database.mismatches (db : Database) (org : Organization) (user : User) : List Mismatch :=
  match db.getMembership org.id user.id with
  | some m => (mismatchOf user (db.rolesOf user.roleIds) (db.rolesOf m.roleIds)).toList
  | none => []

variable {w : World} {org : Organization}

/-- **Nothing is written** by a run that verifies, nor where every user is a member. -/
theorem backfillUsers_settled {verifyOnly : Bool} (users : List User) (report : BackfillReport)
    (hsettled : ∀ user ∈ users, verifyOnly = true ∨
      (w.cur.getMembership org.id user.id).isSome) :
    (backfillUsers org verifyOnly users report).Ends w fun r w' => w' = w ∧ ∃ report',
      r = .ok report' ∧
      report'.mismatches = report.mismatches ++ users.flatMap (w.cur.mismatches org) := by
  induction users generalizing report with
  | nil => exact ends_ret.mpr ⟨rfl, report, rfl, (List.append_nil _).symm⟩
  | cons user rest ih =>
    have hrest : ∀ user ∈ rest, verifyOnly = true ∨
        (w.cur.getMembership org.id user.id).isSome :=
      fun u hu => hsettled u (List.mem_cons_of_mem _ hu)
    have huser : (backfillUser org verifyOnly user report).Ends w fun r w' => w' = w ∧
        ∃ report', r = .ok report' ∧
          report'.mismatches = report.mismatches ++ w.cur.mismatches org user := by
      simp only [backfillUser, bind_eq, ends_query_bind, Database.mismatches]
      cases hm : w.cur.getMembership org.id user.id with
      | some m => exact ends_query_bind.mpr (ends_ret.mpr ⟨rfl, _, rfl, rfl⟩)
      | none =>
        rcases hsettled user (List.mem_cons_self ..) with hverify | hsome
        · simp only [hverify, if_true]
          exact ends_ret.mpr ⟨rfl, _, rfl, (List.append_nil _).symm⟩
        · rw [hm] at hsome
          cases hsome
    refine ends_handle.mpr (huser.mono ?_)
    rintro r w' ⟨rfl, report', rfl, hreport'⟩
    refine (ih report' hrest).mono ?_
    rintro r w'' ⟨rfl, report'', rfl, hreport''⟩
    refine ⟨rfl, report'', rfl, ?_⟩
    rw [hreport'', hreport', List.flatMap_cons, List.append_assoc]

/-! ## The condition -/

/-- What the keys promise of the rows, the foreign key of `user_roles` among them. -/
structure Database.Keyed (db : Database) (next : ℕ) : Prop where
  users : (db.users.map (·.id)).Nodup
  roles : (db.roles.map (·.id)).Nodup
  held : ∀ user ∈ db.users, ∀ id ∈ user.roleIds, ∃ role ∈ db.roles, role.id = id
  roleIds : ∀ role ∈ db.roles, role.id < next
  membershipIds : ∀ m ∈ db.memberships, m.id < next

/-- A user the back-fill has to copy. -/
def Database.Outside (db : Database) (org : Organization) (user : User) : Prop :=
  user ∈ db.users ∧ db.getMembership org.id user.id = none

/-- The copy would name "org_admin" twice, once as a role the admin holds already. -/
def Database.Doubles (db : Database) (user : User) : Prop :=
  isGlobalAdmin (db.rolesOf user.roleIds) = true ∧
    ∃ role, getRoleByName db "org_admin" none = some role ∧ role.id ∈ user.roleIds

/-- **The condition**, on the state before. If there is a role "org_admin" then it makes each
admin to be copied hold what `ORG_ADMIN_PERMISSIONS` would; or the run breaks off, on an
admin that holds it already. -/
def Database.CopiesWell (db : Database) : Prop :=
  ∀ org, db.defaultOrganization = some org →
    (∃ user, db.Outside org user ∧ db.Doubles user) ∨
    ∀ role, getRoleByName db "org_admin" none = some role →
      ∀ user, db.Outside org user → isGlobalAdmin (db.rolesOf user.roleIds) = true →
        SamePermissions (db.permissionsOf user.roleIds ++ role.permissions)
          (expectedPermissions (db.rolesOf user.roleIds))

/-- The permissions an admin is given with "org_admin". -/
def Database.orgAdminGiven (db : Database) : List String :=
  match getRoleByName db "org_admin" none with
  | some role => role.permissions
  | none => orgAdminPermissions

theorem samePermissions_iff {names names' : List String} :
    SamePermissions names names' ↔ ∀ p, p ∈ names ↔ p ∈ names' :=
  ⟨fun h p => ⟨h.1 p, h.2 p⟩, fun h => ⟨fun p => (h p).mp, fun p => (h p).mpr⟩⟩

/-! ## The roles during a run -/

/-- The row that is made where no platform-wide "org_admin" was. -/
structure OrgAdminMade (db : Database) (role : Role) : Prop where
  missing : getRoleByName db "org_admin" none = none
  name_eq : role.name = "org_admin"
  organization : role.organizationId = none
  permissions : role.permissions = orgAdminPermissions
  newId : ∀ r ∈ db.roles, r.id ≠ role.id

/-- The roles during a run: those there were, and at most one more. -/
def RolesGrow (db : Database) (roles : List Role) : Prop :=
  roles = db.roles ∨ ∃ role, OrgAdminMade db role ∧ roles = db.roles ++ [role]

variable {db cur : Database}

theorem OrgAdminMade.found {role : Role} (h : OrgAdminMade db role)
    (hroles : cur.roles = db.roles ++ [role]) :
    getRoleByName cur "org_admin" none = some role := by
  have hmissing : db.roles.find? (fun r => decide (r.name = "org_admin" ∧
      r.organizationId = none)) = none := h.missing
  unfold getRoleByName
  rw [hroles, List.find?_append, hmissing, Option.none_or]
  simp [h.name_eq, h.organization]

theorem OrgAdminMade.given {role : Role} (h : OrgAdminMade db role) :
    role.permissions = db.orgAdminGiven := by
  unfold Database.orgAdminGiven
  rw [h.missing]
  exact h.permissions

variable (db) in
/-- Ids that name roles name no new one. -/
theorem rolesOf_append {role : Role} {ids : List ℕ} (hroles : cur.roles = db.roles ++ [role])
    (hheld : ∀ id ∈ ids, ∃ r ∈ db.roles, r.id = id) (hnew : ∀ r ∈ db.roles, r.id ≠ role.id) :
    cur.rolesOf ids = db.rolesOf ids := by
  have hout : role.id ∉ ids := by
    intro hmem
    obtain ⟨r, hr, hid⟩ := hheld _ hmem
    exact hnew r hr hid
  unfold Database.rolesOf
  rw [hroles, List.filter_append]
  simp [hout]

theorem RolesGrow.rolesOf {ids : List ℕ} (h : RolesGrow db cur.roles)
    (hheld : ∀ id ∈ ids, ∃ r ∈ db.roles, r.id = id) : cur.rolesOf ids = db.rolesOf ids := by
  obtain hsame | ⟨role, hmade, hroles⟩ := h
  · unfold Database.rolesOf
    rw [hsame]
  · exact rolesOf_append db hroles hheld hmade.newId

/-! ## The memberships during a run -/

/-- The user is a member, with what was to be copied. -/
def Enrolled (db : Database) (org : Organization) (user : User) (cur : Database) : Prop :=
  ∃ m, cur.getMembership org.id user.id = some m ∧
    (∀ id ∈ m.roleIds, ∃ role ∈ cur.roles, role.id = id) ∧
    ∀ p, p ∈ cur.permissionsOf m.roleIds ↔ p ∈ db.permissionsOf user.roleIds ∨
      isGlobalAdmin (db.rolesOf user.roleIds) = true ∧ p ∈ db.orgAdminGiven

/-- A run that has gone over `done`. -/
structure Migrating (db : Database) (org : Organization) (done : List User) (w : World) :
    Prop where
  base : w.base = db
  users : w.cur.users = db.users
  organizations : w.cur.organizations = db.organizations
  roles : RolesGrow db w.cur.roles
  roleIds : ∀ role ∈ w.cur.roles, role.id < w.next
  membershipIds : ∀ m ∈ w.cur.memberships, m.id < w.next
  kept : ∀ userId m, db.getMembership org.id userId = some m →
    w.cur.getMembership org.id userId = some m
  waiting : ∀ user ∈ db.users, user ∉ done →
    w.cur.getMembership org.id user.id = db.getMembership org.id user.id
  enrolled : ∀ user ∈ done, db.getMembership org.id user.id = none → Enrolled db org user w.cur

variable (db) in
/-- A new row is found by its own user and by nobody else. -/
theorem getMembership_append {row : OrganizationMembership} {organizationId userId : ℕ}
    (hrows : cur.memberships = db.memberships ++ [row])
    (hne : row.organizationId ≠ organizationId ∨ row.userId ≠ userId) :
    cur.getMembership organizationId userId = db.getMembership organizationId userId := by
  have hother : ¬ (row.organizationId = organizationId ∧ row.userId = userId) := by
    rintro ⟨horg, huser⟩
    rcases hne with hne | hne
    · exact hne horg
    · exact hne huser
  unfold Database.getMembership
  rw [hrows, List.find?_append]
  simp [hother]

variable (db) in
theorem getMembership_append_self {row : OrganizationMembership}
    (hrows : cur.memberships = db.memberships ++ [row])
    (hnone : db.getMembership row.organizationId row.userId = none) :
    cur.getMembership row.organizationId row.userId = some row := by
  unfold Database.getMembership at hnone ⊢
  rw [hrows, List.find?_append, hnone, Option.none_or]
  simp

variable (db) in
/-- A row that is found goes on being found. -/
theorem getMembership_append_some {row m : OrganizationMembership} {organizationId userId : ℕ}
    (hrows : cur.memberships = db.memberships ++ [row])
    (hfound : db.getMembership organizationId userId = some m) :
    cur.getMembership organizationId userId = some m := by
  unfold Database.getMembership at hfound ⊢
  rw [hrows, List.find?_append, hfound, Option.some_or]

/-! ## One user -/

variable {done : List User} {next : ℕ} {user : User}

/-- A member is passed over. -/
theorem Migrating.pass (h : Migrating db org done w)
    (hmember : db.getMembership org.id user.id ≠ none) :
    Migrating db org (done ++ [user]) w where
  base := h.base
  users := h.users
  organizations := h.organizations
  roles := h.roles
  roleIds := h.roleIds
  membershipIds := h.membershipIds
  kept := h.kept
  waiting := fun u hu hnot => h.waiting u hu fun hmem => hnot (List.mem_append_left _ hmem)
  enrolled := by
    intro u hu hnone
    rcases List.mem_append.mp hu with hold | hself
    · exact h.enrolled u hold hnone
    · obtain rfl := List.mem_singleton.mp hself
      exact absurd hnone hmember

/-- Making the role leaves everybody what they were given. -/
theorem Migrating.made (h : Migrating db org done w) {role : Role} (hmade : OrgAdminMade db role)
    (hroles : w.cur.roles = db.roles) (hid : role.id = w.next) :
    Migrating db org done { w with
      next := w.next + 1
      cur := { w.cur with roles := w.cur.roles ++ [role] } } where
  base := h.base
  users := h.users
  organizations := h.organizations
  roles := .inr ⟨role, hmade, by rw [hroles]⟩
  roleIds := by
    intro r hr
    rcases List.mem_append.mp hr with hold | hself
    · exact (h.roleIds r hold).trans (Nat.lt_succ_self _)
    · obtain rfl := List.mem_singleton.mp hself
      show r.id < w.next + 1
      omega
  membershipIds := fun m hm => (h.membershipIds m hm).trans (Nat.lt_succ_self _)
  kept := h.kept
  waiting := h.waiting
  enrolled := by
    intro u hu hnone
    obtain ⟨m, hm, hheld, hperms⟩ := h.enrolled u hu hnone
    refine ⟨m, hm, fun id hid => ?_, fun p => ?_⟩
    · obtain ⟨r, hr, hrid⟩ := hheld id hid
      exact ⟨r, List.mem_append_left _ hr, hrid⟩
    · unfold Database.permissionsOf at hperms ⊢
      rw [rolesOf_append w.cur rfl hheld fun r hr => by
        rw [hroles] at hr; exact hmade.newId r hr]
      exact hperms p

/-- The role "org_admin" is there, or is made. -/
theorem Migrating.orgAdmin (h : Migrating db org done w) :
    (getOrCreateRole "org_admin" orgAdminPermissions).Ends w fun r w' =>
      Migrating db org done w' ∧ ∃ role ∈ w'.cur.roles, r = .ok role ∧
        role.permissions = db.orgAdminGiven ∧
        (getRoleByName db "org_admin" none = some role ∨ OrgAdminMade db role) := by
  simp only [getOrCreateRole, bind_eq, ends_query_bind]
  obtain hsame | ⟨role, hmade, hroles⟩ := h.roles
  swap
  · rw [hmade.found hroles]
    refine ends_ret.mpr ⟨h, role, ?_, rfl, hmade.given, .inr hmade⟩
    rw [hroles]
    exact List.mem_append_right _ (List.mem_singleton_self _)
  have hfound : getRoleByName w.cur "org_admin" none = getRoleByName db "org_admin" none := by
    unfold getRoleByName
    rw [hsame]
  rw [hfound]
  cases hrole : getRoleByName db "org_admin" none with
  | some role =>
    refine ends_ret.mpr ⟨h, role, ?_, rfl, ?_, .inl rfl⟩
    · rw [hsame]
      exact (getRoleByName_some hrole).1
    · unfold Database.orgAdminGiven
      rw [hrole]
  | none =>
    have hfree : ¬ ∃ r ∈ w.cur.roles, r.id = w.next := by
      rintro ⟨r, hr, hid⟩
      have hlt := h.roleIds r hr
      omega
    simp only [ends_draw_bind]
    rw [execute, ends_returning_bind]
    refine ⟨fun eff heff => ?_, fun x hx => ?_⟩
    · simp only [denote, OrgStmt.denote, if_neg hfree] at heff
      obtain rfl := Except.ok.inj heff
      have hmade : OrgAdminMade db
          { id := w.next, name := "org_admin", organizationId := none,
            permissions := orgAdminPermissions } :=
        ⟨hrole, rfl, rfl, rfl, fun r hr hid => hfree ⟨r, hsame ▸ hr, hid⟩⟩
      refine ends_ret.mpr ⟨h.made hmade hsame rfl, _, ?_, rfl, hmade.given, .inr hmade⟩
      exact List.mem_append_right _ (List.mem_singleton_self _)
    · simp only [denote, OrgStmt.denote, if_neg hfree] at hx
      cases hx

/-! ### The roles to copy -/

theorem RolesGrow.mem {roles : List Role} (h : RolesGrow db roles) {role : Role}
    (hrole : role ∈ db.roles) : role ∈ roles := by
  obtain rfl | ⟨made, -, rfl⟩ := h
  · exact hrole
  · exact List.mem_append_left _ hrole

theorem RolesGrow.nodup {roles : List Role} (h : RolesGrow db roles)
    (hdb : (db.roles.map (·.id)).Nodup) : (roles.map (·.id)).Nodup := by
  obtain rfl | ⟨made, hmade, rfl⟩ := h
  · exact hdb
  · rw [List.map_append, List.nodup_append]
    refine ⟨hdb, List.nodup_singleton _, fun id hid id' hid' => ?_⟩
    obtain ⟨r, hr, rfl⟩ := List.mem_map.mp hid
    obtain rfl := List.mem_singleton.mp hid'
    exact hmade.newId r hr

variable (db) in
/-- The ids of some of the roles name these and no others. -/
theorem permissionsOf_ids {roles : List Role} (hnodup : (db.roles.map (·.id)).Nodup)
    (hthere : ∀ role ∈ roles, role ∈ db.roles) (p : String) :
    p ∈ db.permissionsOf (roles.map (·.id)) ↔ p ∈ roles.flatMap (·.permissions) := by
  rw [mem_permissionsOf, List.mem_flatMap]
  constructor
  · rintro ⟨r, hr, hid, hp⟩
    obtain ⟨r', hr', hid'⟩ := List.mem_map.mp hid
    obtain rfl := List.inj_on_of_nodup_map hnodup (hthere r' hr') hr hid'
    exact ⟨r', hr', hp⟩
  · rintro ⟨r, hr, hp⟩
    exact ⟨r, hthere r hr, List.mem_map_of_mem hr, hp⟩

/-- The roles the copy of `user` is made of. -/
structure Copied (db : Database) (user : User) (cur : Database) (copied : List Role) : Prop where
  there : ∀ role ∈ copied, role ∈ cur.roles
  permissions : ∀ p, p ∈ copied.flatMap (·.permissions) ↔ p ∈ db.permissionsOf user.roleIds ∨
    isGlobalAdmin (db.rolesOf user.roleIds) = true ∧ p ∈ db.orgAdminGiven
  once : (copied.map (·.id)).Nodup ↔ ¬ db.Doubles user

theorem nodup_rolesOf (hkeyed : db.Keyed next) (ids : List ℕ) :
    ((db.rolesOf ids).map (·.id)).Nodup :=
  (List.filter_sublist.map _).nodup hkeyed.roles

/-- The role is among the user's own only if it was there before. -/
theorem orgAdmin_mem_iff {role : Role}
    (h : getRoleByName db "org_admin" none = some role ∨ OrgAdminMade db role) (ids : List ℕ) :
    role.id ∈ (db.rolesOf ids).map (·.id) ↔
      ∃ role, getRoleByName db "org_admin" none = some role ∧ role.id ∈ ids := by
  constructor
  · intro hmem
    obtain ⟨r, hr, hid⟩ := List.mem_map.mp hmem
    obtain ⟨hr, hids⟩ := List.mem_filter.mp hr
    rcases h with hfound | hmade
    · refine ⟨role, hfound, ?_⟩
      rw [← hid]
      exact of_decide_eq_true hids
    · exact absurd hid (hmade.newId r hr)
  · rintro ⟨r, hr, hids⟩
    rcases h with hfound | hmade
    · obtain rfl := Option.some.inj (hfound.symm.trans hr)
      have hmem := (getRoleByName_some hr).1
      exact List.mem_map_of_mem (List.mem_filter.mpr ⟨hmem, decide_eq_true hids⟩)
    · rw [hmade.missing] at hr
      cases hr

theorem Migrating.rolesToCopy (h : Migrating db org done w) (hkeyed : db.Keyed next)
    (user : User) :
    (rolesToCopy (db.rolesOf user.roleIds)).Ends w fun r w' => Migrating db org done w' ∧
      ∃ copied, r = .ok copied ∧ Copied db user w'.cur copied := by
  have hown : ∀ {w' : World}, Migrating db org done w' →
      ∀ role ∈ db.rolesOf user.roleIds, role ∈ w'.cur.roles :=
    fun h' role hrole => h'.roles.mem (List.mem_filter.mp hrole).1
  unfold OmniAuth.rolesToCopy
  by_cases hadmin : isGlobalAdmin (db.rolesOf user.roleIds) = true
  swap
  · rw [if_neg hadmin]
    refine ends_ret.mpr ⟨h, _, rfl, hown h, fun p => ?_, ?_⟩
    · simp [hadmin, Database.permissionsOf]
    · exact iff_of_true (nodup_rolesOf hkeyed _) fun hdouble => hadmin hdouble.1
  rw [if_pos hadmin]
  refine Ends.bind (M := fun role w' => Migrating db org done w' ∧ role ∈ w'.cur.roles ∧
      role.permissions = db.orgAdminGiven ∧
      (getRoleByName db "org_admin" none = some role ∨ OrgAdminMade db role))
    (h.orgAdmin.mono ?_) ?_
  · rintro r w' ⟨h', role, hrole, rfl, hperms, hfrom⟩
    exact ⟨h', hrole, hperms, hfrom⟩
  rintro role w' ⟨h', hrole, hperms, hfrom⟩
  refine ends_ret.mpr ⟨h', _, rfl, fun r hr => ?_, fun p => ?_, ?_⟩
  · rcases List.mem_append.mp hr with hr | hr
    · exact hown h' r hr
    · obtain rfl := List.mem_singleton.mp hr
      exact hrole
  · simp [hadmin, hperms, Database.permissionsOf]
  · have hin := orgAdmin_mem_iff hfrom user.roleIds
    have hdouble : db.Doubles user ↔ role.id ∈ (db.rolesOf user.roleIds).map (·.id) := by
      rw [hin]
      exact and_iff_right hadmin
    rw [hdouble, List.map_append, List.nodup_append]
    constructor
    · rintro ⟨-, -, hdisjoint⟩ hmem
      exact hdisjoint _ hmem _ (List.mem_singleton_self _) rfl
    · intro hnot
      refine ⟨nodup_rolesOf hkeyed _, List.nodup_singleton _, fun id hid id' hid' heq => ?_⟩
      obtain rfl := List.mem_singleton.mp hid'
      subst heq
      exact hnot hid

/-- The new row. -/
theorem Migrating.enroll (h : Migrating db org done w) (hkeyed : db.Keyed next)
    (huser : user ∈ db.users) (hwait : user ∉ done)
    (hnone : db.getMembership org.id user.id = none) {copied : List Role}
    (hcopied : Copied db user w.cur copied) {row : OrganizationMembership} (hid : row.id = w.next)
    (horg : row.organizationId = org.id) (huserId : row.userId = user.id)
    (hroles : row.roleIds = copied.map (·.id)) (t : ℕ) :
    Migrating db org (done ++ [user]) { w with
      next := w.next + 1
      now := t
      cur := { w.cur with memberships := w.cur.memberships ++ [row] } } where
  base := h.base
  users := h.users
  organizations := h.organizations
  roles := h.roles
  roleIds := fun role hrole => (h.roleIds role hrole).trans (Nat.lt_succ_self _)
  membershipIds := by
    intro m hm
    rcases List.mem_append.mp hm with hold | hself
    · exact (h.membershipIds m hold).trans (Nat.lt_succ_self _)
    · obtain rfl := List.mem_singleton.mp hself
      show m.id < w.next + 1
      omega
  kept := fun userId m hm => getMembership_append_some w.cur rfl (h.kept userId m hm)
  waiting := by
    intro u hu hnot
    have hne : user.id ≠ u.id := by
      intro heq
      obtain rfl := List.inj_on_of_nodup_map hkeyed.users huser hu heq
      exact hnot (List.mem_append_right _ (List.mem_singleton_self _))
    rw [getMembership_append w.cur rfl (.inr (huserId ▸ hne))]
    exact h.waiting u hu fun hmem => hnot (List.mem_append_left _ hmem)
  enrolled := by
    intro u hu hu'
    rcases List.mem_append.mp hu with hold | hself
    · obtain ⟨m, hm, hheld, hperms⟩ := h.enrolled u hold hu'
      exact ⟨m, getMembership_append_some w.cur rfl hm, hheld, hperms⟩
    · obtain rfl := List.mem_singleton.mp hself
      have hfree : w.cur.getMembership row.organizationId row.userId = none := by
        rw [horg, huserId, h.waiting u huser hwait, hnone]
      refine ⟨row, ?_, fun id hid => ?_, fun p => ?_⟩
      · rw [← horg, ← huserId]
        exact getMembership_append_self w.cur rfl hfree
      · rw [hroles] at hid
        obtain ⟨role, hrole, rfl⟩ := List.mem_map.mp hid
        exact ⟨role, hcopied.there role hrole, rfl⟩
      · rw [hroles]
        exact (permissionsOf_ids w.cur (h.roles.nodup hkeyed.roles) hcopied.there p).trans
          (hcopied.permissions p)

/-! ### The body of the loop -/

/-- The run breaks off at this user. -/
def Stuck (db : Database) (org : Organization) (user : User) : Prop :=
  db.getMembership org.id user.id = none ∧ db.Doubles user

/-- **One user** more is gone over, unless the run breaks off. -/
theorem Migrating.backfillUser (h : Migrating db org done w) (hkeyed : db.Keyed next)
    (huser : user ∈ db.users) (hwait : user ∉ done) (report : BackfillReport) :
    (OmniAuth.backfillUser org false user report).Ends w fun r w' =>
      (Stuck db org user ∧ (∃ x, r = .error x) ∧ w'.base = db) ∨
      (¬ Stuck db org user ∧ (∃ report', r = .ok report') ∧
        Migrating db org (done ++ [user]) w') := by
  have hroles := h.roles.rolesOf (hkeyed.held user huser)
  simp only [OmniAuth.backfillUser, bind_eq, ends_query_bind, h.waiting user huser hwait, hroles]
  cases hm : db.getMembership org.id user.id with
  | some m =>
    have hmember : db.getMembership org.id user.id ≠ none := by
      rw [hm]
      exact Option.some_ne_none m
    refine ends_query_bind.mpr (ends_ret.mpr (.inr ⟨fun hstuck => ?_, ⟨_, rfl⟩, h.pass hmember⟩))
    exact hmember hstuck.1
  | none =>
    simp only [Bool.false_eq_true, if_false]
    refine Ends.bind (M := fun copied w' => Migrating db org done w' ∧ Copied db user w'.cur copied)
      ((h.rolesToCopy hkeyed user).mono ?_) ?_
    · rintro r w' ⟨h', copied, rfl, hcopied⟩
      exact ⟨h', hcopied⟩
    rintro copied w₁ ⟨h₁, hcopied⟩
    simp only [ends_draw_bind, ends_time_bind]
    intro t ht
    unfold addMembership
    split
    · rename_i honce
      have hfree : ¬ ∃ m ∈ w₁.cur.memberships, m.id = w₁.next ∨
          (m.organizationId = org.id ∧ m.userId = user.id) := by
        rintro ⟨m, hmem, hid | hmember⟩
        · have hlt := h₁.membershipIds m hmem
          omega
        · have hfind := (h₁.waiting user huser hwait).trans hm
          exact List.find?_eq_none.mp hfind m hmem (decide_eq_true hmember)
      rw [execute, ends_returning_bind]
      refine ⟨fun eff heff => ?_, fun x hx => ?_⟩
      · simp only [denote, OrgStmt.denote, if_neg hfree] at heff
        obtain rfl := Except.ok.inj heff
        refine ends_ret.mpr (.inr ⟨fun hstuck => hcopied.once.mp honce hstuck.2, ⟨_, rfl⟩, ?_⟩)
        exact h₁.enroll hkeyed huser hwait hm hcopied rfl rfl rfl rfl t
      · simp only [denote, OrgStmt.denote, if_neg hfree] at hx
        cases hx
    · rename_i htwice
      refine ends_raise.mpr (.inl ⟨⟨hm, ?_⟩, ⟨_, rfl⟩, h₁.base⟩)
      by_contra hnot
      exact htwice (hcopied.once.mpr hnot)

/-- **The loop** goes over everybody, unless it breaks off at somebody. -/
theorem Migrating.backfillUsers (h : Migrating db org done w) (hkeyed : db.Keyed next)
    (rest : List User) (hall : done ++ rest = db.users) (report : BackfillReport) :
    (OmniAuth.backfillUsers org false rest report).Ends w fun r w' =>
      ((∃ user ∈ rest, Stuck db org user) ∧ (∃ x, r = .error x) ∧ w'.base = db) ∨
      ((∀ user ∈ rest, ¬ Stuck db org user) ∧ (∃ report', r = .ok report') ∧
        Migrating db org db.users w') := by
  induction rest generalizing done w report with
  | nil =>
    rw [List.append_nil] at hall
    exact ends_ret.mpr (.inr ⟨fun _ hmem => absurd hmem List.not_mem_nil, ⟨_, rfl⟩, hall ▸ h⟩)
  | cons user rest ih =>
    have huser : user ∈ db.users := by
      rw [← hall]
      exact List.mem_append_right _ (List.mem_cons_self ..)
    have hwait : user ∉ done := by
      intro hmem
      have hnodup := hkeyed.users.of_map
      rw [← hall, List.nodup_append] at hnodup
      exact hnodup.2.2 user hmem user (List.mem_cons_self ..) rfl
    refine ends_handle.mpr ((h.backfillUser hkeyed huser hwait report).mono ?_)
    rintro r w₁ (⟨hstuck, ⟨x, rfl⟩, hbase⟩ | ⟨hfine, ⟨report₁, rfl⟩, h₁⟩)
    · exact ends_raise.mpr (.inl ⟨⟨user, List.mem_cons_self .., hstuck⟩, ⟨x, rfl⟩, hbase⟩)
    · have hnext : (done ++ [user]) ++ rest = db.users := by
        rw [List.append_assoc]
        exact hall
      refine (ih h₁ hnext report₁).mono ?_
      rintro r w₂ (⟨⟨u, hu, hstuck⟩, hend⟩ | ⟨hnone, hend⟩)
      · exact .inl ⟨⟨u, List.mem_cons_of_mem _ hu, hstuck⟩, hend⟩
      · refine .inr ⟨fun u hu => ?_, hend⟩
        rcases List.mem_cons.mp hu with rfl | hu
        · exact hfine
        · exact hnone u hu

/-! ## A whole run -/

theorem world_of_clean (hclean : w.cur = w.base) : ({ w with cur := w.base } : World) = w := by
  cases w with
  | mk base cur now next log =>
    obtain rfl : cur = base := hclean
    rfl

/-- A run that verifies, or that finds everybody a member, leaves everything as it is. -/
theorem backfillMain_settled {verify : Bool} (hclean : w.cur = w.base)
    (horg : w.cur.defaultOrganization = some org)
    (hsettled : ∀ user ∈ w.cur.users, verify = true ∨
      (w.cur.getMembership org.id user.id).isSome) :
    (backfillMain verify).Ends w fun r w' => w' = w ∧ ∃ report, r = .ok report ∧
      report.mismatches = w.cur.users.flatMap (w.cur.mismatches org) := by
  refine ends_close.mpr ?_
  simp only [backfill, bind_eq, ends_query_bind, horg]
  refine Ends.bind (M := fun report w' => w' = w ∧
      report.mismatches = w.cur.users.flatMap (w.cur.mismatches org))
    ((backfillUsers_settled w.cur.users { totalUsers := w.cur.users.length } hsettled).mono ?_) ?_
  · rintro r w' ⟨rfl, report, rfl, hreport⟩
    exact ⟨rfl, by rw [hreport, List.nil_append]⟩
  rintro report w' ⟨rfl, hreport⟩
  cases verify with
  | true => exact ends_ret.mpr ⟨world_of_clean hclean, report, rfl, hreport⟩
  | false =>
    refine ends_commitNow_bind.mpr (ends_ret.mpr ⟨?_, report, rfl, hreport⟩)
    rw [hclean]
    exact world_of_clean hclean

/-- Without the default organization there is nothing to do. -/
theorem backfillMain_none {verify : Bool} (hclean : w.cur = w.base)
    (horg : w.cur.defaultOrganization = none) :
    (backfillMain verify).Ends w fun r w' => w' = w ∧ ∃ x, r = .error x := by
  refine ends_close.mpr ?_
  simp only [backfill, bind_eq, ends_query_bind, horg]
  exact ends_raise.mpr ⟨world_of_clean hclean, _, rfl⟩

/-- **A run** breaks off at somebody and is rolled back, or commits everybody's membership. -/
theorem backfillMain_ends (hclean : w.cur = w.base) (hkeyed : w.base.Keyed w.next)
    (horg : w.base.defaultOrganization = some org) :
    (backfillMain false).Ends w fun r w' =>
      ((∃ user ∈ w.base.users, Stuck w.base org user) ∧ (∃ x, r = .error x) ∧
        w'.base = w.base ∧ w'.cur = w.base) ∨
      ((∀ user ∈ w.base.users, ¬ Stuck w.base org user) ∧ (∃ report, r = .ok report) ∧
        ∃ w₀, Migrating w.base org w.base.users w₀ ∧ w' = { w₀ with base := w₀.cur }) := by
  have hstart : Migrating w.base org [] w := by
    rw [← hclean] at hkeyed ⊢
    exact
      { base := hclean.symm
        users := rfl
        organizations := rfl
        roles := .inl rfl
        roleIds := hkeyed.roleIds
        membershipIds := hkeyed.membershipIds
        kept := fun _ _ hm => hm
        waiting := fun _ _ _ => rfl
        enrolled := fun _ hmem => absurd hmem List.not_mem_nil }
  refine ends_close.mpr ?_
  simp only [backfill, bind_eq, ends_query_bind, hclean, horg]
  refine ends_handle.mpr
    ((hstart.backfillUsers hkeyed w.base.users (List.nil_append _) _).mono ?_)
  rintro r w' (⟨hstuck, ⟨x, rfl⟩, hbase⟩ | ⟨hfine, ⟨report, rfl⟩, hend⟩)
  · exact ends_raise.mpr (.inl ⟨hstuck, ⟨x, rfl⟩, hbase, hbase⟩)
  · exact ends_commitNow_bind.mpr (ends_ret.mpr (.inr ⟨hfine, ⟨report, rfl⟩, w', hend, rfl⟩))

/-! ## What is reported afterwards -/

/-- The run in between has made the user a member. -/
def Database.Migrated (db db' : Database) (userId : ℕ) : Prop :=
  ∃ org, db.defaultOrganization = some org ∧ db.getMembership org.id userId = none ∧
    (db'.getMembership org.id userId).isSome

theorem mismatchOf_none {roles orgRoles : List Role} :
    mismatchOf user roles orgRoles = none ↔
      SamePermissions (orgRoles.flatMap (·.permissions)) (expectedPermissions roles) := by
  simp only [mismatchOf]
  split
  · rename_i hsame
    exact iff_of_true rfl hsame
  · rename_i hdiffer
    exact iff_of_false (Option.some_ne_none _) hdiffer

theorem mismatches_userId {m : Mismatch} (h : m ∈ cur.mismatches org user) :
    m.userId = user.id := by
  unfold Database.mismatches at h
  split at h
  · simp only [mismatchOf] at h
    split at h
    · cases h
    · obtain rfl := List.mem_singleton.mp h
      rfl
  · cases h

/-- A copy is reported where it does not hold what is expected of it. -/
theorem Enrolled.mismatches_iff (h : Enrolled db org user cur)
    (hroles : cur.rolesOf user.roleIds = db.rolesOf user.roleIds) :
    cur.mismatches org user = [] ↔ (isGlobalAdmin (db.rolesOf user.roleIds) = true →
      SamePermissions (db.permissionsOf user.roleIds ++ db.orgAdminGiven)
        (expectedPermissions (db.rolesOf user.roleIds))) := by
  obtain ⟨m, hm, -, hperms⟩ := h
  have hreport : cur.mismatches org user = [] ↔
      SamePermissions (cur.permissionsOf m.roleIds)
        (expectedPermissions (db.rolesOf user.roleIds)) := by
    unfold Database.mismatches
    rw [hm, hroles]
    exact Option.toList_eq_nil_iff.trans mismatchOf_none
  rw [hreport, samePermissions_iff, samePermissions_iff]
  have hown : ∀ p, p ∈ db.permissionsOf user.roleIds ↔
      p ∈ (db.rolesOf user.roleIds).flatMap (·.permissions) := fun p => Iff.rfl
  by_cases hadmin : isGlobalAdmin (db.rolesOf user.roleIds) = true
  · simp only [hperms, hadmin, true_and, forall_const, List.mem_append]
  · refine iff_of_true (fun p => ?_) fun hadmin' => absurd hadmin' hadmin
    rw [hperms, hown]
    simp [expectedPermissions, hadmin]

/-- Everybody is a member in the end. -/
theorem Migrating.member (h : Migrating db org db.users w) (huser : user ∈ db.users) :
    (w.cur.getMembership org.id user.id).isSome := by
  cases hm : db.getMembership org.id user.id with
  | some m => rw [h.kept user.id m hm, Option.isSome_some]
  | none =>
    obtain ⟨m, hm', -⟩ := h.enrolled user huser hm
    rw [hm', Option.isSome_some]

theorem orgAdminGiven_some {role : Role} (h : getRoleByName db "org_admin" none = some role) :
    db.orgAdminGiven = role.permissions := by
  unfold Database.orgAdminGiven
  rw [h]

/-- A role made by the run is the right one. -/
theorem expected_of_missing (h : getRoleByName db "org_admin" none = none)
    (hadmin : isGlobalAdmin (db.rolesOf user.roleIds) = true) :
    SamePermissions (db.permissionsOf user.roleIds ++ db.orgAdminGiven)
      (expectedPermissions (db.rolesOf user.roleIds)) := by
  unfold Database.orgAdminGiven expectedPermissions
  rw [h, if_pos hadmin]
  exact samePermissions_iff.mpr fun p => Iff.rfl

/-- **Idempotent and clean**: the run from `w` to `w₁` leaves `user_roles`, a second one writes
nothing, and one that verifies reports nobody the first has migrated. -/
structure RunsClean (w w₁ : World) : Prop where
  users : w₁.base.users = w.base.users
  again : (backfillMain false).Ends w₁ fun r w₂ => w₂.base = w₁.base ∧
    ∀ report, r = .ok report → w₂ = w₁
  verified : (backfillMain true).Ends w₁ fun r w₂ => w₂ = w₁ ∧
    ∀ report, r = .ok report → ∀ m ∈ report.mismatches, ¬ w.base.Migrated w₁.base m.userId

/-- A run that was rolled back is clean, and so is one that had nothing to go over. -/
theorem runsClean_of_same {w₁ : World} (hbase : w₁.base = w.base) (hclean₁ : w₁.cur = w₁.base)
    (hagain : (backfillMain false).Ends w₁ fun r w₂ => w₂.base = w₁.base ∧ ∃ x, r = .error x) :
    RunsClean w w₁ where
  users := by rw [hbase]
  again := by
    refine hagain.mono ?_
    rintro r w₂ ⟨hbase₂, x, rfl⟩
    exact ⟨hbase₂, fun report hok => by cases hok⟩
  verified := by
    have hnobody : ∀ userId, ¬ w.base.Migrated w₁.base userId := by
      rintro userId ⟨org, -, hnone, hsome⟩
      rw [hbase, hnone] at hsome
      cases hsome
    cases horg : w₁.cur.defaultOrganization with
    | none =>
      refine (backfillMain_none hclean₁ horg).mono ?_
      rintro r w₂ ⟨hsame, -⟩
      exact ⟨hsame, fun _ _ m _ => hnobody _⟩
    | some org =>
      refine (backfillMain_settled hclean₁ horg fun _ _ => .inl rfl).mono ?_
      rintro r w₂ ⟨hsame, -⟩
      exact ⟨hsame, fun _ _ m _ => hnobody _⟩

/-- What a second run and one that verifies end in. -/
theorem Migrating.settled (h : Migrating w.base org w.base.users w)
    (horg : w.base.defaultOrganization = some org) (verify : Bool) :
    (backfillMain verify).Ends { w with base := w.cur } fun r w₂ =>
      w₂ = { w with base := w.cur } ∧ ∃ report, r = .ok report ∧
        report.mismatches = w.base.users.flatMap (w.cur.mismatches org) := by
  have horg' : w.cur.defaultOrganization = some org := by
    unfold Database.defaultOrganization at horg ⊢
    rw [h.organizations, horg]
  have hmembers : ∀ user ∈ w.cur.users, verify = true ∨
      (w.cur.getMembership org.id user.id).isSome := by
    intro user huser
    rw [h.users] at huser
    exact .inr (h.member huser)
  rw [← h.users]
  exact backfillMain_settled (w := { w with base := w.cur }) rfl horg' hmembers

/-- **Where the role has the right permissions** nobody who was copied is reported. -/
theorem Migrating.runsClean {w₀ : World} (h : Migrating w.base org w.base.users w₀)
    (hkeyed : w.base.Keyed next) (horg : w.base.defaultOrganization = some org)
    (hright : ∀ role, getRoleByName w.base "org_admin" none = some role →
      ∀ user, w.base.Outside org user → isGlobalAdmin (w.base.rolesOf user.roleIds) = true →
        SamePermissions (w.base.permissionsOf user.roleIds ++ role.permissions)
          (expectedPermissions (w.base.rolesOf user.roleIds))) :
    RunsClean w { w₀ with base := w₀.cur } where
  users := h.users
  again := by
    have hsettled := (h.base ▸ h).settled (h.base ▸ horg) false
    refine hsettled.mono ?_
    rintro r w₂ ⟨rfl, -⟩
    exact ⟨rfl, fun _ _ => rfl⟩
  verified := by
    have hsettled := (h.base ▸ h).settled (h.base ▸ horg) true
    rw [h.base] at hsettled
    refine hsettled.mono ?_
    rintro r w₂ ⟨hsame, report, rfl, hreport⟩
    refine ⟨hsame, fun report' hok m hm => ?_⟩
    obtain rfl := Except.ok.inj hok
    rw [hreport] at hm
    obtain ⟨user, huser, hm⟩ := List.mem_flatMap.mp hm
    rintro ⟨org', horg', hnone, -⟩
    obtain rfl := Option.some.inj (horg'.symm.trans horg)
    rw [mismatches_userId hm] at hnone
    have hnothing : w₀.cur.mismatches org' user = [] := by
      refine ((h.enrolled user huser hnone).mismatches_iff
        (h.roles.rolesOf (hkeyed.held user huser))).mpr fun hadmin => ?_
      cases hrole : getRoleByName w.base "org_admin" none with
      | none => exact expected_of_missing hrole hadmin
      | some role =>
        rw [orgAdminGiven_some hrole]
        exact hright role hrole user ⟨huser, hnone⟩ hadmin
    rw [hnothing] at hm
    cases hm

/-- **When the back-fill is idempotent and clean**: from every state, exactly where the
condition holds of it. -/
theorem backfill_clean_iff (hclean : w.cur = w.base) (hkeyed : w.base.Keyed w.next) :
    (∀ r w₁, (backfillMain false).Exec w r w₁ → RunsClean w w₁) ↔ w.base.CopiesWell := by
  constructor
  · intro hall org horg
    by_cases hstuck : ∃ user, w.base.Outside org user ∧ w.base.Doubles user
    · exact .inl hstuck
    refine .inr fun role hrole user houtside hadmin => ?_
    obtain ⟨r, w₁, hexec⟩ := exec_total (backfillMain false) w
    obtain ⟨⟨u, hu, hnone, hdouble⟩, -⟩ | ⟨-, -, w₀, hmig, rfl⟩ :=
      backfillMain_ends hclean hkeyed horg r w₁ hexec
    · exact absurd ⟨u, ⟨hu, hnone⟩, hdouble⟩ hstuck
    obtain ⟨r₂, w₂, hexec₂⟩ := exec_total (backfillMain true) { w₀ with base := w₀.cur }
    obtain ⟨-, hclean₂⟩ := (hall r _ hexec).verified r₂ w₂ hexec₂
    have hsettled := (hmig.base ▸ hmig).settled (hmig.base ▸ horg) true r₂ w₂ hexec₂
    obtain ⟨-, report, rfl, hreport⟩ := hsettled
    rw [hmig.base] at hreport
    have henrolled := hmig.enrolled user houtside.1 houtside.2
    have hnothing : w₀.cur.mismatches org user = [] := by
      refine List.eq_nil_iff_forall_not_mem.mpr fun m hm => ?_
      refine hclean₂ report rfl m ?_ ⟨org, horg, ?_, ?_⟩
      · rw [hreport]
        exact List.mem_flatMap.mpr ⟨user, houtside.1, hm⟩
      · rw [mismatches_userId hm]
        exact houtside.2
      · rw [mismatches_userId hm]
        exact hmig.member houtside.1
    rw [← orgAdminGiven_some hrole]
    exact (henrolled.mismatches_iff
      (hmig.roles.rolesOf (hkeyed.held user houtside.1))).mp hnothing hadmin
  · intro hcopies r w₁ hexec
    cases horg : w.base.defaultOrganization with
    | none =>
      obtain ⟨rfl, -⟩ := backfillMain_none hclean (hclean ▸ horg) r w₁ hexec
      refine runsClean_of_same rfl hclean ((backfillMain_none hclean (hclean ▸ horg)).mono ?_)
      rintro r w₂ ⟨rfl, herror⟩
      exact ⟨rfl, herror⟩
    | some org =>
      obtain ⟨⟨u, hu, hstuck⟩, -, hbase, hcur⟩ | ⟨hfine, -, w₀, hmig, rfl⟩ :=
        backfillMain_ends hclean hkeyed horg r w₁ hexec
      · -- the second run breaks off where the first did
        have hclean₁ : w₁.cur = w₁.base := by rw [hbase, hcur]
        have hnext := hexec.mono.2.1
        have hkeyed₁ : w₁.base.Keyed w₁.next := by
          rw [hbase]
          exact
            { hkeyed with
              roleIds := fun role hrole => (hkeyed.roleIds role hrole).trans_le hnext
              membershipIds := fun m hm => (hkeyed.membershipIds m hm).trans_le hnext }
        refine runsClean_of_same hbase hclean₁
          ((backfillMain_ends hclean₁ hkeyed₁ (hbase ▸ horg)).mono ?_)
        rintro r w₂ (⟨-, herror, hbase₂, -⟩ | ⟨hfine₂, -⟩)
        · exact ⟨hbase₂, herror⟩
        · rw [hbase] at hfine₂
          exact absurd hstuck (hfine₂ u hu)
      · refine hmig.runsClean hkeyed horg ((hcopies org horg).resolve_left ?_)
        rintro ⟨u, ⟨hu, hnone⟩, hdouble⟩
        exact hfine u hu ⟨hnone, hdouble⟩

/-! ### A role that was edited -/

def defaultOrg : Organization := { id := 1, slug := "default", status := .active }

def adminUser : User := { id := 1, status := .active, roleIds := [1] }

/-- One global "admin", and the role "org_admin" if it is there. -/
def soleAdmin (orgAdmin : List Role) : World :=
  let db : Database := { Database.empty with
    users := [adminUser]
    roles := { id := 1, name := "admin", organizationId := none, permissions := ["manage_roles"] } ::
      orgAdmin
    organizations := [defaultOrg] }
  ⟨db, db, 0, 3, []⟩

/-- "org_admin" with one permission more, as an operator may give it. -/
def editedOrgAdmin : Role :=
  { id := 2
    name := "org_admin"
    organizationId := none
    permissions := orgAdminPermissions ++ ["dataset.read"] }

theorem soleAdmin_keyed (orgAdmin : List Role) (hids : orgAdmin.map (·.id) <+: [2]) :
    (soleAdmin orgAdmin).base.Keyed (soleAdmin orgAdmin).next := by
  have hnodup : ((soleAdmin orgAdmin).base.roles.map (·.id)).Nodup := by
    show (1 :: orgAdmin.map (·.id)).Nodup
    exact ((List.prefix_cons_inj 1).mpr hids).sublist.nodup (by decide)
  refine ⟨List.nodup_singleton _, hnodup, fun user huser id hid => ?_, fun role hrole => ?_,
    fun m hm => absurd hm List.not_mem_nil⟩
  · obtain rfl := List.mem_singleton.mp huser
    obtain rfl := List.mem_singleton.mp hid
    exact ⟨_, List.mem_cons_self .., rfl⟩
  · show role.id < 3
    rcases List.mem_cons.mp hrole with rfl | hrole
    · decide
    · have hid := hids.subset (List.mem_map_of_mem hrole)
      have htwo := List.mem_singleton.mp hid
      omega

/-- "org_admin" as it is first made. -/
def plainOrgAdmin : Role := { editedOrgAdmin with permissions := orgAdminPermissions }

theorem soleAdmin_copiesWell : (soleAdmin [plainOrgAdmin]).base.CopiesWell := by
  intro org _
  refine .inr fun role hrole user houtside _ => ?_
  have hrow : getRoleByName (soleAdmin [plainOrgAdmin]).base "org_admin" none =
      some plainOrgAdmin := by decide
  obtain rfl := Option.some.inj (hrow.symm.trans hrole)
  obtain rfl := List.mem_singleton.mp houtside.1
  decide

/-- With the role as it was made, the back-fill of an admin is clean. -/
theorem backfill_clean_plain : (soleAdmin [plainOrgAdmin]).base.Keyed 3 ∧
    ∀ r w₁, (backfillMain false).Exec (soleAdmin [plainOrgAdmin]) r w₁ →
      RunsClean (soleAdmin [plainOrgAdmin]) w₁ :=
  ⟨soleAdmin_keyed _ (by decide),
    (backfill_clean_iff rfl (soleAdmin_keyed _ (by decide))).mpr soleAdmin_copiesWell⟩

/-- The membership of the admin with these two roles. -/
def adminMembership : OrganizationMembership :=
  { id := 3, organizationId := 1, userId := 1, status := .active, roleIds := [1, 2] }

def soleAdminAfter (orgAdmin : Role) : World :=
  let db := { (soleAdmin [orgAdmin]).base with memberships := [adminMembership] }
  ⟨db, db, 0, 4, []⟩

theorem soleAdmin_run : (backfillMain false).run (soleAdmin [editedOrgAdmin]) =
    (.ok { totalUsers := 1, backfilled := 1 }, soleAdminAfter editedOrgAdmin) := by
  rfl

/-- The edited role shows in the membership. -/
theorem editedOrgAdmin_mismatches :
    (soleAdminAfter editedOrgAdmin).cur.mismatches defaultOrg adminUser ≠ [] := by
  have hmember : (soleAdminAfter editedOrgAdmin).cur.getMembership defaultOrg.id adminUser.id =
      some adminMembership := by rfl
  have hdiffer : ¬ SamePermissions ((soleAdminAfter editedOrgAdmin).cur.permissionsOf [1, 2])
      (expectedPermissions ((soleAdminAfter editedOrgAdmin).cur.rolesOf [1])) := by decide
  intro hnil
  unfold Database.mismatches at hnil
  rw [hmember] at hnil
  exact hdiffer (mismatchOf_none.mp (Option.toList_eq_nil_iff.mp hnil))

/-- **The copy that is reported**: the role was edited, and the admin that was copied with it
is a mismatch to the very next run that verifies. -/
theorem backfill_edited_mismatch : (soleAdmin [editedOrgAdmin]).base.Keyed 3 ∧
    ∃ report w₁, (backfillMain false).Exec (soleAdmin [editedOrgAdmin]) (.ok report) w₁ ∧
      ¬ RunsClean (soleAdmin [editedOrgAdmin]) w₁ := by
  have hexec := exec_run (backfillMain false) (soleAdmin [editedOrgAdmin])
  rw [soleAdmin_run] at hexec
  refine ⟨soleAdmin_keyed _ (by decide), _, _, hexec, fun hclean => ?_⟩
  obtain ⟨r, w₂, hverify⟩ := exec_total (backfillMain true) (soleAdminAfter editedOrgAdmin)
  have horg : (soleAdminAfter editedOrgAdmin).cur.defaultOrganization = some defaultOrg := by rfl
  obtain ⟨-, report, rfl, hreport⟩ :=
    backfillMain_settled rfl horg (fun _ _ => .inl rfl) r w₂ hverify
  obtain ⟨m, hm⟩ := List.exists_mem_of_ne_nil _ editedOrgAdmin_mismatches
  refine (hclean.verified _ w₂ hverify).2 report rfl m ?_ ⟨defaultOrg, rfl, ?_, ?_⟩
  · rw [hreport]
    exact List.mem_flatMap.mpr ⟨adminUser, List.mem_cons_self .., hm⟩
  · rfl
  · rw [mismatches_userId hm]
    rfl

end OmniAuth
