import OmniAuth.Role.Service
import OmniAuth.Session.Outcome
import OmniAuth.Txn.Triple

/-!
# The names of roles

An organization sees the platform-wide roles and its own. A role it makes is checked against
both; a platform-wide role is checked against the platform-wide ones alone, and so is one
that `get_or_create_role` makes on the way. Names stay unambiguous as long as no platform-wide
role takes a name that some organization has used.
-/

namespace OmniAuth

open Txn Prog

/-- The rows `get_role_in_scope` picks the first of. -/
def Database.rolesInScope (db : Database) (name : String) (organizationId : ℕ) : List Role :=
  db.roles.filter fun r =>
    r.name = name ∧ (r.organizationId = none ∨ r.organizationId = some organizationId)

/-- **Names are unambiguous**: no organization sees two roles of one name. -/
def Database.RolesUnambiguous (db : Database) : Prop :=
  ∀ name organizationId, (db.rolesInScope name organizationId).length ≤ 1

/-- What `_check_name_available` lets through. -/
def Database.NameAvailable (db : Database) (name : String) (organizationId : Option ℕ) : Prop :=
  ∀ r ∈ db.roles, r.name = name → r.organizationId ≠ none ∧ r.organizationId ≠ organizationId

variable {A : AppEnv} {w : World} {roles : List Role}

theorem getRoleByName_none {db : Database} {name : String} {organizationId : Option ℕ}
    (h : getRoleByName db name organizationId = none) {r : Role} (hr : r ∈ db.roles)
    (hname : r.name = name) : r.organizationId ≠ organizationId := by
  have hnone := List.find?_eq_none.mp h r hr
  intro horg
  exact hnone (decide_eq_true ⟨hname, horg⟩)

theorem getRoleByName_some {db : Database} {name : String} {organizationId : Option ℕ} {r : Role}
    (h : getRoleByName db name organizationId = some r) :
    r ∈ db.roles ∧ r.name = name ∧ r.organizationId = organizationId := by
  have hfound := List.find?_some h
  simp only [decide_eq_true_eq] at hfound
  exact ⟨List.mem_of_find?_eq_some h, hfound⟩

theorem mem_rolesOf {db : Database} {ids : List ℕ} {role : Role} :
    role ∈ db.rolesOf ids ↔ role ∈ db.roles ∧ role.id ∈ ids := by
  rw [Database.rolesOf, List.mem_filter, decide_eq_true_eq]

theorem mem_permissionsOf {db : Database} {ids : List ℕ} {p : String} :
    p ∈ db.permissionsOf ids ↔ ∃ r ∈ db.roles, r.id ∈ ids ∧ p ∈ r.permissions := by
  rw [Database.permissionsOf, List.mem_flatMap]
  constructor
  · rintro ⟨r, hr, hp⟩
    obtain ⟨hr, hid⟩ := mem_rolesOf.mp hr
    exact ⟨r, hr, hid, hp⟩
  · rintro ⟨r, hr, hid, hp⟩
    exact ⟨r, mem_rolesOf.mpr ⟨hr, hid⟩, hp⟩

/-! ## The operations -/

/-- Committed and seen, these are the roles. -/
def RolesAre (roles : List Role) (w : World) : Prop := w.cur.roles = roles ∧ w.base.roles = roles

theorem checkNameAvailable_ends (name : String) (organizationId : Option ℕ) :
    (checkNameAvailable A name organizationId).Ends w fun r w' =>
      w' = w ∧ (r = .ok () → w.cur.NameAvailable name organizationId) := by
  simp only [checkNameAvailable, bind_eq, ends_query_bind]
  split
  · simp
  rename_i hplatform
  split
  · refine ends_ret.mpr ⟨rfl, fun _ r hr hname => ?_⟩
    exact ⟨getRoleByName_none hplatform hr hname, getRoleByName_none hplatform hr hname⟩
  simp only [ends_query_bind]
  split
  · simp
  rename_i horg
  refine ends_ret.mpr ⟨rfl, fun _ r hr hname => ?_⟩
  exact ⟨getRoleByName_none hplatform hr hname, getRoleByName_none horg hr hname⟩

theorem validatePermissionNames_ends (names : List String) :
    (validatePermissionNames A names).Ends w fun r w' =>
      w' = w ∧ (r = .ok () → ∀ name ∈ names, isKnownPermission name = true) := by
  unfold validatePermissionNames
  split
  · simp
  · rename_i hfind
    refine ends_ret.mpr ⟨rfl, fun _ name hname => ?_⟩
    have hknown := List.find?_eq_none.mp hfind name hname
    simpa using hknown

theorem logEvent_roles {event : AuditEvent} {commit : Bool} (h : RolesAre roles w) :
    (logEvent event commit).Ends w fun r w' => r = .ok () ∧ RolesAre roles w' := by
  intro r w' hexec
  obtain ⟨rfl, t, e, rfl⟩ := logEvent_exec hexec
  refine ⟨rfl, h.1, ?_⟩
  dsimp only
  split
  · exact h.1
  · exact h.2

/-- What a role of this scope may hold. -/
def PermissionsAllowed (organizationId : Option ℕ) (names : List String) : Prop :=
  organizationId ≠ none → ∀ name ∈ names, permissionScope name ≠ some .global

theorem offendingPermissions_nil {names : List String} (h : offendingPermissions names = []) :
    ∀ name ∈ names, permissionScope name ≠ some .global := by
  intro name hname hglobal
  have hmem : name ∈ offendingPermissions names :=
    mem_sortedSet.mpr (List.mem_filter.mpr ⟨hname, decide_eq_true hglobal⟩)
  rw [h] at hmem
  cases hmem

theorem validateRolePermissions_ends {names : List String} {organizationId actorUserId : Option ℕ}
    {roleName : String} {roleId : Option ℕ} (h : RolesAre roles w) :
    (validateRolePermissions A names organizationId actorUserId roleName roleId).Ends w fun r w' =>
      RolesAre roles w' ∧ (r = .ok () → PermissionsAllowed organizationId names ∧
        ∀ name ∈ names, isKnownPermission name = true) := by
  unfold validateRolePermissions
  split
  swap
  · refine (validatePermissionNames_ends names).mono ?_
    rintro r w' ⟨rfl, hknown⟩
    exact ⟨h, fun hok => ⟨fun hne => absurd rfl hne, hknown hok⟩⟩
  refine Ends.bind (M := fun _ w' => w' = w ∧ ∀ name ∈ names, isKnownPermission name = true)
    ((validatePermissionNames_ends names).mono ?_) ?_
  · rintro (x | ⟨⟩) w' ⟨rfl, hknown⟩
    · exact ⟨h, fun hok => by cases hok⟩
    · exact ⟨rfl, hknown rfl⟩
  rintro ⟨⟩ w₀ ⟨rfl, hknown⟩
  split
  · rename_i hoffending
    exact ends_ret.mpr ⟨h, fun _ => ⟨fun _ => offendingPermissions_nil hoffending, hknown⟩⟩
  · refine Ends.bind (M := fun _ w' => RolesAre roles w') ((logEvent_roles h).mono ?_) ?_
    · rintro (x | ⟨⟩) w' ⟨hok, hroles⟩
      · cases hok
      · exact hroles
    · rintro ⟨⟩ w' hroles
      exact ends_raise.mpr ⟨hroles, fun hok => by cases hok⟩

/-- What `update_role_permissions` makes of a row. -/
def Role.edit (roleId : ℕ) (permissions : List String) (description : Option String) (r : Role) :
    Role :=
  if r.id = roleId then
    { r with
      permissions := permissions
      description := description.orElse fun _ => r.description }
  else r

@[simp] theorem Role.edit_id (roleId : ℕ) (permissions : List String) (description : Option String)
    (r : Role) : (r.edit roleId permissions description).id = r.id := by
  unfold Role.edit
  split <;> rfl

@[simp] theorem Role.edit_name (roleId : ℕ) (permissions : List String)
    (description : Option String) (r : Role) :
    (r.edit roleId permissions description).name = r.name := by
  unfold Role.edit
  split <;> rfl

@[simp] theorem Role.edit_organizationId (roleId : ℕ) (permissions : List String)
    (description : Option String) (r : Role) :
    (r.edit roleId permissions description).organizationId = r.organizationId := by
  unfold Role.edit
  split <;> rfl

/-- What an operation does to the committed roles; where `clear` holds, no platform-wide role
takes the name of an organization's. -/
inductive RolesStep (clear : Prop) (db : Database) : List Role → Prop
  | same : RolesStep clear db db.roles
  | created (role : Role) (havailable : db.NameAvailable role.name role.organizationId)
      (hallowed : PermissionsAllowed role.organizationId role.permissions)
      (hid : ∀ r ∈ db.roles, r.id ≠ role.id)
      (hclear : clear → role.organizationId = none → ∀ r ∈ db.roles, r.name = role.name →
        r.organizationId = none) : RolesStep clear db (db.roles ++ [role])
  | edited (role : Role) (hrole : role ∈ db.roles) (permissions : List String)
      (description : Option String)
      (hallowed : PermissionsAllowed role.organizationId permissions) :
      RolesStep clear db (db.roles.map (Role.edit role.id permissions description))
  | deleted (id : ℕ) : RolesStep clear db (db.roles.filter (·.id ≠ id))

/-- An insert, with what surrounds it. -/
theorem insertRole_ends {role : Role} {α : Type} {k : Op α}
    {post : Except Err α → World → Prop}
    (hk : ∀ w' : World, w'.cur.roles = w.cur.roles ++ [role] → w'.base = w.base →
      (∀ r ∈ w.cur.roles, r.id ≠ role.id) → k.Ends w' post) (hx : post (.error .integrity) w) :
    (Prog.bind (execute (.org (.insertRole role)) : Op Unit) fun _ => k).Ends w post := by
  rw [execute, ends_returning_bind]
  constructor
  · intro eff heff
    simp only [denote, OrgStmt.denote] at heff
    split at heff
    · cases heff
    · rename_i hfree
      cases heff
      exact hk _ rfl rfl fun r hr hid => hfree ⟨r, hr, hid⟩
  · intro x hden
    simp only [denote, OrgStmt.denote] at hden
    split at hden
    · cases hden
      exact hx
    · cases hden

/-- A role that was made. -/
structure RoleMade (db : Database) (name : String) (organizationId : Option ℕ) (role : Role)
    (roles : List Role) : Prop where
  name_eq : role.name = name
  organization : role.organizationId = organizationId
  appended : roles = db.roles ++ [role]
  newId : ∀ r ∈ db.roles, r.id ≠ role.id
  available : db.NameAvailable name organizationId
  allowed : PermissionsAllowed organizationId role.permissions

theorem createRole_ends (h : w.cur = w.base) (name : String) (permissionNames : List String)
    (description : Option String) (actorUserId organizationId : Option ℕ) :
    (createRole A name permissionNames description actorUserId organizationId).Ends w fun r w' =>
      match r with
      | .error _ => w'.base.roles = w.base.roles
      | .ok role => RoleMade w.base name organizationId role w'.base.roles ∧
          ∀ p ∈ permissionNames, isKnownPermission p = true := by
  refine Ends.bind (M := fun _ w' => w' = w ∧ w.cur.NameAvailable name organizationId)
    ((checkNameAvailable_ends name organizationId).mono ?_) ?_
  · rintro (x | ⟨⟩) w' ⟨rfl, havailable⟩
    · rfl
    · exact ⟨rfl, havailable rfl⟩
  rintro ⟨⟩ w₀ ⟨rfl, havailable⟩
  have hroles : RolesAre w₀.base.roles w₀ := ⟨by rw [h], rfl⟩
  refine Ends.bind (M := fun _ w' => RolesAre w₀.base.roles w' ∧
      PermissionsAllowed organizationId permissionNames ∧
      ∀ p ∈ permissionNames, isKnownPermission p = true)
    ((validateRolePermissions_ends hroles).mono ?_) ?_
  · rintro (x | ⟨⟩) w' ⟨hroles, hknown⟩
    · exact hroles.2
    · exact ⟨hroles, hknown rfl⟩
  rintro ⟨⟩ w₁ ⟨hroles₁, hallowed, hknown⟩
  simp only [bind_eq, ends_draw_bind]
  refine insertRole_ends ?_ hroles₁.2
  intro w₂ hcur₂ hbase₂ hnew
  refine Ends.bind (M := fun _ (w' : World) => w'.cur.roles = w₂.cur.roles) ?_ ?_
  · intro r w' hexec
    obtain ⟨rfl, t, e, rfl⟩ := logEvent_exec hexec
    rfl
  rintro ⟨⟩ w₃ hcur₃
  simp only [ends_commitNow_bind]
  refine ends_ret.mpr ⟨⟨rfl, rfl, ?_, ?_, ?_, ?_⟩, hknown⟩
  · rw [hcur₃, hcur₂, ← hroles₁.1]
  · rw [← hroles₁.1]
    exact hnew
  · rw [← h]
    exact havailable
  · intro hne p hp
    exact hallowed hne p (List.mem_dedup.mp hp)

theorem getOrCreateRole_ends (h : w.cur = w.base) (name : String) (permissionNames : List String) :
    (getOrCreateRole name permissionNames).Ends w fun r w' => w'.base = w.base ∧
      ∀ role, r = .ok role → role.organizationId = none ∧
        (role ∈ w.base.roles ∧ role.name = name ∧ w'.cur.roles = w.base.roles ∨
          RoleMade w.base name none role w'.cur.roles) := by
  simp only [getOrCreateRole, bind_eq, ends_query_bind]
  split
  · rename_i role hfound
    rw [h] at hfound
    obtain ⟨hmem, hname, horg⟩ := getRoleByName_some hfound
    refine ends_ret.mpr ⟨rfl, fun role' hok => ?_⟩
    cases hok
    exact ⟨horg, .inl ⟨hmem, hname, by rw [h]⟩⟩
  rename_i hnone
  rw [h] at hnone
  simp only [ends_draw_bind]
  refine insertRole_ends ?_ ?_
  · intro w' hcur hbase hnew
    refine ends_ret.mpr ⟨hbase, fun role hok => ?_⟩
    cases hok
    refine ⟨rfl, .inr ⟨rfl, rfl, by rw [hcur, ← h], by rw [← h]; exact hnew, ?_, ?_⟩⟩
    · intro r hr hname
      rw [and_self]
      exact getRoleByName_none hnone hr hname
    · intro hne
      exact absurd rfl hne
  · exact ⟨rfl, fun _ hok => by cases hok⟩

/-! ## Requests -/

/-- The operations on roles, each with what its caller does about the transaction. -/
inductive RoleCall
  | create (name : String) (permissionNames : List String) (description : Option String)
      (actorUserId organizationId : Option ℕ)
  | getOrCreate (name : String) (permissionNames : List String)
  | update (roleId : ℕ) (permissionNames : List String) (description : Option String)
      (actorUserId : Option ℕ)
  | delete (roleId : ℕ)

def RoleCall.op (A : AppEnv) : RoleCall → Op Unit
  | create name permissionNames description actorUserId organizationId => do
      let _ ← createRole A name permissionNames description actorUserId organizationId
      return ()
  | getOrCreate name permissionNames => do
      let _ ← getOrCreateRole name permissionNames
      commitNow
  | update roleId permissionNames description actorUserId => do
      let role ← query (·.getRole roleId)
      match role with
      | none => raise (.http 404 "Role not found")
      | some role => updateRolePermissions A role permissionNames description actorUserId
  | delete roleId => deleteRole roleId

theorem updateRolePermissions_ends (h : w.cur = w.base) {role : Role} (hrole : role ∈ w.base.roles)
    (permissionNames : List String) (description : Option String) (actorUserId : Option ℕ)
    {clear : Prop} :
    (updateRolePermissions A role permissionNames description actorUserId).Ends w fun _ w' =>
      RolesStep clear w.base w'.base.roles := by
  have hroles : RolesAre w.base.roles w := ⟨by rw [h], rfl⟩
  refine Ends.bind (M := fun _ w' => RolesAre w.base.roles w' ∧
      PermissionsAllowed role.organizationId permissionNames)
    ((validateRolePermissions_ends hroles).mono ?_) ?_
  · rintro (x | ⟨⟩) w' ⟨hroles, hknown⟩
    · rw [hroles.2]
      exact .same
    · exact ⟨hroles, (hknown rfl).1⟩
  rintro ⟨⟩ w₁ ⟨hroles₁, hallowed⟩
  rw [bind_eq, execute, ends_returning_bind]
  refine ⟨?_, fun x hden => by cases hden⟩
  intro eff heff
  cases heff
  refine Ends.bind (M := fun _ (w' : World) => w'.cur.roles =
      w₁.cur.roles.map (Role.edit role.id permissionNames.dedup description)) ?_ ?_
  · unfold logIfSome
    split
    · intro r w' hexec
      obtain ⟨rfl, t, e, rfl⟩ := logEvent_exec hexec
      rfl
    · exact ends_ret.mpr rfl
  rintro ⟨⟩ w₂ hcur
  refine ends_commitNow.mpr ?_
  change RolesStep clear w.base w₂.cur.roles
  rw [hcur, hroles₁.1]
  exact .edited role hrole _ _ fun hne p hp => hallowed hne p (List.mem_dedup.mp hp)

/-- **The condition on a request**: no platform-wide role is made under a name that some
organization has given to a role of its own. -/
def RoleCall.Clear (db : Database) : RoleCall → Prop
  | create name permissionNames _ _ none => (∀ p ∈ permissionNames, isKnownPermission p = true) →
      ∀ r ∈ db.roles, r.name = name → r.organizationId = none
  | getOrCreate name _ => ∀ r ∈ db.roles, r.name = name → r.organizationId = none
  | _ => True

/-- **One request takes one step.** -/
theorem RoleCall.step (h : w.cur = w.base) (call : RoleCall) :
    (call.op A).Ends w fun _ w' => RolesStep (call.Clear w.base) w.base w'.base.roles := by
  cases call with
  | create name permissionNames description actorUserId organizationId =>
    refine Ends.bind (M := fun _ (w' : World) => RolesStep _ w.base w'.base.roles)
      ((createRole_ends h _ _ _ _ _).mono ?_) fun role w' hstep => ends_ret.mpr hstep
    rintro (x | role) w' hend
    · exact hend ▸ .same
    · obtain ⟨⟨rfl, rfl, hadded, hnew, havailable, hallowed⟩, hknown⟩ := hend
      refine hadded ▸ .created role havailable hallowed hnew fun hclear horg => ?_
      unfold RoleCall.Clear at hclear
      rw [horg] at hclear
      exact hclear hknown
  | getOrCreate name permissionNames =>
    refine Ends.bind (M := fun _ (w' : World) => RolesStep _ w.base w'.cur.roles)
      ((getOrCreateRole_ends h _ _).mono ?_) fun role w' hstep => ends_commitNow.mpr hstep
    rintro (x | role) w' ⟨hbase, hend⟩
    · rw [hbase]
      exact .same
    · obtain ⟨horg, ⟨-, -, hsame⟩ | ⟨rfl, -, hadded, hnew, havailable, hallowed⟩⟩ := hend role rfl
      · exact hsame ▸ .same
      · exact hadded ▸ .created role (horg ▸ havailable) (horg ▸ hallowed) hnew
          fun hclear _ => hclear
  | update roleId permissionNames description actorUserId =>
    simp only [RoleCall.op, bind_eq, ends_query_bind]
    split
    · exact ends_raise.mpr .same
    · rename_i role hfound
      rw [h] at hfound
      exact updateRolePermissions_ends h (List.mem_of_find?_eq_some hfound) _ _ _
  | delete roleId =>
    refine ends_returning_bind.mpr ⟨?_, fun x hden => by cases hden⟩
    intro eff heff
    cases heff
    refine ends_commitNow.mpr ?_
    change RolesStep _ w.base (w.cur.roles.filter (·.id ≠ roleId))
    rw [h]
    exact .deleted roleId

/-! ## Unambiguous names -/

theorem rolesInScope_append (db : Database) (role : Role) (name : String) (organizationId : ℕ) :
    ({ db with roles := db.roles ++ [role] } : Database).rolesInScope name organizationId =
      db.rolesInScope name organizationId ++ if role.name = name ∧ (role.organizationId = none ∨
        role.organizationId = some organizationId) then [role] else [] := by
  unfold Database.rolesInScope
  rw [List.filter_append]
  congr 1
  split <;> simp [*]

/-- **A step keeps the names unambiguous.** -/
theorem RolesStep.unambiguous {clear : Prop} {db db' : Database}
    (h : RolesStep clear db db'.roles) (hc : clear) (hdb : db.RolesUnambiguous) : db'.RolesUnambiguous := by
  intro name organizationId
  have hscope : ∀ roles, roles = db'.roles → (roles.filter fun r : Role => r.name = name ∧
      (r.organizationId = none ∨ r.organizationId = some organizationId)) =
      db'.rolesInScope name organizationId := by
    rintro roles rfl
    rfl
  generalize hroles : db'.roles = roles at h
  rw [← hscope roles hroles.symm]
  cases h with
  | same => exact hdb name organizationId
  | created role havailable _ _ hclear =>
    change (({ db with roles := db.roles ++ [role] } : Database).rolesInScope name
      organizationId).length ≤ 1
    rw [rolesInScope_append]
    split
    swap
    · rw [List.append_nil]
      exact hdb name organizationId
    -- nobody who sees the new role has seen one of its name
    rename_i hseen
    obtain ⟨rfl, horg⟩ := hseen
    have hnone : db.rolesInScope role.name organizationId = [] := by
      refine List.filter_eq_nil_iff.mpr fun r hr hin => ?_
      obtain ⟨hname, hvisible⟩ := of_decide_eq_true hin
      obtain ⟨hplatform, hown⟩ := havailable r hr hname
      rcases horg with horg | horg
      · exact hplatform (hclear hc horg r hr hname)
      · rcases hvisible with hvisible | hvisible
        · exact hplatform hvisible
        · exact hown (hvisible.trans horg.symm)
    rw [hnone]
    exact le_refl 1
  | edited role _ permissions description _ =>
    rw [List.filter_map, List.length_map]
    simpa [Function.comp_def, Database.rolesInScope] using hdb name organizationId
  | deleted id =>
    refine le_trans (List.Sublist.length_le ?_) (hdb name organizationId)
    exact List.filter_sublist.filter _

/-- A role under a name that an organization has used is one too many for it. -/
theorem ambiguous_of_platform {db db' : Database} {role r : Role} (hr : r ∈ db.roles)
    {organizationId : ℕ} (horg : r.organizationId = some organizationId) (hname : r.name = role.name)
    (hplatform : role.organizationId = none) (hroles : db'.roles = db.roles ++ [role]) :
    ¬ db'.RolesUnambiguous := by
  intro hone
  have hlen := hone role.name organizationId
  unfold Database.rolesInScope at hlen
  rw [hroles, List.filter_append, List.length_append] at hlen
  have hnew : ([role].filter fun r : Role => r.name = role.name ∧ (r.organizationId = none ∨
      r.organizationId = some organizationId)).length = 1 := by simp [hplatform]
  have hold : 0 < (db.roles.filter fun r : Role => r.name = role.name ∧ (r.organizationId = none ∨
      r.organizationId = some organizationId)).length := by
    refine List.length_pos_of_mem (List.mem_filter.mpr ⟨hr, decide_eq_true ⟨hname, .inr horg⟩⟩)
  omega

/-! ## Runs -/

/-- Operations on roles one after another, each in a session of its own and meeting `ok`;
between two of them anything may happen to the other tables. -/
inductive RoleRun (A : AppEnv) (ok : Database → RoleCall → Prop) (db : Database) : Database → Prop
  | refl : RoleRun A ok db db
  | call {w w' : World} (call : RoleCall) (r : Except Err Unit) (hrun : RoleRun A ok db w.base)
      (hidle : w.cur = w.base) (hok : ok w.base call) (hexec : (call.op A).Exec w r w') :
      RoleRun A ok db w'.base
  | aside {db₁ db₂ : Database} (hrun : RoleRun A ok db db₁) (hroles : db₂.roles = db₁.roles) :
      RoleRun A ok db db₂

theorem RoleRun.unambiguous {db db' : Database}
    (h : RoleRun A (fun db call => call.Clear db) db db') (hdb : db.RolesUnambiguous) :
    db'.RolesUnambiguous := by
  induction h with
  | refl => exact hdb
  | call call r _ hidle hok hexec ih =>
    exact ((RoleCall.step hidle call) r _ hexec).unambiguous hok ih
  | aside _ hroles ih =>
    unfold Database.RolesUnambiguous Database.rolesInScope
    rw [hroles]
    exact ih

/-- A request that goes through and does not meet the condition. -/
theorem RoleCall.ambiguous {w' : World} (h : w.cur = w.base) {call : RoleCall}
    (hnot : ¬ call.Clear w.base) (hdb : w.base.RolesUnambiguous)
    (hexec : (call.op A).Exec w (.ok ()) w') : ¬ w'.base.RolesUnambiguous := by
  -- an organization's role of the name there was
  have hown : ∀ {name : String}, (¬ ∀ r ∈ w.base.roles, r.name = name → r.organizationId = none) →
      ∃ r ∈ w.base.roles, r.name = name ∧ ∃ organizationId,
        r.organizationId = some organizationId := by
    intro name hnot
    push Not at hnot
    obtain ⟨r, hr, hname, horg⟩ := hnot
    exact ⟨r, hr, hname, Option.ne_none_iff_exists'.mp horg⟩
  cases call with
  | create name permissionNames description actorUserId organizationId =>
    cases organizationId with
    | some organizationId => exact absurd trivial hnot
    | none =>
      unfold RoleCall.Clear at hnot
      obtain ⟨-, hnot⟩ := Classical.not_imp.mp hnot
      obtain ⟨r, hr, hname, organizationId, horg⟩ := hown hnot
      rcases exec_bind.mp hexec with ⟨role, w₁, hcreate, hret⟩ | ⟨x, -, hx⟩
      swap
      · cases hx
      obtain ⟨-, rfl⟩ := hret
      obtain ⟨hmade, -⟩ :=
        createRole_ends h name permissionNames description actorUserId none _ _ hcreate
      exact ambiguous_of_platform hr horg (hname.trans hmade.name_eq.symm) hmade.organization
        hmade.appended
  | getOrCreate name permissionNames =>
    obtain ⟨r, hr, hname, organizationId, horg⟩ := hown hnot
    rcases exec_bind.mp hexec with ⟨role, w₁, hget, hcommit⟩ | ⟨x, -, hx⟩
    swap
    · cases hx
    obtain ⟨-, rfl⟩ := exec_commitNow.mp hcommit
    obtain ⟨-, hend⟩ := getOrCreateRole_ends h name permissionNames _ _ hget
    obtain ⟨hplatform, ⟨hmem, hrole, -⟩ | hmade⟩ := hend role rfl
    · -- two of them were there before
      have hlen := hdb name organizationId
      have hin : ∀ r' ∈ w.base.roles, r'.name = name → (r'.organizationId = none ∨
          r'.organizationId = some organizationId) → r' ∈ w.base.rolesInScope name organizationId :=
        fun r' hr' hname' hvisible =>
          List.mem_filter.mpr ⟨hr', decide_eq_true ⟨hname', hvisible⟩⟩
      have hsame : r = role := by
        match hscope : w.base.rolesInScope name organizationId, hlen with
        | [], _ => exact absurd (hin r hr hname (.inr horg)) (by simp [hscope])
        | [only], _ =>
          have hr' := hin r hr hname (.inr horg)
          have hrole' := hin role hmem hrole (.inl hplatform)
          rw [hscope, List.mem_singleton] at hr' hrole'
          exact hr'.trans hrole'.symm
      rw [hsame, hplatform] at horg
      cases horg
    · exact ambiguous_of_platform hr horg (hname.trans hmade.name_eq.symm) hplatform hmade.appended
  | update roleId permissionNames description actorUserId => exact absurd trivial hnot
  | delete roleId => exact absurd trivial hnot

/-- **Names stay unambiguous** through every run whose requests meet the condition, so a
lookup in the scope of an organization has at most one candidate; a request that does not
meet it and goes through makes them ambiguous. -/
theorem role_names_unambiguous (A : AppEnv) :
    (∀ db db' : Database, db.RolesUnambiguous → RoleRun A (fun db call => call.Clear db) db db' →
      db'.RolesUnambiguous) ∧
    ∀ (w w' : World) (call : RoleCall), w.cur = w.base → w.base.RolesUnambiguous →
      ¬ call.Clear w.base → (call.op A).Exec w (.ok ()) w' → ¬ w'.base.RolesUnambiguous :=
  ⟨fun _ _ hdb hrun => hrun.unambiguous hdb,
    fun _ _ _ hidle hdb hnot hexec => RoleCall.ambiguous hidle hnot hdb hexec⟩

/-- Organization 1 makes a role of its own called scientist. -/
def tenantScientist : RoleCall := .create "scientist" ["runs.read"] none (some 7) (some 1)

/-- The first licence of a developer makes the platform's. -/
def platformScientist : RoleCall := .getOrCreate "scientist" ["runs.read"]

def World.ofDatabase (db : Database) : World := ⟨db, db, 0, 1, []⟩

theorem empty_unambiguous : Database.empty.RolesUnambiguous := by
  intro name organizationId
  exact Nat.zero_le 1

/-- **A name is taken by an organization first and by the platform later.** -/
theorem role_names_ambiguous : ∃ db', RoleRun AppEnv.symbolic (fun _ _ => True) Database.empty db' ∧
    ¬ db'.RolesUnambiguous := by
  let w₁ := ((tenantScientist.op AppEnv.symbolic).run (World.ofDatabase .empty)).2
  let w₂ := ((platformScientist.op AppEnv.symbolic).run w₁).2
  refine ⟨w₂.base, .call (w := w₁) platformScientist _ ?_ rfl trivial (exec_run _ _), ?_⟩
  · exact .call (w := World.ofDatabase .empty) tenantScientist _ .refl rfl trivial (exec_run _ _)
  · intro hone
    have hlen := hone "scientist" 1
    have htwo : (w₂.base.rolesInScope "scientist" 1).length = 2 := by rfl
    omega

/-- The role of the organization alone is no harm. -/
theorem role_names_after_tenant :
    (((tenantScientist.op AppEnv.symbolic).run (World.ofDatabase .empty)).2.base).RolesUnambiguous :=
  (role_names_unambiguous AppEnv.symbolic).1 _ _ empty_unambiguous
    (.call (w := World.ofDatabase .empty) tenantScientist _ .refl rfl trivial (exec_run _ _))

end OmniAuth
