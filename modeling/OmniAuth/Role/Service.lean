import OmniAuth.License.Manual

/-!
# Roles

`role_service`: roles that are platform-wide and roles that an organization owns, made,
edited and deleted. A permission is its name; a row of `permissions` is made on first use.
-/

namespace OmniAuth

open Txn Prog

/-! ## Checks -/

/-- `_check_name_available`, of a role that is not there yet. -/
def checkNameAvailable (A : AppEnv) (name : String) (organizationId : Option ℕ) : Op Unit := do
  let platformClash ← query (getRoleByName · name none)
  match platformClash with
  | some _ =>
      raise (.value s!"Role name {A.pyRepr name} is already taken by a platform-wide role")
  | none =>
      match organizationId with
      | none => return ()
      | some organizationId => do
          let orgClash ← query (getRoleByName · name (some organizationId))
          match orgClash with
          | some _ =>
              raise (.value
                s!"Role name {A.pyRepr name} is already taken by another role in this organization")
          | none => return ()

def unknownPermission (A : AppEnv) (name : String) : String :=
  match A.closeMatches name with
  | [] => "Unknown permission: " ++ name
  | suggestions =>
      "Unknown permission: " ++ name ++ ". Did you mean: " ++ ", ".intercalate suggestions ++ "?"

/-- `_validate_permission_names` -/
def validatePermissionNames (A : AppEnv) (names : List String) : Op Unit :=
  match names.find? (! isKnownPermission ·) with
  | some name => raise (.value (unknownPermission A name))
  | none => return ()

/-- `GLOBAL_SCOPE_PERMISSIONS & set(names)`, sorted. -/
def offendingPermissions (names : List String) : List String :=
  sortedSet (names.filter fun name => permissionScope name = some .global)

/-- `_validate_org_scoped_permission_names` -/
def validateOrgScopedPermissionNames (A : AppEnv) (names : List String) (organizationId : ℕ)
    (actorUserId : Option ℕ) (roleName : String) (roleId : Option ℕ) : Op Unit := do
  validatePermissionNames A names
  match offendingPermissions names with
  | [] => return ()
  | offending => do
      logEvent
        { eventType := .roleAssignmentDenied
          actorUserId := actorUserId
          organizationId := some organizationId
          resourceType := some "role"
          resourceId := roleId
          metadata :=
            [("reason", "org_scoped_role_with_global_permission"), ("role", roleName),
              ("offending_permissions", ", ".intercalate offending)] }
        true
      raise (.value ("Organization-scoped roles cannot hold platform-wide permissions: " ++
        ", ".intercalate offending))

/-- The check of the permissions of a role, by the scope of the role. -/
def validateRolePermissions (A : AppEnv) (names : List String) (organizationId : Option ℕ)
    (actorUserId : Option ℕ) (roleName : String) (roleId : Option ℕ) : Op Unit :=
  match organizationId with
  | some organizationId =>
      validateOrgScopedPermissionNames A names organizationId actorUserId roleName roleId
  | none => validatePermissionNames A names

/-! ## The operations -/

def createRole (A : AppEnv) (name : String) (permissionNames : List String)
    (description : Option String) (actorUserId organizationId : Option ℕ) : Op Role := do
  checkNameAvailable A name organizationId
  validateRolePermissions A permissionNames organizationId actorUserId name none
  let id ← draw
  let role : Role :=
    { id := id
      name := name
      organizationId := organizationId
      permissions := permissionNames.dedup
      description := description }
  execute (.org (.insertRole role))
  logEvent
    { eventType := .roleCreated
      actorUserId := actorUserId
      organizationId := organizationId
      resourceType := some "role"
      resourceId := some role.id
      afterState :=
        [("name", role.name), ("description", role.description.getD "null"),
          ("permissions", ", ".intercalate (permissionNames.insertionSort (· ≤ ·)))] }
    false
  commitNow
  return role

/-- The audit row of a change to the permissions of a role, if there is one. -/
def permissionsEvent (role : Role) (after : List String) (actorUserId : Option ℕ) :
    Option AuditEvent :=
  let before := role.permissions.insertionSort (· ≤ ·)
  let added := sortedSet (after.filter (· ∉ before))
  let removed := sortedSet (before.filter (· ∉ after))
  if added = [] ∧ removed = [] then none
  else
    some
      { eventType := if added = [] then .permissionRevoked else .permissionGranted
        actorUserId := actorUserId
        organizationId := role.organizationId
        resourceType := some "role"
        resourceId := some role.id
        beforeState := [("permissions", ", ".intercalate before)]
        afterState := [("permissions", ", ".intercalate after)]
        metadata :=
          [("added", ", ".intercalate added), ("removed", ", ".intercalate removed)] }

def logIfSome (event : Option AuditEvent) : Op Unit :=
  match event with
  | some event => logEvent event false
  | none => return ()

def updateRolePermissions (A : AppEnv) (role : Role) (permissionNames : List String)
    (description : Option String) (actorUserId : Option ℕ) : Op Unit := do
  validateRolePermissions A permissionNames role.organizationId actorUserId role.name
    (role.organizationId.map fun _ => role.id)
  execute (.org (.setRolePermissions role.id permissionNames.dedup description))
  logIfSome (permissionsEvent role (permissionNames.insertionSort (· ≤ ·)) actorUserId)
  commitNow

def Database.getRole (db : Database) (roleId : ℕ) : Option Role := db.roles.find? (·.id = roleId)

def Database.roleInUse (db : Database) (roleId : ℕ) : Bool :=
  db.users.any (roleId ∈ ·.roleIds) || db.memberships.any (roleId ∈ ·.roleIds)

def deleteRole (roleId : ℕ) : Op Unit := do
  execute (.org (.deleteRole roleId))
  commitNow

/-! ## The routes -/

/-- `except ValueError as e`, with the status the route gives it. -/
def valueErrorAs {α : Type} (status : String → ℕ) (p : Op α) : Op α :=
  p.orElse fun x =>
    match x with
    | .value message => raise (.http (status message) message)
    | x => raise x

/-- `409 if "already taken" in str(e) else 400` -/
def takenStatus (message : String) : ℕ :=
  if message.toList.tails.any ("already taken".toList.isPrefixOf ·) then 409 else 400

/-- A role a router lets through: its own organization's, or a platform-wide one. -/
def roleOfRouter (organizationId : Option ℕ) (roleId : ℕ) : Op Role := do
  let role ← query (·.getRole roleId)
  match role with
  | some role =>
      if role.organizationId = organizationId then return role
      else raise (.http 404 "Role not found")
  | none => raise (.http 404 "Role not found")

/-- `PUT …/roles/{role_id}` of the organization's router and of the platform's. -/
def updateRoleRoute (A : AppEnv) (organizationId : Option ℕ) (roleId : ℕ)
    (permissionNames : List String) (description : Option String) (actorUserId : ℕ) :
    Op Unit := do
  let role ← roleOfRouter organizationId roleId
  valueErrorAs (fun _ => 400)
    (updateRolePermissions A role permissionNames description (some actorUserId))

/-- `DELETE …/roles/{role_id}` of both. -/
def deleteRoleRoute (organizationId : Option ℕ) (roleId : ℕ) : Op Unit := do
  let role ← roleOfRouter organizationId roleId
  let inUse ← query (·.roleInUse roleId)
  if inUse then raise (.http 409 "Role is currently assigned and cannot be deleted")
  else deleteRole role.id

/-- `POST …/roles` of both. -/
def createRoleRoute (A : AppEnv) (organizationId : Option ℕ) (name : String)
    (permissionNames : List String) (description : Option String) (actorUserId : ℕ) : Op Role :=
  valueErrorAs takenStatus
    (createRole A name permissionNames description (some actorUserId) organizationId)

end OmniAuth
