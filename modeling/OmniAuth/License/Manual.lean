import OmniAuth.Login.Service

/-!
# Manual licences

`app/services/manual_license_service.py`, `create_manual_license` of `license_service.py`,
the role changes of `role_service.py` and `org_service.py` it makes, and the routes of
`routes_platform_licenses.py` that write.

The ORM writes a changed object at the next flush, and every audit row flushes; so an
assignment stands where the flush after it is.
-/

namespace OmniAuth

open Txn Prog

variable (A : AppEnv)

/-- `status_for` -/
inductive LicenseStatus
  | active
  | expired
  | revoked
  deriving DecidableEq

def LicenseStatus.text : LicenseStatus → String
  | active => "active"
  | expired => "expired"
  | revoked => "revoked"

/-- `status_for`, at the time `now`. -/
def LicenseKey.status (now : ℕ) (l : LicenseKey) : LicenseStatus :=
  if l.revokedAt.isSome then .revoked
  else if onSome l.expiresAt (· ≤ now) then .expired
  else .active

/-- `require_validity` -/
def requireValidity (days : ℕ) : Op Unit :=
  if A.licenseAllowedValidityDays = [] then
    raise (.manualLicense "validity_policy_unconfigured"
      "Manual issuance is disabled until LICENSE_ALLOWED_VALIDITY_DAYS is configured" 503)
  else if days ∉ A.licenseAllowedValidityDays then
    raise (.manualLicense "unsupported_validity" "Unsupported license validity" 422)
  else return ()

/-! ## The roles of a persona -/

def Persona.text : Persona → String
  | developer => "developer"
  | applicationUser => "application_user"
  | other value => value

/-- `SCIENTIST_ROLE` -/
def scientistRole : String := "scientist"

/-- `SCIENTIST_PERMISSIONS` -/
def scientistPermissions : List String :=
  ["workflow.execute", "dataset.read", "model.use", "model.read", "workspace.launch", "runs.read"]

/-- `PERSONA_ROLES.get(persona)` -/
def Persona.roleName : Persona → Option String
  | developer => some scientistRole
  | applicationUser => some orgMemberRole
  | other _ => none

/-- `get_role_in_scope` -/
def getRoleInScope (db : Database) (name : String) (organizationId : ℕ) : Option Role :=
  db.roles.find? fun r =>
    r.name = name ∧ (r.organizationId = none ∨ r.organizationId = some organizationId)

/-- `add_user_role`, uncommitted. `roleIds` are the roles the ORM has loaded. -/
def addUserRole (userId : ℕ) (roleIds : List ℕ) (role : Role) (actorUserId : ℕ) : Op Unit :=
  if role.id ∈ roleIds then return ()
  else do
    execute (.account (.assignUserRole userId role.id))
    logEvent
      { eventType := .roleAssigned
        actorUserId := some actorUserId
        targetUserId := some userId
        resourceType := some "role"
        resourceId := some role.id
        afterState := [("role", role.name)] }
      false

/-- The audit row of a change to the roles of a membership. -/
def memberRoleEvent (eventType : AuditEventType) (membership : OrganizationMembership)
    (actorUserId : ℕ) : AuditEvent where
  eventType := eventType
  actorUserId := some actorUserId
  targetUserId := some membership.userId
  organizationId := some membership.organizationId
  resourceType := some "organization_membership_roles"
  resourceId := some membership.id

/-- `add_member_role`, uncommitted. -/
def addMemberRole (membership : OrganizationMembership) (roleIds : List ℕ) (role : Role)
    (actorUserId : ℕ) : Op Unit :=
  if role.id ∈ roleIds then return ()
  else do
    execute (.org (.addMembershipRole membership.id role.id))
    logEvent { memberRoleEvent .roleAssigned membership actorUserId with
      afterState := [("role", role.name)] } false

/-- `remove_member_role`, uncommitted. -/
def removeMemberRole (membership : OrganizationMembership) (roleIds : List ℕ) (role : Role)
    (actorUserId : ℕ) : Op Unit :=
  if role.id ∈ roleIds then do
    execute (.org (.removeMembershipRole membership.id role.id))
    logEvent { memberRoleEvent .roleRemoved membership actorUserId with
      beforeState := [("role", role.name)] } false
  else return ()

/-! ## `issue` -/

structure IssueRequest extends IssuanceData where
  actorUserId : ℕ
  idempotencyKey : String
  deriving DecidableEq

/-- `request_data` -/
def IssueRequest.normalized (r : IssueRequest) : IssuanceData :=
  { r.toIssuanceData with
    fullName := A.joinWords r.fullName
    email := A.lower (A.strip r.email) }

/-- `_idempotency_hash(idempotency_key.strip())` -/
def IssueRequest.keyHash (r : IssueRequest) : ℕ := A.idempotencyHash (A.strip r.idempotencyKey)

/-- `_fingerprint(request_data)` -/
def IssueRequest.requestFingerprint (r : IssueRequest) : ℕ := A.fingerprint (r.normalized A)

/-- The checks `issue` makes before it looks at the database. -/
def checkRequest (r : IssueRequest) : Op Unit := do
  requireValidity A r.validityDays
  if A.licenseKeyPepper = false then
    raise (.manualLicense "key_verifier_unconfigured" "Manual issuance is not configured" 503)
  else if (A.strip r.idempotencyKey).length < 16 ∨ 200 < r.idempotencyKey.length then
    raise (.manualLicense "invalid_idempotency_key" "Idempotency-Key must be 16-200 characters" 422)
  else return ()

/-- The row of an actor and a key. -/
def Database.issuanceRequest (db : Database) (actorUserId keyHash : ℕ) :
    Option LicenseIssuanceRequest :=
  db.licenseIssuanceRequests.find? fun q =>
    q.actorUserId = actorUserId ∧ q.idempotencyKeyHash = keyHash

/-- What `issue` returns: the licence, its key where it is new, and whether the request
was a replay. -/
structure Issued where
  license : LicenseKey
  key : Option String
  replayed : Bool
  deriving DecidableEq

/-- The branch of `issue` for a key that was used before. -/
def replayIssuance (r : IssueRequest) (existing : LicenseIssuanceRequest) : Op Issued :=
  if existing.requestFingerprint ≠ r.requestFingerprint A then
    raise (.manualLicense "idempotency_conflict" "Idempotency key was used for a different request"
      409)
  else
    match existing.licenseId with
    | none =>
        raise (.manualLicense "issuance_in_progress"
          "The original issuance request is still in progress" 409)
    | some licenseId => do
        let license ← query (·.licenseById licenseId)
        match license with
        | some license => return ⟨license, none, true⟩
        | none => raise .database

/-- `filter(func.lower(User.email) == normalized_email).with_for_update().first()` -/
def lockOwner (email : String) : Op (Option User) := do
  let found ← returning (S := AuthSig) (.account (.lockUsers []))
    fun db => db.users.find? fun u => u.email.map A.lower = some email
  match found with
  | none => return none
  | some user => returning (S := AuthSig) (.account (.lockUsers [user.id])) (·.userById user.id)

/-- The owner and the membership a licence is for, locked. -/
def lockHolder (email : String) (organizationId : ℕ) : Op (User × OrganizationMembership) := do
  let owner ← lockOwner A email
  match owner with
  | none =>
      raise (.manualLicense "provisioning_required"
        "No identity exists for this email; use the approved invitation workflow first" 409)
  | some owner =>
      if owner.status ≠ .active then
        raise (.manualLicense "identity_inactive" "The license owner identity is not active" 409)
      else do
        let membership ← returning (S := AuthSig) (.org (.lockMembership organizationId owner.id))
          fun db => db.memberships.find? fun m =>
            m.userId = owner.id ∧ m.organizationId = organizationId ∧ m.status = .active
        match membership with
        | none =>
            raise (.manualLicense "organization_membership_required"
              "Active organization membership is required" 404)
        | some membership => return (owner, membership)

/-- The roles a persona comes with, and those the holder has. -/
structure PersonaRoles where
  persona : Role
  user : Role
  opposite : Option Role
  ownerRoleIds : List ℕ
  memberRoleIds : List ℕ

/-- `role_change` -/
def PersonaRoles.Change (roles : PersonaRoles) : Prop :=
  roles.persona.id ∉ roles.memberRoleIds ∨ roles.user.id ∉ roles.ownerRoleIds ∨
    onSome roles.opposite fun role => role.id ∈ roles.memberRoleIds

instance (roles : PersonaRoles) : Decidable roles.Change := inferInstanceAs (Decidable (_ ∨ _))

/-- The role of a persona. -/
def personaRole : Persona → Op Role
  | .applicationUser => getOrCreateRole orgMemberRole []
  | .developer => getOrCreateRole scientistRole scientistPermissions
  | .other _ =>
      raise (.manualLicense "iam_role_unavailable" "Required IAM role is not configured" 503)

/-- The roles of `issue`; the relations are loaded by plain reads. -/
def personaRoles (persona : Persona) (owner : User) (membership : OrganizationMembership) :
    Op PersonaRoles := do
  let personaRole ← personaRole persona
  let userRole ← getOrCreateRole "user" []
  let oppositeName := if persona = .developer then orgMemberRole else scientistRole
  query fun db =>
    { persona := personaRole
      user := userRole
      opposite := getRoleInScope db oppositeName membership.organizationId
      ownerRoleIds := ((db.userById owner.id).map (·.roleIds)).getD []
      memberRoleIds :=
        ((db.memberships.find? (·.id = membership.id)).map (·.roleIds)).getD [] }

/-- The opposite role is taken away where there is one. -/
def removeOpposite (membership : OrganizationMembership) (roles : PersonaRoles)
    (actorUserId : ℕ) : Op Unit :=
  match roles.opposite with
  | some role => removeMemberRole membership roles.memberRoleIds role actorUserId
  | none => return ()

/-- The role changes of `issue`. -/
def assignPersona (owner : User) (membership : OrganizationMembership) (roles : PersonaRoles)
    (actorUserId : ℕ) : Op Unit := do
  addUserRole owner.id roles.ownerRoleIds roles.user actorUserId
  removeOpposite membership roles actorUserId
  addMemberRole membership roles.memberRoleIds roles.persona actorUserId

/-- The audit row of a change to a licence. -/
def licenseEvent (eventType : AuditEventType) (actorUserId : ℕ) (userId organizationId : Option ℕ)
    (licenseId : ℕ) : AuditEvent where
  eventType := eventType
  actorUserId := some actorUserId
  targetUserId := userId
  organizationId := organizationId
  resourceType := some "license"
  resourceId := some licenseId

/-- The loop that supersedes. -/
def supersede (owner : User) (organizationId actorUserId now : ℕ) : List LicenseKey → Op Unit
  | [] => return ()
  | previous :: rest => do
      execute (.account (.revokeLicense previous.id now (some "replaced_by_manual_issuance")))
      logEvent { licenseEvent .licenseRevoked actorUserId (some owner.id) (some organizationId)
          previous.id with
        beforeState := [("status", "active")]
        afterState := [("status", "revoked")]
        metadata := [("reason", "replaced_by_manual_issuance")] } false
      supersede owner organizationId actorUserId now rest

/-- The key of `create_manual_license` and its digest: drawn again, `attempts` times at
most, while the digest is taken. -/
def generateKey : ℕ → Op (String × ℕ)
  | 0 => do
      let n ← draw
      match A.digestKey (normalizeKey A (A.licenseKey n)) with
      | none => raise (.runtime "LICENSE_KEY_PEPPER is required for new license issuance")
      | some digest => return (A.licenseKey n, digest)
  | attempts + 1 => do
      let n ← draw
      match A.digestKey (normalizeKey A (A.licenseKey n)) with
      | none => raise (.runtime "LICENSE_KEY_PEPPER is required for new license issuance")
      | some digest => do
          let taken ← query fun db => decide (∃ l ∈ db.licenseKeys, l.keyDigest = some digest)
          if taken then generateKey attempts else return (A.licenseKey n, digest)

/-- `create_manual_license`, uncommitted. -/
def createManualLicense (owner : User) (organizationId expiresDays : ℕ) (recipientName : String)
    (attempts : ℕ) : Op (LicenseKey × String) := do
  let (key, digest) ← generateKey A attempts
  let now ← time
  let id ← draw
  let license : LicenseKey :=
    { id := id
      keyDigest := some digest
      keyPrefix := some (String.ofList (key.toList.take 9))
      email := owner.email.getD ""
      recipientName := some recipientName
      userId := some owner.id
      organizationId := some organizationId
      plan := "beta"
      platform := "both"
      maxUses := 1
      expiresAt := some (now + days expiresDays) }
  execute (.account (.insertLicense license))
  return (license, key)

/-- The role changes, where there are any. -/
def changeRoles (owner : User) (membership : OrganizationMembership) (roles : PersonaRoles)
    (actorUserId : ℕ) : Op Unit :=
  if roles.Change then assignPersona owner membership roles actorUserId else return ()

/-- The end of `issue`: the licence, its request and its audit row. -/
def grantLicense (r : IssueRequest) (issuanceId : ℕ) (owner : User) (attempts : ℕ) :
    Op Issued := do
  let (license, key) ← createManualLicense A owner r.organizationId r.validityDays
    (r.normalized A).fullName attempts
  execute (.account (.setIssuanceLicense issuanceId license.id))
  logEvent { licenseEvent .licenseIssued r.actorUserId (some owner.id) (some r.organizationId)
      license.id with
    afterState := [("status", "active"), ("persona", r.persona.text),
      ("iam_role", r.persona.roleName.getD "None"), ("validity_days", toString r.validityDays),
      ("plan", license.plan), ("platform", license.platform)]
    metadata := [("key_prefix", license.keyPrefix.getD "None")] } false
  commitNow
  let license ← refreshLicense license.id
  return ⟨license, some key, false⟩

/-- The part of `issue` after the holder and the roles are settled. -/
def replaceLicense (r : IssueRequest) (issuanceId : ℕ) (owner : User)
    (membership : OrganizationMembership) (roles : PersonaRoles) (attempts : ℕ) : Op Issued := do
  let now ← time
  let active ← returning (S := AuthSig)
    (.account (.lockActiveLicenses owner.id r.organizationId now))
    fun db => db.activeLicenses owner.id r.organizationId now
  if active ≠ [] ∧ r.confirmReplaceExisting = false then
    raise (.manualLicense "active_license_confirmation_required"
      "An active license already exists; explicit replacement confirmation is required" 409)
  else do
    changeRoles owner membership roles r.actorUserId
    supersede owner r.organizationId r.actorUserId now active
    grantLicense A r issuanceId owner attempts

/-- The part of `issue` for a key that is new. -/
def issueNew (r : IssueRequest) (attempts : ℕ) : Op Issued := do
  let id ← draw
  execute (.account (.insertIssuanceRequest
    { id := id
      actorUserId := r.actorUserId
      idempotencyKeyHash := r.keyHash A
      requestFingerprint := r.requestFingerprint A }))
  let (owner, membership) ← lockHolder A (r.normalized A).email r.organizationId
  let roles ← personaRoles r.persona owner membership
  if roles.Change ∧ r.confirmRoleChange = false then
    raise (.manualLicense "role_change_confirmation_required"
      ("Explicit confirmation is required to assign " ++ r.persona.roleName.getD "None") 409)
  else replaceLicense A r id owner membership roles attempts

/-- `issue` -/
def issueLicense (r : IssueRequest) (attempts : ℕ) : Op Issued := do
  checkRequest A r
  let existing ← query (·.issuanceRequest r.actorUserId (r.keyHash A))
  match existing with
  | some existing => replayIssuance A r existing
  | none => issueNew A r attempts

/-! ## `revoke` and `renew` -/

/-- `get_license(…, lock=True)` -/
def lockLicense (id : ℕ) : Op (Option LicenseKey) :=
  returning (S := AuthSig) (.account (.lockLicense id)) (·.licenseById id)

/-- `revoke` -/
def revokeLicense (license : LicenseKey) (actorUserId : ℕ) (reason : String) : Op LicenseKey :=
  if license.revokedAt.isSome then return license
  else do
    let now ← time
    let previous := license.status now
    let now ← time
    execute (.account (.revokeLicense license.id now (some reason)))
    logEvent { licenseEvent .licenseRevoked actorUserId license.userId license.organizationId
        license.id with
      beforeState := [("status", previous.text)]
      afterState := [("status", "revoked")]
      metadata := [("reason", reason)] } false
    commitNow
    refreshLicense license.id

/-- `renew`; `timestamp` is `isoformat`. -/
def renewLicense (timestamp : ℕ → String) (license : LicenseKey) (actorUserId validityDays : ℕ) :
    Op LicenseKey := do
  requireValidity A validityDays
  if license.revokedAt.isSome then
    raise (.manualLicense "revoked_license" "A revoked license cannot be renewed" 409)
  else do
    let now ← time
    let expiresAt := max (license.expiresAt.getD now) now + days validityDays
    execute (.account (.renewLicense license.id expiresAt now))
    logEvent { licenseEvent .licenseRenewed actorUserId license.userId license.organizationId
        license.id with
      beforeState := [("expires_at", (license.expiresAt.map timestamp).getD "None")]
      afterState := [("expires_at", timestamp expiresAt)]
      metadata := [("validity_days", toString validityDays)] } false
    commitNow
    refreshLicense license.id

/-! ## The routes -/

/-- `PLATFORM_OWNER_ROLE` and `ADMIN_ROLE`, or the designated account with the latter. -/
def Database.licenseAdmin (db : Database) (userId : ℕ) : Option User :=
  (db.users.find? fun u => u.id = userId ∧ u.status = .active).filter fun user =>
    let names := (db.rolesOf user.roleIds).map (·.name)
    ("platform_admin" ∈ names ∧ "admin" ∈ names) ∨ (user.id = 1 ∧ "admin" ∈ names)

/-- `authorized_license_admin` -/
def authorizedLicenseAdmin (userId : ℕ) : Op User := do
  let user ← query (·.licenseAdmin userId)
  match user with
  | some user => return user
  | none => raise (.http 403 "Manual license administration is restricted")

/-- `metadata_for`, beside the columns of the row. -/
structure LicenseMetadata where
  license : LicenseKey
  persona : Option Persona
  status : LicenseStatus
  deriving DecidableEq

/-- The persona the roles of a member show. -/
def Database.personaOf (db : Database) (license : LicenseKey) : Option Persona :=
  match license.userId, license.organizationId with
  | some userId, some organizationId =>
      let names := (db.rolesOf
        (((db.getMembership organizationId userId).map (·.roleIds)).getD [])).map (·.name)
      if scientistRole ∈ names then some .developer
      else if orgMemberRole ∈ names then some .applicationUser
      else none
  | _, _ => none

/-- `metadata_for` -/
def metadataFor (license : LicenseKey) : Op LicenseMetadata := do
  let persona ← query (·.personaOf license)
  let now ← time
  return ⟨license, persona, license.status now⟩

/-- What a route answers: the licence, and for an issuance its key and whether it is a
replay. -/
structure LicenseResponse where
  license : LicenseMetadata
  key : Option String := none
  idempotentReplay : Bool := false
  deriving DecidableEq

/-- The two `except` clauses around `issue`. -/
def issueWithRetry (r : IssueRequest) (attempts : ℕ) : Op Issued :=
  Prog.orElse (issueLicense A r attempts) fun
    | .integrity => do
        rollbackNow
        issueLicense A r attempts
    | .manualLicense code message status => do
        rollbackNow
        raise (.manualLicense code message status)
    | x => raise x

/-- `POST /platform/licenses` -/
def issueLicenseRoute (r : IssueRequest) (attempts : ℕ) : Op LicenseResponse := do
  let actor ← authorizedLicenseAdmin r.actorUserId
  let issued ← issueWithRetry A { r with actorUserId := actor.id } attempts
  let license ← metadataFor issued.license
  return ⟨license, issued.key, issued.replayed⟩

/-- The licence of a route, locked. -/
def withLicense (licenseId : ℕ) (f : LicenseKey → Op LicenseKey) : Op LicenseKey := do
  let row ← lockLicense licenseId
  match row with
  | none => raise (.http 404 "License not found")
  | some row => f row

/-- The revocation of the route below. -/
def revokeById (licenseId actorUserId : ℕ) (reason : String) : Op LicenseKey :=
  withLicense licenseId fun row => revokeLicense row actorUserId reason

/-- The renewal of the route below. -/
def renewById (timestamp : ℕ → String) (licenseId actorUserId validityDays : ℕ) : Op LicenseKey :=
  withLicense licenseId fun row =>
    Prog.orElse (renewLicense A timestamp row actorUserId validityDays) fun
      | .manualLicense code message status => do
          rollbackNow
          raise (.manualLicense code message status)
      | x => raise x

/-- `POST /platform/licenses/{license_id}/revoke` -/
def revokeLicenseRoute (actorUserId licenseId : ℕ) (reason : String) : Op LicenseResponse := do
  let actor ← authorizedLicenseAdmin actorUserId
  let row ← revokeById licenseId actor.id reason
  let license ← metadataFor row
  return { license := license }

/-- `POST /platform/licenses/{license_id}/renew` -/
def renewLicenseRoute (timestamp : ℕ → String) (actorUserId licenseId validityDays : ℕ) :
    Op LicenseResponse := do
  let actor ← authorizedLicenseAdmin actorUserId
  let row ← renewById A timestamp licenseId actor.id validityDays
  let license ← metadataFor row
  return { license := license }

end OmniAuth
