import OmniAuth.Model.App
import OmniAuth.Session.Service
import OmniAuth.Token.Usable

/-!
# Attenuated tokens and what they reach

The tokens that carry less than their user has, from `exchange_api_key` and
`mint_user_service_token`; the gates of `app/rbac.py` on an organization; and
`app/services/delegated_execution_service.py`.

A gate, and the decision of `issue`, are read at one instant.
-/

namespace OmniAuth

open Txn Prog

/-! ## API keys -/

/-- `is_test_key` -/
def isTestKey (apiKey : ApiKey) : Bool := onSome apiKey.keyPrefix (startsWith · "omni_sk_test_")

/-- `status or "active"` is `"active"`. -/
def UserStatus.ActiveOrUnset (status : UserStatus) : Prop :=
  status = .active ∨ status = .other none ∨ status = .other (some "")

def MembershipStatus.ActiveOrUnset (status : MembershipStatus) : Prop :=
  status = .active ∨ status = .other none ∨ status = .other (some "")

instance (status : UserStatus) : Decidable status.ActiveOrUnset := by
  unfold UserStatus.ActiveOrUnset
  infer_instance

instance (status : MembershipStatus) : Decidable status.ActiveOrUnset := by
  unfold MembershipStatus.ActiveOrUnset
  infer_instance

variable (A : AppEnv)

/-- `verify_api_key` -/
def verifyApiKey (fullKey : String) : Op (Option ApiKey) := do
  let row ← query fun db => db.apiKeys.find? (·.keyHash = some (A.hashKey fullKey))
  match row with
  | none => return none
  | some apiKey =>
      if apiKey.status ≠ .active then return none
      else match apiKey.expiresAt with
        | none => return some apiKey
        | some expiresAt => do
            let now ← time
            return if expiresAt < now then none else some apiKey

/-- What `exchange_api_key` answers. -/
structure ApiKeyExchange where
  accessToken : A.Token
  expiresIn : ℕ
  apiKeyId : ℕ
  organizationId : ℕ
  userId : ℕ
  permissions : List String
  testMode : Bool

/-- The payload of the token `exchange_api_key` signs. -/
def apiKeyClaims (user : User) (apiKey : ApiKey) (permissions : List String) (exp jti : ℕ) :
    Claims where
  sub := some (.user user.id)
  email := user.email
  permissions := permissions
  orgId := some apiKey.organizationId
  authMethod := some .apiKey
  apiKeyId := some apiKey.id
  tokenVersion := some 2
  mfaVerified := false
  exp := some exp
  type := some .access
  jti := some jti

/-- `_LAST_USED_WRITE_INTERVAL` -/
def lastUsedWriteInterval : ℕ := seconds 60

/-- `last_used_at` is written at most once per interval. -/
def touchApiKey (apiKey : ApiKey) (now : ℕ) : Op Unit :=
  match apiKey.lastUsedAt with
  | some lastUsedAt =>
      if lastUsedWriteInterval ≤ now - lastUsedAt then do
        execute (.credential (.touchApiKey apiKey.id now))
        commitNow
      else return ()
  | none => do
      execute (.credential (.touchApiKey apiKey.id now))
      commitNow

/-- `exchange_api_key` -/
def exchangeApiKey (fullKey : String) : Op (Option (ApiKeyExchange A)) :=
  if startsWith fullKey "omni_sk_" = false then return none
  else do
    let verified ← verifyApiKey A fullKey
    match verified with
    | none => return none
    | some apiKey => do
        let user ← query (·.userById apiKey.createdByUserId)
        match user with
        | none => return none
        | some user =>
            if ¬ user.status.ActiveOrUnset then return none
            else do
              let membership ← query fun db => db.memberships.find? fun m =>
                m.organizationId = apiKey.organizationId ∧ m.userId = user.id
              match membership with
              | none => return none
              | some membership =>
                  if ¬ membership.status.ActiveOrUnset then return none
                  else do
                    let held ← query (·.permissionsOf membership.roleIds)
                    let permissions := sortedSet (apiKey.scopes.filter (· ∈ held))
                    let now ← time
                    let expiresIn := A.apiKeyTokenExpireMinutes * 60
                    let jti ← draw
                    let token := sign A.toEnv
                      (apiKeyClaims user apiKey permissions (numericDate (now + seconds expiresIn)) jti)
                    touchApiKey apiKey now
                    return some
                      { accessToken := token
                        expiresIn := expiresIn
                        apiKeyId := apiKey.id
                        organizationId := apiKey.organizationId
                        userId := user.id
                        permissions := permissions
                        testMode := isTestKey apiKey }

/-! ## Minting for a service -/

/-- `_SERVICE_IDENTITY_PERMISSIONS` -/
def serviceIdentityPermissions : List String :=
  ["toolserver.delegate", "toolserver.register", "identity.verify", "delegation.verify"]

/-- `is_privileged_permission` -/
def isPrivilegedPermission (name : String) : Bool :=
  match permissionScope name with
  | none => true
  | some scope => scope = .global ∨ scope = .org ∨ name ∈ serviceIdentityPermissions

/-- `mint_ttl_seconds` -/
def mintTtlSeconds : ℕ := min A.serviceMintTokenTtlSeconds (A.accessTokenExpireMinutes * 60)

/-- `find_user_by_email` -/
def findUserByEmail (db : Database) (email : String) : Option User :=
  db.users.find? fun u => onSome u.email fun e => A.lower e = A.lower email

/-- What `mint_user_service_token` looks at: the target, the membership the token
is scoped to, and the reason of a refusal. -/
structure MintTarget where
  user : Option User := none
  membership : Option OrganizationMembership := none
  payload : Except String Claims

/-- The checks of `mint_user_service_token`, `_resolve_membership` among them. -/
def mintTarget (targetEmail : String) (orgId : Option ℕ) (allowPrivileged : Bool)
    (db : Database) : MintTarget :=
  match findUserByEmail A db targetEmail with
  | none => { payload := .error "unknown_user" }
  | some user =>
      if user.status ≠ .active then { user := user, payload := .error "inactive_user" }
      else
        let resolved : Except String (Option OrganizationMembership) :=
          match orgId with
          | none => .ok (db.resolvePrimaryMembership user.id)
          | some o =>
              match db.memberships.find? fun m =>
                m.userId = user.id ∧ m.organizationId = o ∧ m.status = .active with
              | none => .error "not_a_member"
              | some membership => .ok (some membership)
        match resolved with
        | .error reason => { user := user, payload := .error reason }
        | .ok membership =>
            let inactiveOrganization := onSome membership fun m =>
              ! onSome (db.organizations.find? (·.id = m.organizationId)) (·.status = .active)
            if inactiveOrganization then
              { user := user, membership := membership, payload := .error "organization_inactive" }
            else
              let payload := buildUserClaims db user .serviceMint none none membership
              { user := user
                membership := membership
                payload := if payload.permissions.any isPrivilegedPermission ∧ allowPrivileged = false
                  then .error "privileged_target" else .ok payload }

/-- `mint_user_service_token`: the token, and its lifetime in seconds. -/
def mintUserServiceToken (targetEmail : String) (actorUserId : ℕ) (verificationMethod : String)
    (orgId : Option ℕ) (allowPrivileged : Bool) : Op (A.Token × ℕ) := do
  let target ← query (mintTarget A targetEmail orgId allowPrivileged)
  let requested := ("requested_org_id", (orgId.map toString).getD "None")
  match target.payload with
  | .error reason => do
      logEvent
        { eventType := .serviceTokenMintDenied
          actorUserId := some actorUserId
          targetUserId := target.user.map (·.id)
          organizationId := target.membership.map (·.organizationId)
          resourceType := some "user"
          resourceId := target.user.map (·.id)
          metadata := [("reason", reason), ("target_email", targetEmail), requested,
            ("verification_method", verificationMethod)] }
        true
      raise (.refused reason)
  | .ok payload => do
      let expiresIn := mintTtlSeconds A
      let accessToken ← createAccessToken A.toEnv payload (some expiresIn)
      logEvent
        { eventType := .serviceTokenMinted
          actorUserId := some actorUserId
          targetUserId := target.user.map (·.id)
          organizationId := payload.orgId
          resourceType := some "user"
          resourceId := target.user.map (·.id)
          metadata := [("target_email", targetEmail), requested,
            ("organization_id", (payload.orgId.map toString).getD "None"),
            ("verification_method", verificationMethod),
            ("privileged", toString (payload.permissions.any isPrivilegedPermission))] }
        true
      return (accessToken, expiresIn)

/-! ## The gates -/

/-- What `int(user["sub"])` raises when there is no user there, as the client
sees it. -/
def noSubject : Err := .http 500 "Internal Server Error"

/-- The first active membership of a user in an organization. -/
def Database.activeMembership (db : Database) (userId organizationId : ℕ) :
    Option OrganizationMembership :=
  db.memberships.find? fun m =>
    m.organizationId = organizationId ∧ m.userId = userId ∧ m.status = .active

/-- `filter(User.id == user_id, User.status == "active").first()` -/
def Database.activeUser (db : Database) (userId : ℕ) : Option User :=
  db.users.find? fun u => u.id = userId ∧ u.status = .active

def Database.organizationById (db : Database) (id : ℕ) : Option Organization :=
  db.organizations.find? (·.id = id)

/-- `get_org_membership` -/
def getOrgMembership (db : Database) (user : Claims) (orgId : ℕ) :
    Except Err OrganizationMembership :=
  match user.sub with
  | some (.user userId) =>
      match db.activeMembership userId orgId with
      | some membership => .ok membership
      | none => .error (.http 404 "Organization not found")
  | _ => .error noSubject

/-- `get_role_by_name` -/
def getRoleByName (db : Database) (name : String) (organizationId : Option ℕ) : Option Role :=
  db.roles.find? fun r => r.name = name ∧ r.organizationId = organizationId

/-- `_platform_admin_membership`, the row that is never stored. -/
def platformAdminMembership (db : Database) (orgId : ℕ) (user : Claims) :
    Option OrganizationMembership :=
  match db.organizationById orgId, getRoleByName db "org_admin" none, user.sub with
  | some _, some adminRole, some (.user userId) =>
      some { id := 0, organizationId := orgId, userId := userId, status := .active,
             roleIds := [adminRole.id] }
  | _, _, _ => none

/-- `get_org_membership_or_platform_admin` -/
def getOrgMembershipOrPlatformAdmin (db : Database) (user : Claims) (orgId : ℕ) :
    Except Err OrganizationMembership :=
  if user.authMethod ≠ some .clientCredentials ∧ manageAllOrgs ∈ user.permissions then
    match platformAdminMembership db orgId user with
    | some synthetic => .ok synthetic
    | none => getOrgMembership db user orgId
  else getOrgMembership db user orgId

/-- The two gates differ in where the membership comes from. -/
def requirePermission (membershipOf : Database → Claims → ℕ → Except Err OrganizationMembership)
    (permission : String) (now : ℕ) (redis : Option Redis) (db : Database) (E : Env)
    (token : E.Token) (orgId : ℕ) : Except Err OrganizationMembership :=
  match getCurrentUser now redis db E token with
  | .error x => .error x
  | .ok user =>
      match membershipOf db user orgId with
      | .error x => .error x
      | .ok membership =>
          if permission ∈ db.permissionsOf membership.roleIds then .ok membership
          else .error (.http 403 "Forbidden")

/-- `require_org_permission` -/
def requireOrgPermission := requirePermission getOrgMembership

/-- `require_org_permission_or_platform_admin` -/
def requireOrgPermissionOrPlatformAdmin := requirePermission getOrgMembershipOrPlatformAdmin

/-! ## Delegation -/

def toolserverAudience : String := "omnibioai-toolserver"

def delegationScope : String := "toolserver.delegate"

def acceptedPermissions : List String := ["workflow.execute", "runs.read"]

/-- `_active_service` -/
def activeService (now : ℕ) (db : Database) (serviceToken : A.Token) :
    Except Err (Claims × OAuthClient) :=
  match decodeToken A.toEnv now serviceToken with
  | .error _ => .error (.http 401 "Invalid service token")
  | .ok payload =>
      if payload.authMethod ≠ some .clientCredentials then .error (.http 403 "Service token required")
      else match db.oauthClients.find? fun c => some c.clientId = payload.clientId with
        | none => .error (.http 403 "Service identity is inactive")
        | some client =>
            if client.status ≠ .active ∨ onSome client.expiresAt (· < now) then
              .error (.http 403 "Service identity is inactive")
            else if payload.orgId ≠ some client.organizationId then
              .error (.http 403 "Service identity mismatch")
            else if delegationScope ∉ payload.scopes ∨ delegationScope ∉ client.scopes then
              .error (.http 403 "Service delegation not authorized")
            else .ok (payload, client)

/-- `_user_membership` -/
def userMembership (now : ℕ) (redis : Option Redis) (db : Database) (token : A.Token)
    (organizationId : ℕ) : Except Err (User × OrganizationMembership) :=
  let invalid := .error (.http 403 "Invalid initiating identity")
  match decodeToken A.toEnv now token with
  | .error _ => invalid
  | .ok payload =>
      if payload.type ≠ some .access ∨ payload.authMethod = some .clientCredentials then invalid
      else match assertTokenUsable now redis db payload, payload.sub with
        | .ok (), some (.user userId) =>
            match db.activeUser userId, db.organizationById organizationId,
                db.activeMembership userId organizationId with
            | some user, some _, some membership => .ok (user, membership)
            | _, _, _ => .error (.http 403 "Delegation context unavailable")
        | _, _ => invalid

/-- `_user_permissions` -/
def userPermissions (db : Database) (user : User) (membership : OrganizationMembership) :
    List String :=
  db.permissionsOf user.roleIds ++ db.permissionsOf membership.roleIds

/-- The checks of `issue`: the client and the user of the grant. -/
def delegable (redis : Option Redis) (serviceToken initiatingToken : A.Token)
    (organizationId : ℕ) (permissions : List String) (audience : String) (now : ℕ)
    (db : Database) : Except Err (OAuthClient × User) :=
  match activeService A now db serviceToken with
  | .error x => .error x
  | .ok (payload, service) =>
      if audience ≠ toolserverAudience then .error (.http 400 "Unsupported delegation audience")
      else if permissions = [] ∨ (∃ p ∈ permissions, p ∉ acceptedPermissions) ∨
          (∃ p ∈ permissions, isKnownPermission p = false) then
        .error (.http 400 "Unsupported delegated permission")
      else match userMembership A now redis db initiatingToken organizationId with
        | .error x => .error x
        | .ok (user, membership) =>
            if (∃ p ∈ permissions, p ∉ userPermissions db user membership) ∨
                (∃ p ∈ permissions, ¬ (p ∈ payload.scopes ∧ p ∈ service.scopes)) then
              .error (.http 403 "Delegated permission denied")
            else .ok (service, user)

/-- `issue`, with what Redis has stored. -/
def issue (redis : Option Redis) (serviceToken initiatingToken : A.Token) (organizationId : ℕ)
    (permissions : List String) (audience : String) : Op (A.Token × DelegatedExecutionGrant) := do
  let now ← time
  let decision ← query
    (delegable A redis serviceToken initiatingToken organizationId permissions audience now)
  match decision with
  | .error x => raise x
  | .ok (service, user) => do
      let delegationId ← draw
      let now ← time
      let grant : DelegatedExecutionGrant :=
        { delegationId := delegationId
          clientId := service.clientId
          userId := user.id
          organizationId := organizationId
          permissions := sortedSet permissions
          audience := audience
          expiresAt := now + minutes A.delegatedExecutionTokenExpireMinutes }
      execute (.credential (.insertDelegatedGrant grant))
      commitNow
      let token ← createDelegatedExecutionToken A.toEnv service.clientId user.id organizationId
        (sortedSet permissions) delegationId
      return (token, grant)

end OmniAuth
