import OmniAuth.Mfa.Service
import OmniAuth.Token.Delegation

/-!
# Logins

`app/services/sso_discovery_service.py`, `oauth_service.py`, `license_service.py` and
what every login ends in: `authenticate_user` and
`generate_tokens_or_mfa_challenge` of `auth_service.py`, and
`jit_provision_membership` of `org_service.py`.
-/

namespace OmniAuth

open Txn Prog

variable (A : AppEnv)

/-! ## `sso_discovery_service` -/

/-- The domain an address is routed by: what follows its last `@`. -/
def emailDomain (email : String) : Option String :=
  if '@' ∈ email.toList then
    let domain := (email.toList.reverse.takeWhile (· ≠ '@')).reverse
    match A.lower (A.strip (String.ofList domain)) with
    | "" => none
    | domain => some domain
  else none

/-- The configuration lists the domain, in any letter case. -/
def IdpConfig.allows (config : IdpConfig) (domain : String) : Prop :=
  domain ∈ config.allowedDomains.map A.lower

instance (config : IdpConfig) (domain : String) : Decidable (config.allows A domain) :=
  inferInstanceAs (Decidable (_ ∈ _))

/-- The first active configuration that lists the domain of the address. -/
def findConfigForEmail (configs : List IdpConfig) (email : String) : Option IdpConfig :=
  (emailDomain A email).bind fun domain =>
    configs.find? fun config => config.status = .active ∧ config.allows A domain

/-- `find_org_for_email` -/
def findOrgForEmail (db : Database) (email : String) : Option IdpConfig :=
  findConfigForEmail A db.ssoConfigs email

/-- `find_saml_org_for_email` -/
def findSamlOrgForEmail (db : Database) (email : String) : Option IdpConfig :=
  findConfigForEmail A db.samlConfigs email

/-- `config.enforced and config.sso_override_at is None` -/
def IdpConfig.Enforces (config : IdpConfig) : Prop :=
  config.enforced = true ∧ config.ssoOverrideAt = none

instance (config : IdpConfig) : Decidable config.Enforces := inferInstanceAs (Decidable (_ ∧ _))

/-- `find_enforced_org_for_email` -/
def findEnforcedOrgForEmail (db : Database) (email : String) : Option IdpConfig :=
  (findOrgForEmail A db email).filter fun config => config.Enforces

/-- `find_enforced_saml_org_for_email` -/
def findEnforcedSamlOrgForEmail (db : Database) (email : String) : Option IdpConfig :=
  (findSamlOrgForEmail A db email).filter fun config => config.Enforces

/-- The refusal of a login whose organization enforces its own provider. -/
def refuseIfFound (found : Database → Option IdpConfig) (protocol : String) : Op Unit := do
  let config ← query found
  match config with
  | none => return ()
  | some config => do
      let org ← query (·.organizationById config.organizationId)
      match org with
      | none => raise (.http 500 "Internal Server Error")
      | some org =>
          raise (.ssoRequired org.slug ("/auth/" ++ protocol ++ "/" ++ org.slug ++ "/login"))

/-- The two checks `/auth/login` and the OAuth callback make before anything
else. -/
def refuseEnforced (email : String) : Op Unit := do
  refuseIfFound (findEnforcedOrgForEmail A · email) "sso"
  refuseIfFound (findEnforcedSamlOrgForEmail A · email) "saml"

/-! ## Roles and memberships of a new login -/

/-- `get_or_create_role`, of a platform-wide role. -/
def getOrCreateRole (name : String) (permissionNames : List String) : Op Role := do
  let role ← query fun db => getRoleByName db name none
  match role with
  | some role => return role
  | none => do
      let id ← draw
      let role : Role :=
        { id := id, name := name, organizationId := none, permissions := permissionNames }
      execute (.org (.insertRole role))
      return role

/-- `assign_default_role` -/
def assignDefaultRole (user : User) : Op Unit := do
  let role ← getOrCreateRole "user" []
  if role.id ∈ user.roleIds then return ()
  else execute (.account (.assignUserRole user.id role.id))

/-- `get_membership` -/
def Database.getMembership (db : Database) (organizationId userId : ℕ) :
    Option OrganizationMembership :=
  db.memberships.find? fun m => m.organizationId = organizationId ∧ m.userId = userId

def MembershipStatus.text : MembershipStatus → String
  | active => "active"
  | invited => "invited"
  | other value => value.getD "None"

/-- `ORG_MEMBER_ROLE` -/
def orgMemberRole : String := "org_member"

/-- The row and the audit row of a member who joins with the base role. -/
def joinAsMember (organizationId userId : ℕ) (status : MembershipStatus)
    (invitedByUserId : Option ℕ) (actorUserId : ℕ) (metadata : List (String × String)) :
    Op OrganizationMembership := do
  let memberRole ← getOrCreateRole orgMemberRole []
  let now ← time
  let id ← draw
  let membership : OrganizationMembership :=
    { id := id
      organizationId := organizationId
      userId := userId
      status := status
      roleIds := [memberRole.id]
      invitedByUserId := invitedByUserId
      joinedAt := now }
  execute (.org (.insertMembership membership))
  logEvent
    { eventType := .orgMembershipChanged
      actorUserId := some actorUserId
      targetUserId := some userId
      organizationId := some organizationId
      resourceType := some "organization_membership"
      resourceId := some id
      afterState := [("status", status.text), ("roles", memberRole.name)]
      metadata := metadata }
    false
  commitNow
  return membership

/-- `jit_provision_membership` -/
def jitProvisionMembership (organizationId userId : ℕ) : Op OrganizationMembership := do
  let existing ← query (·.getMembership organizationId userId)
  match existing with
  | some membership => return membership
  | none =>
      joinAsMember organizationId userId .active none userId [("reason", "sso_jit_provisioning")]

/-! ## `oauth_service` -/

/-- `find_linked_user`. A configuration that is given narrows the search. -/
def Database.findLinkedUser (db : Database) (provider providerUserId : String)
    (ssoConfigId samlConfigId : Option ℕ) : Option User :=
  (db.oauthAccounts.find? fun a =>
    a.provider = provider ∧ a.providerUserId = providerUserId ∧
    (ssoConfigId = none ∨ a.organizationSsoConfigId = ssoConfigId) ∧
    (samlConfigId = none ∨ a.organizationSamlConfigId = samlConfigId)).bind
      fun a => db.userById a.userId

/-- An identity as a provider gives it, and the configuration it is scoped to. -/
structure Identity where
  provider : String
  providerUserId : String
  email : String
  ssoConfigId : Option ℕ := none
  samlConfigId : Option ℕ := none
  deriving DecidableEq

/-- `_assert_single_idp_scope` -/
def assertSingleIdpScope (ssoConfigId samlConfigId : Option ℕ) : Op Unit :=
  if ssoConfigId.isSome ∧ samlConfigId.isSome then
    raise (.value "organization_sso_config_id and organization_saml_config_id are mutually exclusive")
  else return ()

/-- `db.add(OAuthAccount(…))` and its flush. -/
def addOAuthAccount (userId : ℕ) (identity : Identity) : Op Unit := do
  let id ← draw
  execute (.account (.insertOAuthAccount
    { id := id
      userId := userId
      provider := identity.provider
      providerUserId := identity.providerUserId
      email := identity.email
      organizationSsoConfigId := identity.ssoConfigId
      organizationSamlConfigId := identity.samlConfigId }))

/-- `create_user_with_oauth` -/
def createUserWithOauth (identity : Identity) (commit : Bool) : Op User := do
  assertSingleIdpScope identity.ssoConfigId identity.samlConfigId
  let id ← draw
  let user : User := { id := id, email := some identity.email, status := .active }
  execute (.account (.insertUser user))
  assignDefaultRole user
  addOAuthAccount user.id identity
  if commit then commitNow else pure ()
  refreshUser user.id

/-- `link_oauth_to_existing_user` -/
def linkOauthToExistingUser (user : User) (identity : Identity) (commit : Bool) : Op Unit := do
  assertSingleIdpScope identity.ssoConfigId identity.samlConfigId
  addOAuthAccount user.id identity
  if commit then commitNow else pure ()

/-- `issue_link_confirmation` -/
def issueLinkConfirmation (user : User) (identity : Identity) (idpOrgId : Option ℕ) :
    Op A.Token := do
  assertSingleIdpScope identity.ssoConfigId identity.samlConfigId
  createLinkToken A.toEnv user.id identity.provider identity.providerUserId identity.email
    identity.ssoConfigId identity.samlConfigId idpOrgId

/-! ## `license_service` -/

/-- `normalize_key` -/
def normalizeKey (key : String) : String := A.upper (A.strip key)

/-- `lookup_license` -/
def lookupLicense (db : Database) (key : String) : Option LicenseKey :=
  let normalized := normalizeKey A key
  let byDigest := (A.digestKey (normalizeKey A normalized)).bind fun digest =>
    db.licenseKeys.find? (·.keyDigest = some digest)
  byDigest.orElse fun _ =>
    db.licenseKeys.find? fun l => l.key = some normalized ∧ l.keyDigest = none

/-- `is_email_approved`, at the time `now`. -/
def isEmailApproved (db : Database) (now : ℕ) (email : String) : Bool :=
  decide (∃ l ∈ db.licenseKeys, A.lower l.email = A.lower email ∧ l.revokedAt = none ∧
    (l.expiresAt = none ∨ onSome l.expiresAt (now < ·) = true))

def Database.licenseById (db : Database) (id : ℕ) : Option LicenseKey :=
  db.licenseKeys.find? (·.id = id)

/-- A use of a licence that has to be loaded again. -/
def refreshLicense (id : ℕ) : Op LicenseKey := do
  let license ← query (·.licenseById id)
  match license with
  | some license => return license
  | none => raise .database

/-- The checks of `validate_and_consume`, at the time `now`: the licence, or why
not. -/
def validateLicense (db : Database) (now : ℕ) (key : String) (email : Option String)
    (platform : String) : Except String LicenseKey :=
  match lookupLicense A db key with
  | none => .error "invalid_key"
  | some license =>
      if license.revokedAt.isSome then .error "revoked"
      else if onSome license.expiresAt (· ≤ now) then .error "expired"
      else if license.userId = none ∧ license.maxUses ≤ license.usageCount then
        .error "usage_exhausted"
      else if license.platform ≠ "both" ∧ license.platform ≠ platform then
        .error "platform_mismatch"
      else if onSome email (license.email ≠ ·) then .error "email_mismatch"
      else .ok license

/-- `validate_and_consume` -/
def validateAndConsume (key : String) (email : Option String) (platform : String) :
    Op (Except String LicenseKey) := do
  let now ← time
  query fun db => validateLicense A db now key email platform

/-- `filter(User.email == email).first()` -/
def Database.userByEmail (db : Database) (email : String) : Option User :=
  db.users.find? (·.email = some email)

/-- `get_or_create_user_for_email` -/
def getOrCreateUserForEmail (email : String) : Op User := do
  let user ← query (·.userByEmail email)
  match user with
  | some user => return user
  | none => do
      let id ← draw
      let user : User := { id := id, email := some email, status := .active }
      execute (.account (.insertUser user))
      assignDefaultRole user
      refreshUser id

/-- `mark_used` -/
def markUsed (license : LicenseKey) (user : User) : Op Unit := do
  let now ← time
  execute (.account (.useLicense license.id
    (if license.userId = none then some (user.id, license.usageCount + 1) else none) now))
  commitNow

/-- `bind_machine_id` -/
def bindMachineId (license : LicenseKey) (machineId : String) : Op Unit :=
  if license.machineId = none then do
    execute (.account (.bindMachine license.id machineId))
    commitNow
  else return ()

/-! ## `authenticate_user` -/

/-- `_audit_triggered` of the login throttle, for each dimension a failure locked. -/
def auditLoginTriggered (email : String) (clientIp : Option String) :
    List (String × ℕ) → Op Unit
  | [] => return ()
  | (dimension, lockoutSeconds) :: rest => do
      logEvent
        { eventType := .authRateLimitTriggered
          metadata := [("email", email), ("ip", clientIp.getD ""), ("dimension", dimension),
            ("lockout_seconds", toString lockoutSeconds)] }
        true
      auditLoginTriggered email clientIp rest

/-- A failed attempt: `_log_login_failure`, then `record_failure`. -/
def failLogin (email : String) (clientIp : Option String) (newlyLocked : List (String × ℕ))
    (user : Option User) (reason : String) : Op (Option User) := do
  logEvent
    { eventType := .loginFailure
      actorUserId := user.map (·.id)
      targetUserId := user.map (·.id)
      resourceType := some "user"
      resourceId := user.map (·.id)
      metadata := [("email", email), ("reason", reason)] }
    true
  note (.failureRecorded email clientIp)
  auditLoginTriggered email clientIp newlyLocked
  return none

/-- The part of `authenticate_user` that has a real hash before it. -/
def checkPassword (email password : String) (clientIp : Option String)
    (newlyLocked : List (String × ℕ)) (user : User) (hash : String) : Op (Option User) := do
  note (.passwordEvaluated user.id (A.verifyPassword password hash))
  if A.verifyPassword password hash = false then
    failLogin email clientIp newlyLocked (some user) "invalid_password"
  else do
    note (.successRecorded email clientIp)
    if A.needsRehash hash then do
      let salt ← draw
      execute (.account (.setPassword user.id (A.hashPassword salt password)))
    else pure ()
    logEvent
      { eventType := .loginSuccess
        actorUserId := some user.id
        targetUserId := some user.id
        resourceType := some "user"
        resourceId := some user.id
        metadata := [("email", email)] }
      true
    let user ← refreshUser user.id
    return some user

/-- `authenticate_user`. An evaluation of the dummy hash changes nothing. -/
def authenticateUser (email password : String) (clientIp : Option String)
    (newlyLocked : List (String × ℕ)) : Op (Option User) := do
  let user ← query (·.userByEmail email)
  match user with
  | none => failLogin email clientIp newlyLocked none "unknown_user_or_inactive"
  | some user =>
      if user.status ≠ .active then
        failLogin email clientIp newlyLocked (some user) "unknown_user_or_inactive"
      else
        match user.hashedPassword.filter (· ≠ "") with
        | none => failLogin email clientIp newlyLocked (some user) "no_password_set"
        | some hash => checkPassword A email password clientIp newlyLocked user hash

/-! ## The decision every login comes to -/

/-- `org_requires_mfa` -/
def Database.orgRequiresMfa (db : Database) (organizationId : Option ℕ) : Bool :=
  onSome organizationId fun o =>
    onSome (db.organizationMfaPolicies.find? (·.organizationId = o)) fun policy =>
      policy.required && !policy.overrideActive

/-- `auth_method == "password" and is_enabled_for(user)` -/
def emailMfaRequired (user : User) (login : LoginContext) : Bool :=
  decide (login.authMethod = .password) && isEnabledFor A user

/-- The part of `generate_tokens_or_mfa_challenge` that issues a challenge. -/
def challengeLogin (user : User) (login : LoginContext) (organizationId : Option ℕ)
    (mailSent : Bool) : Op (LoginReply A) := do
  let challengeToken ← createMfaChallengeToken A.toEnv user.id login
    (if emailMfaRequired A user login then some .email else none)
  logEvent
    { eventType := .mfaChallengeRequired
      actorUserId := some user.id
      targetUserId := some user.id
      organizationId := organizationId
      resourceType := some "user"
      resourceId := some user.id
      metadata := [("authentication_method", login.authMethod.text)] }
    true
  let fresh ← refreshUser user.id
  if emailMfaRequired A user login then do
    let _ ← issueCode A fresh challengeToken false mailSent
    return .mfaRequired challengeToken ["email"]
  else return .mfaRequired challengeToken (if fresh.mfaEnabled then ["totp"] else [])

/-- `generate_tokens_or_mfa_challenge`. `mailSent` is the answer of the mail service. -/
def generateTokensOrMfaChallenge (user : User) (login : LoginContext) (client : ClientInfo)
    (mailSent : Bool) : Op (LoginReply A) := do
  let membership ← query (·.resolvePrimaryMembership user.id)
  let organizationId := membership.map (·.organizationId)
  let orgRequiresMfa ← query (·.orgRequiresMfa organizationId)
  if user.mfaEnabled = false ∧ emailMfaRequired A user login = false then
    if orgRequiresMfa then raise .mfaEnrollmentRequired
    else do
      let tokens ← generateTokens A.toEnv user login.authMethod login.idpOrgId
        { client with
          samlNameId := login.samlNameId
          samlSessionIndex := login.samlSessionIndex
          organizationSamlConfigId := login.organizationSamlConfigId }
      return .tokens tokens.1 tokens.2
  else challengeLogin A user login organizationId mailSent

end OmniAuth
