import Mathlib.Data.List.Dedup
import Mathlib.Data.List.Sort
import Mathlib.Data.Option.Basic

/-!
# The database

The rows of the tables the modelled services read and write, and the
queries they make. A table is the list of its rows in the order of their
primary keys. Timestamps are microseconds; a `uuid4` string is a number,
drawn fresh; an enumeration the code keeps in a string column is an
inductive type, with a constructor for any other stored value where the
column admits one.
-/

namespace OmniAuth

/-! Durations, in microseconds. -/

def seconds (n : ℕ) : ℕ := n * 1000000

def minutes (n : ℕ) : ℕ := seconds (n * 60)

def days (n : ℕ) : ℕ := seconds (n * 86400)

/-- A nullable column and a predicate on its value. -/
def onSome {α : Type} (o : Option α) (p : α → Bool) : Bool :=
  match o with
  | some a => p a
  | none => false

/-- `sorted(set(names))` -/
def sortedSet (names : List String) : List String := names.dedup.insertionSort (· ≤ ·)

@[simp] theorem mem_sortedSet {p : String} {names : List String} :
    p ∈ sortedSet names ↔ p ∈ names := by simp [sortedSet]

/-- `.first()` finds the one row there is. -/
theorem find?_of_unique {α : Type} {l : List α} {p : α → Bool} {a : α} (ha : a ∈ l)
    (hp : p a = true) (huniq : ∀ b ∈ l, p b = true → b = a) : l.find? p = some a := by
  have hsome : (l.find? p).isSome := List.find?_isSome.mpr ⟨a, ha, hp⟩
  obtain ⟨b, hb⟩ := Option.isSome_iff_exists.mp hsome
  rw [hb, huniq b (List.mem_of_find?_eq_some hb) (List.find?_some hb)]

/-- Both halves of a computation that succeeds do. -/
theorem ok_of_bind {ε α β : Type} {x : Except ε α} {f : α → Except ε β} {b : β}
    (h : x >>= f = .ok b) : ∃ a, x = .ok a ∧ f a = .ok b := by
  cases x with
  | error e => cases h
  | ok a => exact ⟨a, rfl, h⟩

/-! ## Accounts and organizations -/

/-- `users.status`; `other` is any other stored value, NULL included. -/
inductive UserStatus
  | active
  | suspended
  | other (value : Option String)
  deriving DecidableEq

/-- The `auth_method` claim. -/
inductive AuthMethod
  | password
  | oauth
  | sso
  | saml
  | license
  | apiKey
  | clientCredentials
  | serviceMint
  | other (value : String)
  deriving DecidableEq

/-- `users.authentication_method`, narrower than the claim. -/
inductive PersistedAuthMethod
  | password
  | oauth
  | oidc
  | saml
  | unknown
  deriving DecidableEq

structure User where
  id : ℕ
  email : Option String := none
  hashedPassword : Option String := none
  status : UserStatus
  statusChangedAt : Option ℕ := none
  statusChangedReason : Option String := none
  statusChangedByUserId : Option ℕ := none
  lastLoginAt : Option ℕ := none
  authenticationMethod : Option PersistedAuthMethod := none
  mfaEnabled : Bool := false
  mfaStatus : Option String := none
  mfaPrimaryMethod : Option String := none
  mfaEnabledAt : Option ℕ := none
  mfaLastVerifiedAt : Option ℕ := none
  roleIds : List ℕ := []
  deriving DecidableEq

/-- A role with the names of its permissions. -/
structure Role where
  id : ℕ
  name : String
  organizationId : Option ℕ
  permissions : List String
  description : Option String := none
  deriving DecidableEq

inductive OrgStatus
  | active
  | other (value : Option String)
  deriving DecidableEq

structure Organization where
  id : ℕ
  slug : String
  status : OrgStatus
  deriving DecidableEq

inductive MembershipStatus
  | active
  | invited
  | other (value : Option String)
  deriving DecidableEq

/-- UNIQUE(organization_id, user_id). -/
structure OrganizationMembership where
  id : ℕ
  organizationId : ℕ
  userId : ℕ
  status : MembershipStatus
  roleIds : List ℕ
  invitedByUserId : Option ℕ := none
  joinedAt : ℕ := 0
  deriving DecidableEq

/-- UNIQUE(organization_id, name). -/
structure Team where
  id : ℕ
  organizationId : ℕ
  name : String := ""
  description : Option String := none
  createdByUserId : Option ℕ := none
  createdAt : Option ℕ := none
  deriving DecidableEq

/-- A row of `team_memberships`. PRIMARY KEY(team_id, user_id). -/
structure TeamMember where
  teamId : ℕ
  userId : ℕ
  role : String
  invitedByUserId : Option ℕ := none
  joinedAt : Option ℕ := none
  deriving DecidableEq

/-! ## Tokens and sessions -/

structure RefreshToken where
  id : ℕ
  userId : ℕ
  tokenHash : ℕ
  revoked : Bool
  expiresAt : ℕ
  familyId : Option ℕ
  rotatedAt : Option ℕ
  deriving DecidableEq

/-- `sessions.status`. `expired` is declared next to these two but written
nowhere. -/
inductive SessionStatus
  | active
  | revoked
  deriving DecidableEq

/-- `sessions.revoked_reason`. -/
inductive RevokedReason
  | userLogout
  | userRevoked
  | reuseDetected
  | idleTimeout
  | absoluteTimeout
  | concurrentLimit
  | accountDisabled
  deriving DecidableEq

/-- A row of `sessions`. `sessionId` is the family id of the refresh tokens
of one login. -/
structure UserSession where
  id : ℕ
  sessionId : ℕ
  userId : ℕ
  organizationId : Option ℕ
  orgRole : List String
  authMethod : AuthMethod
  mfaVerified : Bool
  status : SessionStatus
  createdAt : ℕ
  lastActivityAt : ℕ
  expiresAt : ℕ
  revokedAt : Option ℕ
  revokedReason : Option RevokedReason
  clientIp : Option String
  userAgent : Option String
  samlNameId : Option String
  samlSessionIndex : Option String
  organizationSamlConfigId : Option ℕ
  deriving DecidableEq

/-- A row of `revoked_tokens`, a token withdrawn by its `jti`. -/
structure RevokedToken where
  id : ℕ
  tokenJti : ℕ
  deriving DecidableEq

/-! ## Keys, clients and grants -/

/-- `status` of an API key or of an OAuth client. -/
inductive CredentialStatus
  | active
  | other (value : Option String)
  deriving DecidableEq

structure ApiKey where
  id : ℕ
  organizationId : ℕ
  createdByUserId : ℕ
  keyPrefix : Option String := none
  keyHash : Option ℕ
  scopes : List String
  status : CredentialStatus
  expiresAt : Option ℕ := none
  lastUsedAt : Option ℕ := none
  deriving DecidableEq

structure OAuthClient where
  id : ℕ
  organizationId : ℕ
  clientId : String
  scopes : List String
  status : CredentialStatus
  expiresAt : Option ℕ := none
  deriving DecidableEq

structure DelegatedExecutionGrant where
  delegationId : ℕ
  clientId : String
  userId : ℕ
  organizationId : ℕ
  permissions : List String
  audience : String
  expiresAt : ℕ
  revokedAt : Option ℕ := none
  deriving DecidableEq

/-- `scope` of an integration credential, or an entry of a resolution policy. -/
inductive CredentialScope
  | user
  | organization
  | platform
  | anonymous
  | other (value : String)
  deriving DecidableEq

/-- `owner_key`, with its prefix as the constructor. -/
inductive OwnerKey
  | user (id : ℕ)
  | organization (id : ℕ)
  deriving DecidableEq

/-- The column's check constraint admits these two. -/
inductive IntegrationStatus
  | active
  | revoked
  deriving DecidableEq

/-- UNIQUE(provider_id, scope, owner_key). -/
structure IntegrationCredential where
  id : ℕ
  providerId : String
  scope : CredentialScope
  ownerKey : OwnerKey
  userId : Option ℕ
  organizationId : Option ℕ
  encryptedPayload : Option String
  maskedHint : Option String
  displayMetadata : Option (List (String × String))
  status : IntegrationStatus
  version : ℕ := 1
  createdAt : ℕ
  updatedAt : ℕ
  revokedAt : Option ℕ
  createdByUserId : ℕ
  updatedByUserId : ℕ
  deriving DecidableEq

/-- A short-lived capability for one credential. UNIQUE(token_hash). -/
structure IntegrationCredentialReference where
  id : ℕ
  tokenHash : ℕ
  credentialId : ℕ
  credentialVersion : ℕ
  providerId : String
  scope : CredentialScope
  subjectUserId : ℕ
  organizationId : Option ℕ
  consumer : String
  purpose : String
  expiresAt : ℕ
  revokedAt : Option ℕ := none
  deriving DecidableEq

/-! ## Second factors -/

/-- `mfa_devices.device_type`; only `totp` is ever written. -/
inductive DeviceType
  | totp
  | other (value : String)
  deriving DecidableEq

structure MFADevice where
  id : ℕ
  userId : ℕ
  deviceType : DeviceType := .totp
  encryptedSecret : String
  createdAt : ℕ := 0
  verifiedAt : Option ℕ := none
  lastUsedAt : Option ℕ := none
  disabledAt : Option ℕ := none
  deriving DecidableEq

/-- A redeemed TOTP code. UNIQUE(device_id, time_step). -/
structure MFAUsedTOTPStep where
  deviceId : ℕ
  timeStep : ℕ
  deriving DecidableEq

structure MFARecoveryCode where
  id : ℕ
  userId : ℕ
  codeHash : ℕ
  createdAt : ℕ := 0
  usedAt : Option ℕ := none
  deriving DecidableEq

structure MFAEmailOTP where
  id : ℕ
  userId : ℕ
  challengeJti : ℕ
  codeHash : ℕ
  attempts : ℕ
  createdAt : ℕ
  expiresAt : ℕ
  consumedAt : Option ℕ := none
  invalidatedAt : Option ℕ := none
  deriving DecidableEq

/-- The pre-authentication enrollment capability of one token. UNIQUE(token_jti),
UNIQUE(device_id). -/
structure MFAEnrollmentSession where
  id : ℕ
  userId : ℕ
  tokenJti : ℕ
  deviceId : Option ℕ := none
  createdAt : ℕ
  expiresAt : ℕ
  consumedAt : Option ℕ := none
  deriving DecidableEq

/-- UNIQUE(organization_id). -/
structure OrganizationMFAPolicy where
  organizationId : ℕ
  required : Bool
  overrideActive : Bool
  deriving DecidableEq

/-! ## Identities, licences and invitations -/

/-- An identity of a provider. UNIQUE(provider, provider_user_id,
organization_sso_config_id) and the same with the SAML configuration; a NULL there
clashes with nothing. -/
structure OAuthAccount where
  id : ℕ
  userId : ℕ
  provider : String
  providerUserId : String
  email : String
  organizationSsoConfigId : Option ℕ := none
  organizationSamlConfigId : Option ℕ := none
  deriving DecidableEq

/-- `status` of an organization's identity provider. -/
inductive IdpStatus
  | pendingVerification
  | active
  | disabled
  | other (value : Option String)
  deriving DecidableEq

/-- The columns `organization_sso_configs` has for itself. -/
structure OidcTrust where
  issuer : String := ""
  clientId : String := ""
  clientSecretEncrypted : String := ""
  authorizationEndpoint : Option String := none
  tokenEndpoint : Option String := none
  userinfoEndpoint : Option String := none
  jwksUri : Option String := none
  lastVerifiedAt : Option ℕ := none
  deriving DecidableEq

/-- The columns `organization_saml_configs` has for itself. -/
structure SamlTrust where
  entityId : String := ""
  ssoUrl : String := ""
  x509Certificate : String := ""
  attributeMapping : Option (List (String × String)) := none
  enabled : Bool := false
  sloUrl : Option String := none
  deriving DecidableEq

/-- A row of `organization_sso_configs` or of `organization_saml_configs`, with the
columns of the other table left as they are. UNIQUE(organization_id). -/
structure IdpConfig where
  id : ℕ
  organizationId : ℕ
  status : IdpStatus
  allowedDomains : List String
  enforced : Bool
  ssoOverrideAt : Option ℕ := none
  ssoOverrideReason : Option String := none
  ssoOverrideByUserId : Option ℕ := none
  updatedAt : Option ℕ := none
  updatedByUserId : Option ℕ := none
  oidc : OidcTrust := {}
  saml : SamlTrust := {}
  deriving DecidableEq

/-- `key` is UNIQUE and so is `key_digest`; a row has one of them. -/
structure LicenseKey where
  id : ℕ
  key : Option String := none
  keyDigest : Option ℕ := none
  userId : Option ℕ := none
  email : String
  plan : String := "beta"
  platform : String := "both"
  maxUses : ℕ := 1
  usageCount : ℕ := 0
  expiresAt : Option ℕ := none
  lastUsedAt : Option ℕ := none
  revokedAt : Option ℕ := none
  revokedReason : Option String := none
  renewedAt : Option ℕ := none
  machineId : Option String := none
  organizationId : Option ℕ := none
  keyPrefix : Option String := none
  recipientName : Option String := none
  deriving DecidableEq

/-- UNIQUE(actor_user_id, idempotency_key_hash). -/
structure LicenseIssuanceRequest where
  id : ℕ
  actorUserId : ℕ
  idempotencyKeyHash : ℕ
  requestFingerprint : ℕ
  licenseId : Option ℕ := none
  deriving DecidableEq

inductive InvitationStatus
  | pending
  | accepted
  | revoked
  | expired
  | other (value : String)
  deriving DecidableEq

/-- `token_hash` is UNIQUE and so is `active_key`, of which NULLs do not clash. -/
structure OrganizationInvitation where
  id : ℕ
  organizationId : ℕ
  invitedByUserId : ℕ
  inviterIsPlatformAdmin : Bool := false
  invitedEmail : String
  roleNames : List String
  tokenHash : ℕ
  activeKey : Option ℕ
  status : InvitationStatus
  createdAt : ℕ
  expiresAt : ℕ
  acceptedAt : Option ℕ := none
  acceptedUserId : Option ℕ := none
  revokedAt : Option ℕ := none
  revokedByUserId : Option ℕ := none
  mfaSecretEncrypted : Option String := none
  mfaSetupAt : Option ℕ := none
  mfaAttempts : ℕ := 0
  deriving DecidableEq

/-! ## The audit trail -/

inductive AuditEventType
  | loginSuccess
  | loginFailure
  | authRateLimitTriggered
  | oauthLogin
  | oauthLinked
  | oauthLinkRequired
  | oauthAccountCreated
  | oauthRejectedUnverifiedEmail
  | oauthRejectedNotApproved
  | orgMembershipChanged
  | orgInvitationCreated
  | orgInvitationAccepted
  | orgInvitationRevoked
  | orgInvitationExpired
  | orgInvitationDenied
  | roleCreated
  | roleAssigned
  | roleRemoved
  | roleAssignmentDenied
  | permissionGranted
  | permissionRevoked
  | sessionRevoked
  | userEnabled
  | userDisabled
  | serviceTokenMinted
  | serviceTokenMintDenied
  | mfaDeviceEnrollmentStarted
  | mfaDeviceAdded
  | mfaDeviceRemoved
  | mfaEnabled
  | mfaDisabled
  | mfaChallengeRequired
  | mfaVerified
  | mfaVerificationFailed
  | mfaEmailCodeSent
  | mfaEmailCodeResent
  | mfaRecoveryCodesGenerated
  | mfaRecoveryCodesRegenerated
  | mfaRecoveryCodeUsed
  | mfaResetByAdmin
  | mfaRateLimitTriggered
  | licenseIssued
  | licenseRevoked
  | licenseRenewed
  | integrationCredentialCreated
  | integrationCredentialReplaced
  | integrationCredentialRevoked
  | integrationCredentialReferenceIssued
  | integrationCredentialResolved
  | ssoConfigurationCreated
  | ssoConfigurationUpdated
  | ssoEnforcementChanged
  | ssoOverrideCreated
  | ssoOverrideRemoved
  | samlConfigurationCreated
  | samlConfigurationUpdated
  | samlEnforcementChanged
  | samlOverrideCreated
  | samlOverrideRemoved
  deriving DecidableEq

/-- A row of `audit_events`; the JSON columns are lists of entries. -/
structure AuditEvent where
  eventType : AuditEventType
  actorUserId : Option ℕ := none
  targetUserId : Option ℕ := none
  organizationId : Option ℕ := none
  resourceType : Option String := none
  resourceId : Option ℕ := none
  beforeState : List (String × String) := []
  afterState : List (String × String) := []
  metadata : List (String × String) := []
  createdAt : ℕ := 0
  deriving DecidableEq

/-! ## The tables -/

structure Database where
  users : List User
  roles : List Role
  organizations : List Organization
  memberships : List OrganizationMembership
  teams : List Team
  teamMembers : List TeamMember
  refreshTokens : List RefreshToken
  sessions : List UserSession
  auditEvents : List AuditEvent
  revokedTokens : List RevokedToken := []
  apiKeys : List ApiKey := []
  oauthClients : List OAuthClient := []
  delegatedExecutionGrants : List DelegatedExecutionGrant := []
  integrationCredentials : List IntegrationCredential := []
  integrationCredentialReferences : List IntegrationCredentialReference := []
  mfaDevices : List MFADevice := []
  mfaUsedTotpSteps : List MFAUsedTOTPStep := []
  mfaRecoveryCodes : List MFARecoveryCode := []
  mfaEmailOtps : List MFAEmailOTP := []
  mfaEnrollmentSessions : List MFAEnrollmentSession := []
  organizationMfaPolicies : List OrganizationMFAPolicy := []
  oauthAccounts : List OAuthAccount := []
  ssoConfigs : List IdpConfig := []
  samlConfigs : List IdpConfig := []
  licenseKeys : List LicenseKey := []
  licenseIssuanceRequests : List LicenseIssuanceRequest := []
  organizationInvitations : List OrganizationInvitation := []
  deriving DecidableEq

namespace Database

/-- A database with all tables empty. -/
def empty : Database where
  users := []
  roles := []
  organizations := []
  memberships := []
  teams := []
  teamMembers := []
  refreshTokens := []
  sessions := []
  auditEvents := []

variable (db : Database)

def userById (id : ℕ) : Option User := db.users.find? (·.id = id)

/-- `filter(RefreshToken.token_hash == h).first()` -/
def tokenByHash (h : ℕ) : Option RefreshToken := db.refreshTokens.find? (·.tokenHash = h)

/-- `session_service.get_by_family_id` -/
def getByFamilyId (familyId : Option ℕ) : Option UserSession :=
  familyId.bind fun f => db.sessions.find? (·.sessionId = f)

/-- The roles with these ids. -/
def rolesOf (ids : List ℕ) : List Role := db.roles.filter (·.id ∈ ids)

/-- The permission names of these roles. -/
def permissionsOf (ids : List ℕ) : List String := (db.rolesOf ids).flatMap (·.permissions)

/-- `org_service.resolve_primary_membership` -/
def resolvePrimaryMembership (userId : ℕ) : Option OrganizationMembership :=
  let memberships := db.memberships.filter fun m =>
    m.userId = userId ∧ m.status = .active
  let isDefault (m : OrganizationMembership) : Bool :=
    onSome (db.organizations.find? (·.id = m.organizationId)) fun o => o.slug = "default"
  match memberships.find? isDefault with
  | some m => some m
  | none => memberships.head?

/-- `team_service.resolve_team_claim` -/
def resolveTeamClaim (organizationId teamId : Option ℕ) (userId : ℕ) :
    Option ℕ × Option String :=
  match teamId, organizationId with
  | some t, some o =>
      match db.teams.find? (·.id = t) with
      | some team =>
          if team.organizationId = o then
            match db.teamMembers.find? fun m => m.teamId = t ∧ m.userId = userId with
            | some member => (some t, some member.role)
            | none => (none, none)
          else (none, none)
      | none => (none, none)
  | _, _ => (none, none)

end Database

end OmniAuth
