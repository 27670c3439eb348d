import OmniAuth.Model.Schema
import OmniAuth.Txn.Prog

/-!
# Statements

The writes the services issue, one constructor a statement, with what each
does to the tables. An `INSERT` is denied when a UNIQUE column of its row is
taken; an `UPDATE` touches the rows that match where it is executed, and the
columns it names. Each statement locks the rows it touches and the unique
values it claims.

Plain `SELECT`s are no statements here: consecutive reads of one transaction
share its snapshot, so they are one read of a query on the database.
-/

namespace OmniAuth

/-- Exceptions. `integrity` is SQLAlchemy's `IntegrityError`, `database` any
other failure of the driver; `http` carries status and detail; `refused` is
`MintRefused`; the ones after it are named as the services name them. -/
inductive Err
  | integrity
  | database
  | value (message : String)
  | lookup (message : String)
  | runtime (message : String)
  | http (status : ℕ) (detail : String)
  | ssoRequired (orgSlug ssoLoginUrl : String)
  | refused (reason : String)
  | mfaChallenge
  | mfaThrottled (retryAfterSeconds : ℤ)
  | mfaEnrollmentRequired
  | emailMfaUnavailable
  | emailMfaChallenge
  | emailMfaResendLimited (retryAfterSeconds : ℕ)
  | manualLicense (code message : String) (status : ℕ)
  | organizationInvitation (code message : String) (status : ℕ)
  | credential (message : String) (status : ℕ)
  | ssoDiscovery (message : String)
  | ssoLogin (message : String)
  | samlConfigValidation (message : String)
  | samlAssertion (message : String)
  | samlLogout (message : String)
  deriving DecidableEq

/-- What a row lock is on: a row by its primary key, or a value of a UNIQUE
column. -/
inductive RowKey
  | user (id : ℕ)
  | refreshToken (id : ℕ)
  | tokenHash (hash : ℕ)
  | session (id : ℕ)
  | sessionId (sessionId : ℕ)
  | apiKey (id : ℕ)
  | delegatedGrant (delegationId : ℕ)
  | tokenJti (jti : ℕ)
  | mfaDevice (id : ℕ)
  | totpStep (deviceId timeStep : ℕ)
  | recoveryCode (id : ℕ)
  | emailOtp (id : ℕ)
  | enrollmentSession (id : ℕ)
  | enrollmentJti (jti : ℕ)
  | enrollmentDevice (deviceId : ℕ)
  | email (email : String)
  | oauthAccount (id : ℕ)
  | identity (provider providerUserId : String) (saml : Bool) (configId : ℕ)
  | licenseKey (id : ℕ)
  | role (id : ℕ)
  | membership (id : ℕ)
  | member (organizationId userId : ℕ)
  | invitation (id : ℕ)
  | invitationHash (hash : ℕ)
  | activeKey (key : ℕ)
  | issuanceRequest (id : ℕ)
  | issuanceKey (actorUserId idempotencyKeyHash : ℕ)
  | licenseDigest (digest : ℕ)
  | integrationCredential (id : ℕ)
  | credentialOwner (providerId : String) (scope : CredentialScope) (ownerKey : OwnerKey)
  | credentialReference (id : ℕ)
  | referenceHash (hash : ℕ)
  | idpConfig (saml : Bool) (id : ℕ)
  | idpOrganization (saml : Bool) (organizationId : ℕ)
  deriving DecidableEq

/-- The history the claims speak of. The programs write it and never read
it. -/
inductive Event
  | policyEvaluated (familyId : ℕ) (t : ℕ)
  | reuseDetected (familyId : Option ℕ)
  | totpAccepted (deviceId timeStep : ℕ)
  | recoveryCodeAccepted (id : ℕ)
  | challengeCompleted (jti : Option ℕ)
  | throttleChecked (email : String)
  | passwordEvaluated (userId : ℕ) (verified : Bool)
  | failureRecorded (email : String) (clientIp : Option String)
  | successRecorded (email : String) (clientIp : Option String)
  deriving DecidableEq

/-- The columns of `integration_credentials` its service assigns; `none` for one the
ORM finds unchanged. -/
structure CredentialColumns where
  encryptedPayload : Option (Option String) := none
  maskedHint : Option (Option String) := none
  displayMetadata : Option (Option (List (String × String))) := none
  status : Option IntegrationStatus := none
  version : Option ℕ := none
  updatedAt : Option ℕ := none
  revokedAt : Option (Option ℕ) := none
  updatedByUserId : Option ℕ := none
  deriving DecidableEq

/-- Statements on keys, grants and integration credentials. -/
inductive CredentialStmt
  | touchApiKey (id : ℕ) (lastUsedAt : ℕ)
  | insertDelegatedGrant (row : DelegatedExecutionGrant)
  | insertIntegrationCredential (row : IntegrationCredential)
  | updateIntegrationCredential (id : ℕ) (columns : CredentialColumns)
  | insertCredentialReference (row : IntegrationCredentialReference)
  | revokeCredentialReferences (credentialId revokedAt : ℕ)
  deriving DecidableEq

/-- The columns of `users` the factor services assign; `none` for a column the
ORM finds unchanged and leaves out of its `UPDATE`. -/
structure MfaColumns where
  enabled : Option Bool := none
  status : Option String := none
  primaryMethod : Option (Option String) := none
  enabledAt : Option (Option ℕ) := none
  lastVerifiedAt : Option (Option ℕ) := none
  deriving DecidableEq

/-- Statements on second factors. Those of a challenge come first; the
`consume…` and `countOtpAttempt` ones carry their conditions in their `WHERE`. -/
inductive MfaStmt
  | insertUsedTotpStep (deviceId timeStep : ℕ)
  | insertRevokedToken (row : RevokedToken)
  | consumeRecoveryCode (id usedAt : ℕ)
  | touchDevice (id lastUsedAt : ℕ)
  | updateMfa (userId : ℕ) (columns : MfaColumns)
  | lockUser (userId : ℕ)
  | insertEmailOtp (row : MFAEmailOTP)
  | invalidateEmailOtps (userId now : ℕ)
  | countOtpAttempt (id maxAttempts : ℕ)
  | invalidateEmailOtp (id now : ℕ)
  | consumeEmailOtp (id codeHash now maxAttempts : ℕ)
  | insertDevice (row : MFADevice)
  | verifyDevice (id verifiedAt : ℕ)
  | disableDevices (ids : List ℕ) (disabledAt : ℕ)
  | markRecoveryCodes (ids : List ℕ) (usedAt : ℕ)
  | insertRecoveryCode (row : MFARecoveryCode)
  | insertEnrollmentSession (row : MFAEnrollmentSession)
  | lockEnrollmentSession (userId tokenJti now : ℕ)
  | bindEnrollmentSession (id deviceId : ℕ)
  | consumeEnrollmentSession (id now : ℕ)
  deriving DecidableEq

/-- Statements on accounts, their identities and their licences. `useLicense` binds
the owner and counts the use where the licence was unbound. A locking read whose
condition is no statement of ours finds its rows with `lockUsers []`, which reads the
latest state, and locks them by their ids. -/
inductive AccountStmt
  | insertUser (row : User)
  | assignUserRole (userId roleId : ℕ)
  | setPassword (userId : ℕ) (hashedPassword : String)
  | insertOAuthAccount (row : OAuthAccount)
  | useLicense (id : ℕ) (owner : Option (ℕ × ℕ)) (lastUsedAt : ℕ)
  | bindMachine (id : ℕ) (machineId : String)
  | lockUsers (ids : List ℕ)
  | insertIssuanceRequest (row : LicenseIssuanceRequest)
  | setIssuanceLicense (id licenseId : ℕ)
  | lockLicense (id : ℕ)
  | lockActiveLicenses (userId organizationId now : ℕ)
  | insertLicense (row : LicenseKey)
  | revokeLicense (id revokedAt : ℕ) (reason : Option String)
  | renewLicense (id expiresAt renewedAt : ℕ)
  deriving DecidableEq

/-- The columns of `organization_sso_configs` alone that its service assigns; `none` for one
the ORM finds unchanged. -/
structure OidcColumns where
  issuer : Option String := none
  clientId : Option String := none
  clientSecretEncrypted : Option String := none
  authorizationEndpoint : Option (Option String) := none
  tokenEndpoint : Option (Option String) := none
  userinfoEndpoint : Option (Option String) := none
  jwksUri : Option (Option String) := none
  lastVerifiedAt : Option (Option ℕ) := none
  deriving DecidableEq

/-- Those of `organization_saml_configs`. -/
structure SamlColumns where
  entityId : Option String := none
  ssoUrl : Option String := none
  x509Certificate : Option String := none
  attributeMapping : Option (Option (List (String × String))) := none
  enabled : Option Bool := none
  sloUrl : Option (Option String) := none
  deriving DecidableEq

/-- The columns of an identity provider's configuration its service assigns. -/
structure IdpColumns where
  oidc : OidcColumns := {}
  saml : SamlColumns := {}
  status : Option IdpStatus := none
  allowedDomains : Option (List String) := none
  enforced : Option Bool := none
  override : Option (Option (ℕ × String × ℕ)) := none
  updated : Option (ℕ × ℕ) := none
  deriving DecidableEq

/-- Statements on roles, memberships, invitations and identity providers (`saml` says
which table); the `lock…` ones are the `SELECT … FOR UPDATE` of the services. -/
inductive OrgStmt
  | insertRole (row : Role)
  | setRolePermissions (id : ℕ) (permissions : List String) (description : Option String)
  | deleteRole (id : ℕ)
  | insertMembership (row : OrganizationMembership)
  | setMembershipRoles (id : ℕ) (roleIds : List ℕ)
  | lockMembership (organizationId userId : ℕ)
  | activateMembership (id joinedAt : ℕ) (roleIds : List ℕ)
  | insertInvitation (row : OrganizationInvitation)
  | lockInvitation (tokenHash : ℕ)
  | lockPendingKey (activeKey : ℕ)
  | lockPendingOf (organizationId : ℕ)
  | expireInvitation (id : ℕ)
  | revokeInvitation (id revokedAt revokedByUserId : ℕ)
  | acceptInvitation (id acceptedAt acceptedUserId : ℕ)
  | failInvitation (id mfaAttempts : ℕ) (revokedAt : Option ℕ)
  | setInvitationSecret (id : ℕ) (mfaSecretEncrypted : String) (mfaSetupAt : ℕ)
  | addMembershipRole (id roleId : ℕ)
  | removeMembershipRole (id roleId : ℕ)
  | insertIdp (saml : Bool) (row : IdpConfig)
  | updateIdp (saml : Bool) (id : ℕ) (columns : IdpColumns)
  deriving DecidableEq

inductive Stmt
  | touchLogin (userId : ℕ) (lastLoginAt : ℕ) (method : PersistedAuthMethod)
  | setStatus (userId : ℕ) (status : UserStatus) (changedAt : ℕ) (reason : Option String)
      (actorUserId : ℕ)
  | insertRefreshToken (row : RefreshToken)
  | revokeRefreshToken (id : ℕ)
  | rotateRefreshToken (id : ℕ) (rotatedAt : ℕ) (backfill : Option ℕ)
  | revokeFamily (familyId : ℕ)
  | lockActiveSessions (userId : ℕ)
  | insertSession (row : UserSession)
  | touchSession (id : ℕ) (lastActivityAt expiresAt : ℕ)
  | revokeSession (id : ℕ) (revokedAt : ℕ) (reason : RevokedReason)
  | insertAuditEvent (event : AuditEvent)
  | credential (stmt : CredentialStmt)
  | mfa (stmt : MfaStmt)
  | account (stmt : AccountStmt)
  | org (stmt : OrgStmt)
  deriving DecidableEq

namespace RefreshToken

def revoke (r : RefreshToken) : RefreshToken := { r with revoked := true }

/-- The columns rotation writes on the presented row. -/
def rotate (at' : ℕ) (backfill : Option ℕ) (r : RefreshToken) : RefreshToken :=
  { r with revoked := true, rotatedAt := some at', familyId := backfill.orElse fun _ => r.familyId }

end RefreshToken

namespace UserSession

def revoke (at' : ℕ) (reason : RevokedReason) (s : UserSession) : UserSession :=
  { s with status := .revoked, revokedAt := some at', revokedReason := some reason }

def touch (lastActivityAt expiresAt : ℕ) (s : UserSession) : UserSession :=
  { s with lastActivityAt := lastActivityAt, expiresAt := expiresAt }

end UserSession

namespace User

def touchLogin (lastLoginAt : ℕ) (method : PersistedAuthMethod) (u : User) : User :=
  { u with lastLoginAt := some lastLoginAt, authenticationMethod := some method }

def setStatus (status : UserStatus) (changedAt : ℕ) (reason : Option String)
    (actorUserId : ℕ) (u : User) : User :=
  { u with status := status, statusChangedAt := some changedAt, statusChangedReason := reason,
           statusChangedByUserId := some actorUserId }

def setMfa (columns : MfaColumns) (u : User) : User :=
  { u with mfaEnabled := columns.enabled.getD u.mfaEnabled
           mfaStatus := columns.status.orElse fun _ => u.mfaStatus
           mfaPrimaryMethod := columns.primaryMethod.getD u.mfaPrimaryMethod
           mfaEnabledAt := columns.enabledAt.getD u.mfaEnabledAt
           mfaLastVerifiedAt := columns.lastVerifiedAt.getD u.mfaLastVerifiedAt }

end User

namespace MFADevice

/-- `verified_at IS NOT NULL AND disabled_at IS NULL` -/
def Active (d : MFADevice) : Prop := d.verifiedAt.isSome ∧ d.disabledAt = none

instance (d : MFADevice) : Decidable d.Active := inferInstanceAs (Decidable (_ ∧ _))

end MFADevice

namespace MFAEmailOTP

/-- `consumed_at IS NULL AND invalidated_at IS NULL` -/
def Open (o : MFAEmailOTP) : Prop := o.consumedAt = none ∧ o.invalidatedAt = none

instance (o : MFAEmailOTP) : Decidable o.Open := inferInstanceAs (Decidable (_ ∧ _))

end MFAEmailOTP

namespace MFAEnrollmentSession

/-- `expires_at > now AND consumed_at IS NULL` -/
def Live (now : ℕ) (s : MFAEnrollmentSession) : Prop := now < s.expiresAt ∧ s.consumedAt = none

instance (now : ℕ) (s : MFAEnrollmentSession) : Decidable (s.Live now) :=
  inferInstanceAs (Decidable (_ ∧ _))

end MFAEnrollmentSession

namespace IntegrationCredential

def set (columns : CredentialColumns) (c : IntegrationCredential) : IntegrationCredential :=
  { c with encryptedPayload := columns.encryptedPayload.getD c.encryptedPayload
           maskedHint := columns.maskedHint.getD c.maskedHint
           displayMetadata := columns.displayMetadata.getD c.displayMetadata
           status := columns.status.getD c.status
           version := columns.version.getD c.version
           updatedAt := columns.updatedAt.getD c.updatedAt
           revokedAt := columns.revokedAt.getD c.revokedAt
           updatedByUserId := columns.updatedByUserId.getD c.updatedByUserId }

end IntegrationCredential

namespace LicenseKey

/-- `revoked_at IS NULL AND (expires_at IS NULL OR expires_at > now)` -/
def Active (now : ℕ) (l : LicenseKey) : Prop :=
  l.revokedAt = none ∧ (l.expiresAt = none ∨ onSome l.expiresAt (now < ·))

instance (now : ℕ) (l : LicenseKey) : Decidable (l.Active now) :=
  inferInstanceAs (Decidable (_ ∧ _))

/-- `user_id = … AND organization_id = …` -/
def HeldBy (userId organizationId : ℕ) (l : LicenseKey) : Prop :=
  l.userId = some userId ∧ l.organizationId = some organizationId

instance (userId organizationId : ℕ) (l : LicenseKey) :
    Decidable (l.HeldBy userId organizationId) :=
  inferInstanceAs (Decidable (_ ∧ _))

def revoke (at' : ℕ) (reason : Option String) (l : LicenseKey) : LicenseKey :=
  { l with revokedAt := some at', revokedReason := reason }

def renew (expiresAt at' : ℕ) (l : LicenseKey) : LicenseKey :=
  { l with expiresAt := some expiresAt, renewedAt := some at' }

end LicenseKey

def OidcTrust.set (columns : OidcColumns) (t : OidcTrust) : OidcTrust where
  issuer := columns.issuer.getD t.issuer
  clientId := columns.clientId.getD t.clientId
  clientSecretEncrypted := columns.clientSecretEncrypted.getD t.clientSecretEncrypted
  authorizationEndpoint := columns.authorizationEndpoint.getD t.authorizationEndpoint
  tokenEndpoint := columns.tokenEndpoint.getD t.tokenEndpoint
  userinfoEndpoint := columns.userinfoEndpoint.getD t.userinfoEndpoint
  jwksUri := columns.jwksUri.getD t.jwksUri
  lastVerifiedAt := columns.lastVerifiedAt.getD t.lastVerifiedAt

def SamlTrust.set (columns : SamlColumns) (t : SamlTrust) : SamlTrust where
  entityId := columns.entityId.getD t.entityId
  ssoUrl := columns.ssoUrl.getD t.ssoUrl
  x509Certificate := columns.x509Certificate.getD t.x509Certificate
  attributeMapping := columns.attributeMapping.getD t.attributeMapping
  enabled := columns.enabled.getD t.enabled
  sloUrl := columns.sloUrl.getD t.sloUrl

namespace IdpConfig

def set (columns : IdpColumns) (c : IdpConfig) : IdpConfig :=
  { c with oidc := c.oidc.set columns.oidc
           saml := c.saml.set columns.saml
           status := columns.status.getD c.status
           allowedDomains := columns.allowedDomains.getD c.allowedDomains
           enforced := columns.enforced.getD c.enforced
           ssoOverrideAt := (columns.override.map (Option.map (·.1))).getD c.ssoOverrideAt
           ssoOverrideReason :=
             (columns.override.map (Option.map (·.2.1))).getD c.ssoOverrideReason
           ssoOverrideByUserId :=
             (columns.override.map (Option.map (·.2.2))).getD c.ssoOverrideByUserId
           updatedAt := (columns.updated.map (some ·.1)).getD c.updatedAt
           updatedByUserId := (columns.updated.map (some ·.2)).getD c.updatedByUserId }

end IdpConfig

namespace Database

/-- `UPDATE users SET … WHERE id = …` -/
def updateUser (id : ℕ) (f : User → User) (db : Database) : Database :=
  { db with users := db.users.map fun u => if u.id = id then f u else u }

/-- `UPDATE refresh_tokens SET … WHERE id IN …` -/
def updateTokens (ids : List ℕ) (f : RefreshToken → RefreshToken) (db : Database) : Database :=
  { db with refreshTokens := db.refreshTokens.map fun r => if r.id ∈ ids then f r else r }

/-- `UPDATE sessions SET … WHERE id = …` -/
def updateSession (id : ℕ) (f : UserSession → UserSession) (db : Database) : Database :=
  { db with sessions := db.sessions.map fun s => if s.id = id then f s else s }

def insertToken (row : RefreshToken) (db : Database) : Database :=
  { db with refreshTokens := db.refreshTokens ++ [row] }

def insertSession (row : UserSession) (db : Database) : Database :=
  { db with sessions := db.sessions ++ [row] }

def insertAudit (event : AuditEvent) (db : Database) : Database :=
  { db with auditEvents := db.auditEvents ++ [event] }

/-- `UPDATE mfa_devices SET … WHERE id IN …` -/
def updateDevices (ids : List ℕ) (f : MFADevice → MFADevice) (db : Database) : Database :=
  { db with mfaDevices := db.mfaDevices.map fun d => if d.id ∈ ids then f d else d }

/-- `UPDATE mfa_recovery_codes SET used_at = … WHERE …` -/
def useCodes (p : MFARecoveryCode → Bool) (usedAt : ℕ) (db : Database) : Database :=
  { db with mfaRecoveryCodes :=
      db.mfaRecoveryCodes.map fun c => if p c then { c with usedAt := some usedAt } else c }

/-- `UPDATE mfa_email_otps SET … WHERE …` -/
def updateOtps (p : MFAEmailOTP → Bool) (f : MFAEmailOTP → MFAEmailOTP) (db : Database) :
    Database :=
  { db with mfaEmailOtps := db.mfaEmailOtps.map fun o => if p o then f o else o }

/-- `UPDATE mfa_enrollment_sessions SET … WHERE …` -/
def updateEnrollments (p : MFAEnrollmentSession → Bool)
    (f : MFAEnrollmentSession → MFAEnrollmentSession) (db : Database) : Database :=
  { db with mfaEnrollmentSessions :=
      db.mfaEnrollmentSessions.map fun s => if p s then f s else s }

/-- `UPDATE license_keys SET … WHERE id = …` -/
def updateLicense (id : ℕ) (f : LicenseKey → LicenseKey) (db : Database) : Database :=
  { db with licenseKeys := db.licenseKeys.map fun l => if l.id = id then f l else l }

/-- An update of the role `id`. -/
def updateRole (id : ℕ) (f : Role → Role) (db : Database) : Database :=
  { db with roles := db.roles.map fun r => if r.id = id then f r else r }

/-- `UPDATE organization_memberships SET … WHERE id = …` -/
def updateMembership (id : ℕ) (f : OrganizationMembership → OrganizationMembership)
    (db : Database) : Database :=
  { db with memberships := db.memberships.map fun m => if m.id = id then f m else m }

/-- `UPDATE organization_invitations SET … WHERE id = …` -/
def updateInvitation (id : ℕ) (f : OrganizationInvitation → OrganizationInvitation)
    (db : Database) : Database :=
  { db with organizationInvitations :=
      db.organizationInvitations.map fun i => if i.id = id then f i else i }

/-- `UPDATE integration_credentials SET … WHERE id = …` -/
def updateCredential (id : ℕ) (f : IntegrationCredential → IntegrationCredential)
    (db : Database) : Database :=
  { db with integrationCredentials :=
      db.integrationCredentials.map fun c => if c.id = id then f c else c }

/-- The configurations of one kind. -/
def idpConfigs (saml : Bool) (db : Database) : List IdpConfig :=
  if saml then db.samlConfigs else db.ssoConfigs

def mapIdpConfigs (saml : Bool) (f : List IdpConfig → List IdpConfig) (db : Database) : Database :=
  if saml then { db with samlConfigs := f db.samlConfigs }
  else { db with ssoConfigs := f db.ssoConfigs }

theorem forall_updateTokens {db : Database} {ids : List ℕ} {f : RefreshToken → RefreshToken}
    {P : RefreshToken → Prop} :
    (∀ r ∈ (db.updateTokens ids f).refreshTokens, P r) ↔
      ∀ r ∈ db.refreshTokens, (r.id ∈ ids → P (f r)) ∧ (r.id ∉ ids → P r) := by
  simp only [updateTokens, List.forall_mem_map]
  refine forall_congr' fun r => forall_congr' fun _ => ?_
  by_cases h : r.id ∈ ids <;> simp [h]

theorem forall_updateSession {db : Database} {id : ℕ} {f : UserSession → UserSession}
    {P : UserSession → Prop} :
    (∀ s ∈ (db.updateSession id f).sessions, P s) ↔
      ∀ s ∈ db.sessions, (s.id = id → P (f s)) ∧ (s.id ≠ id → P s) := by
  simp only [updateSession, List.forall_mem_map]
  refine forall_congr' fun s => forall_congr' fun _ => ?_
  by_cases h : s.id = id <;> simp [h]

/-- The rows `UPDATE refresh_tokens … WHERE family_id = f` matches. -/
def familyIds (db : Database) (f : ℕ) : List ℕ :=
  (db.refreshTokens.filter (·.familyId = some f)).map (·.id)

/-- The sessions of a user whose persisted status is `active`. -/
def activeSessions (db : Database) (userId : ℕ) : List UserSession :=
  db.sessions.filter fun s => s.userId = userId ∧ s.status = .active

end Database

open Txn (Effect)

def CredentialStmt.denote (stmt : CredentialStmt) (db : Database) :
    Except Err (Effect Database RowKey) :=
  match stmt with
  | touchApiKey id t =>
      .ok ⟨[.apiKey id], fun db => { db with
        apiKeys := db.apiKeys.map fun k => if k.id = id then { k with lastUsedAt := some t } else k }⟩
  | insertDelegatedGrant row =>
      if ∃ g ∈ db.delegatedExecutionGrants, g.delegationId = row.delegationId then
        .error .integrity
      else
        .ok ⟨[.delegatedGrant row.delegationId], fun db => { db with
          delegatedExecutionGrants := db.delegatedExecutionGrants ++ [row] }⟩
  | insertIntegrationCredential row =>
      if ∃ c ∈ db.integrationCredentials, c.id = row.id ∨
          (c.providerId = row.providerId ∧ c.scope = row.scope ∧ c.ownerKey = row.ownerKey) then
        .error .integrity
      else
        .ok ⟨[.integrationCredential row.id,
          .credentialOwner row.providerId row.scope row.ownerKey], fun db => { db with
            integrationCredentials := db.integrationCredentials ++ [row] }⟩
  | updateIntegrationCredential id columns =>
      .ok ⟨[.integrationCredential id],
        Database.updateCredential id (IntegrationCredential.set columns)⟩
  | insertCredentialReference row =>
      if ∃ r ∈ db.integrationCredentialReferences, r.id = row.id ∨
          r.tokenHash = row.tokenHash then
        .error .integrity
      else
        .ok ⟨[.credentialReference row.id, .referenceHash row.tokenHash], fun db => { db with
          integrationCredentialReferences := db.integrationCredentialReferences ++ [row] }⟩
  | revokeCredentialReferences credentialId t =>
      .ok ⟨(db.integrationCredentialReferences.filter fun r =>
          r.credentialId = credentialId ∧ r.revokedAt = none).map
            fun r => .credentialReference r.id, fun db => { db with
          integrationCredentialReferences := db.integrationCredentialReferences.map fun r =>
            if r.credentialId = credentialId ∧ r.revokedAt = none then
              { r with revokedAt := some t } else r }⟩

/-- The rows of `mfa_email_otps` a condition matches, as locks. -/
def Database.otpLocks (db : Database) (p : MFAEmailOTP → Bool) : List RowKey :=
  (db.mfaEmailOtps.filter p).map fun o => .emailOtp o.id

/-- The codes of a user that are neither consumed nor invalidated. -/
def Database.openOtpIds (db : Database) (userId : ℕ) : List ℕ :=
  (db.mfaEmailOtps.filter fun o => o.userId = userId ∧ o.Open).map (·.id)

def MfaStmt.denote (stmt : MfaStmt) (db : Database) : Except Err (Effect Database RowKey) :=
  match stmt with
  | insertUsedTotpStep d t =>
      if ⟨d, t⟩ ∈ db.mfaUsedTotpSteps then .error .integrity
      else .ok ⟨[.totpStep d t], fun db => { db with
        mfaUsedTotpSteps := db.mfaUsedTotpSteps ++ [⟨d, t⟩] }⟩
  | insertRevokedToken row =>
      if ∃ t ∈ db.revokedTokens, t.tokenJti = row.tokenJti then .error .integrity
      else .ok ⟨[.tokenJti row.tokenJti], fun db => { db with
        revokedTokens := db.revokedTokens ++ [row] }⟩
  | consumeRecoveryCode id t =>
      .ok ⟨[.recoveryCode id], Database.useCodes (fun c => c.id = id ∧ c.usedAt = none) t⟩
  | touchDevice id t =>
      .ok ⟨[.mfaDevice id], Database.updateDevices [id] fun d => { d with lastUsedAt := some t }⟩
  | updateMfa userId columns =>
      .ok ⟨[.user userId], Database.updateUser userId (User.setMfa columns)⟩
  | lockUser userId => .ok ⟨[.user userId], id⟩
  | insertEmailOtp row =>
      if ∃ o ∈ db.mfaEmailOtps, o.id = row.id then .error .integrity
      else .ok ⟨[.emailOtp row.id], fun db => { db with
        mfaEmailOtps := db.mfaEmailOtps ++ [row] }⟩
  | invalidateEmailOtps userId now =>
      .ok ⟨db.otpLocks fun o => o.userId = userId ∧ o.Open,
        Database.updateOtps (fun o => o.id ∈ db.openOtpIds userId)
          fun o => { o with invalidatedAt := some now }⟩
  | countOtpAttempt id maxAttempts =>
      .ok ⟨[.emailOtp id],
        Database.updateOtps (fun o => o.id = id ∧ o.Open ∧ o.attempts < maxAttempts)
          fun o => { o with attempts := o.attempts + 1 }⟩
  | invalidateEmailOtp id now =>
      .ok ⟨[.emailOtp id],
        Database.updateOtps (fun o => o.id = id) fun o => { o with invalidatedAt := some now }⟩
  | consumeEmailOtp id codeHash now maxAttempts =>
      .ok ⟨[.emailOtp id],
        Database.updateOtps
          (fun o => o.id = id ∧ o.codeHash = codeHash ∧ o.Open ∧ now < o.expiresAt ∧
            o.attempts < maxAttempts)
          fun o => { o with consumedAt := some now }⟩
  | insertDevice row =>
      if ∃ d ∈ db.mfaDevices, d.id = row.id then .error .integrity
      else .ok ⟨[.mfaDevice row.id], fun db => { db with mfaDevices := db.mfaDevices ++ [row] }⟩
  | verifyDevice id t =>
      .ok ⟨[.mfaDevice id], Database.updateDevices [id] fun d => { d with verifiedAt := some t }⟩
  | disableDevices ids t =>
      .ok ⟨ids.map .mfaDevice,
        Database.updateDevices ids fun d => { d with disabledAt := some t }⟩
  | markRecoveryCodes ids t =>
      .ok ⟨ids.map .recoveryCode, Database.useCodes (fun c => c.id ∈ ids) t⟩
  | insertRecoveryCode row =>
      if ∃ c ∈ db.mfaRecoveryCodes, c.id = row.id then .error .integrity
      else .ok ⟨[.recoveryCode row.id], fun db => { db with
        mfaRecoveryCodes := db.mfaRecoveryCodes ++ [row] }⟩
  | insertEnrollmentSession row =>
      if ∃ s ∈ db.mfaEnrollmentSessions, s.id = row.id ∨ s.tokenJti = row.tokenJti then
        .error .integrity
      else .ok ⟨[.enrollmentSession row.id, .enrollmentJti row.tokenJti], fun db => { db with
        mfaEnrollmentSessions := db.mfaEnrollmentSessions ++ [row] }⟩
  | lockEnrollmentSession userId tokenJti now =>
      .ok ⟨(db.mfaEnrollmentSessions.filter fun s =>
          s.userId = userId ∧ s.tokenJti = tokenJti ∧ s.Live now).map
        fun s => .enrollmentSession s.id, id⟩
  | bindEnrollmentSession id deviceId =>
      if ∃ s ∈ db.mfaEnrollmentSessions, s.deviceId = some deviceId ∧ s.id ≠ id then
        .error .integrity
      else .ok ⟨[.enrollmentSession id, .enrollmentDevice deviceId],
        Database.updateEnrollments (fun s => s.id = id)
          fun s => { s with deviceId := some deviceId }⟩
  | consumeEnrollmentSession id now =>
      .ok ⟨[.enrollmentSession id],
        Database.updateEnrollments (fun s => s.id = id ∧ s.Live now)
          fun s => { s with consumedAt := some now }⟩

/-- The unique values of an identity, one for each configuration it names. -/
def OAuthAccount.keys (row : OAuthAccount) : List RowKey :=
  (row.organizationSsoConfigId.toList.map (.identity row.provider row.providerUserId false)) ++
    row.organizationSamlConfigId.toList.map (.identity row.provider row.providerUserId true)

/-- The licences of a holder that are active at `now`. -/
def Database.activeLicenses (db : Database) (userId organizationId now : ℕ) : List LicenseKey :=
  db.licenseKeys.filter fun l => l.HeldBy userId organizationId ∧ l.Active now

def AccountStmt.denote (stmt : AccountStmt) (db : Database) :
    Except Err (Effect Database RowKey) :=
  match stmt with
  | insertUser row =>
      if ∃ u ∈ db.users, u.id = row.id ∨ (u.email.isSome ∧ u.email = row.email) then
        .error .integrity
      else .ok ⟨.user row.id :: row.email.toList.map .email, fun db => { db with
        users := db.users ++ [row] }⟩
  | assignUserRole userId roleId =>
      .ok ⟨[.user userId], Database.updateUser userId fun u =>
        { u with roleIds := if roleId ∈ u.roleIds then u.roleIds else u.roleIds ++ [roleId] }⟩
  | setPassword userId hash =>
      .ok ⟨[.user userId], Database.updateUser userId fun u =>
        { u with hashedPassword := some hash }⟩
  | insertOAuthAccount row =>
      if ∃ a ∈ db.oauthAccounts, a.id = row.id ∨ ∃ k ∈ a.keys, k ∈ row.keys then .error .integrity
      else .ok ⟨.oauthAccount row.id :: row.keys, fun db => { db with
        oauthAccounts := db.oauthAccounts ++ [row] }⟩
  | useLicense id owner t =>
      .ok ⟨[.licenseKey id], Database.updateLicense id fun l =>
        { l with userId := (owner.map (·.1)).orElse fun _ => l.userId
                 usageCount := (owner.map (·.2)).getD l.usageCount
                 lastUsedAt := some t }⟩
  | bindMachine id machineId =>
      .ok ⟨[.licenseKey id], Database.updateLicense id fun l =>
        { l with machineId := some machineId }⟩
  | lockUsers ids => .ok ⟨ids.map .user, id⟩
  | insertIssuanceRequest row =>
      if ∃ r ∈ db.licenseIssuanceRequests, r.id = row.id ∨
          (r.actorUserId = row.actorUserId ∧ r.idempotencyKeyHash = row.idempotencyKeyHash) then
        .error .integrity
      else
        .ok ⟨[.issuanceRequest row.id, .issuanceKey row.actorUserId row.idempotencyKeyHash],
          fun db => { db with licenseIssuanceRequests := db.licenseIssuanceRequests ++ [row] }⟩
  | setIssuanceLicense id licenseId =>
      .ok ⟨[.issuanceRequest id], fun db => { db with
        licenseIssuanceRequests := db.licenseIssuanceRequests.map fun r =>
          if r.id = id then { r with licenseId := some licenseId } else r }⟩
  | lockLicense id => .ok ⟨[.licenseKey id], fun db => db⟩
  | lockActiveLicenses userId organizationId now =>
      .ok ⟨(db.activeLicenses userId organizationId now).map fun l => .licenseKey l.id, id⟩
  | insertLicense row =>
      if ∃ l ∈ db.licenseKeys, l.id = row.id ∨ (l.keyDigest.isSome ∧ l.keyDigest = row.keyDigest) then
        .error .integrity
      else
        .ok ⟨.licenseKey row.id :: row.keyDigest.toList.map .licenseDigest,
          fun db => { db with licenseKeys := db.licenseKeys ++ [row] }⟩
  | revokeLicense id t reason =>
      .ok ⟨[.licenseKey id], Database.updateLicense id (LicenseKey.revoke t reason)⟩
  | renewLicense id expiresAt t =>
      .ok ⟨[.licenseKey id], Database.updateLicense id (LicenseKey.renew expiresAt t)⟩

/-- The rows of `organization_invitations` a condition matches, as locks. -/
def Database.invitationLocks (db : Database) (p : OrganizationInvitation → Bool) :
    List RowKey :=
  (db.organizationInvitations.filter p).map fun i => .invitation i.id

namespace OrganizationInvitation

def expire (i : OrganizationInvitation) : OrganizationInvitation :=
  { i with status := .expired, activeKey := none }

def revoke (t : ℕ) (userId : Option ℕ) (i : OrganizationInvitation) : OrganizationInvitation :=
  { i with status := .revoked, activeKey := none, revokedAt := some t,
           revokedByUserId := userId.orElse fun _ => i.revokedByUserId }

def accept (t userId : ℕ) (i : OrganizationInvitation) : OrganizationInvitation :=
  { i with status := .accepted, activeKey := none, acceptedAt := some t,
           acceptedUserId := some userId, mfaSecretEncrypted := none }

/-- One failed second factor more; the last one revokes. -/
def fail (attempts : ℕ) (revokedAt : Option ℕ) (i : OrganizationInvitation) :
    OrganizationInvitation :=
  match revokedAt with
  | some t => { i.revoke t none with mfaAttempts := attempts }
  | none => { i with mfaAttempts := attempts }

end OrganizationInvitation

def OrgStmt.denote (stmt : OrgStmt) (db : Database) : Except Err (Effect Database RowKey) :=
  match stmt with
  | insertRole row =>
      if ∃ r ∈ db.roles, r.id = row.id then .error .integrity
      else .ok ⟨[.role row.id], fun db => { db with roles := db.roles ++ [row] }⟩
  | setRolePermissions id permissions description =>
      .ok ⟨[.role id], Database.updateRole id fun r =>
        { r with permissions := permissions
                 description := description.orElse fun _ => r.description }⟩
  | deleteRole id =>
      .ok ⟨[.role id], fun db => { db with roles := db.roles.filter (·.id ≠ id) }⟩
  | insertMembership row =>
      if ∃ m ∈ db.memberships, m.id = row.id ∨
          (m.organizationId = row.organizationId ∧ m.userId = row.userId) then
        .error .integrity
      else .ok ⟨[.membership row.id, .member row.organizationId row.userId], fun db => { db with
        memberships := db.memberships ++ [row] }⟩
  | setMembershipRoles id roleIds =>
      .ok ⟨[.membership id], Database.updateMembership id fun m => { m with roleIds := roleIds }⟩
  | lockMembership organizationId userId =>
      .ok ⟨(db.memberships.filter fun m =>
          m.organizationId = organizationId ∧ m.userId = userId).map fun m => .membership m.id, id⟩
  | activateMembership id joinedAt roleIds =>
      .ok ⟨[.membership id], Database.updateMembership id fun m =>
        { m with status := .active, joinedAt := joinedAt, roleIds := roleIds }⟩
  | insertInvitation row =>
      if ∃ i ∈ db.organizationInvitations, i.id = row.id ∨ i.tokenHash = row.tokenHash ∨
          (i.activeKey.isSome ∧ i.activeKey = row.activeKey) then
        .error .integrity
      else .ok ⟨.invitation row.id :: .invitationHash row.tokenHash ::
          row.activeKey.toList.map .activeKey, fun db => { db with
        organizationInvitations := db.organizationInvitations ++ [row] }⟩
  | lockInvitation tokenHash => .ok ⟨db.invitationLocks (·.tokenHash = tokenHash), id⟩
  | lockPendingKey key =>
      .ok ⟨db.invitationLocks fun i => i.activeKey = some key ∧ i.status = .pending, id⟩
  | lockPendingOf organizationId =>
      .ok ⟨db.invitationLocks fun i => i.organizationId = organizationId ∧ i.status = .pending, id⟩
  | expireInvitation id =>
      .ok ⟨[.invitation id], Database.updateInvitation id OrganizationInvitation.expire⟩
  | revokeInvitation id t userId =>
      .ok ⟨[.invitation id],
        Database.updateInvitation id (OrganizationInvitation.revoke t (some userId))⟩
  | acceptInvitation id t userId =>
      .ok ⟨[.invitation id], Database.updateInvitation id (OrganizationInvitation.accept t userId)⟩
  | failInvitation id attempts revokedAt =>
      .ok ⟨[.invitation id],
        Database.updateInvitation id (OrganizationInvitation.fail attempts revokedAt)⟩
  | setInvitationSecret id secret t =>
      .ok ⟨[.invitation id], Database.updateInvitation id fun i =>
        { i with mfaSecretEncrypted := some secret, mfaSetupAt := some t }⟩
  | addMembershipRole id roleId =>
      .ok ⟨[.membership id], Database.updateMembership id fun m =>
        { m with roleIds := if roleId ∈ m.roleIds then m.roleIds else m.roleIds ++ [roleId] }⟩
  | removeMembershipRole id roleId =>
      .ok ⟨[.membership id], Database.updateMembership id fun m =>
        { m with roleIds := m.roleIds.filter (· ≠ roleId) }⟩
  | insertIdp saml row =>
      if ∃ c ∈ db.idpConfigs saml, c.id = row.id ∨ c.organizationId = row.organizationId then
        .error .integrity
      else
        .ok ⟨[.idpConfig saml row.id, .idpOrganization saml row.organizationId],
          Database.mapIdpConfigs saml fun configs => configs ++ [row]⟩
  | updateIdp saml id columns =>
      .ok ⟨[.idpConfig saml id], Database.mapIdpConfigs saml fun configs =>
        configs.map fun c => if c.id = id then c.set columns else c⟩

/-! What a group of statements leaves alone: the other tables. -/

namespace Database

def beyondCredentials (db : Database) : Database :=
  { db with apiKeys := [], delegatedExecutionGrants := [], integrationCredentials := []
            integrationCredentialReferences := [] }

def beyondAccounts (db : Database) : Database :=
  { db with users := [], oauthAccounts := [], licenseKeys := [], licenseIssuanceRequests := [] }

def beyondOrgs (db : Database) : Database :=
  { db with roles := [], memberships := [], organizationInvitations := [], ssoConfigs := []
            samlConfigs := [] }

end Database

theorem CredentialStmt.frame {stmt : CredentialStmt} {seen : Database}
    {eff : Effect Database RowKey} (h : stmt.denote seen = .ok eff) (db : Database) :
    (eff.delta db).beyondCredentials = db.beyondCredentials := by
  cases stmt <;> simp only [CredentialStmt.denote] at h <;> (try split at h) <;> cases h <;> rfl

theorem AccountStmt.frame {stmt : AccountStmt} {seen : Database} {eff : Effect Database RowKey}
    (h : stmt.denote seen = .ok eff) (db : Database) :
    (eff.delta db).beyondAccounts = db.beyondAccounts := by
  cases stmt <;> simp only [AccountStmt.denote] at h <;> (try split at h) <;> cases h <;> rfl

theorem OrgStmt.frame {stmt : OrgStmt} {seen : Database} {eff : Effect Database RowKey}
    (h : stmt.denote seen = .ok eff) (db : Database) :
    (eff.delta db).beyondOrgs = db.beyondOrgs := by
  cases stmt with
  | insertIdp saml row =>
    simp only [OrgStmt.denote] at h
    split at h
    · cases h
    obtain rfl := Except.ok.inj h
    cases saml <;> rfl
  | updateIdp saml id columns =>
    obtain rfl := Except.ok.inj h
    cases saml <;> rfl
  | _ =>
    simp only [OrgStmt.denote] at h
    (try split at h) <;> cases h
    all_goals rfl

/-- A part of the database that does not look at the tables of a group is the same
after its statements. -/
theorem CredentialStmt.keeps {β : Type} (part : Database → β)
    (hpart : ∀ db : Database, part db.beyondCredentials = part db) {stmt : CredentialStmt}
    {seen : Database} {eff : Effect Database RowKey} (h : stmt.denote seen = .ok eff)
    (db : Database) : part (eff.delta db) = part db := by
  rw [← hpart, CredentialStmt.frame h db, hpart]

theorem AccountStmt.keeps {β : Type} (part : Database → β)
    (hpart : ∀ db : Database, part db.beyondAccounts = part db) {stmt : AccountStmt}
    {seen : Database} {eff : Effect Database RowKey} (h : stmt.denote seen = .ok eff)
    (db : Database) : part (eff.delta db) = part db := by
  rw [← hpart, AccountStmt.frame h db, hpart]

theorem OrgStmt.keeps {β : Type} (part : Database → β)
    (hpart : ∀ db : Database, part db.beyondOrgs = part db) {stmt : OrgStmt}
    {seen : Database} {eff : Effect Database RowKey} (h : stmt.denote seen = .ok eff)
    (db : Database) : part (eff.delta db) = part db := by
  rw [← hpart, OrgStmt.frame h db, hpart]

/-- What a statement does where it is executed. -/
def denote (stmt : Stmt) (db : Database) : Except Err (Effect Database RowKey) :=
  match stmt with
  | .touchLogin userId t method =>
      .ok ⟨[.user userId], Database.updateUser userId (User.touchLogin t method)⟩
  | .setStatus userId status t reason actor =>
      .ok ⟨[.user userId], Database.updateUser userId (User.setStatus status t reason actor)⟩
  | .insertRefreshToken row =>
      if ∃ r ∈ db.refreshTokens, r.id = row.id ∨ r.tokenHash = row.tokenHash then
        .error .integrity
      else
        .ok ⟨[.refreshToken row.id, .tokenHash row.tokenHash], Database.insertToken row⟩
  | .revokeRefreshToken id =>
      .ok ⟨[.refreshToken id], Database.updateTokens [id] RefreshToken.revoke⟩
  | .rotateRefreshToken id t backfill =>
      .ok ⟨[.refreshToken id], Database.updateTokens [id] (RefreshToken.rotate t backfill)⟩
  | .revokeFamily f =>
      .ok ⟨(db.familyIds f).map .refreshToken,
        Database.updateTokens (db.familyIds f) RefreshToken.revoke⟩
  | .lockActiveSessions userId =>
      .ok ⟨(db.activeSessions userId).map fun s => .session s.id, id⟩
  | .insertSession row =>
      if ∃ s ∈ db.sessions, s.id = row.id ∨ s.sessionId = row.sessionId then
        .error .integrity
      else
        .ok ⟨[.session row.id, .sessionId row.sessionId], Database.insertSession row⟩
  | .touchSession id t e =>
      .ok ⟨[.session id], Database.updateSession id (UserSession.touch t e)⟩
  | .revokeSession id t reason =>
      .ok ⟨[.session id], Database.updateSession id (UserSession.revoke t reason)⟩
  | .insertAuditEvent event => .ok ⟨[], Database.insertAudit event⟩
  | .credential stmt => stmt.denote db
  | .mfa stmt => stmt.denote db
  | .account stmt => stmt.denote db
  | .org stmt => stmt.denote db

/-- The store of this service. -/
abbrev AuthSig : Txn.Sig := ⟨Database, RowKey, Stmt, Event, Err, denote⟩

/-- A piece of a request handler. -/
abbrev Op (α : Type) : Type := Txn.Prog AuthSig α

abbrev World : Type := Txn.World AuthSig

end OmniAuth
