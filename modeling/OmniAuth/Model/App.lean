import OmniAuth.Model.Jwt

/-!
# Names, scopes and primitives

The permission registry of `app/core/permission_names.py`, name and scope, and
the primitives the services take from libraries: digests, case folding, codes and
encryption.
-/

namespace OmniAuth

inductive PermissionScope
  | global
  | org
  | both
  deriving DecidableEq

/-- `REGISTRY` -/
def registry : List (String × PermissionScope) :=
  [("toolserver.delegate", .both), ("toolserver.register", .both),
   ("storage_ledger.write", .global), ("manage_roles", .global), ("manage_licenses", .global),
   ("manage_config", .global), ("override_sso_enforcement", .global), ("manage_all_orgs", .global),
   ("license.issue", .global), ("service_token.mint", .global),
   ("service_token.mint_privileged", .global), ("platform.manage_infra", .global),
   ("platform.manage_cron", .global), ("platform.manage_content", .global),
   ("manage_org", .org), ("manage_teams", .org), ("manage_api_keys", .org),
   ("manage_billing", .org), ("manage_oauth_clients", .org), ("manage_sso", .org),
   ("workflow.execute", .both), ("workflow.read", .both), ("workflow.publish", .both),
   ("workflow.manage", .both), ("runs.read", .both), ("model.use", .both), ("model.read", .both),
   ("model.resolve_ownership", .both), ("dataset.read", .both), ("dataset.write", .both),
   ("usage.read", .both), ("provider_keys.manage", .both), ("billing.read", .both),
   ("billing.manage", .both), ("subscription.manage", .both), ("marketplace.install", .both),
   ("workspace.launch", .both)]

/-- `REGISTRY.get(name).scope` -/
def permissionScope (name : String) : Option PermissionScope := registry.lookup name

/-- `is_known_permission` -/
def isKnownPermission (name : String) : Bool := (permissionScope name).isSome

/-- `MANAGE_ALL_ORGS` -/
def manageAllOrgs : String := "manage_all_orgs"

/-- `str.startswith` -/
def startsWith (s start : String) : Bool := start.toList.isPrefixOf s.toList

/-- `str.isascii` -/
def isAscii (s : String) : Bool := s.toList.all fun c => c.toNat < 128

/-- `f"{n:06d}"`, for `n` below a million. -/
def sixDigits (n : ℕ) : String :=
  let digits := toString n
  "".pushn '0' (6 - digits.length) ++ digits

/-- A text as a number, character by character. -/
def textNumber (s : String) : ℕ := s.toList.foldl (fun n c => n * 1114112 + c.toNat) 0

structure FactorSettings where
  emailMfaEnabled : Bool
  emailMfaTtlSeconds : ℕ
  emailMfaMaxAttempts : ℕ
  emailMfaResendCooldownSeconds : ℕ
  emailMfaMaxSendsPerHour : ℕ

/-- `app/core/config.py`, with email MFA switched on. -/
def FactorSettings.default : FactorSettings where
  emailMfaEnabled := true
  emailMfaTtlSeconds := 300
  emailMfaMaxAttempts := 5
  emailMfaResendCooldownSeconds := 60
  emailMfaMaxSendsPerHour := 5

/-- The providers of `app/core/oauth_providers.py`; those with a client id and a
secret are configured. -/
def oauthProviders : List String := ["google", "github", "microsoft"]

structure InvitationSettings where
  orgInvitationsEnabled : Bool
  orgInvitationAcceptUrl : String
  orgInvitationTtlSeconds : ℕ
  orgInvitationMaxAcceptAttempts : ℕ

/-- `app/core/config.py`, with invitations switched on. -/
def InvitationSettings.default : InvitationSettings where
  orgInvitationsEnabled := true
  orgInvitationAcceptUrl := "https://omnibioai.org/accept"
  orgInvitationTtlSeconds := 604800
  orgInvitationMaxAcceptAttempts := 5

/-- `LicensePersona`, or any other text the service is called with. -/
inductive Persona
  | developer
  | applicationUser
  | other (value : String)
  deriving DecidableEq

/-- What the fingerprint of an issuance request is taken of. -/
structure IssuanceData where
  fullName : String
  email : String
  persona : Persona
  validityDays : ℕ
  organizationId : ℕ
  confirmRoleChange : Bool
  confirmReplaceExisting : Bool
  deriving DecidableEq

structure LicenseSettings where
  licenseAllowedValidityDays : List ℕ
  licenseKeyPepper : Bool

/-- Two validities, and a pepper. -/
def LicenseSettings.default : LicenseSettings where
  licenseAllowedValidityDays := [30, 365]
  licenseKeyPepper := true

structure IntegrationSettings where
  integrationCredentialReferenceTtlSeconds : ℕ

/-- `app/core/config.py` -/
def IntegrationSettings.default : IntegrationSettings where
  integrationCredentialReferenceTtlSeconds := 300

structure FederationSettings where
  requireHttpsForSsoIssuer : Bool

/-- `app/core/config.py` -/
def FederationSettings.default : FederationSettings where
  requireHttpsForSsoIssuer := true

/-- The primitives of the services beside those of the tokens. A function that
may raise gives `none` there: `encrypt` and `decrypt` of `app/core/crypto.py`,
`b32decode` of a text, `emailDigest` of a user, a challenge and a
code, `digestKey` of a licence key where no pepper is set. `hmacSha1` is the SHA-1 HMAC of a
key and a message. `secret`,
`recoveryCode`, `invitationToken` and the salt of `hashPassword` make a text of what
`secrets` drew, and so does `licenseKey`. `passwordPolicy` of a password and an email is
the message of the policy it breaks, `validAcceptUrl` is `_valid_accept_url`,
`joinWords name` is `" ".join(name.split())`, and `idempotencyHash` and `fingerprint` are
the digests of manual issuance. `dumpPayload` and `loadPayload` are `json.dumps` and
`json.loads` of an integration credential, `referenceToken` and `referenceHash` the text and
the digest of a reference to one. `urlparse` gives the scheme and the hostname of a URL, and
`pyRepr` is `repr` of a text; `closeMatches` is `difflib.get_close_matches` among the names of
the registry. -/
structure AppEnv extends Env, FactorSettings, InvitationSettings, LicenseSettings,
    IntegrationSettings, FederationSettings where
  hashKey : String → ℕ
  lower : String → String
  upper : String → String
  strip : String → String
  isDigit : String → Bool
  encrypt : String → Option String
  decrypt : String → Option String
  b32decode : String → Option (List UInt8)
  hmacSha1 : List UInt8 → List UInt8 → Vector UInt8 20
  hashRecoveryCode : String → ℕ
  emailDigest : ℕ → ℕ → String → Option ℕ
  secret : ℕ → String
  recoveryCode : ℕ → String
  verifyPassword : String → String → Bool
  hashPassword : ℕ → String → String
  needsRehash : String → Bool
  passwordPolicy : String → String → Option String
  providerConfigured : String → Bool
  digestKey : String → Option ℕ
  validAcceptUrl : String → Bool
  invitationToken : ℕ → String
  invitationHash : String → ℕ
  activeKey : ℕ → String → ℕ
  licenseKey : ℕ → String
  joinWords : String → String
  idempotencyHash : String → ℕ
  fingerprint : IssuanceData → ℕ
  dumpPayload : List (String × String) → String
  loadPayload : String → Option (List (String × String))
  referenceToken : ℕ → String
  referenceHash : String → ℕ
  urlparse : String → String × Option String
  pyRepr : String → String
  closeMatches : String → List String

/-- `Env.symbolic` with simple functions for the primitives: a digest is a length
or the text read as a number, letter case, encryption and password hashing change
nothing, an HMAC is the end of the message, so that the code of a secret at a counter is the
counter, a payload is one token, and a URL is a host reached over HTTPS. -/
def AppEnv.symbolic : AppEnv where
  toEnv := .symbolic
  toFactorSettings := .default
  toInvitationSettings := .default
  toLicenseSettings := .default
  toIntegrationSettings := .default
  toFederationSettings := .default
  hashKey := String.length
  lower := id
  upper := id
  strip := id
  isDigit s := s ≠ "" ∧ s.toList.all Char.isDigit
  encrypt := some
  decrypt := some
  b32decode text := some (text.toList.map fun c => UInt8.ofNat c.toNat)
  hmacSha1 _ message :=
    #v[message.getD 4 0, message.getD 5 0, message.getD 6 0, message.getD 7 0,
      0, 0, 0, 0, 0, 0, 0, 0, 0, 0, 0, 0, 0, 0, 0, 0]
  hashRecoveryCode := textNumber
  emailDigest _ _ code := some (textNumber code)
  secret := sixDigits
  recoveryCode := sixDigits
  verifyPassword password hash := password = hash
  hashPassword _ password := password
  needsRehash _ := false
  passwordPolicy _ _ := none
  providerConfigured _ := true
  digestKey := some ∘ textNumber
  validAcceptUrl _ := true
  invitationToken := sixDigits
  invitationHash := textNumber
  activeKey organizationId email := organizationId * 1114112 + textNumber email
  licenseKey n := "OMNI-" ++ sixDigits n
  joinWords := id
  idempotencyHash := textNumber
  fingerprint data := textNumber data.email * 1000 + data.validityDays
  dumpPayload payload := (payload.map (·.2)).headD ""
  loadPayload text := some [("token", text)]
  referenceToken n := String.ofList (List.replicate n 'r')
  referenceHash := String.length
  urlparse url := ("https", some url)
  pyRepr := id
  closeMatches _ := []

end OmniAuth
