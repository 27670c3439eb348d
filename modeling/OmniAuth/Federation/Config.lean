import Mathlib.Data.List.Infix
import OmniAuth.Login.Service

/-!
# An organization's identity provider

`app/services/org_sso_service.py` and the configuration part of
`app/services/org_saml_service.py`. The two services are twins: what they share is one
definition with the protocol as its parameter (`saml`, as in `Database.idpConfigs`), and
each keeps its own names for it. The network part of `verify_oidc_discovery` is an
argument: the document that was fetched, or the message of what went wrong.
-/

namespace OmniAuth

open Txn Prog

variable (A : AppEnv)

/-! ## What the twins share -/

def OAuthAccount.idpConfigId (saml : Bool) (account : OAuthAccount) : Option ℕ :=
  if saml then account.organizationSamlConfigId else account.organizationSsoConfigId

/-- What identifies the provider that is meant: the issuer, or the entity id. -/
def IdpConfig.names (saml : Bool) (config : IdpConfig) : String :=
  if saml then config.saml.entityId else config.oidc.issuer

def IdpStatus.text : IdpStatus → String
  | pendingVerification => "pending_verification"
  | active => "active"
  | disabled => "disabled"
  | other value => value.getD "None"

/-- `get_sso_config` and `get_saml_config` -/
def Database.getIdpConfig (saml : Bool) (db : Database) (organizationId : ℕ) : Option IdpConfig :=
  (db.idpConfigs saml).find? (·.organizationId = organizationId)

/-- The `resource_type` of audit rows. -/
def idpResource (saml : Bool) : String :=
  if saml then "organization_saml_config" else "organization_sso_config"

/-- The audit row of an administrator's change. -/
def auditIdp (saml : Bool) (eventType : AuditEventType) (config : IdpConfig)
    (actorUserId : Option ℕ) (before after metadata : List (String × String)) : Op Unit :=
  logEvent
    { eventType := eventType
      actorUserId := actorUserId
      organizationId := some config.organizationId
      resourceType := some (idpResource saml)
      resourceId := some config.id
      beforeState := before
      afterState := after
      metadata := metadata }
    false

/-- A row that is loaded again. -/
def refreshIdp (saml : Bool) (id : ℕ) : Op IdpConfig := do
  let config ← query fun db => (db.idpConfigs saml).find? (·.id = id)
  match config with
  | none => raise .database
  | some config => return config

/-- The flush of a change, and the refresh. -/
def writeIdp (saml : Bool) (config : IdpConfig) (columns : IdpColumns) : Op IdpConfig := do
  execute (.org (.updateIdp saml config.id columns))
  refreshIdp saml config.id

/-- The column of an assignment, left out where the value is the one that was loaded. -/
def dirty {α : Type} [DecidableEq α] (given : Option α) (loaded : α) : Option α :=
  given.filter (· ≠ loaded)

/-- `has_completed_sso_login` and `has_completed_saml_login` -/
def Database.hasCompletedIdpLogin (saml : Bool) (db : Database) (configId : ℕ) : Bool :=
  decide (∃ a ∈ db.oauthAccounts, a.idpConfigId saml = some configId)

/-- `set_enforced`, of either service. -/
def setIdpEnforced (saml : Bool) (protocol : String) (changed : AuditEventType)
    (config : IdpConfig) (enforced : Bool) (actorUserId : ℕ) : Op IdpConfig := do
  let completed ← query (·.hasCompletedIdpLogin saml config.id)
  if enforced = true ∧ config.enforced = false ∧ completed = false then
    raise (.value ("cannot enforce " ++ protocol ++ " for this organization until at least one " ++
      "member has completed a successful " ++ protocol ++ " login"))
  else do
    let now ← time
    let written ← writeIdp saml config
      { enforced := some enforced, updated := some (now, actorUserId) }
    if config.enforced ≠ enforced then
      auditIdp saml changed written (some actorUserId)
        [("enforced", toString config.enforced)] [("enforced", toString enforced)]
        [("enforced_before", toString config.enforced), ("enforced_after", toString enforced)]
    else pure ()
    commitNow
    return written

/-- `set_sso_override` and `set_saml_override` -/
def setIdpOverride (saml : Bool) (created : AuditEventType) (config : IdpConfig) (reason : String)
    (actorUserId : ℕ) : Op IdpConfig := do
  let now ← time
  let written ← writeIdp saml config { override := some (some (now, reason, actorUserId)) }
  auditIdp saml created written (some actorUserId)
    [("sso_override_active", toString config.ssoOverrideAt.isSome),
      ("enforced", toString written.enforced)]
    [("sso_override_active", "True"), ("enforced", toString written.enforced)]
    [("action", "override_created"), ("override_reason", reason),
      ("enforced_before", toString written.enforced), ("timestamp", toString now)]
  commitNow
  return written

/-- `clear_sso_override` and `clear_saml_override` -/
def clearIdpOverride (saml : Bool) (removed : AuditEventType) (config : IdpConfig)
    (actorUserId : Option ℕ) : Op IdpConfig := do
  let written ← writeIdp saml config { override := some none }
  if config.ssoOverrideAt.isSome then do
    let now ← time
    auditIdp saml removed written actorUserId
      [("sso_override_active", "True"),
        ("sso_override_reason", config.ssoOverrideReason.getD "None"),
        ("sso_override_by_user_id", (config.ssoOverrideByUserId.map toString).getD "None")]
      [("sso_override_active", "False")]
      [("action", "override_removed"), ("timestamp", toString now)]
  else pure ()
  commitNow
  return written

/-! ## `org_sso_service` -/

/-- The document at `/.well-known/openid-configuration`. -/
structure DiscoveryDoc where
  issuer : Option String
  authorizationEndpoint : Option String
  tokenEndpoint : Option String
  userinfoEndpoint : Option String
  jwksUri : Option String

/-- `[f for f in _REQUIRED_DISCOVERY_FIELDS if not doc.get(f)]` -/
def DiscoveryDoc.missing (doc : DiscoveryDoc) : List String :=
  ([("authorization_endpoint", doc.authorizationEndpoint), ("token_endpoint", doc.tokenEndpoint),
    ("jwks_uri", doc.jwksUri)].filter fun f => f.2.filter (· ≠ "") = none).map (·.1)

/-- `verify_oidc_discovery`, once the document is fetched. -/
def verifyOidcDiscovery (issuer : String) (fetched : Except String DiscoveryDoc) :
    Except Err DiscoveryDoc :=
  match fetched with
  | .error message => .error (.ssoDiscovery message)
  | .ok doc =>
      if doc.issuer ≠ some issuer then
        .error (.ssoDiscovery ("discovery document's issuer (" ++
          (doc.issuer.map A.pyRepr).getD "None" ++ ") does not match the requested issuer (" ++
          A.pyRepr issuer ++ ")"))
      else if doc.missing ≠ [] then
        .error (.ssoDiscovery ("discovery document missing required field(s): " ++
          ", ".intercalate doc.missing))
      else .ok doc

/-- What a discovered document changes. -/
def OidcTrust.discovered (trust : OidcTrust) (issuer : String) (doc : DiscoveryDoc) (now : ℕ) :
    OidcColumns where
  issuer := some issuer
  authorizationEndpoint := dirty (some doc.authorizationEndpoint) trust.authorizationEndpoint
  tokenEndpoint := dirty (some doc.tokenEndpoint) trust.tokenEndpoint
  userinfoEndpoint := dirty (some doc.userinfoEndpoint) trust.userinfoEndpoint
  jwksUri := dirty (some doc.jwksUri) trust.jwksUri
  lastVerifiedAt := some (some now)

/-- `crypto.encrypt` of a secret that is to be stored. -/
def encryptSecret (clientSecret : String) : Op String :=
  match A.encrypt clientSecret with
  | none => raise (.runtime ("CONFIG_ENCRYPTION_KEY is not set -- refusing to store " ++
      "credentials without encryption. Set CONFIG_ENCRYPTION_KEY " ++
      "(see the format note above) before writing global config."))
  | some encrypted => return encrypted

structure SsoConfigRequest where
  issuer : String
  clientId : String
  clientSecret : String
  allowedDomains : List String

/-- `configure_sso` -/
def configureSso (organizationId : ℕ) (r : SsoConfigRequest) (actorUserId : ℕ)
    (fetched : Except String DiscoveryDoc) : Op IdpConfig := do
  let existing ← query (·.getIdpConfig false organizationId)
  if existing.isSome then raise (.value "this organization already has an SSO configuration")
  else
    match verifyOidcDiscovery A r.issuer fetched with
    | .error x => raise x
    | .ok doc => do
        let now ← time
        let encrypted ← encryptSecret A r.clientSecret
        let id ← draw
        let config : IdpConfig :=
          { id := id
            organizationId := organizationId
            status := .active
            allowedDomains := r.allowedDomains
            enforced := false
            updatedAt := some now
            updatedByUserId := some actorUserId
            oidc :=
              { issuer := r.issuer
                clientId := r.clientId
                clientSecretEncrypted := encrypted
                authorizationEndpoint := doc.authorizationEndpoint
                tokenEndpoint := doc.tokenEndpoint
                userinfoEndpoint := doc.userinfoEndpoint
                jwksUri := doc.jwksUri
                lastVerifiedAt := some now } }
        execute (.org (.insertIdp false config))
        auditIdp false .ssoConfigurationCreated config (some actorUserId) []
          [("provider_type", "oidc"), ("issuer", r.issuer), ("status", IdpStatus.active.text)]
          [("provider_type", "oidc")]
        commitNow
        return config

/-- The fields of a PATCH; `none` leaves the column as it is. -/
structure SsoConfigUpdate where
  issuer : Option String := none
  clientId : Option String := none
  clientSecret : Option String := none
  allowedDomains : Option (List String) := none

/-- The issuer an update changes to. -/
def SsoConfigUpdate.newIssuer (u : SsoConfigUpdate) (config : IdpConfig) : Option String :=
  dirty u.issuer config.oidc.issuer

/-- Discovery is run again only where the issuer changes. -/
def rediscover (config : IdpConfig) (u : SsoConfigUpdate) (fetched : Except String DiscoveryDoc) :
    Op OidcColumns :=
  match u.newIssuer config with
  | none => return {}
  | some issuer =>
      match verifyOidcDiscovery A issuer fetched with
      | .error x => raise x
      | .ok doc => do
          let now ← time
          return config.oidc.discovered issuer doc now

/-- The secret an update stores. -/
def storedSecret : Option String → Op (Option String)
  | none => return none
  | some clientSecret => do
      let encrypted ← encryptSecret A clientSecret
      return some encrypted

/-- `update_sso_config` -/
def updateSsoConfig (config : IdpConfig) (actorUserId : ℕ) (u : SsoConfigUpdate)
    (fetched : Except String DiscoveryDoc) : Op IdpConfig := do
  let discovered ← rediscover A config u fetched
  let encrypted ← storedSecret A u.clientSecret
  let now ← time
  let written ← writeIdp false config
    { oidc :=
        { discovered with
          clientId := dirty u.clientId config.oidc.clientId
          clientSecretEncrypted := encrypted }
      status := dirty ((u.newIssuer config).map fun _ => .active) config.status
      allowedDomains := dirty u.allowedDomains config.allowedDomains
      updated := some (now, actorUserId) }
  auditIdp false .ssoConfigurationUpdated written (some actorUserId)
    [("issuer", config.oidc.issuer), ("client_id", config.oidc.clientId),
      ("allowed_domains", toString config.allowedDomains)]
    [("issuer", written.oidc.issuer), ("client_id", written.oidc.clientId),
      ("allowed_domains", toString written.allowedDomains)]
    [("provider_type", "oidc")]
  commitNow
  return written

/-- `org_sso_service.set_enforced` -/
def setSsoEnforced : IdpConfig → Bool → ℕ → Op IdpConfig :=
  setIdpEnforced false "SSO" .ssoEnforcementChanged

/-- `set_sso_override` -/
def setSsoOverride : IdpConfig → String → ℕ → Op IdpConfig :=
  setIdpOverride false .ssoOverrideCreated

/-- `clear_sso_override` -/
def clearSsoOverride : IdpConfig → Option ℕ → Op IdpConfig :=
  clearIdpOverride false .ssoOverrideRemoved

/-! ## `org_saml_service` -/

/-- `_validate_sso_url` -/
def validateSsoUrl (ssoUrl : String) : Except Err Unit :=
  let (scheme, hostname) := A.urlparse ssoUrl
  if scheme ≠ "http" ∧ scheme ≠ "https" then
    .error (.samlConfigValidation "sso_url must be an http(s) URL")
  else if A.requireHttpsForSsoIssuer = true ∧ scheme ≠ "https" then
    .error (.samlConfigValidation "sso_url must use HTTPS")
  else if hostname.filter (· ≠ "") = none then
    .error (.samlConfigValidation "sso_url must include a hostname")
  else .ok ()

/-- `part in text` -/
def occursIn (part text : String) : Bool := decide (part.toList <:+: text.toList)

/-- `_validate_x509_certificate` -/
def validateX509Certificate (x509Certificate : String) : Except Err Unit :=
  let stripped := A.strip x509Certificate
  if occursIn "-----BEGIN CERTIFICATE-----" stripped = false ∨
      occursIn "-----END CERTIFICATE-----" stripped = false then
    .error (.samlConfigValidation "x509_certificate must be a PEM-encoded certificate")
  else .ok ()

/-- `_validate_status` -/
def validateStatus (status : IdpStatus) : Except Err Unit :=
  match status with
  | .other _ => .error (.samlConfigValidation
      "status must be one of: pending_verification, active, disabled")
  | _ => .ok ()

/-- A check of a field that may be left out. -/
def checkGiven {α : Type} (check : α → Except Err Unit) : Option α → Except Err Unit
  | none => .ok ()
  | some value => check value

/-- `entity_id must not be empty` -/
def validateEntityId (entityId : String) : Except Err Unit :=
  if A.strip entityId = "" then .error (.samlConfigValidation "entity_id must not be empty")
  else .ok ()

structure SamlConfigRequest where
  entityId : String
  ssoUrl : String
  x509Certificate : String
  attributeMapping : Option (List (String × String)) := none
  allowedDomains : List String
  sloUrl : Option String := none

/-- The checks of `create_saml_config`. -/
def SamlConfigRequest.validate (r : SamlConfigRequest) : Except Err Unit := do
  validateEntityId A r.entityId
  validateSsoUrl A r.ssoUrl
  validateX509Certificate A r.x509Certificate
  checkGiven (validateSsoUrl A) r.sloUrl

/-- `create_saml_config` -/
def createSamlConfig (organizationId : ℕ) (r : SamlConfigRequest) (actorUserId : ℕ) :
    Op IdpConfig := do
  let existing ← query (·.getIdpConfig true organizationId)
  if existing.isSome then raise (.value "this organization already has a SAML configuration")
  else
    match r.validate A with
    | .error x => raise x
    | .ok () => do
        let now ← time
        let id ← draw
        let config : IdpConfig :=
          { id := id
            organizationId := organizationId
            status := .active
            allowedDomains := r.allowedDomains
            enforced := false
            updatedAt := some now
            updatedByUserId := some actorUserId
            saml :=
              { entityId := r.entityId
                ssoUrl := r.ssoUrl
                x509Certificate := r.x509Certificate
                attributeMapping := r.attributeMapping
                sloUrl := r.sloUrl } }
        execute (.org (.insertIdp true config))
        auditIdp true .samlConfigurationCreated config (some actorUserId) []
          [("entity_id", r.entityId), ("sso_url", r.ssoUrl), ("status", IdpStatus.active.text)]
          [("entity_id", r.entityId)]
        commitNow
        return config

/-- The fields of a PATCH; `none` leaves the column as it is. -/
structure SamlConfigUpdate where
  entityId : Option String := none
  ssoUrl : Option String := none
  x509Certificate : Option String := none
  attributeMapping : Option (List (String × String)) := none
  enabled : Option Bool := none
  status : Option IdpStatus := none
  sloUrl : Option String := none
  allowedDomains : Option (List String) := none

/-- The checks of `update_saml_config`. -/
def SamlConfigUpdate.validate (u : SamlConfigUpdate) : Except Err Unit := do
  checkGiven (validateEntityId A) u.entityId
  checkGiven (validateSsoUrl A) u.ssoUrl
  checkGiven (validateX509Certificate A) u.x509Certificate
  checkGiven validateStatus u.status
  checkGiven (validateSsoUrl A) u.sloUrl

/-- `update_saml_config` -/
def updateSamlConfig (config : IdpConfig) (actorUserId : ℕ) (u : SamlConfigUpdate) :
    Op IdpConfig :=
  match u.validate A with
  | .error x => raise x
  | .ok () => do
      let now ← time
      let written ← writeIdp true config
        { saml :=
            { entityId := dirty u.entityId config.saml.entityId
              ssoUrl := dirty u.ssoUrl config.saml.ssoUrl
              x509Certificate := dirty u.x509Certificate config.saml.x509Certificate
              attributeMapping :=
                dirty (u.attributeMapping.map some) config.saml.attributeMapping
              enabled := dirty u.enabled config.saml.enabled
              sloUrl := dirty (u.sloUrl.map some) config.saml.sloUrl }
          status := dirty u.status config.status
          allowedDomains := dirty u.allowedDomains config.allowedDomains
          updated := some (now, actorUserId) }
      auditIdp true .samlConfigurationUpdated written (some actorUserId)
        [("entity_id", config.saml.entityId), ("sso_url", config.saml.ssoUrl),
          ("status", config.status.text)]
        [("entity_id", written.saml.entityId), ("sso_url", written.saml.ssoUrl),
          ("status", written.status.text)]
        [("entity_id", written.saml.entityId)]
      commitNow
      return written

/-- `org_saml_service.set_enforced` -/
def setSamlEnforced : IdpConfig → Bool → ℕ → Op IdpConfig :=
  setIdpEnforced true "SAML" .samlEnforcementChanged

/-- `set_saml_override` -/
def setSamlOverride : IdpConfig → String → ℕ → Op IdpConfig :=
  setIdpOverride true .samlOverrideCreated

/-- `clear_saml_override` -/
def clearSamlOverride : IdpConfig → Option ℕ → Op IdpConfig :=
  clearIdpOverride true .samlOverrideRemoved

/-! ## The routes

`routes_org_sso.py` and `routes_org_saml.py`, behind their gates. The DELETE of a
configuration is left out. -/

def idpProtocol (saml : Bool) : String := if saml then "SAML" else "SSO"

/-- `_get_or_404` -/
def getIdpOr404 (saml : Bool) (organizationId : ℕ) : Op IdpConfig := do
  let config ← query (·.getIdpConfig saml organizationId)
  match config with
  | none => raise (.http 404 ("No " ++ idpProtocol saml ++ " configuration for this organization"))
  | some config => return config

/-- The answers to what the services raise; `conflict` is the status of a `ValueError`. -/
def idpAnswer (conflict : ℕ) : Err → Err
  | .ssoDiscovery message => .http 400 message
  | .samlConfigValidation message => .http 422 message
  | .value message => .http conflict message
  | .runtime message => .http 500 message
  | x => x

/-- `update_sso_config` and `update_saml_config`: the enforcement is applied last, and only
where it changes. -/
def patchIdp (saml : Bool) (update : IdpConfig → Op IdpConfig)
    (setEnforced : IdpConfig → Bool → ℕ → Op IdpConfig) (organizationId actorUserId : ℕ)
    (enforced : Option Bool) : Op IdpConfig := do
  let config ← getIdpOr404 saml organizationId
  Prog.orElse (do
      let updated ← update config
      let config ← refreshIdp saml updated.id
      match enforced.filter (· ≠ config.enforced) with
      | none => return config
      | some enforced => setEnforced config enforced actorUserId)
    fun x => raise (idpAnswer 400 x)

/-- A request to change how an organization's members sign in. -/
inductive IdpRequest
  | createSso (organizationId actorUserId : ℕ) (r : SsoConfigRequest)
      (fetched : Except String DiscoveryDoc)
  | updateSso (organizationId actorUserId : ℕ) (u : SsoConfigUpdate) (enforced : Option Bool)
      (fetched : Except String DiscoveryDoc)
  | createSaml (organizationId actorUserId : ℕ) (r : SamlConfigRequest)
  | updateSaml (organizationId actorUserId : ℕ) (u : SamlConfigUpdate) (enforced : Option Bool)
  | overrideSso (organizationId actorUserId : ℕ) (reason : String)
  | clearSso (organizationId actorUserId : ℕ)
  | overrideSaml (organizationId actorUserId : ℕ) (reason : String)
  | clearSaml (organizationId actorUserId : ℕ)

/-- The handler of a request. -/
def IdpRequest.op : IdpRequest → Op IdpConfig
  | createSso organizationId actorUserId r fetched =>
      (configureSso A organizationId r actorUserId fetched).orElse fun x => raise (idpAnswer 409 x)
  | updateSso organizationId actorUserId u enforced fetched =>
      patchIdp false (updateSsoConfig A · actorUserId u fetched) setSsoEnforced organizationId
        actorUserId enforced
  | createSaml organizationId actorUserId r =>
      (createSamlConfig A organizationId r actorUserId).orElse fun x => raise (idpAnswer 409 x)
  | updateSaml organizationId actorUserId u enforced =>
      patchIdp true (updateSamlConfig A · actorUserId u) setSamlEnforced organizationId
        actorUserId enforced
  | overrideSso organizationId actorUserId reason => do
      let config ← getIdpOr404 false organizationId
      setSsoOverride config reason actorUserId
  | clearSso organizationId actorUserId => do
      let config ← getIdpOr404 false organizationId
      clearSsoOverride config (some actorUserId)
  | overrideSaml organizationId actorUserId reason => do
      let config ← getIdpOr404 true organizationId
      setSamlOverride config reason actorUserId
  | clearSaml organizationId actorUserId => do
      let config ← getIdpOr404 true organizationId
      clearSamlOverride config (some actorUserId)

end OmniAuth
