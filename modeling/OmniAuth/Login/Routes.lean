import OmniAuth.Login.Service

/-!
# The entry points of a login

The handlers of `routes_auth.py`, `routes_oauth.py`, `routes_sso.py`,
`routes_saml.py` and `routes_license.py` that can complete a login. What an outside
party answers (the OAuth provider, the identity provider, the throttle, the mail
service) is a field of the request.
-/

namespace OmniAuth

open Txn Prog

variable (A : AppEnv)

/-- `create_enrollment_token` -/
def createEnrollmentToken (userId : ℕ) : Op A.Token := do
  let now ← time
  let tokenJti ← draw
  let expiresAt := now + minutes 10
  let id ← draw
  execute (.mfa (.insertEnrollmentSession
    { id := id
      userId := userId
      tokenJti := tokenJti
      createdAt := now
      expiresAt := expiresAt }))
  commitNow
  createMfaEnrollmentToken A.toEnv userId tokenJti (some expiresAt)

/-- What `/license/validate` answers beside the tokens. -/
structure LicenseInfo where
  userId : ℕ
  email : Option String
  tier : String
  expiresAt : Option ℕ
  orgId : Option ℕ
  deriving DecidableEq

/-- The answer of an entry point. `enrollmentRequired` is the 403 that carries an
enrollment token; an invalid licence is no error. -/
inductive RouteReply
  | signedIn (reply : LoginReply A)
  | enrollmentRequired (enrollmentToken : A.Token)
  | linkRequired (linkToken : A.Token)
  | licensed (reply : LoginReply A) (info : LicenseInfo)
  | invalidLicense (reason : String)

/-- `_issue_tokens_or_challenge` -/
def issueTokensOrChallenge (user : User) (login : LoginContext) : Op (RouteReply A) :=
  Prog.orElse
    (do
      let reply ← generateTokensOrMfaChallenge A user login {} true
      return .signedIn reply)
    fun
      | .mfaEnrollmentRequired => do
          let token ← createEnrollmentToken A user.id
          return .enrollmentRequired token
      | x => raise x

/-! ## Password -/

structure LoginRequest where
  email : String
  password : String
  clientIp : Option String := none
  userAgent : Option String := none
  throttle : ThrottleAnswer := {}
  mailSent : Bool := true

/-- `POST /auth/login` -/
def passwordLogin (r : LoginRequest) : Op (RouteReply A) := do
  refuseEnforced A r.email
  note (.throttleChecked r.email)
  if r.throttle.status.locked then raise (.http 429 "too_many_attempts")
  else do
    let user ← authenticateUser A r.email r.password r.clientIp r.throttle.newlyLocked
    match user with
    | none => raise (.http 401 "Invalid credentials")
    | some user =>
        Prog.orElse
          (do
            let reply ← generateTokensOrMfaChallenge A user { authMethod := .password }
              { clientIp := r.clientIp, userAgent := r.userAgent } r.mailSent
            return .signedIn reply)
          fun
            | .mfaEnrollmentRequired => do
                let token ← createEnrollmentToken A user.id
                return .enrollmentRequired token
            | .emailMfaResendLimited _ => raise (.http 429 "email_otp_rate_limited")
            | .emailMfaUnavailable =>
                raise (.http 503 "Email verification is temporarily unavailable")
            | x => raise x

/-! ## Consumer OAuth -/

/-- What `exchange_code_for_userinfo` gives. -/
inductive ProviderAnswer
  | userinfo (providerUserId email : String)
  | unverifiedEmail (email : Option String)
  | failed (message : String)

structure OAuthCallback where
  provider : String
  state : A.Token
  answer : ProviderAnswer

/-- `_audit_oauth` -/
def auditOauth (eventType : AuditEventType) (provider : String) (email : Option String)
    (userId : Option ℕ) (more : List (String × String)) (commit : Bool) : Op Unit :=
  logEvent
    { eventType := eventType
      actorUserId := userId
      targetUserId := userId
      resourceType := userId.map fun _ => "user"
      resourceId := userId
      metadata := ("provider", provider) :: ("email", email.getD "None") :: more }
    commit

/-- `_sign_in` -/
def oauthSignIn (user : User) (provider email : String) : Op (RouteReply A) := do
  let reply ← issueTokensOrChallenge A user { authMethod := .oauth }
  match reply with
  | .signedIn result => do
      let mfaRequired := match result with
        | .tokens _ _ => "False"
        | .mfaRequired _ _ => "True"
      auditOauth .oauthLogin provider (some email) (some user.id)
        [("mfa_required", mfaRequired)] true
      return .signedIn result
  | other => return other

/-- `_can_auto_link` -/
def Database.canAutoLink (db : Database) (user : User) : Bool :=
  decide (user.hashedPassword.filter (· ≠ "") = none) && decide (user.status = .active) &&
    decide (∀ r ∈ db.rolesOf user.roleIds, r.name ≠ "admin" ∧ r.name ≠ "platform_admin")

/-- The branches of `_complete_oauth_flow` for an identity that is linked to no
account. -/
def oauthUnlinked (identity : Identity) : Op (RouteReply A) := do
  let existing ← query fun db => findUserByEmail A db identity.email
  match existing with
  | some user => do
      let auto ← query (·.canAutoLink user)
      if auto = false then do
        let linkToken ← issueLinkConfirmation A user identity none
        auditOauth .oauthLinkRequired identity.provider (some identity.email) (some user.id) [] true
        return .linkRequired linkToken
      else do
        linkOauthToExistingUser user identity false
        auditOauth .oauthLinked identity.provider (some identity.email) (some user.id) [] false
        commitNow
        let user ← refreshUser user.id
        oauthSignIn A user identity.provider identity.email
  | none => do
      let now ← time
      let approved ← query fun db => isEmailApproved A db now identity.email
      if approved = false then do
        auditOauth .oauthRejectedNotApproved identity.provider (some identity.email) none [] true
        raise (.http 403 "not_approved")
      else do
        let user ← createUserWithOauth identity false
        auditOauth .oauthAccountCreated identity.provider (some identity.email) (some user.id) []
          false
        commitNow
        let user ← refreshUser user.id
        oauthSignIn A user identity.provider identity.email

/-- `_complete_oauth_flow` -/
def completeOauthFlow (provider : String) : ProviderAnswer → Op (RouteReply A)
  | .unverifiedEmail email => do
      auditOauth .oauthRejectedUnverifiedEmail provider email none [] true
      raise (.http 403 "unverified_email")
  | .failed message => raise (.http 400 message)
  | .userinfo providerUserId email => do
      refuseEnforced A email
      let linked ← query (·.findLinkedUser provider providerUserId none none)
      match linked with
      | some user => oauthSignIn A user provider email
      | none =>
          oauthUnlinked A
            { provider := provider, providerUserId := providerUserId, email := email }

/-- `_require_provider`, then `_verify_state` at the time `now`. -/
def verifyOauthState (now : ℕ) (provider : String) (state : A.Token) : Except Err Unit :=
  if provider ∉ oauthProviders then .error (.http 404 "Unknown OAuth provider")
  else if A.providerConfigured provider = false then
    .error (.http 503 (provider ++ " SSO is not configured"))
  else
    match decodeToken A.toEnv now state with
    | .error _ => .error (.http 400 "Invalid or expired OAuth state")
    | .ok payload =>
        if payload.type ≠ some .oauthState ∨ payload.provider ≠ some provider then
          .error (.http 400 "Invalid OAuth state")
        else .ok ()

/-- The callback of a consumer provider. -/
def oauthCallback (r : OAuthCallback A) : Op (RouteReply A) := do
  let now ← time
  match verifyOauthState A now r.provider r.state with
  | .error x => raise x
  | .ok _ => completeOauthFlow A r.provider r.answer

/-! ## Link confirmation -/

structure LinkConfirm where
  linkToken : A.Token
  password : String

/-- What a link token says: the account, the identity and the organization whose
provider vouched for it. -/
structure LinkClaims where
  userId : ℕ
  identity : Identity
  idpOrgId : Option ℕ
  deriving DecidableEq

/-- What `confirm_oauth_link` reads from a payload; `none` where a key is missing. -/
def linkClaims (payload : Claims) : Option LinkClaims :=
  match payload.userId, payload.provider, payload.providerUserId, payload.email with
  | some userId, some provider, some providerUserId, some email =>
      some
        { userId := userId
          identity :=
            { provider := provider
              providerUserId := providerUserId
              email := email
              ssoConfigId := payload.organizationSsoConfigId
              samlConfigId := payload.organizationSamlConfigId }
          idpOrgId := payload.idpOrgId }
  | _, _, _, _ => none

/-- The token of a confirmation, at the time `now`. -/
def decodeLink (now : ℕ) (linkToken : A.Token) : Except Err LinkClaims :=
  match decodeToken A.toEnv now linkToken with
  | .error _ => .error (.http 400 "Invalid or expired link token")
  | .ok payload =>
      if payload.type ≠ some .oauthLink then .error (.http 400 "Invalid link token")
      else
        match linkClaims payload with
        | none => .error (.http 500 "Internal Server Error")
        | some claims => .ok claims

/-- The password was right: link, join the organization, sign in. -/
def linkAndSignIn (user : User) (claims : LinkClaims) : Op (RouteReply A) := do
  linkOauthToExistingUser user claims.identity true
  match claims.idpOrgId with
  | some org => do
      let _ ← jitProvisionMembership org user.id
      let user ← refreshUser user.id
      issueTokensOrChallenge A user { authMethod := .sso, idpOrgId := some org }
  | none => do
      let user ← refreshUser user.id
      issueTokensOrChallenge A user { authMethod := .oauth }

/-- `confirm_oauth_link`. An evaluation of the dummy hash changes nothing. -/
def confirmOauthLink (r : LinkConfirm A) : Op (RouteReply A) := do
  let now ← time
  match decodeLink A now r.linkToken with
  | .error x => raise x
  | .ok claims => do
      let user ← query fun db => findUserByEmail A db claims.identity.email
      match user.filter (·.id = claims.userId) with
      | none => raise (.http 404 "Account not found")
      | some user =>
          match user.hashedPassword.filter (· ≠ "") with
          | none => raise (.http 409 "This account has no password set")
          | some hash => do
              note (.passwordEvaluated user.id (A.verifyPassword r.password hash))
              if A.verifyPassword r.password hash = false then
                raise (.http 401 "Incorrect password")
              else linkAndSignIn A user claims

/-! ## An organization's own provider -/

structure OidcCallback where
  orgSlug : String
  state : A.Token
  /-- `exchange_code_for_id_token_claims`: subject and email, or the message. -/
  answer : Except String (String × String)

structure SamlIdentity where
  nameId : String
  sessionIndex : Option String := none

structure SamlAcs where
  orgSlug : String
  relayState : Option A.Token
  /-- `validate_saml_response`, `none` when it raises. -/
  answer : Option SamlIdentity

/-- `_verify_sso_state` and `_verify_saml_relay_state`, which differ in the type of
the token, in the table, in the claim that names its row and in their texts. -/
def verifyIdpState (type : TokenType) (config : Claims → Option ℕ) (configs : List IdpConfig)
    (what protocol : String) (db : Database) (now : ℕ) (orgSlug : String) (state : A.Token) :
    Except Err (Organization × IdpConfig) :=
  match decodeToken A.toEnv now state with
  | .error _ => .error (.http 400 ("Invalid or expired " ++ what))
  | .ok payload =>
      if payload.type ≠ some type then .error (.http 400 ("Invalid " ++ what))
      else
        match db.organizations.find? (·.slug = orgSlug) with
        | none => .error (.http 400 (what ++ " does not match this organization"))
        | some org =>
            if payload.organizationId ≠ some org.id then
              .error (.http 400 (what ++ " does not match this organization"))
            else
              match configs.find? (·.organizationId = org.id) with
              | none => .error (.http 400
                  ("This organization's " ++ protocol ++ " configuration is no longer valid"))
              | some row =>
                  if config payload ≠ some row.id ∨ row.status ≠ .active then
                    .error (.http 400
                      ("This organization's " ++ protocol ++ " configuration is no longer valid"))
                  else .ok (org, row)

/-- `_verify_sso_state` -/
def verifySsoState (db : Database) (now : ℕ) (orgSlug : String) (state : A.Token) :
    Except Err (Organization × IdpConfig) :=
  verifyIdpState A .ssoState (·.organizationSsoConfigId) db.ssoConfigs "SSO state" "SSO" db now
    orgSlug state

/-- `_verify_saml_relay_state` -/
def verifySamlRelayState (db : Database) (now : ℕ) (orgSlug : String) (state : A.Token) :
    Except Err (Organization × IdpConfig) :=
  verifyIdpState A .samlRelayState (·.organizationSamlConfigId) db.samlConfigs "SAML RelayState"
    "SAML" db now orgSlug state

/-- `_complete_sso_flow` -/
def oidcCallback (r : OidcCallback A) : Op (RouteReply A) := do
  let now ← time
  let state ← query fun db => verifySsoState A db now r.orgSlug r.state
  match state with
  | .error x => raise x
  | .ok (org, config) =>
      match r.answer with
      | .error message => raise (.http 400 message)
      | .ok (sub, email) => do
          let identity : Identity :=
            { provider := "oidc", providerUserId := sub, email := email
              ssoConfigId := some config.id }
          let login : LoginContext := { authMethod := .sso, idpOrgId := some org.id }
          let linked ← query (·.findLinkedUser "oidc" sub (some config.id) none)
          match linked with
          | some user => do
              let _ ← jitProvisionMembership org.id user.id
              let user ← refreshUser user.id
              issueTokensOrChallenge A user login
          | none => do
              let existing ← query fun db => findUserByEmail A db email
              match existing with
              | some user => do
                  let linkToken ← issueLinkConfirmation A user identity (some org.id)
                  return .linkRequired linkToken
              | none => do
                  let user ← createUserWithOauth identity true
                  let _ ← jitProvisionMembership org.id user.id
                  let user ← refreshUser user.id
                  issueTokensOrChallenge A user login

/-- `_login_or_challenge_result`, after the membership. -/
def samlSignIn (org : Organization) (config : IdpConfig) (identity : SamlIdentity)
    (userId : ℕ) : Op (RouteReply A) := do
  let _ ← jitProvisionMembership org.id userId
  let user ← refreshUser userId
  issueTokensOrChallenge A user
    { authMethod := .saml
      idpOrgId := some org.id
      samlNameId := some identity.nameId
      samlSessionIndex := identity.sessionIndex
      organizationSamlConfigId := some config.id }

/-- The loop of `_complete_saml_login`, with the attempts that are left. -/
def completeSamlLogin (org : Organization) (config : IdpConfig) (identity : SamlIdentity) :
    ℕ → Op (RouteReply A)
  | 0 => raise (.http 500 "SAML authentication failed")
  | attempts + 1 => do
      let account : Identity :=
        { provider := "saml", providerUserId := identity.nameId, email := identity.nameId
          samlConfigId := some config.id }
      let linked ← query (·.findLinkedUser "saml" identity.nameId none (some config.id))
      match linked with
      | some user => samlSignIn A org config identity user.id
      | none => do
          let existing ← query fun db => findUserByEmail A db identity.nameId
          match existing with
          | some user => do
              let linkToken ← issueLinkConfirmation A user account (some org.id)
              return .linkRequired linkToken
          | none => do
              let created ← Prog.orElse
                (do
                  let user ← createUserWithOauth account true
                  return some user)
                fun
                  | .integrity => do
                      rollbackNow
                      return none
                  | x => raise x
              match created with
              | some user => samlSignIn A org config identity user.id
              | none => completeSamlLogin org config identity attempts

/-- `saml_acs` -/
def samlAcs (r : SamlAcs A) : Op (RouteReply A) :=
  match r.relayState with
  | none => raise (.http 400 "Missing RelayState")
  | some relayState => do
      let now ← time
      let state ← query fun db => verifySamlRelayState A db now r.orgSlug relayState
      match state with
      | .error x => raise x
      | .ok (org, config) =>
          match r.answer with
          | none => raise (.http 400 "SAML authentication failed")
          | some identity =>
              if '@' ∉ identity.nameId.toList then raise (.http 400 "SAML authentication failed")
              else completeSamlLogin A org config identity 2

/-! ## Licence -/

structure LicenseRequest where
  key : String
  email : Option String := none
  platform : String := "web"
  machineId : Option String := none

/-- The answer of `validate_license`, once the machine is bound. -/
def answerLicense (licenseId userId : ℕ) : Op (RouteReply A) := do
  let license ← refreshLicense licenseId
  let membership ← query (·.resolvePrimaryMembership userId)
  let user ← refreshUser userId
  let reply ← issueTokensOrChallenge A user { authMethod := .license }
  match reply with
  | .signedIn result =>
      return .licensed result
        { userId := user.id
          email := user.email
          tier := license.plan
          expiresAt := license.expiresAt
          orgId := membership.map (·.organizationId) }
  | other => return other

/-- `validate_license` -/
def licenseValidate (r : LicenseRequest) : Op (RouteReply A) := do
  let answer ← validateAndConsume A r.key r.email r.platform
  match answer with
  | .error reason => return .invalidLicense reason
  | .ok license => do
      let user ← getOrCreateUserForEmail ((r.email.filter (· ≠ "")).getD license.email)
      markUsed license user
      -- the commit expires the licence
      let license ← refreshLicense license.id
      match r.machineId.filter (· ≠ "") with
      | some machineId => bindMachineId license machineId
      | none => pure ()
      answerLicense A license.id user.id

/-! ## All of them -/

/-- A request that can complete a login. -/
inductive LoginCall
  | password (r : LoginRequest)
  | oauth (r : OAuthCallback A)
  | linkConfirm (r : LinkConfirm A)
  | oidc (r : OidcCallback A)
  | saml (r : SamlAcs A)
  | license (r : LicenseRequest)
  | challenge (r : ChallengeRequest A)

/-- The handler of a request. -/
def LoginCall.op : LoginCall A → Op (RouteReply A)
  | .password r => passwordLogin A r
  | .oauth r => oauthCallback A r
  | .linkConfirm r => confirmOauthLink A r
  | .oidc r => oidcCallback A r
  | .saml r => samlAcs A r
  | .license r => licenseValidate A r
  | .challenge r => do
      let reply ← verifyMfaChallenge A r
      return .signedIn reply

end OmniAuth
