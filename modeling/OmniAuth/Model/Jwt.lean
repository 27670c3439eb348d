import OmniAuth.Model.Sql

/-!
# Tokens

The claims of the JWTs this service signs, `app/core/jwt.py`, and the
settings and primitives it rests on. The JOSE library is outside the
repository: `Jose` is its interface, `Jose.Lawful` what its documentation
says of a token this service encoded itself.
-/

namespace OmniAuth

/-- The `sub` claim: the decimal id of a user, or a service's own name. -/
inductive Subject
  | user (id : ℕ)
  | system (name : String)
  deriving DecidableEq

/-- The `type` claim. -/
inductive TokenType
  | access
  | refresh
  | delegatedExecution
  | toolserverRegistration
  | oauthState
  | ssoState
  | samlRelayState
  | samlSloRelayState
  | mfaChallenge
  | mfaEnrollment
  | oauthLink
  | other (value : String)
  deriving DecidableEq

/-- `required_stage` of an MFA challenge. -/
inductive Stage
  | email
  | totp
  deriving DecidableEq

/-- A payload. An absent claim and one that is null read the same. `exp` and
`iat` are whole seconds, as the library encodes them. -/
structure Claims where
  sub : Option Subject := none
  email : Option String := none
  roles : List String := []
  permissions : List String := []
  orgId : Option ℕ := none
  orgRole : List String := []
  teamId : Option ℕ := none
  teamRole : Option String := none
  authMethod : Option AuthMethod := none
  apiKeyId : Option ℕ := none
  idpOrgId : Option ℕ := none
  tokenVersion : Option ℕ := none
  mfaVerified : Bool := false
  clientId : Option String := none
  scopes : List String := []
  delegationId : Option ℕ := none
  provider : Option String := none
  providerUserId : Option String := none
  codeVerifier : Option String := none
  organizationId : Option ℕ := none
  organizationSsoConfigId : Option ℕ := none
  organizationSamlConfigId : Option ℕ := none
  nonce : Option String := none
  createdAt : Option ℕ := none
  requestId : Option String := none
  userId : Option ℕ := none
  mfaRequired : Bool := false
  samlNameId : Option String := none
  samlSessionIndex : Option String := none
  requiredStage : Option Stage := none
  purpose : Option String := none
  type : Option TokenType := none
  iat : Option ℕ := none
  exp : Option ℕ := none
  jti : Option ℕ := none
  iss : Option String := none
  aud : Option String := none
  deriving DecidableEq

/-- A `datetime` as the library encodes it. -/
def numericDate (t : ℕ) : ℕ := t / 1000000

inductive Alg
  | hs256
  | rs256
  deriving DecidableEq

inductive JwtError
  | signature
  | expired
  | claims
  deriving DecidableEq

/-- The JOSE library, with this service's own key for each algorithm. -/
structure Jose where
  Token : Type
  encode : Alg → Claims → Token
  /-- `get_unverified_header(token).get("alg")`, `none` when it raises. -/
  headerAlg : Token → Option Alg
  decode : Alg → (audience : String) → (now : ℕ) → Token → Except JwtError Claims

/-- The checks `decode` makes once the signature verifies: `exp` first, then
`aud`, each only when the claim is there. -/
def Claims.validate (audience : String) (now : ℕ) (c : Claims) : Except JwtError Claims :=
  if onSome c.exp fun e => e < numericDate now then .error .expired
  else if onSome c.aud fun a => a ≠ audience then .error .claims
  else .ok c

/-- What the library documents about the tokens it encoded: the header names
the algorithm, and decoding with the matching key validates the claims. -/
structure Jose.Lawful (J : Jose) : Prop where
  headerAlg_encode : ∀ a c, J.headerAlg (J.encode a c) = some a
  decode_encode : ∀ a aud now c, J.decode a aud now (J.encode a c) = c.validate aud now

/-- A library for which a token is its algorithm and its claims: the laws can
be met. -/
def Jose.symbolic : Jose where
  Token := Alg × Claims
  encode a c := (a, c)
  headerAlg t := some t.1
  decode a aud now t := if t.1 = a then t.2.validate aud now else .error .signature

theorem Jose.symbolic_lawful : Jose.symbolic.Lawful :=
  ⟨fun _ _ => rfl, fun _ _ _ _ => if_pos rfl⟩

structure Settings where
  jwtRs256 : Bool
  jwtIssuer : String
  jwtAudience : String
  accessTokenExpireMinutes : ℕ
  delegatedExecutionTokenExpireMinutes : ℕ
  toolserverRegistrationTokenExpireMinutes : ℕ
  apiKeyTokenExpireMinutes : ℕ
  serviceMintTokenTtlSeconds : ℕ
  sessionIdleTimeoutSeconds : ℕ
  sessionAbsoluteTimeoutSeconds : ℕ
  sessionMaxConcurrent : ℕ

/-- The defaults of `app/core/config.py`. -/
def Settings.default : Settings where
  jwtRs256 := false
  jwtIssuer := "omnibioai-auth"
  jwtAudience := "omnibioai-platform"
  accessTokenExpireMinutes := 15
  delegatedExecutionTokenExpireMinutes := 5
  toolserverRegistrationTokenExpireMinutes := 5
  apiKeyTokenExpireMinutes := 5
  serviceMintTokenTtlSeconds := 300
  sessionIdleTimeoutSeconds := 7 * 86400
  sessionAbsoluteTimeoutSeconds := 30 * 86400
  sessionMaxConcurrent := 5

/-- Settings and outside primitives: the JOSE library and SHA-256. -/
structure Env extends Settings where
  jose : Jose
  sha256 : jose.Token → ℕ

/-- The default settings over `Jose.symbolic`; a token's digest is its `jti`. -/
def Env.symbolic : Env where
  toSettings := .default
  jose := .symbolic
  sha256 := fun t => t.2.jti.getD 0

abbrev Env.Token (E : Env) : Type := E.jose.Token

open Txn Prog

variable (E : Env)

/-- `_sign` -/
def sign (payload : Claims) : E.Token :=
  E.jose.encode (if E.jwtRs256 then .rs256 else .hs256)
    { payload with
      iss := payload.iss.orElse fun _ => some E.jwtIssuer
      aud := payload.aud.orElse fun _ => some E.jwtAudience }

/-- `decode_token_for_audience`, at the time `now`. -/
def decodeTokenForAudience (now : ℕ) (token : E.Token) (audience : String) :
    Except JwtError Claims :=
  match E.jose.decode (if E.jose.headerAlg token = some .rs256 then .rs256 else .hs256)
      audience now token with
  | .error x => .error x
  | .ok claims =>
      if onSome claims.iss fun i => i ≠ E.jwtIssuer then .error .claims else .ok claims

/-- `decode_token` -/
def decodeToken (now : ℕ) (token : E.Token) : Except JwtError Claims :=
  decodeTokenForAudience E now token E.jwtAudience

/-! ## Minting -/

def createAccessToken (data : Claims) (expiresSeconds : Option ℕ) : Op E.Token := do
  let now ← time
  let jti ← draw
  return sign E
    { data with
      exp := some (numericDate (now +
        (match expiresSeconds with
         | some s => seconds s
         | none => minutes E.accessTokenExpireMinutes)))
      type := some .access
      jti := some jti }

def createRefreshToken (data : Claims) : Op E.Token := do
  let now ← time
  let jti ← draw
  return sign E
    { data with
      exp := some (numericDate (now + days 7))
      type := some .refresh
      jti := some jti }

def createDelegatedExecutionToken (clientId : String) (userId organizationId : ℕ)
    (permissions : List String) (delegationId : ℕ) : Op E.Token := do
  let now ← time
  return sign E
    { sub := some (.user userId)
      clientId := some clientId
      orgId := some organizationId
      permissions := sortedSet permissions
      delegationId := some delegationId
      type := some .delegatedExecution
      iat := some (numericDate now)
      exp := some (numericDate (now + minutes E.delegatedExecutionTokenExpireMinutes))
      jti := some delegationId
      aud := some "omnibioai-toolserver" }

def createToolserverRegistrationToken (clientId : String) (organizationId registrationId : ℕ) :
    Op E.Token := do
  let now ← time
  return sign E
    { clientId := some clientId
      orgId := some organizationId
      scopes := ["toolserver.register"]
      type := some .toolserverRegistration
      iat := some (numericDate now)
      exp := some (numericDate (now + minutes E.toolserverRegistrationTokenExpireMinutes))
      jti := some registrationId
      aud := some "omnibioai-toolserver" }

def createOauthStateToken (provider : String) (codeVerifier : Option String) : Op E.Token := do
  let now ← time
  let jti ← draw
  return sign E
    { type := some .oauthState
      provider := some provider
      exp := some (numericDate (now + minutes 10))
      jti := some jti
      codeVerifier := codeVerifier.filter (· ≠ "") }

def createSsoStateToken (organizationId organizationSsoConfigId : ℕ)
    (codeVerifier nonce : String) : Op E.Token := do
  let created ← time
  let now ← time
  let jti ← draw
  return sign E
    { type := some .ssoState
      organizationId := some organizationId
      organizationSsoConfigId := some organizationSsoConfigId
      codeVerifier := some codeVerifier
      nonce := some nonce
      createdAt := some created
      exp := some (numericDate (now + minutes 10))
      jti := some jti }

/-- The two SAML relay states differ in their type only. -/
def createRelayStateToken (type : TokenType) (organizationId organizationSamlConfigId : ℕ)
    (requestId : String) : Op E.Token := do
  let now ← time
  let jti ← draw
  return sign E
    { type := some type
      organizationId := some organizationId
      organizationSamlConfigId := some organizationSamlConfigId
      requestId := some requestId
      exp := some (numericDate (now + minutes 10))
      jti := some jti }

def createSamlRelayStateToken : ℕ → ℕ → String → Op E.Token :=
  createRelayStateToken E .samlRelayState

def createSamlSloRelayStateToken : ℕ → ℕ → String → Op E.Token :=
  createRelayStateToken E .samlSloRelayState

def createServiceAccessToken (data : Claims) (expiresMinutes : ℕ) : Op E.Token := do
  let now ← time
  let jti ← draw
  return sign E
    { data with
      exp := some (numericDate (now + minutes expiresMinutes))
      type := some .access
      jti := some jti }

/-- What an MFA challenge carries of the login it belongs to. -/
structure LoginContext where
  authMethod : AuthMethod
  idpOrgId : Option ℕ := none
  samlNameId : Option String := none
  samlSessionIndex : Option String := none
  organizationSamlConfigId : Option ℕ := none
  deriving DecidableEq

def createMfaChallengeToken (userId : ℕ) (login : LoginContext) (requiredStage : Option Stage) :
    Op E.Token := do
  let now ← time
  let jti ← draw
  return sign E
    { type := some .mfaChallenge
      userId := some userId
      mfaRequired := true
      authMethod := some login.authMethod
      idpOrgId := login.idpOrgId
      samlNameId := login.samlNameId
      samlSessionIndex := login.samlSessionIndex
      organizationSamlConfigId := login.organizationSamlConfigId
      requiredStage := requiredStage
      exp := some (numericDate (now + minutes 5))
      jti := some jti }

def createMfaEnrollmentToken (userId tokenJti : ℕ) (expiresAt : Option ℕ) : Op E.Token := do
  let now ← time
  return sign E
    { type := some .mfaEnrollment
      purpose := some "totp_enrollment"
      userId := some userId
      iat := some (numericDate now)
      exp := some (numericDate (expiresAt.getD (now + minutes 10)))
      jti := some tokenJti }

def createLinkToken (userId : ℕ) (provider providerUserId email : String)
    (organizationSsoConfigId organizationSamlConfigId idpOrgId : Option ℕ) : Op E.Token := do
  let now ← time
  let jti ← draw
  return sign E
    { type := some .oauthLink
      userId := some userId
      provider := some provider
      providerUserId := some providerUserId
      email := some email
      organizationSsoConfigId := organizationSsoConfigId
      organizationSamlConfigId := organizationSamlConfigId
      idpOrgId := idpOrgId
      exp := some (numericDate (now + minutes 10))
      jti := some jti }

/-! ## What a signed token decodes to -/

variable {E}

/-- **A token this service signed** decodes to its claims, unless it has
expired, is for another audience, or names another issuer. -/
theorem decodeTokenForAudience_sign (hJ : E.jose.Lawful) (now : ℕ) (c : Claims)
    (audience : String) :
    decodeTokenForAudience E now (sign E c) audience =
      let c' := { c with
        iss := c.iss.orElse fun _ => some E.jwtIssuer
        aud := c.aud.orElse fun _ => some E.jwtAudience }
      match c'.validate audience now with
      | .error x => .error x
      | .ok c' => if onSome c'.iss fun i => i ≠ E.jwtIssuer then .error .claims else .ok c' := by
  unfold decodeTokenForAudience sign
  cases E.jwtRs256 <;> simp [hJ.headerAlg_encode, hJ.decode_encode]

end OmniAuth
