import OmniAuth.Store.Expiring
import OmniAuth.Codec.Prefix
import OmniAuth.Login.Routes
import OmniAuth.Federation.Logout

/-!
# What is good once

The requests that spend something Redis keeps: a SAML message, and a code of the first-party
client. Each sends one command, and Redis executes a command as a whole, so requests that are
made at once come down to the order of their commands.
-/

namespace OmniAuth

open Txn Prog

/-! ## First-party codes -/

/-- The settings `LIMS_SSO_…`. -/
structure FirstPartySettings where
  limsSsoClientId : String
  limsSsoClientSecret : String
  limsSsoRedirectUri : String
  limsSsoCodeTtlSeconds : ℤ

/-- `app/core/config.py` -/
def FirstPartySettings.default : FirstPartySettings where
  limsSsoClientId := ""
  limsSsoClientSecret := ""
  limsSsoRedirectUri := ""
  limsSsoCodeTtlSeconds := 60

/-- What is stored under a code. -/
structure FirstPartyGrant where
  jti : ℕ
  sub : Subject
  email : Option String
  roles : List String
  permissions : List String
  orgId : Option ℕ
  orgRole : List String
  authMethod : Option AuthMethod
  clientId : String
  redirectUri : String
  state : String
  nonce : Option String
  exp : ℤ
  deriving DecidableEq

/-- `"1"`, and the JSON of a grant. -/
inductive RedisValue
  | one
  | grant (g : FirstPartyGrant)
  deriving DecidableEq

/-- `GET /oauth/authorize`. `user` is the answer of `get_current_user`, `code` and `jti` are
what `secrets` drew, `clock` is what the clock read. -/
structure FirstPartyAuthorize where
  clientId : String
  redirectUri : String
  responseType : String
  state : String
  nonce : Option String
  user : Claims
  code : String
  jti : ℕ
  clock : ℕ
  state_length : 16 ≤ state.length ∧ state.length ≤ 512
  nonce_length : ∀ n ∈ nonce, 16 ≤ n.length ∧ n.length ≤ 512

/-- `POST /oauth/token/authorization-code` -/
structure FirstPartyRedeem where
  grantType : String
  code : String
  redirectUri : String
  clientId : Option String
  clientSecret : Option String
  basic : Option (String × String)

structure AuthorizationCodeTokenResponse (E : Env) where
  accessToken : E.Token
  tokenType : String := "bearer"
  expiresIn : ℕ
  scope : String := "openid"
  state : String

/-- What the key of a command held; `none` where the call raises. -/
abbrev RedisReply : Type := Option (Option RedisValue)

variable (E : Env) (F : FirstPartySettings)

/-- `_require_lims_sso_config` -/
def requireLimsSsoConfig : Except Err Unit :=
  if F.limsSsoClientId = "" ∨ F.limsSsoClientSecret = "" ∨ F.limsSsoRedirectUri = "" then
    .error (.http 503 "first-party SSO is not configured")
  else .ok ()

/-- One comparison of `_verify_lims_client`. -/
def requireEqual (given registered : String) : Except Err Unit :=
  match compareDigest given registered with
  | none => .error (.runtime "comparing strings with non-ASCII characters is not supported")
  | some false => .error (.http 401 "invalid_client")
  | some true => .ok ()

/-- `_verify_lims_client` -/
def verifyLimsClient (clientId clientSecret : Option String) : Except Err Unit := do
  requireLimsSsoConfig F
  match clientId.filter (· ≠ ""), clientSecret.filter (· ≠ "") with
  | some clientId, some clientSecret => do
      requireEqual clientId F.limsSsoClientId
      requireEqual clientSecret F.limsSsoClientSecret
  | _, _ => .error (.http 401 "invalid_client")

def codeKey (code : String) : String := "oauth:first-party:" ++ code

/-- The payload `authorize_first_party_client` stores. -/
def FirstPartyAuthorize.grant (r : FirstPartyAuthorize) : FirstPartyGrant where
  jti := r.jti
  sub := r.user.sub.getD (.system "None")
  email := r.user.email
  roles := r.user.roles
  permissions := r.user.permissions
  orgId := r.user.orgId
  orgRole := r.user.orgRole
  authMethod := r.user.authMethod
  clientId := r.clientId
  redirectUri := r.redirectUri
  state := r.state
  nonce := r.nonce
  exp := numericDate r.clock + F.limsSsoCodeTtlSeconds

/-- `authorize_first_party_client`, as far as its `SETEX`, which Redis refuses for a time that
is not positive. -/
def authorizeCommand (r : FirstPartyAuthorize) :
    Except Err (Expiring.Command String RedisValue) :=
  match requireLimsSsoConfig F with
  | .error x => .error x
  | .ok () =>
      if r.responseType ≠ "code" ∨ r.clientId ≠ F.limsSsoClientId ∨
          r.redirectUri ≠ F.limsSsoRedirectUri then
        .error (.http 400 "invalid_request")
      else if manageAllOrgs ∉ r.user.permissions then .error (.http 403 "Forbidden")
      else if F.limsSsoCodeTtlSeconds ≤ 0 then
        .error (.http 503 "authorization service unavailable")
      else
        .ok (.setEx (codeKey r.code) (.grant (r.grant F)) (F.limsSsoCodeTtlSeconds.toNat * 1000))

/-- `authorize_first_party_client`: where the browser is sent. -/
def authorizeFirstPartyClient (r : FirstPartyAuthorize) (reply : RedisReply) : Except Err String :=
  match authorizeCommand F r, reply with
  | .error x, _ => .error x
  | .ok _, none => .error (.http 503 "authorization service unavailable")
  | .ok _, some _ =>
      .ok (r.redirectUri ++ (if r.redirectUri.toList.contains '?' then "&" else "?") ++ "code=" ++
        r.code ++ "&state=" ++ r.state)

/-- The credentials of the client; those of the header come first. -/
def FirstPartyRedeem.client (r : FirstPartyRedeem) : Option String × Option String :=
  match r.basic with
  | some (username, password) => (some username, some password)
  | none => (r.clientId, r.clientSecret)

/-- `redeem_first_party_authorization_code`, as far as its `GETDEL`. -/
def redeemCommand (r : FirstPartyRedeem) : Except Err (Expiring.Command String RedisValue) :=
  if r.grantType ≠ "authorization_code" then .error (.http 400 "unsupported_grant_type")
  else
    match verifyLimsClient F r.client.1 r.client.2 with
    | .error x => .error x
    | .ok () => .ok (.getDel (codeKey r.code))

/-- The claims of the token a grant gives. -/
def FirstPartyGrant.claims (g : FirstPartyGrant) : Claims where
  sub := some g.sub
  email := g.email
  roles := g.roles
  permissions := g.permissions
  orgId := g.orgId
  orgRole := g.orgRole
  authMethod := g.authMethod

/-- `redeem_first_party_authorization_code` -/
def redeemFirstPartyAuthorizationCode (r : FirstPartyRedeem) (reply : RedisReply) :
    Op (AuthorizationCodeTokenResponse E) :=
  match redeemCommand F r, reply with
  | .error x, _ => raise x
  | .ok _, none => raise (.http 503 "authorization service unavailable")
  | .ok _, some none => raise (.http 400 "invalid_grant")
  | .ok _, some (some .one) => raise (.runtime "'int' object has no attribute 'get'")
  | .ok _, some (some (.grant g)) => do
      let now ← time
      if g.exp < numericDate now ∨ some g.clientId ≠ r.client.1 ∨ g.redirectUri ≠ r.redirectUri ∨
          manageAllOrgs ∉ g.permissions then
        raise (.http 400 "invalid_grant")
      else do
        let token ← createAccessToken E g.claims none
        return {
          accessToken := token
          expiresIn := E.accessTokenExpireMinutes * 60
          state := g.state }

/-! ## SAML messages -/

/-- What the guard against replays knows a message by. -/
structure SamlMessage where
  slo : Bool
  organizationId : ℕ
  configId : ℕ
  messageId : String
  deriving DecidableEq

/-- `key_prefix` -/
def SamlMessage.keyPrefix (m : SamlMessage) : String :=
  if m.slo then "saml_slo_replay" else "saml_replay"

def SamlMessage.key (m : SamlMessage) : String :=
  m.keyPrefix ++ ":" ++ toString m.organizationId ++ ":" ++ toString m.configId ++ ":" ++
    m.messageId

def samlReplayTtlSeconds : ℕ := 600

/-- `_reject_if_replayed`: the `SET NX`, and what is made of the reply. -/
def SamlMessage.setNx (m : SamlMessage) : Expiring.Command String RedisValue :=
  .setNx m.key .one (samlReplayTtlSeconds * 1000)

def rejectIfReplayed (errorCls : String → Err) : RedisReply → Except Err Unit
  | none => .error (errorCls "could not verify this SAML message has not already been used")
  | some (some _) => .error (errorCls "this SAML message has already been used")
  | some none => .ok ()

/-- What python3-saml makes of a `SAMLResponse`. -/
structure ResponseReading where
  /-- There are no errors, and the user is authenticated. -/
  authenticated : Bool
  nameId : String
  assertionId : String
  sessionIndex : Option String

/-- `validate_saml_response`, as far as `_reject_if_replayed`; there is no reading where
`process_response` raises. -/
def readSamlResponse (config : IdpConfig) :
    Option ResponseReading → Except Err (SamlMessage × SamlIdentity)
  | none => .error (.samlAssertion "could not process SAML response")
  | some reading =>
      if ¬ reading.authenticated then .error (.samlAssertion "SAML assertion failed validation")
      else if reading.nameId = "" then
        .error (.samlAssertion "SAML assertion did not include a NameID")
      else if reading.assertionId = "" then
        .error (.samlAssertion "SAML assertion is missing an ID")
      else
        .ok (⟨false, config.organizationId, config.id, reading.assertionId⟩,
          { nameId := reading.nameId, sessionIndex := reading.sessionIndex })

/-- `validate_saml_response` -/
def validateSamlResponse (config : IdpConfig) (reading : Option ResponseReading)
    (reply : RedisReply) : Except Err SamlIdentity := do
  let read ← readSamlResponse config reading
  rejectIfReplayed .samlAssertion reply
  return read.2

/-- What python3-saml makes of a `LogoutRequest`: the two checks, `none` where one raises, and
the parts of the message. -/
structure LogoutReading where
  signatureOk : Option Bool
  structurallyValid : Option Bool
  nameId : String
  requestId : String
  sessionIndexes : List String

/-- `validate_slo_logout_request`, as far as `_reject_if_replayed`. -/
def readLogoutRequest (config : IdpConfig) (reading : LogoutReading) :
    Except Err (SamlMessage × SamlLogoutRequestIdentity) :=
  match reading.signatureOk, reading.structurallyValid with
  | none, _ => .error (.samlLogout "could not validate SAML LogoutRequest signature")
  | some false, _ => .error (.samlLogout "SAML LogoutRequest signature validation failed")
  | some true, none => .error (.samlLogout "SAML LogoutRequest failed validation")
  | some true, some false => .error (.samlLogout "SAML LogoutRequest failed validation")
  | some true, some true =>
      if reading.nameId = "" then
        .error (.samlLogout "SAML LogoutRequest did not include a NameID")
      else if reading.requestId = "" then
        .error (.samlLogout "SAML LogoutRequest is missing an ID")
      else
        .ok (⟨true, config.organizationId, config.id, reading.requestId⟩,
          ⟨reading.nameId, reading.sessionIndexes.head?, reading.requestId⟩)

/-- `validate_slo_logout_request` -/
def validateSloLogoutRequest (config : IdpConfig) (reading : LogoutReading)
    (reply : RedisReply) : Except Err SamlLogoutRequestIdentity := do
  let read ← readLogoutRequest config reading
  rejectIfReplayed .samlLogout reply
  return read.2

/-! ## Requests and Redis -/

def blacklistKey (jti : String) : String := "blacklist:jti:" ++ jti

inductive OneTimeRequest
  | samlResponse (config : IdpConfig) (reading : Option ResponseReading)
  | logoutRequest (config : IdpConfig) (reading : LogoutReading)
  | authorize (r : FirstPartyAuthorize)
  | redeem (r : FirstPartyRedeem)
  | blacklist (jti : String) (ttl : ℕ)

/-- The message a request presents, once the rest of it is in order. -/
def OneTimeRequest.message : OneTimeRequest → Option SamlMessage
  | samlResponse config reading => (readSamlResponse config reading).toOption.map Prod.fst
  | logoutRequest config reading => (readLogoutRequest config reading).toOption.map Prod.fst
  | _ => none

/-- The command a request sends, or why it sends none. -/
def OneTimeRequest.command : OneTimeRequest → Except Err (Expiring.Command String RedisValue)
  | samlResponse config reading => (readSamlResponse config reading).map fun p => p.1.setNx
  | logoutRequest config reading => (readLogoutRequest config reading).map fun p => p.1.setNx
  | authorize r => authorizeCommand F r
  | redeem r => redeemCommand F r
  | blacklist jti ttl => .ok (.setEx (blacklistKey jti) .one (ttl * 1000))

/-- What becomes of a command: it is answered, it is executed and the answer lost, or it does
not reach Redis. -/
inductive Fate
  | answered
  | lost
  | unreachable
  deriving DecidableEq

/-- A request as Redis sees it. A command the client library sends again is one more attempt. -/
structure Attempt where
  instant : ℕ
  request : OneTimeRequest
  fate : Fate

/-- What Redis executed of an attempt. -/
def Attempt.executed (e : Attempt) : Option (ℕ × Expiring.Command String RedisValue) :=
  if e.fate = .unreachable then none
  else (e.request.command F).toOption.map fun c => (e.instant, c)

def redisHistory (l : List Attempt) : Expiring.History String RedisValue :=
  l.filterMap (·.executed F)

/-- The reply to an attempt that comes after these. -/
def Attempt.reply (e : Attempt) (l : List Attempt) : RedisReply :=
  match e.request.command F, e.fate with
  | .ok c, .answered => some ((redisHistory F l).store.get e.instant c.key)
  | _, _ => none

end OmniAuth
