import OmniAuth.Model.App
import OmniAuth.Session.Service
import OmniAuth.Throttle.Service

/-!
# Second factors

`app/services/mfa_service.py` up to the end of a challenge, and
`app/services/email_mfa_service.py`.

After a commit or a rollback the ORM reads an object again at its next use;
`refreshUser` is that read. Between two ends of a transaction it finds what the
object held already, so it may stand wherever the code uses the object.
-/

namespace OmniAuth

open Txn Prog

variable (A : AppEnv)

/-- A use of a user object that may have to be loaded again. -/
def refreshUser (userId : ℕ) : Op User := do
  let user ← query (·.userById userId)
  match user with
  | some user => return user
  | none => raise .database

/-! ## TOTP -/

/-- `struct.pack(">Q", counter)`; no clock reaches a counter that does not fit. -/
def packCounter (counter : ℕ) : List UInt8 :=
  (List.range 8).map fun k => UInt8.ofNat (counter / 256 ^ (7 - k))

/-- The number of a digest: four bytes of it, from where its last one says, without the sign. -/
def truncatedDigest (digest : Vector UInt8 20) : ℕ :=
  let offset := (digest[19] &&& 0x0F).toNat
  ((digest.toList.drop offset).take 4).foldl (fun n byte => n * 256 + byte.toNat) 0 &&& 0x7FFFFFFF

/-- `_totp_code_at`, of the time in periods; `none` where it raises. -/
def AppEnv.totpCode (secret : String) (counter : ℕ) : Option String :=
  (A.b32decode (A.upper secret)).map fun key =>
    sixDigits (truncatedDigest (A.hmacSha1 key (packCounter counter)) % 10 ^ 6)

/-- `hmac.compare_digest` of two strings; `none` where it raises. -/
def compareDigest (a b : String) : Option Bool :=
  if isAscii a && isAscii b then some (a = b) else none

/-- The loop of `_totp_matched_step` over the candidate counters; `none` where it
raises. -/
def matchedCounter (secret code : String) : List ℕ → Option (Option ℕ)
  | [] => some none
  | counter :: rest =>
      match A.totpCode secret counter with
      | none => none
      | some candidate =>
          match compareDigest candidate code with
          | none => none
          | some true => some (some counter)
          | some false => matchedCounter secret code rest

/-- The counters of the window around `forTime` seconds. In the first period the
earliest counter is negative, and packing it raises. -/
def matchedStepAt (secret code : String) (forTime : ℕ) : Option (Option ℕ) :=
  if forTime < 30 then none
  else matchedCounter A secret code [forTime / 30 - 1, forTime / 30, forTime / 30 + 1]

/-- `not code or not code.isdigit() or len(code) != _DIGITS` -/
def malformedCode (code : String) : Bool :=
  code = "" || !A.isDigit code || code.length ≠ 6

/-- `_totp_matched_step` -/
def totpMatchedStep (secret code : String) : Op (Option ℕ) :=
  if malformedCode A code then return none
  else do
    let now ← time
    match matchedStepAt A secret code (now / 1000000) with
    | some step => return step
    | none => raise (.runtime "code comparison")

/-- `verify_totp_code` -/
def verifyTotpCode (secret code : String) : Op Bool := do
  let step ← totpMatchedStep A secret code
  return step.isSome

/-- `_try_claim_totp_step` -/
def tryClaimTotpStep (deviceId timeStep : ℕ) : Op Bool :=
  Prog.orElse
    (do
      execute (.mfa (.insertUsedTotpStep deviceId timeStep))
      commitNow
      note (.totpAccepted deviceId timeStep)
      return true)
    fun _ => do
      rollbackNow
      return false

/-- The body of the loop over devices: decrypt, match, claim; `none` where there is nothing to
claim. -/
def claimDevice (code : String) (device : MFADevice) : Op (Option Bool) :=
  match A.decrypt device.encryptedSecret with
  | none => raise (.runtime "decryption")
  | some secret => do
      let step ← totpMatchedStep A secret code
      match step with
      | some step => do
          let claimed ← tryClaimTotpStep device.id step
          return some claimed
      | none => return none

/-- The loop over devices, and whether a claim was rolled back on the way. A device that raises
does not match. -/
def matchDevice (code : String) : List MFADevice → Op (Option MFADevice × Bool)
  | [] => return (none, false)
  | device :: rest => do
      let claim ← (claimDevice A code device).orElse fun _ => return none
      match claim with
      | some true => return (some device, false)
      | some false => do
          let found ← matchDevice code rest
          return (found.1, true)
      | none => matchDevice code rest

/-- The verified devices of a user that are not disabled. -/
def Database.activeDevices (db : Database) (userId : ℕ) : List MFADevice :=
  db.mfaDevices.filter fun d => d.userId = userId ∧ d.Active

/-- `verify_user_totp_step_up`, and whether a claim was rolled back on the way: then the caller
reads its objects again. -/
def verifyUserTotpStepUp (userId : ℕ) (code : String) : Op (Bool × Bool) :=
  if malformedCode A code then return (false, false)
  else do
    let devices ← query fun db =>
      (db.activeDevices userId).filter fun d => d.deviceType = .totp
    let found ← matchDevice A code devices
    return (found.1.isSome, found.2)

/-! ## Recovery codes -/

/-- `verify_recovery_code`, a read. -/
def Database.verifyRecoveryCode (db : Database) (userId : ℕ) (code : String) :
    Option MFARecoveryCode :=
  if code = "" then none
  else db.mfaRecoveryCodes.find? fun c =>
    c.userId = userId ∧ c.codeHash = A.hashRecoveryCode code ∧ c.usedAt = none

/-- How many rows `UPDATE … WHERE id = … AND used_at IS NULL` matches. -/
def Database.unusedCodes (db : Database) (id : ℕ) : ℕ :=
  (db.mfaRecoveryCodes.filter fun c => c.id = id ∧ c.usedAt = none).length

/-- `try_consume_recovery_code` -/
def tryConsumeRecoveryCode (codeId : ℕ) : Op Bool := do
  let now ← time
  let claimed ← returning (S := AuthSig) (.mfa (.consumeRecoveryCode codeId now))
    fun db => db.unusedCodes codeId
  commitNow
  if claimed = 1 then do
    note (.recoveryCodeAccepted codeId)
    return true
  else return false

/-! ## Email codes -/

/-- `is_enabled_for` -/
def isEnabledFor (user : User) : Bool :=
  A.emailMfaEnabled && decide (user.status = .active) && onSome user.email (· ≠ "")

/-- `jti and db.query(RevokedToken)…first()` -/
def Database.jtiRevoked (db : Database) (jti : Option ℕ) : Bool :=
  onSome jti fun jti => decide (∃ t ∈ db.revokedTokens, t.tokenJti = jti)

/-- `_challenge_identity`, at the time `now`. -/
def challengeIdentity (now : ℕ) (challengeToken : A.Token) : Option (ℕ × ℕ) :=
  match decodeToken A.toEnv now challengeToken with
  | .error _ => none
  | .ok payload =>
      match payload.userId, payload.jti with
      | some userId, some jti =>
          if payload.type = some .mfaChallenge ∧ payload.authMethod = some .password then
            some (userId, jti)
          else none
      | _, _ => none

/-- Newest first: `ORDER BY created_at DESC, id DESC`. -/
def newestFirst (rows : List MFAEmailOTP) : List MFAEmailOTP :=
  rows.insertionSort fun a b =>
    b.createdAt < a.createdAt ∨ (b.createdAt = a.createdAt ∧ b.id ≤ a.id)

/-- The codes sent to a user since `hourAgo`. -/
def Database.sentSince (db : Database) (userId hourAgo : ℕ) : List MFAEmailOTP :=
  db.mfaEmailOtps.filter fun o => o.userId = userId ∧ hourAgo ≤ o.createdAt

/-- What keeps `issue_code` from sending now: the seconds to wait. -/
def sendLimit (db : Database) (userId now : ℕ) (resend : Bool) : Option ℕ :=
  let latest := (newestFirst (db.mfaEmailOtps.filter fun o => o.userId = userId)).head?
  let elapsed := latest.map fun o => now - o.createdAt
  if resend && onSome elapsed (fun e => e < seconds A.emailMfaResendCooldownSeconds) then
    some (A.emailMfaResendCooldownSeconds - elapsed.getD 0 / 1000000)
  else
    let sends := db.sentSince userId (now - minutes 60)
    if A.emailMfaMaxSendsPerHour ≤ sends.length then
      match (newestFirst sends).getLast? with
      | some oldest => some (max 1 ((oldest.createdAt + minutes 60 - now) / 1000000))
      | none => some 3600
    else none

/-- The last part of `issue_code`: the row, the message, the audit row.
`mailSent` is the answer of the mail service. -/
def sendCode (user : User) (jti now : ℕ) (resend mailSent : Bool) : Op Unit := do
  let n ← draw
  match A.emailDigest user.id jti (sixDigits (n % 1000000)) with
  | none => raise .emailMfaUnavailable
  | some codeHash =>
      Prog.orElse
        (do
          let id ← draw
          execute (.mfa (.insertEmailOtp
            { id := id
              userId := user.id
              challengeJti := jti
              codeHash := codeHash
              attempts := 0
              createdAt := now
              expiresAt := now + seconds A.emailMfaTtlSeconds }))
          if mailSent = false then raise (.runtime "email delivery")
          else do
            logEvent
              { eventType := if resend then .mfaEmailCodeResent else .mfaEmailCodeSent
                actorUserId := some user.id
                targetUserId := some user.id
                resourceType := some "mfa_email_otp"
                resourceId := some id
                metadata := [("delivery", "email")] }
              false
            commitNow)
        fun _ => do
          rollbackNow
          raise .emailMfaUnavailable

/-- `issue_code` -/
def issueCode (user : User) (challengeToken : A.Token) (resend mailSent : Bool) : Op ℕ :=
  if isEnabledFor A user = false then raise .emailMfaUnavailable
  else do
    let now ← time
    match challengeIdentity A now challengeToken with
    | none => raise .emailMfaChallenge
    | some (userId, jti) =>
        if userId ≠ user.id ∨ user.status ≠ .active then raise .emailMfaChallenge
        else do
          let revoked ← query (·.jtiRevoked (some jti))
          if revoked then raise .emailMfaChallenge
          else do
            execute (.mfa (.lockUser user.id))
            let now ← time
            let limit ← query fun db => sendLimit A db user.id now resend
            match limit with
            | some seconds => raise (.emailMfaResendLimited (max 1 seconds))
            | none => do
                execute (.mfa (.invalidateEmailOtps user.id now))
                sendCode A user jti now resend mailSent
                return A.emailMfaResendCooldownSeconds

/-- `resend_code` -/
def resendCode (challengeToken : A.Token) (mailSent : Bool) : Op ℕ := do
  let now ← time
  match challengeIdentity A now challengeToken with
  | none => raise .emailMfaChallenge
  | some (userId, _) => do
      let user ← query (·.userById userId)
      match user with
      | none => raise .emailMfaChallenge
      | some user => issueCode A user challengeToken true mailSent

/-- The row `verify_code` checks against. -/
def Database.openOtp (db : Database) (userId : ℕ) (jti : Option ℕ) : Option MFAEmailOTP :=
  jti.bind fun jti => (newestFirst (db.mfaEmailOtps.filter fun o =>
    o.userId = userId ∧ o.challengeJti = jti ∧ o.Open)).head?

/-- The attempts of a row, read again. -/
def Database.otpAttempts (db : Database) (id : ℕ) : ℕ :=
  ((db.mfaEmailOtps.find? (·.id = id)).map (·.attempts)).getD 0

/-- A wrong code: one attempt more, and the last one closes the row. Neither is
committed here. -/
def countWrongCode (row : MFAEmailOTP) (now : ℕ) : Op Bool := do
  let changed ← returning (S := AuthSig) (.mfa (.countOtpAttempt row.id A.emailMfaMaxAttempts))
    fun db => decide (∃ o ∈ db.mfaEmailOtps,
      o.id = row.id ∧ o.Open ∧ o.attempts < A.emailMfaMaxAttempts)
  if changed = false then return false
  else do
    let attempts ← query (·.otpAttempts row.id)
    if attempts < A.emailMfaMaxAttempts then return false
    else do
      execute (.mfa (.invalidateEmailOtp row.id now))
      return false

/-- How many rows the `UPDATE` that consumes a code matches. -/
def Database.consumableOtps (db : Database) (id codeHash now maxAttempts : ℕ) : ℕ :=
  (db.mfaEmailOtps.filter fun o => o.id = id ∧ o.codeHash = codeHash ∧ o.Open ∧
    now < o.expiresAt ∧ o.attempts < maxAttempts).length

/-- The right code: consume the row, if it still can be. -/
def consumeCode (row : MFAEmailOTP) (candidate now : ℕ) : Op Bool := do
  let claimed ← returning (S := AuthSig)
    (.mfa (.consumeEmailOtp row.id candidate now A.emailMfaMaxAttempts))
    fun db => db.consumableOtps row.id candidate now A.emailMfaMaxAttempts
  if claimed ≠ 1 then do
    rollbackNow
    return false
  else do
    commitNow
    return true

/-- `verify_code` -/
def verifyCode (userId : ℕ) (challengeJti : Option ℕ) (code : String) : Op Bool := do
  let row ← query (·.openOtp userId challengeJti)
  let now ← time
  match row with
  | none => return false
  | some row =>
      if row.expiresAt ≤ now ∨ A.emailMfaMaxAttempts ≤ row.attempts then return false
      else if code.length ≠ 6 ∨ isAscii code = false ∨ A.isDigit code = false then return false
      else
        match challengeJti.bind fun jti => A.emailDigest userId jti code with
        | none => raise .emailMfaUnavailable
        | some candidate =>
            if row.codeHash ≠ candidate then countWrongCode A row now
            else consumeCode A row candidate now

/-! ## The challenge -/

/-- `method` of a challenge request. -/
inductive Factor
  | email
  | totp
  | recoveryCode
  deriving DecidableEq

/-- What the throttle answers a challenge request: the status before it, and the
dimensions, with their lockouts, that a failure would lock. -/
structure ThrottleAnswer where
  status : ThrottleStatus := ⟨false, 0⟩
  newlyLocked : List (String × ℕ) := []

structure ChallengeRequest where
  challengeToken : A.Token
  code : String
  clientIp : Option String := none
  method : Option Factor := none
  throttle : ThrottleAnswer := {}

/-- What a login answers when it raises nothing. -/
inductive LoginReply
  | tokens (access refresh : A.Token)
  | mfaRequired (challengeToken : A.Token) (methods : List String)

/-- What `_consume_challenge_jti` finds pending in the session and flushes. -/
def flushVerified (userId now : ℕ) (deviceId : Option ℕ) : Op Unit := do
  execute (.mfa (.updateMfa userId { lastVerifiedAt := some (some now) }))
  match deviceId with
  | some deviceId => execute (.mfa (.touchDevice deviceId now))
  | none => return ()

/-- `_consume_challenge_jti`, with the flush of what is pending. -/
def consumeChallengeJti (userId now : ℕ) (deviceId jti : Option ℕ) : Op Unit :=
  match jti with
  | none => do
      flushVerified userId now deviceId
      commitNow
  | some jti =>
      Prog.orElse
        (do
          flushVerified userId now deviceId
          let id ← draw
          execute (.mfa (.insertRevokedToken ⟨id, jti⟩))
          commitNow)
        fun _ => do
          rollbackNow
          raise .mfaChallenge

/-- `_audit_triggered` of the throttle, for each dimension it locked. -/
def auditTriggered (userId : ℕ) (organizationId : Option ℕ) (clientIp : Option String) :
    List (String × ℕ) → Op Unit
  | [] => return ()
  | (dimension, lockoutSeconds) :: rest => do
      logEvent
        { eventType := .mfaRateLimitTriggered
          actorUserId := some userId
          targetUserId := some userId
          organizationId := organizationId
          resourceType := some "user"
          resourceId := some userId
          metadata := [("ip", clientIp.getD ""), ("dimension", dimension),
            ("lockout_seconds", toString lockoutSeconds)] }
        true
      auditTriggered userId organizationId clientIp rest

def AuthMethod.text : AuthMethod → String
  | password => "password"
  | oauth => "oauth"
  | sso => "sso"
  | saml => "saml"
  | license => "license"
  | apiKey => "api_key"
  | clientCredentials => "client_credentials"
  | serviceMint => "service_mint"
  | other value => value

/-- The audit row of a challenge. -/
def challengeEvent (eventType : AuditEventType) (userId : ℕ) (organizationId : Option ℕ)
    (authMethod : AuthMethod) (resourceType : String) (resourceId : Option ℕ)
    (more : List (String × String)) : AuditEvent where
  eventType := eventType
  actorUserId := some userId
  targetUserId := some userId
  organizationId := organizationId
  resourceType := some resourceType
  resourceId := resourceId
  metadata := ("authentication_method", authMethod.text) :: more

/-- What a challenge carries of its login. -/
def Claims.login (payload : Claims) : LoginContext where
  authMethod := payload.authMethod.getD .password
  idpOrgId := payload.idpOrgId
  samlNameId := payload.samlNameId
  samlSessionIndex := payload.samlSessionIndex
  organizationSamlConfigId := payload.organizationSamlConfigId

/-- The end of a login that a challenge completed: `generate_tokens`, without
client metadata. -/
def finishLogin (payload : Claims) (user : User) : Op (LoginReply A) := do
  note (.challengeCompleted payload.jti)
  let tokens ← generateTokens A.toEnv user payload.login.authMethod payload.login.idpOrgId
    { samlNameId := payload.login.samlNameId
      samlSessionIndex := payload.login.samlSessionIndex
      organizationSamlConfigId := payload.login.organizationSamlConfigId }
  return .tokens tokens.1 tokens.2

/-- A factor matched: consume the challenge, log, mint. -/
def completeChallenge (payload : Claims) (userId : ℕ) (deviceId : Option ℕ)
    (event : AuditEvent) : Op (LoginReply A) := do
  let now ← time
  consumeChallengeJti userId now deviceId payload.jti
  logEvent event true
  let user ← refreshUser userId
  finishLogin A payload user

/-- The email code matched: consume the challenge, log, and mint only where the
user has no other factor. -/
def completeEmailStage (payload : Claims) (userId : ℕ) (organizationId : Option ℕ) :
    Op (LoginReply A) := do
  let now ← time
  consumeChallengeJti userId now none payload.jti
  logEvent (challengeEvent .mfaVerified userId organizationId payload.login.authMethod
    "mfa_email_otp" none [("factor", "email")]) true
  let user ← refreshUser userId
  if user.mfaEnabled then do
    note (.challengeCompleted payload.jti)
    let next ← createMfaChallengeToken A.toEnv user.id payload.login (some .totp)
    return .mfaRequired next ["totp", "recovery_code"]
  else finishLogin A payload user

/-- No factor matched. -/
def refuseCode (payload : Claims) (userId : ℕ) (organizationId : Option ℕ)
    (r : ChallengeRequest A) : Op (LoginReply A) := do
  auditTriggered userId organizationId r.clientIp r.throttle.newlyLocked
  logEvent (challengeEvent .mfaVerificationFailed userId organizationId payload.login.authMethod
    "user" (some userId) []) true
  raise (.value "Invalid verification code")

/-- The devices the request may be answered with. -/
def tryDevices (payload : Claims) (r : ChallengeRequest A) (devices : List MFADevice) :
    Op (Option MFADevice) :=
  if payload.requiredStage ≠ some .email ∧ (r.method = none ∨ r.method = some .totp) then
    do
      let found ← matchDevice A r.code devices
      return found.1
  else return none

/-- A recovery code that matched and was claimed. -/
def tryRecoveryCode (payload : Claims) (r : ChallengeRequest A) (userId : ℕ) : Op Bool :=
  if payload.requiredStage ≠ some .email ∧ (r.method = none ∨ r.method = some .recoveryCode) then
    do
      let found ← Prog.orElse (query fun db => db.verifyRecoveryCode A userId r.code) fun _ =>
        return none
      match found with
      | some code => tryConsumeRecoveryCode code.id
      | none => return false
  else return false

/-- An email code that matched and was consumed. -/
def tryEmailCode (payload : Claims) (r : ChallengeRequest A) (userId : ℕ) : Op Bool :=
  if payload.requiredStage ≠ some .totp ∧ (r.method = none ∨ r.method = some .email) then do
    let user ← refreshUser userId
    if isEnabledFor A user then
      (verifyCode A userId payload.jti r.code).orElse fun _ => return false
    else return false
  else return false

/-- The factors, one after the other. -/
def answerChallenge (payload : Claims) (r : ChallengeRequest A) (user : User) :
    Op (LoginReply A) := do
  let devices ← query (·.activeDevices user.id)
  let matchedDevice ← tryDevices A payload r devices
  let membership ← query (·.resolvePrimaryMembership user.id)
  let organizationId := membership.map (·.organizationId)
  match matchedDevice with
  | some device =>
      completeChallenge A payload user.id (some device.id)
        (challengeEvent .mfaVerified user.id organizationId payload.login.authMethod
          "mfa_device" (some device.id) [])
  | none => do
      let recovered ← tryRecoveryCode A payload r user.id
      if recovered then
        completeChallenge A payload user.id none
          (challengeEvent .mfaRecoveryCodeUsed user.id organizationId payload.login.authMethod
            "user" (some user.id) [])
      else do
        let emailMatched ← tryEmailCode A payload r user.id
        if emailMatched then completeEmailStage A payload user.id organizationId
        else refuseCode A payload user.id organizationId r

/-- `verify_mfa_challenge`. A `required_stage` other than the three it knows is no
`Stage`. -/
def verifyMfaChallenge (r : ChallengeRequest A) : Op (LoginReply A) := do
  let now ← time
  match decodeToken A.toEnv now r.challengeToken with
  | .error _ => raise .mfaChallenge
  | .ok payload =>
      if payload.type ≠ some .mfaChallenge then raise .mfaChallenge
      else if payload.userId.isSome ∧ r.throttle.status.locked then
        raise (.mfaThrottled r.throttle.status.retryAfterSeconds)
      else do
        let revoked ← query (·.jtiRevoked payload.jti)
        let user ← query fun db => payload.userId.bind db.userById
        if revoked then raise .mfaChallenge
        else
          match user with
          | none => raise .mfaChallenge
          | some user =>
              if user.status ≠ .active then raise .mfaChallenge
              else if user.mfaEnabled = false ∧ isEnabledFor A user = false then
                raise .mfaChallenge
              else if payload.requiredStage = some .totp ∧ user.mfaEnabled = false then
                raise .mfaChallenge
              else answerChallenge A payload r user

end OmniAuth
