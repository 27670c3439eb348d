import OmniAuth.Model.Jwt

/-!
# Sessions and refresh tokens

`app/services/session_service.py`, and of `app/services/auth_service.py` the
functions that issue, rotate and revoke.

The ORM session does not flush by itself, so a write goes to the database at
the next flush or commit of the source, after the reads that stand between;
the statements below are in the order the database sees them.
-/

namespace OmniAuth

open Txn Prog

/-! ## The audit trail -/

/-- `datetime.utcnow().replace(microsecond=0)` -/
def wholeSecond (t : ℕ) : ℕ := seconds (numericDate t)

/-- `audit_service.log_event`; the row is stamped here. With `commit`, a commit
that fails is swallowed and rolled back. -/
def logEvent (event : AuditEvent) (commit : Bool) : Op Unit := do
  let now ← time
  execute (.insertAuditEvent { event with createdAt := wholeSecond now })
  if commit then commitNow.orElse fun _ => rollbackNow else pure ()

/-- The text `sessions.revoked_reason` stores. -/
def RevokedReason.text : RevokedReason → String
  | userLogout => "user_logout"
  | userRevoked => "user_revoked"
  | reuseDetected => "reuse_detected"
  | idleTimeout => "idle_timeout"
  | absoluteTimeout => "absolute_timeout"
  | concurrentLimit => "concurrent_session_limit"
  | accountDisabled => "account_disabled"

/-- `_log_session_revoked` -/
def logSessionRevoked (userId : ℕ) (sessionId : Option ℕ) (reason : RevokedReason)
    (actorUserId : Option ℕ) : Op Unit :=
  logEvent
    { eventType := .sessionRevoked
      actorUserId := some (actorUserId.getD userId)
      targetUserId := some userId
      resourceType := some "session"
      resourceId := sessionId
      metadata := [("reason", reason.text)] }
    true

/-! ## `session_service` -/

variable (E : Env)

/-- `is_usable` -/
def isUsable : Option UserSession → Op Bool
  | none => return true
  | some session =>
      if session.status = .revoked then return false
      else do
        let now ← time
        return ! decide (session.expiresAt < now)

/-- The limit a session is past at `now`, the absolute one first. -/
def timeoutReason (session : UserSession) (now : ℕ) : Option RevokedReason :=
  if session.createdAt + seconds E.sessionAbsoluteTimeoutSeconds < now then some .absoluteTimeout
  else if session.lastActivityAt + seconds E.sessionIdleTimeoutSeconds < now then some .idleTimeout
  else none

/-- `check_timeout_policy` -/
def checkTimeoutPolicy : Option UserSession → Op (Option RevokedReason)
  | none => return none
  | some session => do
      let now ← time
      note (.policyEvaluated session.sessionId now)
      return timeoutReason E session now

inductive EffectiveStatus
  | active
  | revoked
  | expired
  | idleExpired
  | absoluteExpired
  deriving DecidableEq

/-- `effective_status` -/
def effectiveStatus (session : UserSession) : Op EffectiveStatus :=
  if session.status = .revoked then return .revoked
  else do
    let timeoutReason ← checkTimeoutPolicy E (some session)
    match timeoutReason with
    | some .absoluteTimeout => return .absoluteExpired
    | some .idleTimeout => return .idleExpired
    | _ => do
        let now ← time
        if session.expiresAt < now then return .expired else return .active

/-- `revoke` -/
def revoke (familyId : Option ℕ) (reason : RevokedReason) : Op Unit := do
  let session ← query (·.getByFamilyId familyId)
  match session with
  | none => return ()
  | some session =>
      if session.status = .revoked then return ()
      else do
        let now ← time
        execute (.revokeSession session.id now reason)

/-- What `create` records of a login beside the tokens. -/
structure ClientInfo where
  clientIp : Option String := none
  userAgent : Option String := none
  samlNameId : Option String := none
  samlSessionIndex : Option String := none
  organizationSamlConfigId : Option ℕ := none
  deriving DecidableEq

/-- `user_agent[:_MAX_USER_AGENT_LEN] if user_agent else None` -/
def clipUserAgent (userAgent : Option String) : Option String :=
  (userAgent.filter (· ≠ "")).map fun s => String.ofList (s.toList.take 255)

/-- `create` -/
def createSession (sessionId userId : ℕ) (claims : Claims) (authMethod : AuthMethod)
    (expiresAt : ℕ) (client : ClientInfo) : Op Unit := do
  let now ← time
  let id ← draw
  execute (.insertSession
    { id := id
      sessionId := sessionId
      userId := userId
      organizationId := claims.orgId
      orgRole := claims.orgRole
      authMethod := authMethod
      mfaVerified := claims.mfaVerified
      status := .active
      createdAt := now
      lastActivityAt := now
      expiresAt := expiresAt
      revokedAt := none
      revokedReason := none
      clientIp := client.clientIp
      userAgent := clipUserAgent client.userAgent
      samlNameId := client.samlNameId
      samlSessionIndex := client.samlSessionIndex
      organizationSamlConfigId := client.organizationSamlConfigId })

/-! ## Claims -/

/-- `build_user_claims`, a read. `membership` is the one the token is scoped
to; the primary one when omitted. -/
def buildUserClaims (db : Database) (user : User) (authMethod : AuthMethod)
    (idpOrgId requestedTeamId : Option ℕ) (membership : Option OrganizationMembership) : Claims :=
  let orgMembership := membership.orElse fun _ => db.resolvePrimaryMembership user.id
  let orgId := orgMembership.map (·.organizationId)
  let orgRoleIds := (orgMembership.map (·.roleIds)).getD []
  let team := db.resolveTeamClaim orgId requestedTeamId user.id
  { sub := some (.user user.id)
    email := user.email
    roles := (db.rolesOf user.roleIds).map (·.name)
    permissions := sortedSet (db.permissionsOf user.roleIds ++ db.permissionsOf orgRoleIds)
    orgId := orgId
    orgRole := ((db.rolesOf orgRoleIds).map (·.name)).insertionSort (· ≤ ·)
    teamId := team.1
    teamRole := team.2
    authMethod := some authMethod
    idpOrgId := idpOrgId
    tokenVersion := some 2
    mfaVerified := true }

/-- `_persisted_auth_method` -/
def persistedAuthMethod : AuthMethod → PersistedAuthMethod
  | .password => .password
  | .oauth => .oauth
  | .sso => .oidc
  | .saml => .saml
  | _ => .unknown

/-! ## Revocation -/

/-- `_revoke_family` -/
def revokeFamily (familyId : Option ℕ) : Op Unit :=
  match familyId with
  | none => return ()
  | some f => do
      execute (.revokeFamily f)
      commitNow

/-- Revoke the family, then the session, then log; each commits on its own. -/
def endSession (userId : ℕ) (familyId : Option ℕ) (reason : RevokedReason)
    (actorUserId : Option ℕ) : Op Unit := do
  revokeFamily familyId
  revoke familyId reason
  logSessionRevoked userId familyId reason actorUserId

/-- `revoke_token`: of the tokens, only the presented one. -/
def revokeToken (token : E.Token) : Op Unit := do
  let row ← query (·.tokenByHash (E.sha256 token))
  match row with
  | none => return ()
  | some dbToken => do
      revoke dbToken.familyId .userLogout
      if dbToken.revoked then pure () else execute (.revokeRefreshToken dbToken.id)
      logSessionRevoked dbToken.userId dbToken.familyId .userLogout none
      commitNow

/-- `revoke_session` -/
def revokeSession (sessionId : ℕ) : Op Bool := do
  let session ← query (·.getByFamilyId (some sessionId))
  match session with
  | none => return false
  | some session => do
      endSession session.userId (some sessionId) .userRevoked none
      return true

/-- End the given sessions of a user, one after the other. -/
def endSessions (userId : ℕ) (reason : RevokedReason) (actorUserId : Option ℕ) :
    List UserSession → Op Unit
  | [] => return ()
  | session :: rest => do
      endSession userId (some session.sessionId) reason actorUserId
      endSessions userId reason actorUserId rest

/-- `revoke_all_sessions_for_user` -/
def revokeAllSessionsForUser (userId : ℕ) (reason : RevokedReason)
    (actorUserId : Option ℕ) : Op ℕ := do
  let sessions ← query fun db =>
    db.sessions.filter fun s => s.userId = userId ∧ s.status ≠ .revoked
  endSessions userId reason actorUserId sessions
  commitNow
  return sessions.length

/-! ## Issuance -/

/-- The candidates whose effective status is active, each asked in turn. -/
def effectivelyActive : List UserSession → Op (List UserSession)
  | [] => return []
  | s :: rest => do
      let status ← effectiveStatus E s
      let others ← effectivelyActive rest
      return if status = .active then s :: others else others

/-- `_evict_oldest_sessions_over_limit`. The candidates are read under a row
lock, from the latest rows rather than from the snapshot. -/
def evictOldestSessionsOverLimit (userId : ℕ) : Op Unit := do
  let candidates ← returning (S := AuthSig) (.lockActiveSessions userId) fun db =>
    (db.activeSessions userId).insertionSort fun s s' => s.createdAt ≤ s'.createdAt
  let active ← effectivelyActive E candidates
  let excess := active.length + 1 - E.sessionMaxConcurrent
  endSessions userId .concurrentLimit none (active.take excess)

/-- `generate_tokens` -/
def generateTokens (user : User) (authMethod : AuthMethod) (idpOrgId : Option ℕ)
    (client : ClientInfo) : Op (E.Token × E.Token) := do
  let lastLoginAt ← time
  let payload ← query fun db => buildUserClaims db user authMethod idpOrgId none none
  let access ← createAccessToken E payload none
  let refresh ← createRefreshToken E payload
  let familyId ← draw
  let now ← time
  let expiresAt := now + days 7
  let id ← draw
  execute (.touchLogin user.id lastLoginAt (persistedAuthMethod authMethod))
  execute (.insertRefreshToken
    { id := id
      userId := user.id
      tokenHash := E.sha256 refresh
      revoked := false
      expiresAt := expiresAt
      familyId := some familyId
      rotatedAt := none })
  evictOldestSessionsOverLimit E user.id
  createSession familyId user.id payload authMethod expiresAt client
  commitNow
  return (access, refresh)

/-! ## Rotation -/

/-- `db_token.family_id or str(uuid.uuid4())` -/
def familyOrFresh : Option ℕ → Op ℕ
  | some f => return f
  | none => draw

/-- The reading half of `touch`: the session to write, and the activity time
to write on it. -/
def touch (familyId : ℕ) : Op (Option (ℕ × ℕ)) := do
  let session ← query (·.getByFamilyId (some familyId))
  match session with
  | none => return none
  | some session =>
      if session.status = .revoked then return none
      else do
        let now ← time
        return some (session.id, now)

/-- `touch` for a family that has a session; nothing to touch for one that
has none. -/
def touchIfPresent (familyId : ℕ) : Option UserSession → Op (Option (ℕ × ℕ))
  | some _ => touch familyId
  | none => return none

/-- The session part of the flush of a rotation: the touched row is updated;
a family without a session gets one. -/
def writeSession (familyId userId : ℕ) (claims : Claims) (authMethod : AuthMethod)
    (expiresAt : ℕ) : Option UserSession → Option (ℕ × ℕ) → Op Unit
  | some _, some (id, lastActivityAt) => execute (.touchSession id lastActivityAt expiresAt)
  | some _, none => return ()
  | none, _ => createSession familyId userId claims authMethod expiresAt {}

/-- `decode_token(presented_token)`, or `{}` when that raises. -/
def oldClaims (decodedAt : ℕ) (presentedToken : E.Token) : Claims :=
  match decodeToken E decodedAt presentedToken with
  | .ok claims => claims
  | .error _ => {}

/-- The last part of `rotate_refresh_token`: the presented row passed every
check of its own, `session` is the session its family had then. -/
def exchange (presentedToken : E.Token) (teamId : Option (Option ℕ)) (dbToken : RefreshToken)
    (session : Option UserSession) (user : User) : Op (E.Token × E.Token) := do
  let decodedAt ← time
  let old := oldClaims E decodedAt presentedToken
  let authMethod := old.authMethod.getD .password
  let requestedTeamId := teamId.getD old.teamId
  let freshClaims ← query fun db =>
    buildUserClaims db user authMethod old.idpOrgId requestedTeamId none
  let newAccess ← createAccessToken E freshClaims none
  let newRefresh ← createRefreshToken E freshClaims
  let rotatedAt ← time
  let familyId ← familyOrFresh dbToken.familyId
  let now ← time
  let newExpiresAt := now + days 7
  -- `touch` looks the session up again before anything below is flushed
  let touched ← touchIfPresent familyId session
  let id ← draw
  execute (.rotateRefreshToken dbToken.id rotatedAt
    (if dbToken.familyId = none then some familyId else none))
  execute (.insertRefreshToken
    { id := id
      userId := user.id
      tokenHash := E.sha256 newRefresh
      revoked := false
      expiresAt := newExpiresAt
      familyId := some familyId
      rotatedAt := none })
  writeSession familyId user.id freshClaims authMethod newExpiresAt session touched
  commitNow
  return (newAccess, newRefresh)

/-- `rotate_refresh_token`. `teamId` is `none` for `_UNSET`. -/
def rotateRefreshToken (presentedToken : E.Token) (teamId : Option (Option ℕ)) :
    Op (Option (E.Token × E.Token)) := do
  let row ← query (·.tokenByHash (E.sha256 presentedToken))
  match row with
  | none => return none
  | some dbToken =>
      if dbToken.rotatedAt.isSome then do
        note (.reuseDetected dbToken.familyId)
        endSession dbToken.userId dbToken.familyId .reuseDetected none
        commitNow
        return none
      else if dbToken.revoked then return none
      else do
        let now ← time
        if dbToken.expiresAt < now then return none
        else do
          let session ← query (·.getByFamilyId dbToken.familyId)
          let usable ← isUsable session
          if usable = false then return none
          else do
            let violated ← checkTimeoutPolicy E session
            match violated with
            | some reason => do
                endSession dbToken.userId dbToken.familyId reason none
                commitNow
                return none
            | none => do
                let user ← query (·.userById dbToken.userId)
                match user with
                | none => return none
                | some user =>
                    if user.status ≠ .active then return none
                    else do
                      let tokens ← exchange E presentedToken teamId dbToken session user
                      return some tokens

/-! ## Suspension -/

def UserStatus.text : UserStatus → String
  | active => "active"
  | suspended => "suspended"
  | other value => value.getD "None"

/-- `user_admin_service.set_user_status`, for the user its route loaded. -/
def setUserStatus (user : User) (status : UserStatus) (reason : Option String)
    (actorUserId : ℕ) : Op Unit :=
  if status ≠ .active ∧ status ≠ .suspended then
    raise (.value ("Unknown status: '" ++ status.text ++
      "' (expected one of ['active', 'suspended'])"))
  else if status = user.status then commitNow
  else do
    let now ← time
    execute (.setStatus user.id status now reason actorUserId)
    let _ ← (if status ≠ .active then
        revokeAllSessionsForUser user.id .accountDisabled (some actorUserId)
      else pure 0 : Op ℕ)
    logEvent
      { eventType := if status = .active then .userEnabled else .userDisabled
        actorUserId := some actorUserId
        targetUserId := some user.id
        resourceType := some "user"
        resourceId := some user.id
        beforeState := [("status", user.status.text)]
        afterState := [("status", status.text)]
        metadata := [("reason", reason.getD "None")] }
      false
    commitNow

/-- `PATCH /platform/users/{user_id}`: load the user, set its status. -/
def updatePlatformUserStatus (userId : ℕ) (status : UserStatus) (reason : Option String)
    (actorUserId : ℕ) : Op Unit := do
  let target ← query (·.userById userId)
  match target with
  | none => raise (.http 404 "User not found")
  | some target =>
      (setUserStatus target status reason actorUserId).orElse fun
        | .value message => raise (.http 400 message)
        | x => raise x

end OmniAuth
