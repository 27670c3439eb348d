import OmniAuth.Role.Service

/-!
# Invitations

`org_invitation_service` from the token to the membership. A new user gets an account, the
default role and, where the organization asks for it, a second factor, before the roles of
the invitation are resolved; an existing user brings them. `_accepted_new_user_retry` and
its sibling answer a call that was made before.
-/

namespace OmniAuth

open Txn Prog

/-- `OrganizationInvitationError` -/
def invitationError {α : Type} (code message : String) (status : ℕ) : Op α :=
  raise (.organizationInvitation code message status)

/-- `_policy_requires_mfa` -/
def policyRequiresMfa (db : Database) (organizationId : ℕ) : Bool :=
  db.orgRequiresMfa (some organizationId)

/-- `_audit` -/
def invitationEvent (eventType : AuditEventType) (invitation : OrganizationInvitation)
    (actorUserId targetUserId : Option ℕ) : AuditEvent where
  eventType := eventType
  actorUserId := actorUserId
  targetUserId := targetUserId
  organizationId := some invitation.organizationId
  resourceType := some "organization_invitation"
  resourceId := some invitation.id

/-! ## Pending invitations -/

def Database.invitationByHash (db : Database) (tokenHash : ℕ) : Option OrganizationInvitation :=
  db.organizationInvitations.find? (·.tokenHash = tokenHash)

/-- `_set_expired`, of a pending invitation. -/
def setExpired (invitation : OrganizationInvitation) : Op Unit := do
  execute (.org (.expireInvitation invitation.id))
  logEvent { invitationEvent .orgInvitationExpired invitation none none with
    beforeState := [("status", "pending")]
    afterState := [("status", "expired")] } false

/-- `invitation.organization.status == "active"` -/
def Database.organizationActive (db : Database) (organizationId : ℕ) : Bool :=
  onSome (db.organizations.find? (·.id = organizationId)) fun o => o.status = .active

variable (A : AppEnv)

/-- `not token or len(token) > 256` -/
def malformedToken (token : String) : Bool := token = "" || 256 < token.length

/-- `_pending(…, lock=True)` -/
def pendingInvitation (token : String) : Op OrganizationInvitation :=
  if malformedToken token then
    invitationError "invitation_invalid" "Invitation is invalid or unavailable" 404
  else do
    let invitation ← returning (S := AuthSig) (.org (.lockInvitation (A.invitationHash token)))
      fun db => db.invitationByHash (A.invitationHash token)
    match invitation with
    | none => invitationError "invitation_invalid" "Invitation is invalid or unavailable" 404
    | some invitation =>
        if invitation.status ≠ .pending then
          invitationError "invitation_unavailable" "Invitation is no longer available" 410
        else do
          let now ← time
          if invitation.expiresAt ≤ now then do
            setExpired invitation
            commitNow
            invitationError "invitation_expired" "Invitation has expired" 410
          else do
            let active ← query (·.organizationActive invitation.organizationId)
            if active then return invitation
            else
              invitationError "organization_unavailable"
                "Organization is not accepting invitations" 409

/-- What an accepted invitation answers. -/
structure Accepted where
  userId : ℕ
  organizationId : ℕ
  deriving DecidableEq

/-- `digest`, or no digest at all for a token that can be none. -/
def tokenDigest (token : String) : Option ℕ :=
  if malformedToken token then none else some (A.invitationHash token)

/-- `_accepted_new_user_retry`, a read. -/
def Database.acceptedNewUser (db : Database) (digest : Option ℕ) (password : String) :
    Option Accepted := do
  let digest ← digest
  let consumed ← db.organizationInvitations.find? fun i =>
    i.tokenHash = digest ∧ i.status = .accepted
  let user ← consumed.acceptedUserId.bind db.userById
  let hash ← user.hashedPassword
  if A.verifyPassword password hash then some ⟨user.id, consumed.organizationId⟩ else none

/-- The invitation `accept_existing_user` finds consumed by the same user. -/
def Database.consumedBy (db : Database) (digest : Option ℕ) (userId : ℕ) (email : String) :
    Option Accepted := do
  let digest ← digest
  let consumed ← db.organizationInvitations.find? fun i =>
    i.tokenHash = digest ∧ i.status = .accepted ∧ i.acceptedUserId = some userId ∧
      i.invitedEmail = email
  return ⟨userId, consumed.organizationId⟩

/-- The error of a lost race, unless the call was made before. -/
def answerAgain (found : Database → Option Accepted) (x : Err) : Op Accepted := do
  let before ← query found
  match before with
  | some answer => return answer
  | none => raise x

def unavailable : Err :=
  .organizationInvitation "invitation_unavailable"
    "Invitation was already accepted or is unavailable" 409

/-- `except IntegrityError`, around a flush or a commit of `accept_new_user`. -/
def onClash {α : Type} (p : Op α) (h : Op α) : Op α :=
  p.orElse fun x =>
    match x with
    | .integrity => do
        rollbackNow
        h
    | x => raise x

/-- `_pending`, and the answer of a call made before where it says `410`. -/
def pendingOrAgain (token : String) (found : Database → Option Accepted) :
    Op (OrganizationInvitation ⊕ Accepted) :=
  Prog.orElse
    (do
      let invitation ← pendingInvitation A token
      return .inl invitation)
    fun x =>
      match x with
      | .organizationInvitation _ _ 410 => do
          let answer ← answerAgain found x
          return .inr answer
      | x => raise x

/-! ## Second factors -/

/-- A wrong code: one attempt more, and the last one revokes. -/
def countAttempt (invitation : OrganizationInvitation) (actorUserId : Option ℕ)
    (reason message : String) : Op Unit := do
  let attempts := invitation.mfaAttempts + 1
  execute (.org (.failInvitation invitation.id attempts none))
  logEvent { invitationEvent .orgInvitationDenied invitation actorUserId none with
    metadata := [("reason", reason)] } false
  if A.orgInvitationMaxAcceptAttempts ≤ attempts then do
    let now ← time
    execute (.org (.failInvitation invitation.id attempts (some now)))
    commitNow
  else commitNow
  invitationError "mfa_invalid" message 400

/-- The second factor of a new user: the one set up for the invitation. -/
def checkSetupCode (invitation : OrganizationInvitation) (totpCode : Option String) : Op Unit :=
  match invitation.mfaSecretEncrypted.filter (· ≠ ""), totpCode.filter (· ≠ "") with
  | some encrypted, some code =>
      match A.decrypt encrypted with
      | none => raise (.runtime "decryption")
      | some secret => do
          let verified ← verifyTotpCode A secret code
          if verified then return ()
          else countAttempt A invitation none "mfa_verification_failed" "Invalid MFA code"
  | _, _ =>
      invitationError "mfa_setup_required"
        "Complete organization MFA setup before accepting this invitation" 403

/-! ## Membership -/

/-- The refusal of a role, logged and committed at once. -/
def denyRole (role : Role) (offending : List String) (organizationId : ℕ)
    (actorUserId targetUserId : Option ℕ) : Op (List Role) := do
  logEvent
    { eventType := .roleAssignmentDenied
      actorUserId := actorUserId
      targetUserId := targetUserId
      organizationId := some organizationId
      resourceType := some "role"
      resourceId := some role.id
      metadata :=
        [("reason", "org_scoped_assignment_of_global_permission_role"), ("role", role.name),
          ("offending_permissions", ", ".intercalate offending)] }
    true
  raise (.value ("Role " ++ A.pyRepr role.name ++ " grants platform-wide permissions (" ++
    ", ".intercalate offending ++ ") and can only be assigned by a Platform Admin"))

/-- `resolve_roles_for_org` -/
def resolveRolesForOrg (organizationId : ℕ) (callerIsPlatformAdmin : Bool)
    (actorUserId targetUserId : Option ℕ) : List String → Op (List Role)
  | [] => return []
  | name :: rest => do
      let role ← query (getRoleInScope · name organizationId)
      match role with
      | none => raise (.value ("Unknown role: " ++ name))
      | some role =>
          let offending := offendingPermissions role.permissions
          if callerIsPlatformAdmin = false ∧ offending ≠ [] then
            denyRole A role offending organizationId actorUserId targetUserId
          else do
            let roles ← resolveRolesForOrg organizationId callerIsPlatformAdmin actorUserId
              targetUserId rest
            return role :: roles

/-- `list(invitation.role_names or [ORG_MEMBER_ROLE])` -/
def OrganizationInvitation.roles (i : OrganizationInvitation) : List String :=
  if i.roleNames = [] then [orgMemberRole] else i.roleNames

/-- `_activate_membership` -/
def activateMembership (invitation : OrganizationInvitation) (userId now : ℕ) : Op Unit := do
  let existing ← returning (S := AuthSig)
    (.org (.lockMembership invitation.organizationId userId))
    fun db => db.getMembership invitation.organizationId userId
  if onSome existing (·.status = .active) then
    invitationError "membership_exists"
      "This identity is already an active organization member" 409
  else do
    let roles ← resolveRolesForOrg A invitation.organizationId invitation.inviterIsPlatformAdmin
      (some invitation.invitedByUserId) (some userId) invitation.roles
    match existing with
    | some membership =>
        execute (.org (.activateMembership membership.id now ((roles.map (·.id)).dedup)))
    | none => do
        let id ← draw
        execute (.org (.insertMembership
          { id := id
            organizationId := invitation.organizationId
            userId := userId
            status := .active
            roleIds := (roles.map (·.id)).dedup
            invitedByUserId := some invitation.invitedByUserId
            joinedAt := now }))

/-- `_activate_invitation` -/
def activateInvitation (invitation : OrganizationInvitation) (userId now : ℕ) : Op Unit := do
  activateMembership A invitation userId now
  execute (.org (.acceptInvitation invitation.id now userId))
  logEvent { invitationEvent .orgInvitationAccepted invitation (some userId) (some userId) with
    beforeState := [("status", "pending")]
    afterState := [("status", "accepted"), ("roles", ", ".intercalate invitation.roleNames)]
    metadata := [("email_verified_by_invitation", "true")] } false
  logEvent { invitationEvent .orgMembershipChanged invitation (some userId) (some userId) with
    afterState := [("status", "active"), ("roles", ", ".intercalate invitation.roleNames)]
    metadata := [("reason", "invitation_accepted")] } false

/-! ## Acceptance -/

/-- The second factor of the new account: the secret of the invitation, verified. -/
def addSetupDevice (invitation : OrganizationInvitation) (userId now : ℕ) : Op Unit := do
  let deviceId ← draw
  execute (.mfa (.updateMfa userId
    { enabled := some true
      status := some "enabled"
      primaryMethod := some (some "totp")
      enabledAt := some (some now)
      lastVerifiedAt := some (some now) }))
  execute (.mfa (.insertDevice
    { id := deviceId
      userId := userId
      encryptedSecret := invitation.mfaSecretEncrypted.getD ""
      createdAt := now
      verifiedAt := some now }))
  logEvent
    { eventType := .mfaDeviceAdded
      actorUserId := some userId
      targetUserId := some userId
      resourceType := some "mfa_device"
      resourceId := some deviceId
      afterState := [("device_type", "totp"), ("verified", "true")]
      metadata := [("enrollment", "organization_invitation")] }
    false
  logEvent
    { eventType := .mfaEnabled
      actorUserId := some userId
      targetUserId := some userId
      resourceType := some "user"
      resourceId := some userId
      afterState := [("mfa_enabled", "true"), ("mfa_primary_method", "totp")]
      metadata := [("enrollment", "organization_invitation")] }
    false

/-- The last part of `accept_new_user`: the account and all that hangs on it, in one
transaction. -/
def openAccount (invitation : OrganizationInvitation) (password : String) (needsMfa : Bool)
    (again : Database → Option Accepted) : Op Accepted := do
  let now ← time
  let salt ← draw
  let id ← draw
  let user : User :=
    { id := id
      email := some invitation.invitedEmail
      hashedPassword := some (A.hashPassword salt password)
      status := .active }
  let clash ← onClash
    (do
      execute (.account (.insertUser user))
      return none)
    (do
      let answer ← answerAgain again unavailable
      return some answer)
  match clash with
  | some answer => return answer
  | none => do
      assignDefaultRole user
      if needsMfa then addSetupDevice invitation id now else pure ()
      onClash
        (do
          activateInvitation A invitation id now
          commitNow
          return ⟨id, invitation.organizationId⟩)
        (answerAgain again unavailable)

/-- `accept_new_user`, once the invitation is found. -/
def acceptAsNewUser (invitation : OrganizationInvitation) (password : String)
    (totpCode : Option String) (again : Database → Option Accepted) : Op Accepted := do
  let account ← query (·.userByEmail invitation.invitedEmail)
  if account.isSome then
    invitationError "existing_account" "Sign in with the invited account to accept this invitation"
      409
  else
    match A.passwordPolicy password invitation.invitedEmail with
    | some message => invitationError "password_policy" message 400
    | none => do
        let needsMfa ← query (policyRequiresMfa · invitation.organizationId)
        if needsMfa then checkSetupCode A invitation totpCode else pure ()
        openAccount A invitation password needsMfa again

/-- `accept_new_user` -/
def acceptNewUser (token password : String) (totpCode : Option String) : Op Accepted := do
  let again := fun db : Database => db.acceptedNewUser A (tokenDigest A token) password
  let before ← query again
  match before with
  | some answer => return answer
  | none => do
      let found ← pendingOrAgain A token again
      match found with
      | .inr answer => return answer
      | .inl invitation => acceptAsNewUser A invitation password totpCode again

/-- A use of an invitation that is loaded again. -/
def refreshInvitation (id : ℕ) : Op OrganizationInvitation := do
  let invitation ← query (·.organizationInvitations.find? (·.id = id))
  match invitation with
  | some invitation => return invitation
  | none => raise .database

/-- The second factor of an existing user, where the organization asks for one. Claiming a
step commits, so the invitation is looked up again; a claim that is rolled back lets go of its
lock, and the ORM reads it again before the attempt is counted. -/
def checkStepUp (invitation : OrganizationInvitation) (token : String) (user : User)
    (totpCode : Option String) : Op OrganizationInvitation :=
  if user.mfaEnabled = false then
    invitationError "mfa_enrollment_required"
      "Enroll in MFA before accepting this organization invitation" 403
  else do
    let verified ← verifyUserTotpStepUp A user.id (totpCode.getD "")
    if verified.1 then pendingInvitation A token
    else do
      let current ←
        if verified.2 then refreshInvitation invitation.id else pure invitation
      countAttempt A current (some user.id) "mfa_step_up_failed"
        "A valid authenticator code is required"
      return invitation

/-- `accept_existing_user`, once the invitation is found. -/
def acceptAsMember (invitation : OrganizationInvitation) (token email : String) (user : User)
    (totpCode : Option String) : Op Accepted :=
  if user.status ≠ .active ∨ email ≠ invitation.invitedEmail then do
    logEvent { invitationEvent .orgInvitationDenied invitation (some user.id) none with
      metadata := [("reason", "identity_mismatch")] } false
    commitNow
    invitationError "identity_mismatch" "Invitation does not match the authenticated identity" 403
  else do
    let needsMfa ← query (policyRequiresMfa · invitation.organizationId)
    let invitation ←
      if needsMfa then checkStepUp A invitation token user totpCode else pure invitation
    let now ← time
    activateInvitation A invitation user.id now
    onClash
      (do
        commitNow
        return ⟨user.id, invitation.organizationId⟩)
      (raise unavailable)

/-- `accept_existing_user` -/
def acceptExistingUser (token : String) (user : User) (totpCode : Option String) : Op Accepted :=
  match user.email with
  | none => raise (.runtime "'NoneType' object has no attribute 'strip'")
  | some email => do
      let email := A.lower (A.strip email)
      let again := fun db : Database => db.consumedBy (tokenDigest A token) user.id email
      let before ← query again
      match before with
      | some answer => return answer
      | none => do
          let found ← pendingOrAgain A token again
          match found with
          | .inr answer => return answer
          | .inl invitation => acceptAsMember A invitation token email user totpCode

end OmniAuth
