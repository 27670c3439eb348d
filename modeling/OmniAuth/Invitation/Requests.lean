import OmniAuth.Role.Surface

/-!
# The rest of an invitation's life

`list_invitations`, `revoke_invitation`, `preview_invitation` and `start_invitation_mfa`, and
their routes. Creating an invitation and accepting it are modelled elsewhere; with them these
are all the requests that read or write invitations.
-/

namespace OmniAuth

open Txn Prog

/-- `_set_expired`, of a pending invitation, by an administrator or by nobody. -/
def expireInvitation (invitation : OrganizationInvitation) (actorUserId : Option ℕ) :
    Op Unit := do
  execute (.org (.expireInvitation invitation.id))
  logEvent { invitationEvent .orgInvitationExpired invitation actorUserId none with
    beforeState := [("status", "pending")]
    afterState := [("status", "expired")] } false

/-! ## Administrators -/

/-- The loop of `list_invitations`: those that are overdue expire. The answer is `changed`. -/
def expireOverdue (actorUserId : ℕ) : List OrganizationInvitation → Op Bool
  | [] => return false
  | row :: rest => do
      let now ← time
      if row.expiresAt ≤ now then do
        expireInvitation row (some actorUserId)
        let _ ← expireOverdue actorUserId rest
        return true
      else expireOverdue actorUserId rest

/-- The last hundred invitations of an organization, the newest first. -/
def Database.recentInvitations (db : Database) (organizationId : ℕ) :
    List OrganizationInvitation :=
  ((db.organizationInvitations.filter (·.organizationId = organizationId)).mergeSort
    fun i j => j.createdAt ≤ i.createdAt).take 100

/-- `list_invitations` -/
def listInvitations (organizationId actorUserId : ℕ) : Op (List OrganizationInvitation) := do
  let rows ← returning (S := AuthSig) (.org (.lockPendingOf organizationId))
    fun db => db.organizationInvitations.filter fun i =>
      i.organizationId = organizationId ∧ i.status = .pending
  let changed ← expireOverdue actorUserId rows
  if changed then commitNow else pure ()
  query (·.recentInvitations organizationId)

/-- `GET /orgs/{org_id}/invitations` -/
def getOrganizationInvitations (user : Claims) (organizationId : ℕ) :
    Op (List OrganizationInvitation) := do
  let _ ← requireInvitationManageOrg user organizationId
  match user.sub with
  | some (.user actorUserId) => listInvitations organizationId actorUserId
  | _ => raise noSubject

/-- `revoke_invitation`, of an invitation read without a lock. -/
def revokeInvitation (invitation : OrganizationInvitation) (actorUserId : ℕ) : Op Unit :=
  if invitation.status ≠ .pending then
    invitationError "invitation_unavailable" "Only pending invitations can be revoked" 409
  else do
    let now ← time
    execute (.org (.revokeInvitation invitation.id now actorUserId))
    logEvent { invitationEvent .orgInvitationRevoked invitation (some actorUserId) none with
      beforeState := [("status", "pending")]
      afterState := [("status", "revoked")] } false
    commitNow

/-- `POST /orgs/{org_id}/invitations/{invitation_id}/revoke` -/
def revokeOrganizationInvitation (user : Claims) (organizationId invitationId : ℕ) : Op Unit := do
  let _ ← requireInvitationManageOrg user organizationId
  let invitation ← query fun db => db.organizationInvitations.find? fun i =>
    i.id = invitationId ∧ i.organizationId = organizationId
  match invitation, user.sub with
  | none, _ => raise (.http 404 "Invitation not found")
  | some invitation, some (.user actorUserId) => do
      let actor ← query (·.userById actorUserId)
      match actor with
      | none => raise (.http 401 "Invalid user")
      | some actor => revokeInvitation invitation actor.id
  | some _, _ => raise noSubject

/-! ## The invited -/

variable (A : AppEnv)

/-- `_pending`, without the lock. -/
def pendingUnlocked (token : String) : Op OrganizationInvitation :=
  if malformedToken token then
    invitationError "invitation_invalid" "Invitation is invalid or unavailable" 404
  else do
    let invitation ← query (·.invitationByHash (A.invitationHash token))
    match invitation with
    | none => invitationError "invitation_invalid" "Invitation is invalid or unavailable" 404
    | some invitation =>
        if invitation.status ≠ .pending then
          invitationError "invitation_unavailable" "Invitation is no longer available" 410
        else do
          let now ← time
          if invitation.expiresAt ≤ now then do
            expireInvitation invitation none
            commitNow
            invitationError "invitation_expired" "Invitation has expired" 410
          else do
            let active ← query (·.organizationActive invitation.organizationId)
            if active then return invitation
            else
              invitationError "organization_unavailable"
                "Organization is not accepting invitations" 409

/-- What a preview adds to the invitation. -/
structure InvitationPreview where
  invitation : OrganizationInvitation
  existingUser : Bool
  mfaRequired : Bool

/-- `preview_invitation` -/
def previewInvitation (token : String) : Op InvitationPreview := do
  let invitation ← pendingUnlocked A token
  let existingUser ← query fun db =>
    (db.users.find? fun u => u.email = some invitation.invitedEmail ∧ u.status = .active).isSome
  let mfaRequired ← query (policyRequiresMfa · invitation.organizationId)
  return ⟨invitation, existingUser, mfaRequired⟩

/-- `start_invitation_mfa`: the secret of the invitation, made at the first call. Without a
key neither `encrypt` nor `decrypt` answers, and `is_configured` says so beforehand. -/
def startInvitationMfa (configured : Bool) (token : String) : Op String := do
  let invitation ← pendingInvitation A token
  let required ← query (policyRequiresMfa · invitation.organizationId)
  if required = false then
    invitationError "mfa_not_required" "This invitation does not require organization MFA" 409
  else if configured = false then
    invitationError "mfa_unavailable" "MFA setup is unavailable" 503
  else
    match invitation.mfaSecretEncrypted.filter (· ≠ "") with
    | some encrypted =>
        match A.decrypt encrypted with
        | none => raise (.runtime "decryption")
        | some secret => return secret
    | none => do
        let n ← draw
        match A.encrypt (A.secret n) with
        | none => raise (.runtime "encryption")
        | some encrypted => do
            let now ← time
            execute (.org (.setInvitationSecret invitation.id encrypted now))
            commitNow
            return A.secret n

/-! ## All of them -/

/-- The requests on invitations. -/
inductive InvitationCall
  | create (user : Claims) (organizationId : ℕ) (timestamp : ℕ → String) (email : String)
      (roles : List String) (mailed : Bool)
  | list (user : Claims) (organizationId : ℕ)
  | revoke (user : Claims) (organizationId invitationId : ℕ)
  | preview (token : String)
  | startMfa (configured : Bool) (token : String)
  | acceptNewUser (token password : String) (totpCode : Option String)
  | acceptExistingUser (token : String) (user : User) (totpCode : Option String)

/-- A request, without its answer. -/
def InvitationCall.op : InvitationCall → Op Unit
  | create user organizationId timestamp email roles mailed => do
      let _ ← createOrganizationInvitation A timestamp user organizationId email roles mailed
      return ()
  | list user organizationId => do
      let _ ← getOrganizationInvitations user organizationId
      return ()
  | revoke user organizationId invitationId =>
      revokeOrganizationInvitation user organizationId invitationId
  | preview token => do
      let _ ← previewInvitation A token
      return ()
  | startMfa configured token => do
      let _ ← startInvitationMfa A configured token
      return ()
  | acceptNewUser token password totpCode => do
      let _ ← OmniAuth.acceptNewUser A token password totpCode
      return ()
  | acceptExistingUser token user totpCode => do
      let _ ← OmniAuth.acceptExistingUser A token user totpCode
      return ()

end OmniAuth
