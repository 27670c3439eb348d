import OmniAuth.Role.Members

/-!
# The surface of an organization

The requests of `routes_orgs` and `routes_organization_roles` that write roles, memberships
or invitations. The two routers do the same things in two ways: one replaces the roles of a
member and adds or takes away a single one by its id, the other replaces them and takes one
away by its name. `org_invitation_service.create_invitation` is here as well.
-/

namespace OmniAuth

open Txn Prog

/-! ## Roles of the organization's own -/

/-- `POST /organizations/{organization_id}/roles` -/
def createOrganizationRole (A : AppEnv) (user : Claims) (organizationId : ℕ) (name : String)
    (permissions : List String) (description : Option String) : Op Role := do
  let _ ← queryOrRaise (requireOrgManager · user organizationId)
  match user.sub with
  | some (.user actorUserId) =>
      createRoleRoute A (some organizationId) name permissions description actorUserId
  | _ => raise noSubject

/-- `PUT /organizations/{organization_id}/roles/{role_id}` -/
def updateOrganizationRole (A : AppEnv) (user : Claims) (organizationId roleId : ℕ)
    (permissions : List String) (description : Option String) : Op Unit := do
  let _ ← queryOrRaise (requireOrgManager · user organizationId)
  match user.sub with
  | some (.user actorUserId) =>
      updateRoleRoute A (some organizationId) roleId permissions description actorUserId
  | _ => raise noSubject

/-- `DELETE /organizations/{organization_id}/roles/{role_id}` -/
def deleteOrganizationRole (user : Claims) (organizationId roleId : ℕ) : Op Unit := do
  let _ ← queryOrRaise (requireOrgManager · user organizationId)
  deleteRoleRoute (some organizationId) roleId

/-! ## Roles of a member -/

/-- `PUT /orgs/{org_id}/members/{user_id}/roles`. Nothing keeps a name from being there
twice, but the row of a role that is new to the member is. -/
def updateMemberRoles (A : AppEnv) (user : Claims) (organizationId userId : ℕ)
    (roles : List String) : Op (List String) := do
  let _ ← queryOrRaise (requireOrgManager · user organizationId)
  let target ← queryOrRaise (getTargetMembership · organizationId userId)
  match user.sub with
  | some (.user actorUserId) => do
      let newRoles ← valueErrorAs refusedStatus
        (resolveRolesForOrg A organizationId (decide (manageAllOrgs ∈ user.permissions))
          (some actorUserId) (some target.userId) roles)
      let escalates ← query (·.escalates target newRoles actorUserId)
      if escalates then
        raise (.http 403
          "Cannot modify your own org roles to grant yourself additional permissions")
      else if ¬ ((newRoles.map (·.id)).filter (· ∉ target.roleIds)).Nodup then raise .integrity
      else do
        let before ← query (·.roleNames target.roleIds)
        setMemberRoles target before newRoles actorUserId
        return (newRoles.dedup.map (·.name)).insertionSort (· ≤ ·)
  | _ => raise noSubject

/-- `POST /orgs/{org_id}/members/{user_id}/roles` -/
def assignMemberRole (A : AppEnv) (user : Claims) (organizationId userId : ℕ) (role : String) :
    Op Unit := do
  let _ ← queryOrRaise (requireOrgManager · user organizationId)
  let target ← queryOrRaise (getTargetMembership · organizationId userId)
  match user.sub with
  | some (.user actorUserId) => do
      let resolved ← valueErrorAs refusedStatus
        (resolveRolesForOrg A organizationId (decide (manageAllOrgs ∈ user.permissions))
          (some actorUserId) (some target.userId) [role])
      match resolved with
      | [] => raise (.lookup "list index out of range")
      | role :: _ => do
          let escalates ← query (·.escalates target [role] actorUserId)
          if escalates then
            raise (.http 403
              "Cannot assign yourself an org role that grants additional permissions")
          else do
            addMemberRole target target.roleIds role actorUserId
            commitNow
  | _ => raise noSubject

/-- `DELETE /orgs/{org_id}/members/{user_id}/roles/{role_id}` -/
def removeMemberRoleById (user : Claims) (organizationId userId roleId : ℕ) : Op Unit := do
  let caller ← queryOrRaise (requireOrgManager · user organizationId)
  let target ← queryOrRaise (getTargetMembership · organizationId userId)
  let role ← query (·.getRole roleId)
  match role with
  | none => raise (.http 404 "Role not found")
  | some role =>
      if role.id ∉ target.roleIds then
        raise (.http 404 "Role is not assigned to this user in this organization")
      else do
        removeMemberRole target target.roleIds role caller.userId
        commitNow

/-! ## Members and invitations -/

/-- `invite_member` and its route; an account nobody has stays `none`. -/
def inviteMember (user : Claims) (organizationId : ℕ) (email : String) :
    Op OrganizationMembership := do
  let _ ← queryOrRaise (requireOrgManager · user organizationId)
  match user.sub with
  | some (.user actorUserId) => do
      let inviter ← query (·.userById actorUserId)
      let invitee ← query (·.userByEmail email)
      match invitee with
      | none => raise (.http 404 "No account exists for that email yet")
      | some invitee => do
          let existing ← query (·.getMembership organizationId invitee.id)
          match existing, inviter with
          | some membership, _ => return membership
          | none, some inviter =>
              joinAsMember organizationId invitee.id .invited (some inviter.id) inviter.id
                [("reason", "invited"), ("email", email)]
          | none, none => raise (.runtime "'NoneType' object has no attribute 'id'")
  | _ => raise noSubject

/-- `require_invitation_manage_org` -/
def requireInvitationManageOrg (user : Claims) (organizationId : ℕ) :
    Op OrganizationMembership := do
  let answer ← query (requireOrgManager · user organizationId)
  match answer, user.sub with
  | .ok membership, _ => return membership
  | .error x, some (.user actorUserId) => do
      let organization ← query (·.organizationById organizationId)
      logEvent
        { eventType := .orgInvitationDenied
          actorUserId := some actorUserId
          organizationId := organization.map (·.id)
          resourceType := some "organization_invitation"
          metadata := [("reason", "authorization_denied")] }
        true
      match x with
      | .http 404 detail =>
          raise (if organization.isSome then .http 403 "Forbidden" else .http 404 detail)
      | x => raise x
  | .error x, _ => raise x

/-- `"@" not in email or len(email) > 255 or "\n" in email or "\r" in email` -/
def malformedEmail (email : String) : Bool :=
  '@' ∉ email.toList || 255 < email.length || '\n' ∈ email.toList || '\r' ∈ email.toList

/-- The existing user is an active member. -/
def Database.activeMember (db : Database) (organizationId : ℕ) (email : String) : Bool :=
  onSome (db.userByEmail email) fun u => (db.activeMembership u.id organizationId).isSome

/-- The checks of `create_invitation` before it writes. -/
def checkInvitation (A : AppEnv) (organizationId : ℕ) (email : String) : Op Unit :=
  if A.orgInvitationsEnabled = false ∨ A.orgInvitationAcceptUrl = "" then
    invitationError "invitations_disabled" "Organization invitations are not enabled" 503
  else if A.validAcceptUrl A.orgInvitationAcceptUrl = false then
    invitationError "invitation_configuration"
      "Invitation acceptance URL must use a public HTTPS hostname" 503
  else if malformedEmail email then
    invitationError "invalid_email" "Enter a valid invitation email address" 422
  else if A.orgInvitationTtlSeconds < 60 ∨ 2592000 < A.orgInvitationTtlSeconds then
    invitationError "invitation_configuration" "Invitation expiration is misconfigured" 503
  else do
    let member ← query (·.activeMember organizationId email)
    if member then
      invitationError "already_member" "This identity is already an active organization member" 409
    else return ()

/-- `resolve_roles_for_org` of the roles of an invitation, and what is made of its error. -/
def resolveInvitedRoles (A : AppEnv) (organizationId : ℕ) (callerIsPlatformAdmin : Bool)
    (actorUserId : ℕ) (roleNames : List String) : Op (List Role) :=
  (resolveRolesForOrg A organizationId callerIsPlatformAdmin (some actorUserId) none
    roleNames).orElse fun x =>
      match x with
      | .value message => invitationError "invalid_roles" message 403
      | x => raise x

/-- The invitation that stands in the way is refused or, where it is overdue, set expired. -/
def clearPending (A : AppEnv) (organizationId actorUserId now : ℕ) (email : String) :
    Op Unit := do
  let existing ← returning (S := AuthSig)
    (.org (.lockPendingKey (A.activeKey organizationId email)))
    fun db => db.organizationInvitations.find? fun i =>
      i.activeKey = some (A.activeKey organizationId email) ∧ i.status = .pending
  match existing with
  | none => return ()
  | some existing =>
      if now < existing.expiresAt then
        invitationError "invitation_exists" "A pending invitation already exists for this email"
          409
      else do
        execute (.org (.expireInvitation existing.id))
        logEvent { invitationEvent .orgInvitationExpired existing (some actorUserId) none with
          beforeState := [("status", "pending")]
          afterState := [("status", "expired")] } false

/-- `create_invitation`. `mailed` is the answer of the mail server, and `timestamp` is
`isoformat`. -/
def createInvitation (A : AppEnv) (timestamp : ℕ → String) (organizationId actorUserId : ℕ)
    (email : String) (roleNames : List String) (callerIsPlatformAdmin mailed : Bool) :
    Op OrganizationInvitation := do
  let email := A.lower (A.strip email)
  checkInvitation A organizationId email
  let roleNames := if roleNames = [] then [orgMemberRole] else roleNames
  let _ ← getOrCreateRole orgMemberRole []
  if 8 < roleNames.length ∨ ¬ roleNames.Nodup then
    invitationError "invalid_roles" "Invitation roles are invalid" 422
  else do
    let roles ← resolveInvitedRoles A organizationId callerIsPlatformAdmin actorUserId roleNames
    let now ← time
    clearPending A organizationId actorUserId now email
    let token ← draw
    let id ← draw
    let invitation : OrganizationInvitation :=
      { id := id
        organizationId := organizationId
        invitedByUserId := actorUserId
        inviterIsPlatformAdmin := callerIsPlatformAdmin
        invitedEmail := email
        roleNames := roles.map (·.name)
        tokenHash := A.invitationHash (A.invitationToken token)
        activeKey := some (A.activeKey organizationId email)
        status := .pending
        createdAt := now
        expiresAt := now + seconds A.orgInvitationTtlSeconds }
    onClash
      (do
        execute (.org (.insertInvitation invitation))
        if mailed then do
          logEvent { invitationEvent .orgInvitationCreated invitation (some actorUserId) none with
            afterState :=
              [("status", "pending"), ("roles", ", ".intercalate invitation.roleNames),
                ("expires_at", timestamp invitation.expiresAt)] } false
          commitNow
          return invitation
        else do
          rollbackNow
          invitationError "invitation_delivery_failed"
            "Invitation delivery failed; no invitation was created" 503)
      (invitationError "invitation_exists" "A pending invitation already exists for this email"
        409)

/-- `POST /orgs/{org_id}/invitations` -/
def createOrganizationInvitation (A : AppEnv) (timestamp : ℕ → String) (user : Claims)
    (organizationId : ℕ) (email : String) (roles : List String) (mailed : Bool) :
    Op OrganizationInvitation := do
  let _ ← requireInvitationManageOrg user organizationId
  match user.sub with
  | some (.user actorUserId) => do
      let actor ← query (·.userById actorUserId)
      match actor with
      | none => raise (.http 401 "Invalid user")
      | some actor =>
          createInvitation A timestamp organizationId actor.id email roles
            (decide (manageAllOrgs ∈ user.permissions)) mailed
  | _ => raise noSubject

/-! ## Requests -/

/-- The requests of the surface that write. -/
inductive OrgCall
  | createRole (name : String) (permissions : List String) (description : Option String)
  | updateRole (roleId : ℕ) (permissions : List String) (description : Option String)
  | deleteRole (roleId : ℕ)
  | updateMemberRoles (userId : ℕ) (roles : List String)
  | assignMemberRoles (userId : ℕ) (roles : List String)
  | assignMemberRole (userId : ℕ) (role : String)
  | removeMemberRole (userId roleId : ℕ)
  | removeMemberRoleByName (userId : ℕ) (roleName : String)
  | inviteMember (email : String)
  | createInvitation (timestamp : ℕ → String) (email : String) (roles : List String)
      (mailed : Bool)

/-- A request, without its answer. -/
def OrgCall.op (A : AppEnv) (user : Claims) (organizationId : ℕ) : OrgCall → Op Unit
  | createRole name permissions description => do
      let _ ← createOrganizationRole A user organizationId name permissions description
      return ()
  | updateRole roleId permissions description =>
      updateOrganizationRole A user organizationId roleId permissions description
  | deleteRole roleId => deleteOrganizationRole user organizationId roleId
  | updateMemberRoles userId roles => do
      let _ ← OmniAuth.updateMemberRoles A user organizationId userId roles
      return ()
  | assignMemberRoles userId roles => do
      let _ ← assignOrganizationMemberRoles A user organizationId userId roles
      return ()
  | assignMemberRole userId role => OmniAuth.assignMemberRole A user organizationId userId role
  | removeMemberRole userId roleId => removeMemberRoleById user organizationId userId roleId
  | removeMemberRoleByName userId roleName =>
      removeOrganizationMemberRole user organizationId userId roleName
  | inviteMember email => do
      let _ ← OmniAuth.inviteMember user organizationId email
      return ()
  | createInvitation timestamp email roles mailed => do
      let _ ← createOrganizationInvitation A timestamp user organizationId email roles mailed
      return ()

end OmniAuth
