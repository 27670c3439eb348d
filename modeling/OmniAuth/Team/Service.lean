import OmniAuth.Model.App

/-!
# Teams

`team_service` and the routes on it. Each operation is one transaction: it takes the
database to the one it commits, or fails and leaves it alone.
-/

namespace OmniAuth

/-- `TEAM_ROLES`, sorted. -/
def teamRoles : List String := ["admin", "member", "viewer"]

def defaultTeamRole : String := "member"

/-- `repr` of a sorted list of ids. -/
def idsText (ids : List ℕ) : String := "[" ++ ", ".intercalate (ids.map toString) ++ "]"

/-- The caller of a route: what the gates have found out about them. -/
structure TeamCaller where
  userId : ℕ
  /-- `get_org_membership_or_platform_admin` admits them. -/
  inOrganization : Bool
  /-- They hold `manage_teams` there. -/
  managesTeams : Bool

section

variable (db : Database)

def Database.getTeam (organizationId teamId : ℕ) : Option Team :=
  db.teams.find? fun t => t.id = teamId ∧ t.organizationId = organizationId

def Database.getTeamMember (teamId userId : ℕ) : Option TeamMember :=
  db.teamMembers.find? fun m => m.teamId = teamId ∧ m.userId = userId

/-- `_admin_count` -/
def Database.adminCount (teamId : ℕ) : ℕ :=
  (db.teamMembers.filter fun m => m.teamId = teamId ∧ m.role = "admin").length

/-- `_is_last_admin` -/
def Database.isLastAdmin (member : TeamMember) : Prop :=
  member.role = "admin" ∧ db.adminCount member.teamId ≤ 1

instance (member : TeamMember) : Decidable (db.isLastAdmin member) :=
  inferInstanceAs (Decidable (_ ∧ _))

end

/-! ## The service -/

/-- `create_team`; `id` is the one the table gives the row. -/
def createTeam (id now organizationId : ℕ) (name : String) (description : Option String)
    (createdBy : Option ℕ) (db : Database) : Except Err Database :=
  if db.teams.any fun t => t.id = id ∨ (t.organizationId = organizationId ∧ t.name = name) then
    .error .integrity
  else
    .ok { db with teams := db.teams ++ [⟨id, organizationId, name, description, createdBy, now⟩] }

/-- `update_team` -/
def updateTeam (team : Team) (name description : Option String) (db : Database) :
    Except Err Database :=
  let team' : Team :=
    { team with
      name := name.getD team.name
      description := description.or team.description }
  if db.teams.any fun t =>
      t.id ≠ team.id ∧ t.organizationId = team.organizationId ∧ t.name = team'.name then
    .error .integrity
  else
    .ok { db with teams := db.teams.map fun t => if t.id = team.id then team' else t }

/-- `delete_team`; the rows of its members go with it. -/
def deleteTeam (team : Team) (db : Database) : Database :=
  { db with
    teams := db.teams.filter (·.id ≠ team.id)
    teamMembers := db.teamMembers.filter (·.teamId ≠ team.id) }

/-- `set_team_members`: `Team.members` is replaced. The rows of users that stay are left as
they are, those of users that are gone are deleted, and new ones get the column's default. -/
def setTeamMembers (now : ℕ) (team : Team) (organizationId : ℕ) (userIds : List ℕ)
    (db : Database) : Except Err Database :=
  let validUserIds := (db.memberships.filter fun m =>
    m.organizationId = organizationId ∧ m.userId ∈ userIds).map (·.userId)
  let invalid := userIds.filter (· ∉ validUserIds)
  if invalid ≠ [] then
    .error (.value ("Users not members of this organization: " ++
      idsText (invalid.dedup.insertionSort (· ≤ ·))))
  else
    let users := db.users.filter (·.id ∈ validUserIds)
    let before := db.users.filter fun u => (db.getTeamMember team.id u.id).isSome
    let kept := db.teamMembers.filter fun m =>
      ¬ (m.teamId = team.id ∧ m.userId ∈ before.map (·.id) ∧ m.userId ∉ users.map (·.id))
    let added := ((users.filter (· ∉ before)).map (·.id)).dedup.map fun userId =>
      (⟨team.id, userId, defaultTeamRole, none, now⟩ : TeamMember)
    .ok { db with teamMembers := kept ++ added }

def invalidRole (A : AppEnv) (role : String) : Err :=
  .value s!"Invalid role: {A.pyRepr role} (expected one of ['admin', 'member', 'viewer'])"

/-- `invite_to_team`; without an account for the address there is no row. -/
def inviteToTeam (A : AppEnv) (now : ℕ) (team : Team) (organizationId : ℕ) (email : String) (invitedBy : ℕ)
    (role : String) (db : Database) : Except Err (Option TeamMember × Database) :=
  if role ∉ teamRoles then
    .error (invalidRole A role)
  else
    match db.users.find? (·.email = some email) with
    | none => .ok (none, db)
    | some invitee =>
        if ¬ db.memberships.any fun m =>
            m.organizationId = organizationId ∧ m.userId = invitee.id then
          .error (.value s!"User is not a member of this organization: {email}")
        else
          match db.getTeamMember team.id invitee.id with
          | some existing => .ok (some existing, db)
          | none =>
              let member : TeamMember := ⟨team.id, invitee.id, role, invitedBy, now⟩
              .ok (some member, { db with teamMembers := db.teamMembers ++ [member] })

/-- The row of a member, by its primary key. -/
def TeamMember.SameRow (m m' : TeamMember) : Prop := m.teamId = m'.teamId ∧ m.userId = m'.userId

instance (m m' : TeamMember) : Decidable (m.SameRow m') := inferInstanceAs (Decidable (_ ∧ _))

/-- `set_member_role` -/
def setMemberRole (A : AppEnv) (member : TeamMember) (newRole : String) (db : Database) :
    Except Err Database :=
  if newRole ∉ teamRoles then
    .error (invalidRole A newRole)
  else if newRole ≠ "admin" ∧ db.isLastAdmin member then
    .error (.value "Cannot demote the last team admin")
  else
    .ok { db with
      teamMembers := db.teamMembers.map fun m =>
        if m.SameRow member then { m with role := newRole } else m }

/-- What `remove_member` and `leave_team` have in common. -/
def dropMember (refusal : String) (member : TeamMember) (db : Database) : Except Err Database :=
  if db.isLastAdmin member then .error (.value refusal)
  else .ok { db with teamMembers := db.teamMembers.filter fun m => ¬ m.SameRow member }

def removeMember : TeamMember → Database → Except Err Database :=
  dropMember "Cannot remove the last team admin"

def leaveTeam : TeamMember → Database → Except Err Database :=
  dropMember
    "The last team admin cannot leave -- transfer ownership or delete the team instead"

/-! ## The routes -/

/-- `except ValueError as e: raise HTTPException(400, str(e))` -/
def valueErrorAs400 {α : Type} : Except Err α → Except Err α
  | .error (.value message) => .error (.http 400 message)
  | r => r

/-- `require_org_permission_or_platform_admin(MANAGE_TEAMS)` -/
def requireManageTeams (caller : TeamCaller) : Except Err Unit :=
  if ¬ caller.inOrganization then .error (.http 404 "Organization not found")
  else if caller.managesTeams then .ok ()
  else .error (.http 403 "Forbidden")

/-- `require_team_manage_permission(MANAGE_TEAMS)` -/
def requireTeamManage (caller : TeamCaller) (organizationId teamId : ℕ) (db : Database) :
    Except Err Team :=
  if ¬ caller.inOrganization then .error (.http 404 "Organization not found")
  else
    match db.getTeam organizationId teamId with
    | none => .error (.http 404 "Team not found")
    | some team =>
        if caller.managesTeams then .ok team
        else
          match db.getTeamMember teamId caller.userId with
          | none => .error (.http 403 "Forbidden")
          | some member => if member.role = "admin" then .ok team else .error (.http 403 "Forbidden")

def orNotFound {α : Type} (detail : String) : Option α → Except Err α
  | some a => .ok a
  | none => .error (.http 404 detail)

/-- A request to the router of teams. -/
inductive TeamRequest
  | create (id : ℕ) (name : String) (description : Option String)
  | rename (teamId : ℕ) (name description : Option String)
  | invite (teamId : ℕ) (email role : String)
  | setRole (teamId userId : ℕ) (role : String)
  | remove (teamId userId : ℕ)
  | leave (teamId : ℕ)
  | setMembers (teamId : ℕ) (userIds : List ℕ)
  | delete (teamId : ℕ)

/-- The database a request commits. -/
def TeamRequest.handle (A : AppEnv) (now organizationId : ℕ) (caller : TeamCaller) (db : Database) :
    TeamRequest → Except Err Database
  | create id name description => do
      requireManageTeams caller
      createTeam id now organizationId name description (some caller.userId) db
  | rename teamId name description => do
      let team ← requireTeamManage caller organizationId teamId db
      updateTeam team name description db
  | invite teamId email role => do
      let team ← requireTeamManage caller organizationId teamId db
      let (member, db) ←
        valueErrorAs400 (inviteToTeam A now team organizationId email caller.userId role db)
      let _ ← orNotFound "No account exists for that email yet" member
      return db
  | setRole teamId userId role => do
      let _ ← requireTeamManage caller organizationId teamId db
      let target ← orNotFound "Team member not found" (db.getTeamMember teamId userId)
      valueErrorAs400 (setMemberRole A target role db)
  | remove teamId userId => do
      let _ ← requireTeamManage caller organizationId teamId db
      let target ← orNotFound "Team member not found" (db.getTeamMember teamId userId)
      valueErrorAs400 (removeMember target db)
  | leave teamId => do
      if ¬ caller.inOrganization then throw (.http 404 "Organization not found")
      let _ ← orNotFound "Team not found" (db.getTeam organizationId teamId)
      let member ← orNotFound "Not a member of this team" (db.getTeamMember teamId caller.userId)
      valueErrorAs400 (leaveTeam member db)
  | setMembers teamId userIds => do
      requireManageTeams caller
      let team ← orNotFound "Team not found" (db.getTeam organizationId teamId)
      valueErrorAs400 (setTeamMembers now team organizationId userIds db)
  | delete teamId => do
      requireManageTeams caller
      let team ← orNotFound "Team not found" (db.getTeam organizationId teamId)
      return deleteTeam team db

end OmniAuth
