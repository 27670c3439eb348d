import OmniAuth.Team.Service

/-!
# The last admin of a team

The guard of `set_member_role`, `remove_member` and `leave_team` counts the admins before it
lets one go. Replacing the list of members goes past it: there the team keeps an admin
exactly when one of its admins is on the new list.
-/

namespace OmniAuth

namespace Database

def HasAdmin (db : Database) (teamId : ℕ) : Prop :=
  ∃ m ∈ db.teamMembers, m.teamId = teamId ∧ m.role = "admin"

/-- The primary key of `team_memberships`. -/
def MembersUnique (db : Database) : Prop :=
  (db.teamMembers.map fun m => (m.teamId, m.userId)).Nodup

/-- Its foreign key to `users`. -/
def MembersAreUsers (db : Database) : Prop :=
  ∀ m ∈ db.teamMembers, ∃ u ∈ db.users, u.id = m.userId

end Database

variable {A : AppEnv} {db db' : Database} {now teamId organizationId : ℕ}

/-! ## Lookups -/

theorem getTeam_id {team : Team} (h : db.getTeam organizationId teamId = some team) :
    team.id = teamId := by
  have hfound := List.find?_some h
  simp only [decide_eq_true_eq] at hfound
  exact hfound.1

theorem getTeamMember_spec {userId : ℕ} {m : TeamMember}
    (h : db.getTeamMember teamId userId = some m) :
    m ∈ db.teamMembers ∧ m.teamId = teamId ∧ m.userId = userId := by
  have hfound := List.find?_some h
  simp only [decide_eq_true_eq] at hfound
  exact ⟨List.mem_of_find?_eq_some h, hfound⟩

theorem getTeamMember_none {userId : ℕ} (h : db.getTeamMember teamId userId = none)
    {m : TeamMember} (hm : m ∈ db.teamMembers) : ¬ (m.teamId = teamId ∧ m.userId = userId) := by
  have hnone := List.find?_eq_none.mp h m hm
  simpa using hnone

theorem Database.MembersUnique.eq (h : db.MembersUnique) {m m' : TeamMember}
    (hm : m ∈ db.teamMembers) (hm' : m' ∈ db.teamMembers) (hsame : m.SameRow m') : m = m' :=
  List.inj_on_of_nodup_map h hm hm' (Prod.ext hsame.1 hsame.2)

/-- An admin who is not the last one leaves another behind. -/
theorem exists_other_admin (huniq : db.MembersUnique) {member : TeamMember}
    (hmember : member ∈ db.teamMembers) (hlast : ¬ db.isLastAdmin member)
    (hadmin : db.HasAdmin member.teamId) :
    ∃ m ∈ db.teamMembers, m.teamId = member.teamId ∧ m.role = "admin" ∧ ¬ m.SameRow member := by
  by_cases hrole : member.role = "admin"
  swap
  · obtain ⟨m, hm, hteam, hrole'⟩ := hadmin
    refine ⟨m, hm, hteam, hrole', fun hsame => hrole ?_⟩
    rw [← huniq.eq hm hmember hsame]
    exact hrole'
  -- two rows are counted, and one of them is not this one
  have hcount : 1 < db.adminCount member.teamId := by
    by_contra hle
    exact hlast ⟨hrole, by omega⟩
  by_contra hnone
  push Not at hnone
  let admins := db.teamMembers.filter fun m => m.teamId = member.teamId ∧ m.role = "admin"
  have hall : ∀ m ∈ admins, m = member := by
    intro m hm
    obtain ⟨hm, hadmin⟩ := List.mem_filter.mp hm
    simp only [decide_eq_true_eq] at hadmin
    exact huniq.eq hm hmember (hnone m hm hadmin.1 hadmin.2)
  have hnodup : admins.Nodup := (List.Nodup.of_map _ huniq).filter _
  have hlen : admins.length ≤ 1 := by
    rw [List.eq_replicate_iff.mpr ⟨rfl, hall⟩] at hnodup
    exact List.nodup_replicate.mp hnodup
  change 1 < admins.length at hcount
  omega

/-! ## What each operation leaves -/

theorem updateTeam_members {team : Team} {name description : Option String}
    (h : updateTeam team name description db = .ok db') : db'.teamMembers = db.teamMembers := by
  unfold updateTeam at h
  dsimp only at h
  split at h
  · cases h
  · cases h
    rfl

theorem createTeam_members {id : ℕ} {name : String} {description : Option String}
    {createdBy : Option ℕ}
    (h : createTeam id now organizationId name description createdBy db = .ok db') :
    db'.teamMembers = db.teamMembers := by
  unfold createTeam at h
  split at h
  · cases h
  · cases h
    rfl

/-- An invitation adds a row where there was none, or nothing. -/
theorem inviteToTeam_members {team : Team} {email role : String} {invitedBy : ℕ}
    {member : Option TeamMember}
    (h : inviteToTeam A now team organizationId email invitedBy role db = .ok (member, db')) :
    db'.teamMembers = db.teamMembers ∨ ∃ m, db'.teamMembers = db.teamMembers ++ [m] ∧
      ∀ m' ∈ db.teamMembers, ¬ m'.SameRow m := by
  unfold inviteToTeam at h
  split at h
  · cases h
  split at h
  · cases h
    exact .inl rfl
  split at h
  · cases h
  split at h
  · cases h
    exact .inl rfl
  · rename_i hnone
    cases h
    exact .inr ⟨_, rfl, fun m' hm' => getTeamMember_none hnone hm'⟩

theorem setMemberRole_ok {member : TeamMember} {role : String}
    (h : setMemberRole A member role db = .ok db') :
    (role = "admin" ∨ ¬ db.isLastAdmin member) ∧ db'.teamMembers =
      db.teamMembers.map fun m => if m.SameRow member then { m with role := role } else m := by
  unfold setMemberRole at h
  split at h
  · cases h
  split at h
  · cases h
  · rename_i hguard
    cases h
    refine ⟨?_, rfl⟩
    by_contra hnot
    push Not at hnot
    exact hguard hnot

theorem dropMember_ok {refusal : String} {member : TeamMember}
    (h : dropMember refusal member db = .ok db') :
    ¬ db.isLastAdmin member ∧
      db'.teamMembers = db.teamMembers.filter fun m => ¬ m.SameRow member := by
  unfold dropMember at h
  split at h
  · cases h
  · rename_i hguard
    cases h
    exact ⟨hguard, rfl⟩

/-- After its list of members is replaced, a team has the rows it had of users on the list,
and for every other a new one with the default role. -/
theorem setTeamMembers_ok {team : Team} {userIds : List ℕ}
    (h : setTeamMembers now team organizationId userIds db = .ok db') :
    (∀ m ∈ db.teamMembers, m.teamId ≠ team.id ∨ m.userId ∈ userIds → m ∈ db'.teamMembers) ∧
      ∀ m ∈ db'.teamMembers, (m ∈ db.teamMembers ∧ (m.teamId = team.id → m.userId ∈ userIds ∨
        ∀ u ∈ db.users, u.id ≠ m.userId)) ∨ m.role = defaultTeamRole := by
  unfold setTeamMembers at h
  dsimp only at h
  split at h
  · cases h
  rename_i hvalid
  rw [not_not, List.filter_eq_nil_iff] at hvalid
  cases h
  constructor
  · intro m hm hstays
    refine List.mem_append_left _ (List.mem_filter.mpr ⟨hm, decide_eq_true ?_⟩)
    rintro ⟨hteam, hbefore, hgone⟩
    rcases hstays with hother | hlisted
    · exact hother hteam
    -- a user on the list who was a member is still one
    obtain ⟨u, hu, hid⟩ := List.mem_map.mp hbefore
    refine hgone (List.mem_map.mpr ⟨u, List.mem_filter.mpr ⟨(List.mem_filter.mp hu).1, ?_⟩, hid⟩)
    rw [hid]
    simpa [and_assoc] using hvalid m.userId hlisted
  · intro m hm
    rcases List.mem_append.mp hm with hm | hm
    swap
    · obtain ⟨userId, -, rfl⟩ := List.mem_map.mp hm
      exact .inr rfl
    obtain ⟨hm, hkept⟩ := List.mem_filter.mp hm
    refine .inl ⟨hm, fun hteam => ?_⟩
    by_contra hnot
    push Not at hnot
    obtain ⟨hunlisted, u, hu, hid⟩ := hnot
    refine of_decide_eq_true hkept ⟨hteam, ?_, ?_⟩
    · -- their row is in the collection that is replaced
      refine List.mem_map.mpr ⟨u, List.mem_filter.mpr ⟨hu, ?_⟩, hid⟩
      rw [Option.isSome_iff_ne_none]
      intro hnone
      exact getTeamMember_none hnone hm ⟨hteam, hid.symm⟩
    · intro hlisted
      obtain ⟨u', hu', hid'⟩ := List.mem_map.mp hlisted
      have hin := of_decide_eq_true (List.mem_filter.mp hu').2
      obtain ⟨membership, hmembership, huser⟩ := List.mem_map.mp hin
      have hrequested := of_decide_eq_true (List.mem_filter.mp hmembership).2
      rw [huser, hid'] at hrequested
      exact hunlisted hrequested.2

theorem setTeamMembers_unique {team : Team} {userIds : List ℕ}
    (h : setTeamMembers now team organizationId userIds db = .ok db') (huniq : db.MembersUnique) :
    db'.MembersUnique := by
  unfold setTeamMembers at h
  dsimp only at h
  split at h
  · cases h
  cases h
  unfold Database.MembersUnique at huniq ⊢
  rw [List.map_append, List.nodup_append]
  refine ⟨huniq.sublist (List.filter_sublist.map _), ?_, ?_⟩
  · rw [List.map_map]
    refine (List.nodup_dedup _).map ?_
    intro id id' heq
    exact (Prod.mk.inj heq).2
  · rintro key hkept key' hadded rfl
    obtain ⟨m, hm, hkey⟩ := List.mem_map.mp hkept
    rw [List.map_map] at hadded
    obtain ⟨userId, hnew, hkey'⟩ := List.mem_map.mp hadded
    -- the user of a new row had none
    obtain ⟨u, hu, rfl⟩ := List.mem_map.mp (List.mem_dedup.mp hnew)
    obtain ⟨huser, hnot⟩ := List.mem_filter.mp hu
    have hin := of_decide_eq_true hnot
    have hnone : db.getTeamMember team.id u.id = none := by
      by_contra hsome
      exact hin (List.mem_filter.mpr
        ⟨(List.mem_filter.mp huser).1, Option.isSome_iff_ne_none.mpr hsome⟩)
    have hsame : (m.teamId, m.userId) = (team.id, u.id) := hkey.trans hkey'.symm
    exact getTeamMember_none hnone (List.mem_filter.mp hm).1 (Prod.mk.inj hsame)

/-! ## One request -/

theorem valueErrorAs400_ok {α : Type} {r : Except Err α} {a : α} (h : valueErrorAs400 r = .ok a) :
    r = .ok a := by
  unfold valueErrorAs400 at h
  split at h
  · cases h
  · exact h

theorem orNotFound_ok {α : Type} {detail : String} {o : Option α} {a : α}
    (h : orNotFound detail o = .ok a) : o = some a := by
  cases o with
  | none => cases h
  | some b => exact congrArg some (Except.ok.inj h)

/-- What a request does to the members of teams. -/
inductive MembersStep (now organizationId : ℕ) (db db' : Database) : TeamRequest → Prop
  | same {req : TeamRequest} (h : db'.teamMembers = db.teamMembers) :
      MembersStep now organizationId db db' req
  | invited {teamId : ℕ} {email role : String} (m : TeamMember)
      (hnew : ∀ m' ∈ db.teamMembers, ¬ m'.SameRow m)
      (h : db'.teamMembers = db.teamMembers ++ [m]) :
      MembersStep now organizationId db db' (.invite teamId email role)
  | roleSet {teamId userId : ℕ} {role : String} (member : TeamMember)
      (hmember : member ∈ db.teamMembers) (hguard : role = "admin" ∨ ¬ db.isLastAdmin member)
      (h : db'.teamMembers =
        db.teamMembers.map fun m => if m.SameRow member then { m with role := role } else m) :
      MembersStep now organizationId db db' (.setRole teamId userId role)
  | dropped {req : TeamRequest} (member : TeamMember) (hmember : member ∈ db.teamMembers)
      (hguard : ¬ db.isLastAdmin member)
      (h : db'.teamMembers = db.teamMembers.filter fun m => ¬ m.SameRow member) :
      MembersStep now organizationId db db' req
  | replaced {teamId : ℕ} {userIds : List ℕ} (team : Team)
      (hteam : db.getTeam organizationId teamId = some team)
      (h : setTeamMembers now team organizationId userIds db = .ok db') :
      MembersStep now organizationId db db' (.setMembers teamId userIds)
  | deleted {teamId : ℕ} (team : Team) (hteam : db.getTeam organizationId teamId = some team)
      (h : db'.teamMembers = db.teamMembers.filter (·.teamId ≠ team.id)) :
      MembersStep now organizationId db db' (.delete teamId)

theorem handle_members {caller : TeamCaller} {req : TeamRequest}
    (h : req.handle A now organizationId caller db = .ok db') :
    MembersStep now organizationId db db' req := by
  cases req with
  | create id name description =>
    obtain ⟨-, -, h⟩ := ok_of_bind h
    exact .same (createTeam_members h)
  | rename teamId name description =>
    obtain ⟨team, -, h⟩ := ok_of_bind h
    exact .same (updateTeam_members h)
  | invite teamId email role =>
    obtain ⟨team, -, h⟩ := ok_of_bind h
    obtain ⟨⟨member, db₁⟩, hinvite, h⟩ := ok_of_bind h
    obtain ⟨_, -, h⟩ := ok_of_bind h
    cases h
    rcases inviteToTeam_members (valueErrorAs400_ok hinvite) with hsame | ⟨m, hadded, hnew⟩
    · exact .same hsame
    · exact .invited m hnew hadded
  | setRole teamId userId role =>
    obtain ⟨team, -, h⟩ := ok_of_bind h
    obtain ⟨target, htarget, h⟩ := ok_of_bind h
    obtain ⟨hguard, hset⟩ := setMemberRole_ok (valueErrorAs400_ok h)
    exact .roleSet target (getTeamMember_spec (orNotFound_ok htarget)).1 hguard hset
  | remove teamId userId =>
    obtain ⟨team, -, h⟩ := ok_of_bind h
    obtain ⟨target, htarget, h⟩ := ok_of_bind h
    obtain ⟨hguard, hdropped⟩ := dropMember_ok (valueErrorAs400_ok h)
    exact .dropped target (getTeamMember_spec (orNotFound_ok htarget)).1 hguard hdropped
  | leave teamId =>
    unfold TeamRequest.handle at h
    dsimp only at h
    split at h
    · cases h
    obtain ⟨team, -, h⟩ := ok_of_bind h
    obtain ⟨member, hmember, h⟩ := ok_of_bind h
    obtain ⟨hguard, hdropped⟩ := dropMember_ok (valueErrorAs400_ok h)
    exact .dropped member (getTeamMember_spec (orNotFound_ok hmember)).1 hguard hdropped
  | setMembers teamId userIds =>
    obtain ⟨-, -, h⟩ := ok_of_bind h
    obtain ⟨team, hteam, h⟩ := ok_of_bind h
    exact .replaced team (orNotFound_ok hteam) (valueErrorAs400_ok h)
  | delete teamId =>
    obtain ⟨-, -, h⟩ := ok_of_bind h
    obtain ⟨team, hteam, h⟩ := ok_of_bind h
    cases h
    exact .deleted team (orNotFound_ok hteam) rfl

theorem MembersStep.unique {req : TeamRequest} (h : MembersStep now organizationId db db' req)
    (huniq : db.MembersUnique) : db'.MembersUnique := by
  unfold Database.MembersUnique
  cases h with
  | same h => rwa [h]
  | invited m hnew h =>
    rw [h, List.map_append, List.nodup_append]
    refine ⟨huniq, by simp, ?_⟩
    intro key hkey key' hkey' heq
    obtain ⟨m', hm', rfl⟩ := List.mem_map.mp hkey
    have hlast : key' = (m.teamId, m.userId) := by simpa using hkey'
    rw [hlast] at heq
    exact hnew m' hm' (Prod.mk.inj heq)
  | @roleSet _ _ role member hmember hguard h =>
    -- the key of a row does not change
    have hkeys : (fun m : TeamMember => (m.teamId, m.userId)) ∘ (fun m : TeamMember =>
        if m.SameRow member then { m with role := role } else m) = fun m => (m.teamId, m.userId) := by
      funext m
      simp only [Function.comp]
      split <;> rfl
    rw [h, List.map_map, hkeys]
    exact huniq
  | dropped member hmember hguard h =>
    rw [h]
    exact huniq.sublist (List.filter_sublist.map _)
  | replaced team hteam h => exact setTeamMembers_unique h huniq
  | deleted team hteam h =>
    rw [h]
    exact huniq.sublist (List.filter_sublist.map _)

/-- The request replaces the members of the team, or deletes it. -/
def TeamCaller.Admitted (caller : TeamCaller) (organizationId teamId : ℕ) (db : Database) : Prop :=
  caller.inOrganization = true ∧ caller.managesTeams = true ∧
    (db.getTeam organizationId teamId).isSome

/-- **The condition on a request**: the team is not deleted, and where its list of members
is replaced by one of members of the organization, one of its admins is on the list. -/
def TeamRequest.KeepsAdmin (teamId organizationId : ℕ) (caller : TeamCaller) (db : Database) :
    TeamRequest → Prop
  | .setMembers t userIds => t = teamId → caller.Admitted organizationId t db →
      (∀ userId ∈ userIds, ∃ m ∈ db.memberships,
        m.organizationId = organizationId ∧ m.userId = userId) →
      ∃ m ∈ db.teamMembers, m.teamId = teamId ∧ m.role = "admin" ∧ m.userId ∈ userIds
  | .delete t => t = teamId → ¬ caller.Admitted organizationId t db
  | _ => True

theorem requireManageTeams_ok {caller : TeamCaller} (h : requireManageTeams caller = .ok ()) :
    caller.inOrganization = true ∧ caller.managesTeams = true := by
  unfold requireManageTeams at h
  split at h
  · cases h
  split at h
  · rename_i hin hmanages
    exact ⟨not_not.mp hin, hmanages⟩
  · cases h

theorem setTeamMembers_valid {team : Team} {userIds : List ℕ}
    (h : setTeamMembers now team organizationId userIds db = .ok db') :
    ∀ userId ∈ userIds, ∃ m ∈ db.memberships,
      m.organizationId = organizationId ∧ m.userId = userId := by
  unfold setTeamMembers at h
  dsimp only at h
  split at h
  · cases h
  rename_i hvalid
  rw [not_not, List.filter_eq_nil_iff] at hvalid
  intro userId hlisted
  obtain ⟨m, hm, horg, -, huser⟩ : ∃ m ∈ db.memberships, m.organizationId = organizationId ∧
      m.userId ∈ userIds ∧ m.userId = userId := by simpa [and_assoc] using hvalid userId hlisted
  exact ⟨m, hm, horg, huser⟩

/-- **A request that meets the condition leaves the team an admin.** -/
theorem handle_keeps_admin {caller : TeamCaller} {req : TeamRequest}
    (h : req.handle A now organizationId caller db = .ok db') (huniq : db.MembersUnique)
    (hkeeps : req.KeepsAdmin teamId organizationId caller db) (hadmin : db.HasAdmin teamId) :
    db'.HasAdmin teamId := by
  cases handle_members h with
  | same hsame =>
    unfold Database.HasAdmin
    rwa [hsame]
  | invited m hnew hadded =>
    obtain ⟨m', hm', hadmin⟩ := hadmin
    exact ⟨m', by rw [hadded]; exact List.mem_append_left _ hm', hadmin⟩
  | @roleSet _ _ role member hmember hguard hset =>
    by_cases hteam : member.teamId = teamId
    · subst hteam
      rcases hguard with hpromoted | hlast
      · -- the member is an admin afterwards
        refine ⟨{ member with role := role }, ?_, rfl, hpromoted⟩
        rw [hset]
        exact List.mem_map.mpr ⟨member, hmember, if_pos ⟨rfl, rfl⟩⟩
      · obtain ⟨m, hm, hteam, hrole, hother⟩ := exists_other_admin huniq hmember hlast hadmin
        refine ⟨m, ?_, hteam, hrole⟩
        rw [hset]
        exact List.mem_map.mpr ⟨m, hm, if_neg hother⟩
    · obtain ⟨m, hm, hmteam, hrole⟩ := hadmin
      refine ⟨m, ?_, hmteam, hrole⟩
      rw [hset]
      exact List.mem_map.mpr ⟨m, hm, if_neg fun hsame => hteam (hsame.1.symm.trans hmteam)⟩
  | dropped member hmember hguard hdropped =>
    obtain ⟨m, hm, hmteam, hrole, hother⟩ : ∃ m ∈ db.teamMembers, m.teamId = teamId ∧
        m.role = "admin" ∧ ¬ m.SameRow member := by
      by_cases hteam : member.teamId = teamId
      · subst hteam
        exact exists_other_admin huniq hmember hguard hadmin
      · obtain ⟨m, hm, hmteam, hrole⟩ := hadmin
        exact ⟨m, hm, hmteam, hrole, fun hsame => hteam (hsame.1.symm.trans hmteam)⟩
    refine ⟨m, ?_, hmteam, hrole⟩
    rw [hdropped]
    exact List.mem_filter.mpr ⟨hm, decide_eq_true hother⟩
  | @replaced t userIds team hteam hset =>
    have hid := getTeam_id hteam
    by_cases ht : t = teamId
    · subst ht
      have hmanages := requireManageTeams_ok (ok_of_bind h).choose_spec.1
      obtain ⟨m, hm, hmteam, hrole, hlisted⟩ := hkeeps rfl
        ⟨hmanages.1, hmanages.2, by rw [hteam]; rfl⟩ (setTeamMembers_valid hset)
      exact ⟨m, (setTeamMembers_ok hset).1 m hm (.inr hlisted), hmteam, hrole⟩
    · obtain ⟨m, hm, hmteam, hrole⟩ := hadmin
      have hother : m.teamId ≠ team.id := by
        rw [hid, hmteam]
        exact Ne.symm ht
      exact ⟨m, (setTeamMembers_ok hset).1 m hm (.inl hother), hmteam, hrole⟩
  | @deleted t team hteam hdeleted =>
    have hid := getTeam_id hteam
    by_cases ht : t = teamId
    · have hmanages := requireManageTeams_ok (ok_of_bind h).choose_spec.1
      exact absurd ⟨hmanages.1, hmanages.2, by rw [hteam]; rfl⟩ (hkeeps ht)
    · obtain ⟨m, hm, hmteam, hrole⟩ := hadmin
      refine ⟨m, ?_, hmteam, hrole⟩
      rw [hdeleted]
      refine List.mem_filter.mpr ⟨hm, decide_eq_true ?_⟩
      rw [hid, hmteam]
      exact Ne.symm ht

/-- **Where no admin is on the new list, none is left.** -/
theorem setTeamMembers_no_admin {team : Team} {userIds : List ℕ}
    (h : setTeamMembers now team organizationId userIds db = .ok db') (husers : db.MembersAreUsers)
    (hnone : ¬ ∃ m ∈ db.teamMembers, m.teamId = team.id ∧ m.role = "admin" ∧ m.userId ∈ userIds) :
    ¬ db'.HasAdmin team.id := by
  rintro ⟨m, hm, hteam, hrole⟩
  rcases (setTeamMembers_ok h).2 m hm with ⟨hold, hlisted⟩ | hdefault
  · rcases hlisted hteam with hlisted | hgone
    · exact hnone ⟨m, hold, hteam, hrole, hlisted⟩
    · obtain ⟨u, hu, hid⟩ := husers m hold
      exact hgone u hu hid
  · rw [hrole] at hdefault
    exact absurd hdefault (by decide)

/-! ## Runs -/

/-- What a request leaves: what it commits, or what there was. -/
def TeamRequest.after (A : AppEnv) (now organizationId : ℕ) (caller : TeamCaller) (db : Database)
    (req : TeamRequest) : Database :=
  match req.handle A now organizationId caller db with
  | .ok db' => db'
  | .error _ => db

/-- Requests one after another, each meeting `ok`; between two of them anything may happen
to the other tables. -/
inductive TeamRun (A : AppEnv) (ok : ℕ → TeamCaller → Database → TeamRequest → Prop)
    (db : Database) : Database → Prop
  | refl : TeamRun A ok db db
  | request {db₁ : Database} (now organizationId : ℕ) (caller : TeamCaller) (req : TeamRequest)
      (hrun : TeamRun A ok db db₁) (hok : ok organizationId caller db₁ req) :
      TeamRun A ok db (req.after A now organizationId caller db₁)
  | aside {db₁ db₂ : Database} (hrun : TeamRun A ok db db₁) (hteams : db₂.teams = db₁.teams)
      (hmembers : db₂.teamMembers = db₁.teamMembers) : TeamRun A ok db db₂

theorem TeamRun.keeps (h : TeamRun A (fun org caller db req => req.KeepsAdmin teamId org caller db)
    db db') (huniq : db.MembersUnique) (hadmin : db.HasAdmin teamId) :
    db'.MembersUnique ∧ db'.HasAdmin teamId := by
  induction h with
  | refl => exact ⟨huniq, hadmin⟩
  | request now organizationId caller req _ hok ih =>
    unfold TeamRequest.after
    split
    · rename_i hhandle
      exact ⟨(handle_members hhandle).unique ih.1,
        handle_keeps_admin hhandle ih.1 hok ih.2⟩
    · exact ih
  | aside _ _ hmembers ih =>
    unfold Database.MembersUnique Database.HasAdmin
    rw [hmembers]
    exact ih

/-- **A team keeps an admin** through every run whose requests meet the condition, and
loses the last one to a request that does not. -/
theorem team_keeps_admin (A : AppEnv) (teamId : ℕ) :
    (∀ db db' : Database, db.MembersUnique → db.HasAdmin teamId →
      TeamRun A (fun org caller db req => req.KeepsAdmin teamId org caller db) db db' →
      db'.HasAdmin teamId) ∧
    ∀ (db : Database) (now organizationId : ℕ) (caller : TeamCaller) (userIds : List ℕ),
      db.MembersAreUsers →
      ¬ (TeamRequest.setMembers teamId userIds).KeepsAdmin teamId organizationId caller db →
      ¬ ((TeamRequest.setMembers teamId userIds).after A now organizationId caller db).HasAdmin
        teamId := by
  refine ⟨fun db db' huniq hadmin hrun => (hrun.keeps huniq hadmin).2, ?_⟩
  intro db now organizationId caller userIds husers hnot
  simp only [TeamRequest.KeepsAdmin, forall_const, Classical.not_imp] at hnot
  obtain ⟨⟨hin, hmanages, hteam⟩, hvalid, hnone⟩ := hnot
  obtain ⟨team, hteam⟩ := Option.isSome_iff_exists.mp hteam
  have hset : ∃ db', setTeamMembers now team organizationId userIds db = .ok db' := by
    unfold setTeamMembers
    dsimp only
    rw [if_neg]
    · exact ⟨_, rfl⟩
    · rw [not_not, List.filter_eq_nil_iff]
      intro userId hlisted
      obtain ⟨m, hm, horg, rfl⟩ := hvalid userId hlisted
      simpa using ⟨m, hm, horg, hlisted, rfl⟩
  obtain ⟨db', hset⟩ := hset
  have hafter : (TeamRequest.setMembers teamId userIds).after A now organizationId caller db =
      db' := by
    simp [TeamRequest.after, TeamRequest.handle, requireManageTeams, hin, hmanages, hteam,
      orNotFound, hset, valueErrorAs400, bind, Except.bind]
  rw [hafter, ← getTeam_id hteam]
  refine setTeamMembers_no_admin hset husers ?_
  rw [getTeam_id hteam]
  exact hnone

/-- Organization 1 with the members 1 and 2, of whom the first is the admin of team 1. -/
def oneAdmin : Database :=
  { Database.empty with
    users := [{ id := 1, status := .active }, { id := 2, status := .active }]
    memberships := [⟨1, 1, 1, .active, [], none, 0⟩, ⟨2, 1, 2, .active, [], none, 0⟩]
    teams := [{ id := 1, organizationId := 1 }]
    teamMembers := [{ teamId := 1, userId := 1, role := "admin" }] }

/-- **The list of members is replaced by the second member alone**: no admin is left. -/
theorem team_loses_last_admin :
    oneAdmin.HasAdmin 1 ∧
      ¬ ((TeamRequest.setMembers 1 [2]).after AppEnv.symbolic 0 1 ⟨1, true, true⟩
        oneAdmin).HasAdmin 1 := by
  constructor
  · exact ⟨_, List.mem_singleton.mpr rfl, rfl, rfl⟩
  · have hmembers : ((TeamRequest.setMembers 1 [2]).after AppEnv.symbolic 0 1 ⟨1, true, true⟩
        oneAdmin).teamMembers = [⟨1, 2, "member", none, some 0⟩] := by decide
    rintro ⟨m, hm, -, hrole⟩
    rw [hmembers, List.mem_singleton] at hm
    subst hm
    exact absurd hrole (by decide)

/-- An admin who is on the list stays one. -/
theorem team_keeps_listed_admin :
    ((TeamRequest.setMembers 1 [1, 2]).after AppEnv.symbolic 0 1 ⟨1, true, true⟩
      oneAdmin).HasAdmin 1 := by
  refine (team_keeps_admin AppEnv.symbolic 1).1 oneAdmin _ (List.nodup_singleton _)
    ⟨_, List.mem_singleton.mpr rfl, rfl, rfl⟩ (.request 0 1 ⟨1, true, true⟩ _ .refl ?_)
  intro _ _ _
  exact ⟨_, List.mem_singleton.mpr rfl, rfl, rfl, by decide⟩

end OmniAuth
