import OmniAuth.Invitation.Service
import OmniAuth.Role.Names
import OmniAuth.Token.Delegation

/-!
# The roles of a member

`routes_organization_roles`: assigning the roles of a member by name, and taking one of them
away by name. The names of an assignment are resolved among all roles that the organization
sees; the name of a removal among the platform-wide ones alone. So what was assigned can be
taken away exactly where it is platform-wide.
-/

namespace OmniAuth

open Txn Prog

/-! ## The gate -/

/-- `MANAGE_ORG` -/
def manageOrg : String := "manage_org"

/-- `_require_org_manager` -/
def requireOrgManager (db : Database) (user : Claims) (organizationId : ℕ) :
    Except Err OrganizationMembership :=
  match getOrgMembershipOrPlatformAdmin db user organizationId with
  | .error x => .error x
  | .ok membership =>
      if manageOrg ∈ db.permissionsOf membership.roleIds then .ok membership
      else .error (.http 403 "Forbidden")

/-- `_get_target_membership` -/
def getTargetMembership (db : Database) (organizationId userId : ℕ) :
    Except Err OrganizationMembership :=
  match db.getMembership organizationId userId with
  | some target => .ok target
  | none => .error (.http 404 "User is not a member of this organization")

/-- A read that may refuse. -/
def queryOrRaise {α : Type} (f : Database → Except Err α) : Op α := do
  let answer ← query f
  match answer with
  | .ok a => return a
  | .error x => raise x

/-! ## Assigning -/

/-- `set_member_roles`. `before` are the names of the roles the membership has. -/
def setMemberRoles (membership : OrganizationMembership) (before : List String)
    (roles : List Role) (actorUserId : ℕ) : Op Unit := do
  let after := (roles.map (·.name)).insertionSort (· ≤ ·)
  execute (.org (.setMembershipRoles membership.id ((roles.map (·.id)).dedup)))
  if before ≠ after then
    logEvent { memberRoleEvent .roleAssigned membership actorUserId with
      beforeState := [("roles", ", ".intercalate before)]
      afterState := [("roles", ", ".intercalate after)] } false
  else pure ()
  commitNow

/-- The names of the roles with these ids, sorted. -/
def Database.roleNames (db : Database) (roleIds : List ℕ) : List String :=
  ((db.rolesOf roleIds).map (·.name)).insertionSort (· ≤ ·)

/-- `_member_role_out`, of the roles with these ids. -/
def memberRoleOut (A : AppEnv) (roleIds : List ℕ) : Op (List Role) := do
  let roles ← query fun db => (db.rolesOf roleIds).insertionSort fun r r' => r.name ≤ r'.name
  let permissions := roles.flatMap fun r => r.permissions.insertionSort (· ≤ ·)
  match permissions.find? (! isKnownPermission ·) with
  | some name => raise (.http 500 ("Registry drift: permission " ++ A.pyRepr name ++
      " exists on this member's roles in the database but is not present in the " ++
      "Permission Registry."))
  | none => return roles

/-- `403 if "Platform Admin" in str(e) else 400` -/
def refusedStatus (message : String) : ℕ :=
  if message.toList.tails.any ("Platform Admin".toList.isPrefixOf ·) then 403 else 400

/-- What the caller would gain by their own hand. -/
def Database.escalates (db : Database) (target : OrganizationMembership) (newRoles : List Role)
    (actorUserId : ℕ) : Bool :=
  decide (target.userId = actorUserId) &&
    (newRoles.flatMap (·.permissions)).any (· ∉ db.permissionsOf target.roleIds)

/-- `assign_organization_member_roles`, once the gate has let the caller in. -/
def assignRoles (A : AppEnv) (organizationId userId : ℕ) (roles : List String)
    (callerIsPlatformAdmin : Bool) (actorUserId : ℕ) : Op (List Role) := do
  let target ← queryOrRaise (getTargetMembership · organizationId userId)
  if ¬ roles.Nodup then raise (.http 400 "Duplicate role name in request")
  else do
    let newRoles ← valueErrorAs refusedStatus
      (resolveRolesForOrg A organizationId callerIsPlatformAdmin (some actorUserId)
        (some target.userId) roles)
    let escalates ← query (·.escalates target newRoles actorUserId)
    if escalates then
      raise (.http 403
        "Cannot modify your own org roles to grant yourself additional permissions")
    else do
      let before ← query (·.roleNames target.roleIds)
      setMemberRoles target before newRoles actorUserId
      memberRoleOut A (newRoles.map (·.id))

/-- `POST /organizations/{organization_id}/members/{user_id}/roles` -/
def assignOrganizationMemberRoles (A : AppEnv) (user : Claims) (organizationId userId : ℕ)
    (roles : List String) : Op (List Role) := do
  let _ ← queryOrRaise (requireOrgManager · user organizationId)
  match user.sub with
  | some (.user actorUserId) =>
      assignRoles A organizationId userId roles (decide (manageAllOrgs ∈ user.permissions))
        actorUserId
  | _ => raise noSubject

/-! ## Removing -/

/-- `DELETE /organizations/{organization_id}/members/{user_id}/roles/{role_name}` -/
def removeOrganizationMemberRole (user : Claims) (organizationId userId : ℕ)
    (roleName : String) : Op Unit := do
  let caller ← queryOrRaise (requireOrgManager · user organizationId)
  let target ← queryOrRaise (getTargetMembership · organizationId userId)
  let role ← query (getRoleByName · roleName none)
  match role with
  | none => raise (.http 404 "Role not found")
  | some role =>
      if role.id ∉ target.roleIds then
        raise (.http 404 "Role is not assigned to this member in this organization")
      else do
        removeMemberRole target target.roleIds role caller.userId
        commitNow

variable {A : AppEnv} {w w' : World} {organizationId userId : ℕ}

/-! ## What the calls do -/

/-- The roles of a member. -/
def Database.memberRoleIds (db : Database) (organizationId userId : ℕ) : List ℕ :=
  ((db.getMembership organizationId userId).map (·.roleIds)).getD []

theorem Database.memberRoleIds_eq {db : Database} {target : OrganizationMembership}
    (h : db.getMembership organizationId userId = some target) :
    db.memberRoleIds organizationId userId = target.roleIds := by
  rw [Database.memberRoleIds, h]
  rfl

/-- Who has a role is a member. -/
theorem Database.exists_member {db : Database} {roleId : ℕ}
    (h : roleId ∈ db.memberRoleIds organizationId userId) :
    ∃ target, db.getMembership organizationId userId = some target := by
  unfold Database.memberRoleIds at h
  cases hm : db.getMembership organizationId userId with
  | some target => exact ⟨target, rfl⟩
  | none =>
    rw [hm] at h
    cases h

/-- The roles of the member whose row is changed. -/
theorem Database.memberRoleIds_update {db db' : Database} {target : OrganizationMembership}
    {f : List ℕ → List ℕ} (h : db.getMembership organizationId userId = some target)
    (hupdate : db'.memberships = (db.updateMembership target.id fun m =>
      { m with roleIds := f m.roleIds }).memberships) :
    db'.memberRoleIds organizationId userId = f target.roleIds := by
  have hsame : ∀ m : OrganizationMembership,
      ((fun m : OrganizationMembership =>
        if m.id = target.id then { m with roleIds := f m.roleIds } else m) m).organizationId =
          m.organizationId ∧
      ((fun m : OrganizationMembership =>
        if m.id = target.id then { m with roleIds := f m.roleIds } else m) m).userId = m.userId := by
    intro m
    dsimp only
    split <;> exact ⟨rfl, rfl⟩
  have htarget : db'.getMembership organizationId userId =
      some { target with roleIds := f target.roleIds } := by
    rw [Database.getMembership] at h ⊢
    rw [hupdate, Database.updateMembership, List.find?_map]
    simp only [Function.comp_def, hsame, h, Option.map_some, if_true]
  exact Database.memberRoleIds_eq htarget

theorem queryOrRaise_ok {α β : Type} {f : Database → Except Err α} {k : α → Op β} {b : β}
    (h : ((queryOrRaise f).bind k).Exec w (.ok b) w') :
    ∃ a, f w.cur = .ok a ∧ (k a).Exec w (.ok b) w' := by
  rcases exec_bind.mp h with ⟨a, w₁, hread, hnext⟩ | ⟨x, -, hx⟩
  · simp only [queryOrRaise, bind_eq, exec_query_bind] at hread
    split at hread
    · rename_i a' ha
      obtain ⟨ha', rfl⟩ := hread
      obtain rfl := Except.ok.inj ha'
      exact ⟨_, ha, hnext⟩
    · cases hread.1
  · cases hx

theorem getRoleInScope_some {db : Database} {name : String} {role : Role}
    (h : getRoleInScope db name organizationId = some role) :
    role ∈ db.roles ∧ role.name = name := by
  have hfound := List.find?_some h
  simp only [decide_eq_true_eq] at hfound
  exact ⟨List.mem_of_find?_eq_some h, hfound.1⟩

theorem exec_queryOrRaise_bind {α β : Type} {f : Database → Except Err α} {k : α → Op β} {a : α}
    {r : Except Err β} (hf : f w.cur = .ok a) :
    ((queryOrRaise f).bind k).Exec w r w' ↔ (k a).Exec w r w' := by
  have hread : ∀ r₁ w₁, (queryOrRaise f).Exec w r₁ w₁ ↔ r₁ = .ok a ∧ w₁ = w := by
    intro r₁ w₁
    simp only [queryOrRaise, bind_eq, exec_query_bind, hf]
    exact Iff.rfl
  rw [exec_bind]
  constructor
  · rintro (⟨b, w₁, hq, h⟩ | ⟨x, hq, -⟩)
    · obtain ⟨hb, rfl⟩ := (hread _ _).mp hq
      obtain rfl := Except.ok.inj hb
      exact h
    · cases ((hread _ _).mp hq).1
  · intro h
    exact .inl ⟨a, w, (hread _ _).mpr ⟨rfl, rfl⟩, h⟩

theorem getTargetMembership_ok {db : Database} {target : OrganizationMembership}
    (h : getTargetMembership db organizationId userId = .ok target) :
    db.getMembership organizationId userId = some target := by
  unfold getTargetMembership at h
  split at h
  · rename_i found
    rwa [Except.ok.inj h] at found
  · cases h

/-- **Each name is resolved** as the organization sees it. -/
theorem resolveRolesForOrg_ok {isAdmin : Bool} {actorUserId targetUserId : Option ℕ}
    {names : List String} {roles : List Role}
    (h : (resolveRolesForOrg A organizationId isAdmin actorUserId targetUserId names).Exec w
      (.ok roles) w') :
    w' = w ∧ names.map (getRoleInScope w.cur · organizationId) = roles.map some := by
  induction names generalizing roles with
  | nil =>
    obtain ⟨hr, rfl⟩ := h
    obtain rfl := Except.ok.inj hr
    exact ⟨rfl, rfl⟩
  | cons name rest ih =>
    simp only [resolveRolesForOrg, bind_eq, exec_query_bind] at h
    split at h
    · cases h.1
    rename_i role hrole
    split at h
    · obtain ⟨_, w₁, -, h⟩ := exec_bind_inv h fun _ _ h => ⟨_, (logEvent_exec h).1⟩
      cases h.1
    · rcases exec_bind.mp h with ⟨others, w₁, hothers, hr, rfl⟩ | ⟨x, -, hx⟩
      · obtain ⟨rfl, hall⟩ := ih hothers
        obtain rfl := Except.ok.inj hr
        refine ⟨rfl, ?_⟩
        rw [List.map_cons, List.map_cons, hrole, hall]
      · cases hx

theorem valueErrorAs_ok {α : Type} {status : String → ℕ} {p : Op α} {a : α}
    (h : (valueErrorAs status p).Exec w (.ok a) w') : p.Exec w (.ok a) w' := by
  rcases exec_orElse.mp h with ⟨b, hp, hb⟩ | ⟨x, w₁, -, hraise⟩
  · rwa [Except.ok.inj hb]
  · dsimp only at hraise
    split at hraise <;> cases hraise.1

theorem memberRoleOut_ok {roleIds : List ℕ} {out : List Role}
    (h : (memberRoleOut A roleIds).Exec w (.ok out) w') : w' = w := by
  simp only [memberRoleOut, bind_eq, exec_query_bind] at h
  split at h
  · cases h.1
  · exact h.2

/-- The roles are committed, and the roles to choose from are as they were. -/
theorem setMemberRoles_ok {membership : OrganizationMembership} {before : List String}
    {roles : List Role} {actorUserId : ℕ}
    (h : (setMemberRoles membership before roles actorUserId).Exec w (.ok ()) w') :
    w'.base = w'.cur ∧ w'.cur.roles = w.cur.roles ∧
      w'.cur.memberships = (w.cur.updateMembership membership.id fun m =>
        { m with roleIds := (roles.map (·.id)).dedup }).memberships := by
  simp only [setMemberRoles, bind_eq] at h
  rw [execute, exec_returning_bind_ok (e := ⟨[RowKey.membership membership.id], _⟩) rfl] at h
  split at h
  · obtain ⟨_, w₁, hlog, -, rfl⟩ := exec_bind_inv h fun _ _ h => ⟨_, (logEvent_exec h).1⟩
    obtain ⟨-, t, e, rfl⟩ := logEvent_exec hlog
    exact ⟨rfl, rfl, rfl⟩
  · obtain ⟨-, rfl⟩ := h
    exact ⟨rfl, rfl, rfl⟩

/-- **What an assignment leaves**: the roles it names, as the organization sees them. -/
theorem assignOrganizationMemberRoles_ok {user : Claims} {names : List String} {out : List Role}
    (h : (assignOrganizationMemberRoles A user organizationId userId names).Exec w (.ok out) w') :
    ∃ target, ∃ newRoles : List Role, w.cur.getMembership organizationId userId = some target ∧
      names.map (getRoleInScope w.cur · organizationId) = newRoles.map some ∧
      w'.base = w'.cur ∧ w'.cur.roles = w.cur.roles ∧
      w'.cur.memberships = (w.cur.updateMembership target.id fun m =>
        { m with roleIds := (newRoles.map (·.id)).dedup }).memberships := by
  obtain ⟨caller, -, h⟩ := queryOrRaise_ok h
  split at h
  swap
  · cases h.1
  obtain ⟨target, htarget, h⟩ := queryOrRaise_ok h
  have hfound := getTargetMembership_ok htarget
  split at h
  · cases h.1
  rcases exec_bind.mp h with ⟨newRoles, w₁, hresolve, hrest⟩ | ⟨x, -, hx⟩
  swap
  · cases hx
  obtain ⟨rfl, hall⟩ := resolveRolesForOrg_ok (valueErrorAs_ok hresolve)
  simp only [bind_eq, exec_query_bind] at hrest
  split at hrest
  · cases hrest.1
  simp only [exec_query_bind] at hrest
  rcases exec_bind.mp hrest with ⟨_, w₂, hset, hout⟩ | ⟨x, -, hx⟩
  swap
  · cases hx
  obtain rfl := memberRoleOut_ok hout
  exact ⟨target, newRoles, hfound, hall, setMemberRoles_ok hset⟩

/-- **What a removal does**: it finds a platform-wide role of that name among those of the
member, and takes it away. -/
theorem removeOrganizationMemberRole_ok {user : Claims} {roleName : String}
    (h : (removeOrganizationMemberRole user organizationId userId roleName).Exec w (.ok ()) w') :
    ∃ target role, w.cur.getMembership organizationId userId = some target ∧
      getRoleByName w.cur roleName none = some role ∧ role.id ∈ target.roleIds := by
  obtain ⟨caller, -, h⟩ := queryOrRaise_ok h
  obtain ⟨target, htarget, h⟩ := queryOrRaise_ok h
  simp only [bind_eq, exec_query_bind] at h
  split at h
  · cases h.1
  rename_i role hrole
  split at h
  · cases h.1
  rename_i hassigned
  exact ⟨target, role, getTargetMembership_ok htarget, hrole, not_not.mp hassigned⟩

/-- Where there is such a role, the removal succeeds. -/
theorem removeOrganizationMemberRole_ends {user : Claims} {roleName : String}
    {caller target : OrganizationMembership} {role : Role}
    (hgate : requireOrgManager w.cur user organizationId = .ok caller)
    (htarget : w.cur.getMembership organizationId userId = some target)
    (hrole : getRoleByName w.cur roleName none = some role) (hassigned : role.id ∈ target.roleIds) :
    (removeOrganizationMemberRole user organizationId userId roleName).Ends w fun r w' =>
      r = .ok () ∧ w'.base.memberRoleIds organizationId userId =
        target.roleIds.filter (· ≠ role.id) := by
  intro r w' h
  simp only [removeOrganizationMemberRole, bind_eq] at h
  rw [exec_queryOrRaise_bind hgate, exec_queryOrRaise_bind (a := target) (by
    rw [getTargetMembership, htarget])] at h
  simp only [exec_query_bind, hrole, if_neg (not_not.mpr hassigned), removeMemberRole,
    if_pos hassigned] at h
  obtain ⟨_, w₁, hremove, rfl, rfl⟩ := exec_bind_inv h fun r w₁ hremove => by
    rw [execute, bind_eq, exec_returning_bind_ok (e := ⟨[RowKey.membership target.id], _⟩) rfl]
      at hremove
    exact ⟨_, (logEvent_exec hremove).1⟩
  rw [execute, bind_eq, exec_returning_bind_ok (e := ⟨[RowKey.membership target.id], _⟩) rfl]
    at hremove
  obtain ⟨-, t, e, rfl⟩ := logEvent_exec hremove
  refine ⟨rfl, ?_⟩
  exact Database.memberRoleIds_update (f := fun roleIds => roleIds.filter (· ≠ role.id)) htarget rfl

/-! ## There and back -/

/-- The primary key of `roles`. -/
def Database.RoleIdsUnique (db : Database) : Prop := (db.roles.map (·.id)).Nodup

instance (db : Database) : Decidable db.RoleIdsUnique := inferInstanceAs (Decidable (List.Nodup _))

/-- A platform-wide role that an organization sees by its name is the one a removal finds. -/
theorem getRoleByName_of_inScope {db : Database} {name : String} {role : Role}
    (h : getRoleInScope db name organizationId = some role) (hplatform : role.organizationId = none) :
    getRoleByName db name none = some role := by
  rw [getRoleInScope, List.find?_eq_some_iff_append] at h
  obtain ⟨hrole, before, after, hroles, hearlier⟩ := h
  rw [getRoleByName, List.find?_eq_some_iff_append]
  refine ⟨?_, before, after, hroles, fun r hr => ?_⟩
  · simp only [decide_eq_true_eq] at hrole
    exact decide_eq_true ⟨hrole.1, hplatform⟩
  · have hnot := hearlier r hr
    simp only [Bool.not_eq_true', decide_eq_false_iff_not] at hnot ⊢
    exact fun hmatch => hnot ⟨hmatch.1, .inl hmatch.2⟩

/-- The removal succeeds whenever it is made in this world, and takes away this role and no
other. -/
def TakesAway (w : World) (user : Claims) (organizationId userId : ℕ) (name : String)
    (roleId : ℕ) : Prop :=
  ∀ r w', (removeOrganizationMemberRole user organizationId userId name).close.Exec w r w' →
    r = .ok () ∧ roleId ∈ w.base.memberRoleIds organizationId userId ∧
      w'.base.memberRoleIds organizationId userId =
        (w.base.memberRoleIds organizationId userId).filter (· ≠ roleId)

/-- **Taken away again exactly where it is platform-wide.** Each name of an assignment that
is made stands for a role; a removal by that name, by anyone the gate lets in, takes this
role away if, and only if, no organization owns it. -/
theorem member_roles_inverse_iff {w₁ w₂ : World} {user user' : Claims} {names : List String}
    {out : List Role} {name : String} {caller : OrganizationMembership}
    (hids : w.base.RoleIdsUnique) (hidle : w.cur = w.base)
    (hassign : (assignOrganizationMemberRoles A user organizationId userId names).close.Exec w
      (.ok out) w₁)
    (hname : name ∈ names) (hnext : w₂.base = w₁.base) (hidle₂ : w₂.cur = w₂.base)
    (hgate : requireOrgManager w₂.base user' organizationId = .ok caller) :
    ∃ role, getRoleInScope w.base name organizationId = some role ∧
      role.id ∈ w₁.base.memberRoleIds organizationId userId ∧
      (TakesAway w₂ user' organizationId userId name role.id ↔ role.organizationId = none) := by
  obtain ⟨w₀, hcall, rfl⟩ := exec_close.mp hassign
  obtain ⟨target, newRoles, htarget, hall, hbase, hroles, hmembers⟩ :=
    assignOrganizationMemberRoles_ok hcall
  rw [hidle] at htarget hall hroles hmembers
  rw [← hbase] at hroles hmembers
  have hassigned : w₀.base.memberRoleIds organizationId userId = (newRoles.map (·.id)).dedup :=
    Database.memberRoleIds_update (f := fun _ => (newRoles.map (·.id)).dedup) htarget hmembers
  have hnext : w₂.base = w₀.base := hnext
  obtain ⟨role, hrole, hscope⟩ : ∃ role ∈ newRoles,
      getRoleInScope w.base name organizationId = some role := by
    have hmem := List.mem_map_of_mem (f := (getRoleInScope w.base · organizationId)) hname
    rw [hall] at hmem
    obtain ⟨role, hrole, hsome⟩ := List.mem_map.mp hmem
    exact ⟨role, hrole, hsome.symm⟩
  have hmem : role.id ∈ w₀.base.memberRoleIds organizationId userId := by
    rw [hassigned, List.mem_dedup]
    exact List.mem_map_of_mem hrole
  refine ⟨role, hscope, hmem, ?_, ?_⟩
  · -- what the removal found is a role of the assignment, and of that name
    intro htakes
    obtain ⟨r, w₃, hremove⟩ := exec_total
      (removeOrganizationMemberRole user' organizationId userId name).close w₂
    obtain ⟨rfl, -⟩ := htakes r w₃ hremove
    obtain ⟨w₃, hcall', rfl⟩ := exec_close.mp hremove
    obtain ⟨target', found, htarget', hfound, hheld⟩ := removeOrganizationMemberRole_ok hcall'
    rw [hidle₂, hnext] at htarget' hfound
    obtain ⟨hmem', hname', hplatform⟩ := getRoleByName_some hfound
    rw [← Database.memberRoleIds_eq htarget', hassigned, List.mem_dedup] at hheld
    obtain ⟨role', hrole', hid⟩ := List.mem_map.mp hheld
    have hscope' : some role' ∈ names.map (getRoleInScope w.base · organizationId) := by
      rw [hall]
      exact List.mem_map_of_mem hrole'
    obtain ⟨name', -, hscope'⟩ := List.mem_map.mp hscope'
    obtain ⟨hmem'', hname''⟩ := getRoleInScope_some hscope'
    -- a row by its primary key
    rw [hroles] at hmem'
    obtain rfl := List.inj_on_of_nodup_map hids hmem'' hmem' hid
    obtain rfl : name' = name := hname''.symm.trans hname'
    obtain rfl := Option.some.inj (hscope.symm.trans hscope')
    exact hplatform
  · intro hplatform r w₃ hremove
    obtain ⟨w₄, hcall', rfl⟩ := exec_close.mp hremove
    have hfound : getRoleByName w₂.cur name none = some role := by
      have hsame : getRoleByName w₂.cur name none = getRoleByName w.base name none := by
        rw [getRoleByName, getRoleByName, hidle₂, hnext, hroles]
      rw [hsame]
      exact getRoleByName_of_inScope hscope hplatform
    obtain ⟨target', htarget'⟩ : ∃ t, w₂.cur.getMembership organizationId userId = some t := by
      rw [hidle₂, hnext]
      exact Database.exists_member hmem
    have hheld : role.id ∈ target'.roleIds := by
      rw [← Database.memberRoleIds_eq htarget', hidle₂, hnext]
      exact hmem
    obtain ⟨rfl, hleft⟩ := removeOrganizationMemberRole_ends (hidle₂ ▸ hgate) htarget' hfound hheld
      r w₄ hcall'
    refine ⟨rfl, hnext ▸ hmem, ?_⟩
    rw [← hidle₂, Database.memberRoleIds_eq htarget']
    exact hleft

/-! ## A role of the organization's own -/

/-- A manager, a member, and a role the organization made, or the platform. -/
def staffed (owner : Option ℕ) : Database := { Database.empty with
  users := [{ id := 1, status := .active }, { id := 2, status := .active }]
  organizations := [{ id := 5, slug := "lab", status := .active }]
  roles := [{ id := 3, name := "org_admin", organizationId := none, permissions := [manageOrg] },
    { id := 4, name := "qa", organizationId := owner, permissions := [] }]
  memberships := [{ id := 1, organizationId := 5, userId := 1, status := .active, roleIds := [3] },
    { id := 2, organizationId := 5, userId := 2, status := .active, roleIds := [] }] }

def manager : Claims := { sub := some (.user 1) }

/-- The manager assigns both roles to the member. -/
def staffing (owner : Option ℕ) : Except Err (List Role) × World :=
  (assignOrganizationMemberRoles .symbolic manager 5 2 ["qa", "org_admin"]).close.run
    ⟨staffed owner, staffed owner, 0, 10, []⟩

/-- Both are assigned. -/
theorem staffing_ok (owner : Option ℕ) (h : owner = none ∨ owner = some 5) :
    ∃ out, (assignOrganizationMemberRoles .symbolic manager 5 2 ["qa", "org_admin"]).close.Exec
      ⟨staffed owner, staffed owner, 0, 10, []⟩ (.ok out) (staffing owner).2 := by
  have hexec := exec_run
    (assignOrganizationMemberRoles .symbolic manager 5 2 ["qa", "org_admin"]).close
    ⟨staffed owner, staffed owner, 0, 10, []⟩
  rw [← staffing] at hexec
  have hplays : (staffing owner).1.toOption.isSome = true := by
    rcases h with rfl | rfl <;> decide
  cases hr : (staffing owner).1 with
  | ok out =>
    rw [hr] at hexec
    exact ⟨out, hexec⟩
  | error x =>
    rw [hr] at hplays
    cases hplays

/-- A role of its own is assigned, and there is no taking it away. -/
theorem member_roles_stuck :
    (∃ out, (assignOrganizationMemberRoles .symbolic manager 5 2 ["qa", "org_admin"]).close.Exec
      ⟨staffed (some 5), staffed (some 5), 0, 10, []⟩ (.ok out) (staffing (some 5)).2) ∧
    (∃ caller, requireOrgManager (staffing (some 5)).2.base manager 5 = .ok caller) ∧
    ∀ r w', (removeOrganizationMemberRole manager 5 2 "qa").close.Exec (staffing (some 5)).2 r w' →
      r ≠ .ok () := by
  refine ⟨staffing_ok _ (.inr rfl), ⟨_, rfl⟩, ?_⟩
  rintro r w' h rfl
  obtain ⟨w₁, h, -⟩ := exec_close.mp h
  obtain ⟨_, role, -, hrole, -⟩ := removeOrganizationMemberRole_ok h
  have hnone : getRoleByName (staffing (some 5)).2.cur "qa" none = none := by decide
  rw [hnone] at hrole
  cases hrole

/-- A platform-wide one is taken away again. -/
theorem member_roles_inverse_platform :
    TakesAway (staffing none).2 manager 5 2 "qa" 4 := by
  obtain ⟨out, hassign⟩ := staffing_ok none (.inl rfl)
  have hgate : ∃ caller, requireOrgManager (staffing none).2.base manager 5 = .ok caller :=
    ⟨_, rfl⟩
  obtain ⟨caller, hgate⟩ := hgate
  obtain ⟨role, hscope, -, hiff⟩ := member_roles_inverse_iff (by decide) rfl hassign
    (List.mem_cons_self) rfl rfl hgate
  have hrole : getRoleInScope (staffed none) "qa" 5 =
      some { id := 4, name := "qa", organizationId := none, permissions := [] } := by decide
  obtain rfl := Option.some.inj (hscope.symm.trans hrole)
  exact hiff.mpr rfl

end OmniAuth
