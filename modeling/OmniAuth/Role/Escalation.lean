import OmniAuth.Role.Containment

/-!
# What a manager can grant themselves

An assignment to one's own membership is compared with what the membership grants already.
An edit of a role is not, whoever holds it: a manager who edits a role of their own gains
whatever the edit adds. Nothing else they do adds to what they have.
-/

namespace OmniAuth

open Txn Prog

/-- What a member may do in an organization. -/
def Database.effectivePermissions (db : Database) (organizationId userId : ℕ) : List String :=
  db.permissionsOf (db.memberRoleIds organizationId userId)

/-- The primary keys of `roles` and `organization_memberships`, and the foreign key of
`membership_roles`. -/
structure Database.RolesKeyed (db : Database) : Prop where
  roleIds : db.RoleIdsUnique
  membershipIds : (db.memberships.map (·.id)).Nodup
  assigned : ∀ m ∈ db.memberships, ∀ id ∈ m.roleIds, ∃ role ∈ db.roles, role.id = id

variable {A : AppEnv} {user : Claims} {organizationId managerId : ℕ}
  {Edit : Database → Role → List String → Prop} {db db' : Database} {had : List String} {w : World}

/-! ## Keys -/

theorem SurfaceStep.membershipIds (h : SurfaceStep user organizationId Edit db db')
    (hdb : (db.memberships.map (·.id)).Nodup) : (db'.memberships.map (·.id)).Nodup := by
  cases h with
  | aside hroles hmembers => rwa [hmembers]
  | made role hnew htenant hroles hmembers => rwa [hmembers]
  | edited role permissions description hrole howner htenant hedit hroles hmembers =>
    rwa [hmembers]
  | deleted role hrole howner hfree hroles hmembers => rwa [hmembers]
  | assigned target f htarget hassigns hroles hmembers =>
    rw [hmembers, Database.updateMembership, List.map_map]
    have hsame : ((fun m : OrganizationMembership => m.id) ∘
        fun m => if m.id = target.id then f m else m) = fun m => m.id := by
      funext m
      simp only [Function.comp_def]
      split
      · exact hassigns.id m
      · rfl
    rwa [hsame]
  | joined membership hnew hother hjoins hroles hmembers =>
    rw [hmembers, List.map_append, List.map_singleton, List.nodup_append]
    refine ⟨hdb, List.nodup_singleton _, fun a ha b hb => ?_⟩
    obtain ⟨m, hm, rfl⟩ := List.mem_map.mp ha
    obtain rfl := List.mem_singleton.mp hb
    exact hnew m hm

/-- A role in use is not deleted. -/
theorem not_assigned_of_free {role : Role} (hfree : db.roleInUse role.id = false)
    {m : OrganizationMembership} (hm : m ∈ db.memberships) : role.id ∉ m.roleIds := by
  intro hid
  rw [Database.roleInUse, Bool.or_eq_false_iff] at hfree
  exact List.any_eq_false.mp hfree.2 m hm (decide_eq_true hid)

theorem SurfaceStep.assignedRoles (h : SurfaceStep user organizationId Edit db db')
    (hdb : ∀ m ∈ db.memberships, ∀ id ∈ m.roleIds, ∃ role ∈ db.roles, role.id = id) :
    ∀ m ∈ db'.memberships, ∀ id ∈ m.roleIds, ∃ role ∈ db'.roles, role.id = id := by
  cases h with
  | aside hroles hmembers => rwa [hroles, hmembers]
  | made role hnew htenant hroles hmembers =>
    rw [hroles, hmembers]
    intro m hm id hid
    obtain ⟨r, hr, rfl⟩ := hdb m hm id hid
    exact ⟨r, List.mem_append_left _ hr, rfl⟩
  | edited role permissions description hrole howner htenant hedit hroles hmembers =>
    rw [hroles, hmembers]
    intro m hm id hid
    obtain ⟨r, hr, rfl⟩ := hdb m hm id hid
    exact ⟨_, List.mem_map_of_mem hr, Role.edit_id _ _ _ _⟩
  | deleted role hrole howner hfree hroles hmembers =>
    rw [hroles, hmembers]
    intro m hm id hid
    obtain ⟨r, hr, rfl⟩ := hdb m hm id hid
    refine ⟨r, List.mem_filter.mpr ⟨hr, decide_eq_true fun hsame => ?_⟩, rfl⟩
    rw [hsame] at hid
    exact not_assigned_of_free hfree hm hid
  | assigned target f htarget hassigns hroles hmembers =>
    rw [hroles, hmembers]
    intro m hm id hid
    obtain ⟨m₀, hm₀, rfl⟩ := List.mem_map.mp hm
    split at hid
    · rcases hassigns.roleIds m₀ id hid with hold | ⟨role, hrole, hsame, -⟩
      · exact hdb m₀ hm₀ id hold
      · exact ⟨role, hrole, hsame⟩
    · exact hdb m₀ hm₀ id hid
  | joined membership hnew hother hjoins hroles hmembers =>
    rw [hroles, hmembers]
    intro m hm id hid
    rcases List.mem_append.mp hm with hm | hm
    · exact hdb m hm id hid
    · obtain rfl := List.mem_singleton.mp hm
      obtain ⟨role, hrole, hsame, -⟩ := hjoins id hid
      exact ⟨role, hrole, hsame⟩

theorem Database.RolesKeyed.step (h : db.RolesKeyed)
    (hstep : SurfaceStep user organizationId Edit db db') : db'.RolesKeyed :=
  ⟨hstep.roleIdsUnique h.roleIds, hstep.membershipIds h.membershipIds,
    hstep.assignedRoles h.assigned⟩

/-! ## The roles of the manager -/

theorem memberRoleIds_congr (h : db'.memberships = db.memberships) (userId : ℕ) :
    db'.memberRoleIds organizationId userId = db.memberRoleIds organizationId userId := by
  rw [Database.memberRoleIds, Database.memberRoleIds, Database.getMembership,
    Database.getMembership, h]

theorem exists_membership {id userId : ℕ} (h : id ∈ db.memberRoleIds organizationId userId) :
    ∃ m ∈ db.memberships, id ∈ m.roleIds := by
  obtain ⟨m, hm⟩ := Database.exists_member h
  rw [Database.memberRoleIds_eq hm] at h
  exact ⟨m, (getMembership_some hm).1, h⟩

/-- After an assignment, a member has roles they had, or the assigned ones where the row is
theirs. -/
theorem memberRoleIds_assigned {target : OrganizationMembership}
    {f : OrganizationMembership → OrganizationMembership} (hids : (db.memberships.map (·.id)).Nodup)
    (htarget : db.getMembership organizationId target.userId = some target)
    (hassigns : Assigns user db target f)
    (hmembers : db'.memberships = (db.updateMembership target.id f).memberships) {id userId : ℕ}
    (h : id ∈ db'.memberRoleIds organizationId userId) :
    id ∈ db.memberRoleIds organizationId userId ∨ target.userId = userId ∧ ∃ role ∈ db.roles,
      role.id = id ∧ (user.sub = some (.user target.userId) →
        ∀ p ∈ role.permissions, p ∈ db.permissionsOf target.roleIds) := by
  have hfound : db'.getMembership organizationId userId =
      (db.getMembership organizationId userId).map
        fun m => if m.id = target.id then f m else m := by
    rw [Database.getMembership, Database.getMembership, hmembers, Database.updateMembership,
      List.find?_map]
    congr 2
    funext m
    simp only [Function.comp_def]
    split
    · rw [hassigns.organizationId, hassigns.userId]
    · rfl
  rw [Database.memberRoleIds, hfound] at h
  cases hm : db.getMembership organizationId userId with
  | none =>
    rw [hm] at h
    cases h
  | some m =>
    rw [hm] at h
    rw [Database.memberRoleIds_eq hm]
    change id ∈ (if m.id = target.id then f m else m).roleIds at h
    split at h
    · rename_i hid
      obtain rfl := List.inj_on_of_nodup_map hids (getMembership_some hm).1
        (getMembership_some htarget).1 hid
      rcases hassigns.roleIds m id h with hold | ⟨role, hrole, hsame, -, hguard⟩
      · exact .inl hold
      · exact .inr ⟨(getMembership_some hm).2.2, role, hrole, hsame, hguard⟩
    · exact .inl h

/-- What holds while the manager, who `had` these permissions, goes on. -/
structure Confined (organizationId managerId : ℕ) (had : List String) (db : Database) : Prop where
  keyed : db.RolesKeyed
  permissions : ∀ p ∈ db.effectivePermissions organizationId managerId, p ∈ had

/-- An edit of a role the manager holds adds nothing. -/
def EditsWithin (organizationId managerId : ℕ) (had : List String) (db : Database) (role : Role)
    (permissions : List String) : Prop :=
  role.id ∈ db.memberRoleIds organizationId managerId → ∀ p ∈ permissions, p ∈ had

/-- **No step adds to what the manager has.** -/
theorem Confined.kept (hsub : user.sub = some (.user managerId)) :
    KeptBy (Confined organizationId managerId had) user organizationId
      (EditsWithin organizationId managerId had) := by
  intro db db' h hstep _
  refine ⟨h.keyed.step hstep, fun p hp => ?_⟩
  obtain ⟨r, hr, hid, hp⟩ := mem_permissionsOf.mp hp
  have hhad : ∀ r ∈ db.roles, r.id ∈ db.memberRoleIds organizationId managerId →
      ∀ p ∈ r.permissions, p ∈ had :=
    fun r hr hid p hp => h.permissions p (mem_permissionsOf.mpr ⟨r, hr, hid, hp⟩)
  cases hstep with
  | aside hroles hmembers =>
    rw [memberRoleIds_congr hmembers] at hid
    rw [hroles] at hr
    exact hhad r hr hid p hp
  | made role hnew htenant hroles hmembers =>
    rw [memberRoleIds_congr hmembers] at hid
    rw [hroles] at hr
    rcases List.mem_append.mp hr with hr | hr
    · exact hhad r hr hid p hp
    · -- nobody holds a role that is new
      obtain rfl := List.mem_singleton.mp hr
      obtain ⟨m, hm, hassigned⟩ := exists_membership hid
      obtain ⟨r', hr', hsame⟩ := h.keyed.assigned m hm _ hassigned
      exact absurd hsame (hnew r' hr')
  | edited role permissions description hrole howner htenant hedit hroles hmembers =>
    rw [memberRoleIds_congr hmembers] at hid
    rw [hroles] at hr
    obtain ⟨r₀, hr₀, rfl⟩ := List.mem_map.mp hr
    rw [Role.edit_id] at hid
    unfold Role.edit at hp
    split at hp
    · rename_i hsame
      exact hedit (hsame ▸ hid) p hp
    · exact hhad r₀ hr₀ hid p hp
  | deleted role hrole howner hfree hroles hmembers =>
    rw [memberRoleIds_congr hmembers] at hid
    rw [hroles] at hr
    exact hhad r (List.mem_of_mem_filter hr) hid p hp
  | assigned target f htarget hassigns hroles hmembers =>
    rw [hroles] at hr
    rcases memberRoleIds_assigned h.keyed.membershipIds htarget hassigns hmembers hid with
      hold | ⟨rfl, role, hrole, hsame, hguard⟩
    · exact hhad r hr hold p hp
    · obtain rfl := List.inj_on_of_nodup_map h.keyed.roleIds hrole hr hsame
      refine h.permissions p ?_
      rw [Database.effectivePermissions, Database.memberRoleIds_eq htarget]
      exact hguard hsub p hp
  | joined membership hnew hother hjoins hroles hmembers =>
    rw [hroles] at hr
    have hold : db'.memberRoleIds organizationId managerId =
        db.memberRoleIds organizationId managerId := by
      have hnot : ¬ (membership.organizationId = organizationId ∧ membership.userId = managerId) :=
        fun hself => hother (hself.2 ▸ hsub)
      rw [Database.memberRoleIds, Database.memberRoleIds, Database.getMembership,
        Database.getMembership, hmembers, List.find?_append, List.find?_singleton]
      simp only [hnot, decide_false, Bool.false_eq_true, if_false, Option.or_none]
    rw [hold] at hid
    exact hhad r hr hid p hp

/-! ## Runs -/

/-- **The condition on a request**: an edit of a role the manager holds names only what the
manager may do already. -/
def OrgCall.Narrow (organizationId managerId : ℕ) (db : Database) : OrgCall → Prop
  | updateRole roleId permissions _ => roleId ∈ db.memberRoleIds organizationId managerId →
      ∀ p ∈ permissions, p ∈ db.effectivePermissions organizationId managerId
  | _ => True

/-- Requests of one manager one after another, each in a session of its own and meeting
`ok`. -/
inductive ManagerRun (A : AppEnv) (user : Claims) (organizationId : ℕ)
    (ok : Database → OrgCall → Prop) (db : Database) : Database → Prop
  | start : ManagerRun A user organizationId ok db db
  | call {w w' : World} {r : Except Err Unit} (call : OrgCall)
      (hrun : ManagerRun A user organizationId ok db w.base) (hidle : w.cur = w.base)
      (hok : ok w.base call) (hexec : (call.op A user organizationId).close.Exec w r w') :
      ManagerRun A user organizationId ok db w'.base

theorem OrgCall.confined (hsub : user.sub = some (.user managerId))
    (hadmin : manageAllOrgs ∉ user.permissions) (call : OrgCall) (hidle : w.cur = w.base)
    (h : Confined organizationId managerId had w.base)
    (hnarrow : call.Narrow organizationId managerId w.base) :
    (call.op A user organizationId).Ends w fun _ =>
      Both (Confined organizationId managerId had) := by
  refine (Confined.kept hsub).call hadmin call ⟨h, hidle ▸ h⟩ ?_
  rw [hidle]
  cases call with
  | updateRole roleId permissions description =>
    rintro role hrole rfl hheld p hp
    exact h.permissions p (hnarrow hheld p (List.mem_dedup.mp hp))
  | _ => trivial

/-- **No self-escalation**, as long as a manager edits no role of their own beyond what they
have. -/
theorem no_self_escalation (A : AppEnv) {user : Claims} {organizationId managerId : ℕ}
    {db db' : Database} (hsub : user.sub = some (.user managerId))
    (hadmin : manageAllOrgs ∉ user.permissions) (hkeyed : db.RolesKeyed)
    (hrun : ManagerRun A user organizationId
      (fun db call => call.Narrow organizationId managerId db) db db') :
    ∀ p ∈ db'.effectivePermissions organizationId managerId,
      p ∈ db.effectivePermissions organizationId managerId := by
  have hconfined : Confined organizationId managerId
      (db.effectivePermissions organizationId managerId) db' := by
    induction hrun with
    | start => exact ⟨hkeyed, fun p hp => hp⟩
    | call call hrun hidle hnarrow hexec ih =>
      have hends : (call.op A user organizationId).close.Ends _ fun _ w' =>
          Confined organizationId managerId (db.effectivePermissions organizationId managerId)
            w'.base :=
        ends_close.mpr ((call.confined hsub hadmin hidle ih hnarrow).mono fun _ _ hw' => hw'.1)
      exact hends _ _ hexec
  exact hconfined.permissions

theorem logIfSome_staff (event : Option AuditEvent) :
    (logIfSome event).Ends w fun _ w' => w'.cur.staff = w.cur.staff := by
  unfold logIfSome
  split
  · intro r w' hexec
    obtain ⟨-, t, e, rfl⟩ := logEvent_exec hexec
    rfl
  · exact ends_ret.mpr rfl

/-- An edit that goes through. -/
theorem updateOrganizationRole_ends (roleId : ℕ) (permissions : List String)
    (description : Option String) :
    (updateOrganizationRole A user organizationId roleId permissions description).Ends w
      fun r w' => r = .ok () → (∃ role ∈ w.cur.roles, role.id = roleId) ∧
        w'.base.roles = w.cur.roles.map (Role.edit roleId permissions.dedup description) ∧
        w'.base.memberships = w.cur.memberships := by
  have hP : KeptBy (fun _ => True) user organizationId fun _ _ _ => True :=
    fun _ _ _ _ _ => trivial
  refine ends_queryOrRaise_bind (fun caller _ => ?_) fun x _ hx => by cases hx
  split
  swap
  · exact ends_raise.mpr fun hx => by cases hx
  refine ends_roleOfRouter_bind (fun x hx => by cases hx) fun role hrole hid howner => ?_
  refine valueErrorAs_ends ?_ fun _ _ _ _ hx => by cases hx
  unfold updateRolePermissions
  rw [howner]
  refine ends_handle.mpr ((hP.validates (w := w) ⟨trivial, trivial⟩ permissions organizationId _
    role.name _).mono ?_)
  rintro (x | ⟨⟩) w' hend
  · exact ends_raise.mpr fun hx => by cases hx
  obtain ⟨rfl, -⟩ := hend
  rw [bind_eq, execute, ends_returning_bind]
  refine ⟨fun eff heff => ?_, fun _ _ hx => by cases hx⟩
  obtain rfl := Except.ok.inj heff
  refine ends_handle.mpr ((logIfSome_staff _).mono fun r w₁ hstaff => ?_)
  cases r with
  | error x => exact ends_raise.mpr fun hx => by cases hx
  | ok u =>
    refine ends_commitNow.mpr fun _ => ⟨⟨role, hrole, hid⟩, ?_, congrArg Prod.snd hstaff⟩
    rw [← hid]
    exact congrArg Prod.fst hstaff

/-- **And no further**: whoever edits it, what an edit adds to a role a member holds, the
member has. -/
theorem edit_grants {w' : World} {roleId : ℕ} {permissions : List String}
    {description : Option String} (hidle : w.cur = w.base)
    (hexec : ((OrgCall.updateRole roleId permissions description).op A user
      organizationId).close.Exec w (.ok ()) w')
    (hheld : roleId ∈ w.base.memberRoleIds organizationId managerId) :
    ∀ p ∈ permissions, p ∈ w'.base.effectivePermissions organizationId managerId := by
  obtain ⟨w₁, hcall, rfl⟩ := exec_close.mp hexec
  obtain ⟨⟨role, hrole, hid⟩, hroles, hmembers⟩ :=
    updateOrganizationRole_ends roleId permissions description _ _ hcall rfl
  intro p hp
  rw [hidle] at hroles hmembers hrole
  refine mem_permissionsOf.mpr ⟨role.edit roleId permissions.dedup description, ?_, ?_, ?_⟩
  · show _ ∈ w₁.base.roles
    rw [hroles]
    exact List.mem_map_of_mem hrole
  · show (role.edit roleId permissions.dedup description).id ∈ w₁.base.memberRoleIds _ _
    rw [memberRoleIds_congr hmembers, Role.edit_id, hid]
    exact hheld
  · rw [Role.edit, if_pos hid]
    exact List.mem_dedup.mpr hp

/-! ## A role of the manager's own -/

/-- The role of the manager, which the organization made. -/
def labRole : Role :=
  { id := 3, name := "lab_admin", organizationId := some 5, permissions := [manageOrg, "runs.read"] }

/-- The manager, and another member. -/
def labAdmin : Database := { Database.empty with
  users := [{ id := 1, status := .active }, { id := 2, status := .active }]
  organizations := [{ id := 5, slug := "lab", status := .active }]
  roles := [labRole]
  memberships := [{ id := 1, organizationId := 5, userId := 1, status := .active, roleIds := [3] },
    { id := 2, organizationId := 5, userId := 2, status := .active, roleIds := [] }] }

theorem labAdmin_keyed : labAdmin.RolesKeyed := ⟨by decide, by decide, by decide⟩

/-- The manager narrows their role, and assigns it. -/
def narrowed : World :=
  (((OrgCall.updateRole 3 [manageOrg] none).op .symbolic manager 5).close.run
    ⟨labAdmin, labAdmin, 0, 10, []⟩).2

def shared : World :=
  (((OrgCall.assignMemberRoles 2 ["lab_admin"]).op .symbolic manager 5).close.run narrowed).2

theorem no_self_escalation_narrowed : shared.base.memberRoleIds 5 2 = [3] ∧
    ∀ p ∈ shared.base.effectivePermissions 5 1, p ∈ labAdmin.effectivePermissions 5 1 := by
  have hnarrowed : ManagerRun .symbolic manager 5 (fun db call => call.Narrow 5 1 db) labAdmin
      narrowed.base := by
    have hwithin : (OrgCall.updateRole 3 [manageOrg] none).Narrow 5 1 labAdmin := by
      intro _
      decide
    exact .call (w := ⟨labAdmin, labAdmin, 0, 10, []⟩) _ .start rfl hwithin (exec_run _ _)
  exact ⟨by decide, no_self_escalation .symbolic rfl manager_noAdmin labAdmin_keyed
    (.call (OrgCall.assignMemberRoles 2 ["lab_admin"]) hnarrowed rfl trivial (exec_run _ _))⟩

/-- The manager edits it so that it grants billing as well. -/
def widened : World :=
  (((OrgCall.updateRole 3 [manageOrg, "manage_billing"] none).op .symbolic manager 5).close.run
    ⟨labAdmin, labAdmin, 0, 10, []⟩).2

theorem self_escalation : ¬ ∀ db', ManagerRun .symbolic manager 5 (fun _ _ => True) labAdmin db' →
    ∀ p ∈ db'.effectivePermissions 5 1, p ∈ labAdmin.effectivePermissions 5 1 := by
  intro hnever
  have hrun : ManagerRun .symbolic manager 5 (fun _ _ => True) labAdmin widened.base :=
    .call (w := ⟨labAdmin, labAdmin, 0, 10, []⟩) (OrgCall.updateRole 3 _ none) .start rfl trivial
      (exec_run _ _)
  have hgained : "manage_billing" ∈ widened.base.effectivePermissions 5 1 := by decide
  have hhad : "manage_billing" ∉ labAdmin.effectivePermissions 5 1 := by decide
  exact hhad (hnever _ hrun _ hgained)

end OmniAuth
