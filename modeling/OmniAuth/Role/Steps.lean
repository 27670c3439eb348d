import OmniAuth.Invitation.Acceptance
import OmniAuth.Role.Surface
import OmniAuth.Txn.Preserves

/-!
# What a request of the surface changes

Whatever its program, a request leads from roles and memberships to roles and memberships in
steps of a few kinds. What every step keeps, every request keeps.
-/

namespace OmniAuth

open Txn Prog

/-! ## Steps -/

/-- No permission here is the platform's. -/
def Tenant (permissions : List String) : Prop :=
  ∀ p ∈ permissions, permissionScope p ≠ some .global

instance (permissions : List String) : Decidable (Tenant permissions) :=
  inferInstanceAs (Decidable (∀ _ ∈ _, _))

/-- What an assignment changes in the row of `target`. -/
structure Assigns (user : Claims) (db : Database) (target : OrganizationMembership)
    (f : OrganizationMembership → OrganizationMembership) : Prop where
  id : ∀ m, (f m).id = m.id
  organizationId : ∀ m, (f m).organizationId = m.organizationId
  userId : ∀ m, (f m).userId = m.userId
  /-- A role that is new to the row grants nothing of the platform's, nor anything the caller
  has not where the row is the caller's. -/
  roleIds : ∀ m, ∀ id ∈ (f m).roleIds, id ∈ m.roleIds ∨ ∃ role ∈ db.roles, role.id = id ∧
    Tenant role.permissions ∧ (user.sub = some (.user target.userId) →
      ∀ p ∈ role.permissions, p ∈ db.permissionsOf target.roleIds)

/-- A role a member joins with: one without permissions of the platform's, or the base role
the catalog has. -/
def JoinsWith (db : Database) (id : ℕ) : Prop :=
  ∃ role ∈ db.roles, role.id = id ∧
    (Tenant role.permissions ∨ getRoleByName db orgMemberRole none = some role)

/-- What a request of `user` changes of the roles and the memberships; `Edit` holds of the
edits it makes. -/
inductive SurfaceStep (user : Claims) (organizationId : ℕ)
    (Edit : Database → Role → List String → Prop) (db db' : Database) : Prop
  | aside (hroles : db'.roles = db.roles) (hmembers : db'.memberships = db.memberships)
  | made (role : Role) (hnew : ∀ r ∈ db.roles, r.id ≠ role.id)
      (htenant : Tenant role.permissions) (hroles : db'.roles = db.roles ++ [role])
      (hmembers : db'.memberships = db.memberships)
  | edited (role : Role) (permissions : List String) (description : Option String)
      (hrole : role ∈ db.roles) (howner : role.organizationId = some organizationId)
      (htenant : Tenant permissions) (hedit : Edit db role permissions)
      (hroles : db'.roles = db.roles.map (Role.edit role.id permissions description))
      (hmembers : db'.memberships = db.memberships)
  | deleted (role : Role) (hrole : role ∈ db.roles)
      (howner : role.organizationId = some organizationId) (hfree : db.roleInUse role.id = false)
      (hroles : db'.roles = db.roles.filter (·.id ≠ role.id))
      (hmembers : db'.memberships = db.memberships)
  | assigned (target : OrganizationMembership)
      (f : OrganizationMembership → OrganizationMembership)
      (htarget : db.getMembership organizationId target.userId = some target)
      (hassigns : Assigns user db target f) (hroles : db'.roles = db.roles)
      (hmembers : db'.memberships = (db.updateMembership target.id f).memberships)
  | joined (membership : OrganizationMembership)
      (hnew : ∀ m ∈ db.memberships, m.id ≠ membership.id)
      (hother : user.sub ≠ some (.user membership.userId))
      (hjoins : ∀ id ∈ membership.roleIds, JoinsWith db id) (hroles : db'.roles = db.roles)
      (hmembers : db'.memberships = db.memberships ++ [membership])

/-- No id of a role is given twice. -/
theorem SurfaceStep.roleIdsUnique {user : Claims} {organizationId : ℕ}
    {Edit : Database → Role → List String → Prop} {db db' : Database}
    (h : SurfaceStep user organizationId Edit db db') (hdb : db.RoleIdsUnique) :
    db'.RoleIdsUnique := by
  unfold Database.RoleIdsUnique at hdb ⊢
  cases h with
  | made role hnew htenant hroles hmembers =>
    rw [hroles, List.map_append, List.map_singleton, List.nodup_append]
    refine ⟨hdb, List.nodup_singleton _, fun a ha b hb => ?_⟩
    obtain ⟨r, hr, rfl⟩ := List.mem_map.mp ha
    obtain rfl := List.mem_singleton.mp hb
    exact hnew r hr
  | edited role permissions description hrole howner htenant hedit hroles hmembers =>
    rw [hroles, List.map_map]
    simpa only [Function.comp_def, Role.edit_id] using hdb
  | deleted role hrole howner hfree hroles hmembers =>
    rw [hroles]
    exact hdb.sublist (List.filter_sublist.map _)
  | aside hroles hmembers => rwa [hroles]
  | assigned target f htarget hassigns hroles hmembers => rwa [hroles]
  | joined membership hnew hother hjoins hroles hmembers => rwa [hroles]

/-- Invitations that are new are no platform admin's. -/
def Database.AddsInvitations (db db' : Database) : Prop :=
  ∀ t ∈ db'.invitationTerms, t ∈ db.invitationTerms ∨ t.inviterIsPlatformAdmin = false

/-- What every step keeps. -/
def KeptBy (P : Database → Prop) (user : Claims) (organizationId : ℕ)
    (Edit : Database → Role → List String → Prop) : Prop :=
  ∀ ⦃db db'⦄, P db → SurfaceStep user organizationId Edit db db' → db.AddsInvitations db' → P db'

variable {α β : Type} {A : AppEnv} {user : Claims} {organizationId : ℕ}
  {Edit : Database → Role → List String → Prop} {P : Database → Prop} {w : World}

/-! ## Pieces of a request -/

/-- Roles and memberships. -/
def Database.staff (db : Database) : List Role × List OrganizationMembership :=
  (db.roles, db.memberships)

theorem addsInvitations_denote {stmt : Stmt} {db : Database} {eff : Effect Database RowKey}
    (h : denote stmt db = .ok eff) (hs : stmt.InvitesNobody) :
    db.AddsInvitations (eff.delta db) := by
  intro t ht
  rw [invitationTerms_denote h hs db] at ht
  exact .inl ht

theorem KeptBy.leaves (hP : KeptBy P user organizationId Edit) {stmt : Stmt}
    (hstmt : stmt.Leaves Database.staff) (hs : stmt.InvitesNobody) (q : Database → α) :
    (returning (S := AuthSig) stmt q).Preserves P := by
  refine preserves_returning fun db eff hdb heff => ?_
  have hsame := hstmt db eff heff db
  exact hP hdb (.aside (congrArg Prod.fst hsame) (congrArg Prod.snd hsame))
    (addsInvitations_denote heff hs)

theorem KeptBy.logs (hP : KeptBy P user organizationId Edit) (event : AuditEvent)
    (commit : Bool) : (logEvent event commit).Preserves P := by
  refine preserves_time.bind fun now => ?_
  refine Preserves.bind (hP.leaves (fun _ _ h _ => ?_) (by trivial) _) fun _ => ?_
  · obtain rfl := Except.ok.inj h
    rfl
  · split
    · exact preserves_commitNow.orElse fun _ => preserves_rollbackNow
    · exact preserves_ret _

theorem ends_queryOrRaise_bind {f : Database → Except Err α} {k : α → Op β}
    {post : Except Err β → World → Prop} (hok : ∀ a, f w.cur = .ok a → (k a).Ends w post)
    (hx : ∀ x, f w.cur = .error x → post (.error x) w) :
    ((queryOrRaise f).bind k).Ends w post := by
  refine ends_handle.mpr ?_
  simp only [queryOrRaise, bind_eq, ends_query_bind]
  split
  · rename_i a ha
    exact ends_ret.mpr (hok a ha)
  · rename_i x hfx
    exact ends_raise.mpr (ends_raise.mpr (hx x hfx))

/-- An error that is only translated. -/
theorem valueErrorAs_ends {status : String → ℕ} {p : Op α} {post : Except Err α → World → Prop}
    (h : p.Ends w post) (hx : ∀ x y w', post (.error x) w' → post (.error y) w') :
    (valueErrorAs status p).Ends w post := by
  refine ends_handle.mpr (h.mono fun r w' hr => ?_)
  cases r with
  | ok a => exact ends_ret.mpr hr
  | error x =>
    dsimp only
    split <;> exact ends_raise.mpr (hx _ _ w' hr)

theorem getRoleInScope_mem {db : Database} {name : String} {role : Role}
    (h : getRoleInScope db name organizationId = some role) : role ∈ db.roles :=
  List.mem_of_find?_eq_some h

/-- **Roles that are resolved** for one who is no platform admin are the catalog's and grant
nothing of the platform's; a refusal leaves its audit row. -/
theorem KeptBy.resolves (hP : KeptBy P user organizationId Edit) (hw : Both P w)
    (inOrganization : ℕ) (actorUserId targetUserId : Option ℕ) (names : List String) :
    (resolveRolesForOrg A inOrganization false actorUserId targetUserId names).Ends w fun r w' =>
      match r with
      | .ok roles => w' = w ∧ ∀ role ∈ roles, role ∈ w.cur.roles ∧ Tenant role.permissions
      | .error _ => Both P w' := by
  induction names with
  | nil =>
    refine ends_ret.mpr ⟨rfl, fun role hrole => ?_⟩
    cases hrole
  | cons name rest ih =>
    simp only [resolveRolesForOrg, bind_eq, ends_query_bind]
    split
    · exact ends_raise.mpr hw
    rename_i role hrole
    split
    · -- the refusal is logged and committed
      refine Ends.bind (M := fun _ => Both P) ((hP.logs _ true w hw).mono fun r w' hw' => ?_)
        fun _ w' hw' => ends_raise.mpr hw'
      cases r <;> exact hw'
    · rename_i hclean
      have htenant : Tenant role.permissions := by
        have hnil : offendingPermissions role.permissions = [] :=
          not_not.mp fun hne => hclean ⟨trivial, hne⟩
        exact offendingPermissions_nil hnil
      refine ends_handle.mpr (ih.mono fun r w' hr => ?_)
      cases r with
      | error x => exact ends_raise.mpr hr
      | ok roles =>
        obtain ⟨rfl, hroles⟩ := hr
        refine ends_ret.mpr ⟨rfl, fun r hr => ?_⟩
        cases hr with
        | head => exact ⟨getRoleInScope_mem hrole, htenant⟩
        | tail _ hr => exact hroles r hr

/-- A statement that takes a step. -/
theorem KeptBy.executes (hP : KeptBy P user organizationId Edit) (hw : Both P w) {stmt : Stmt}
    (hs : stmt.InvitesNobody) (hstep : ∀ eff, denote stmt w.cur = .ok eff →
      SurfaceStep user organizationId Edit w.cur (eff.delta w.cur)) {k : Unit → Op β}
    (hk : ∀ eff, denote stmt w.cur = .ok eff → P (eff.delta w.cur) →
      (k ()).Ends { w with cur := eff.delta w.cur } fun _ => Both P) :
    (Prog.bind (execute stmt : Op Unit) k).Ends w fun _ => Both P := by
  rw [execute, ends_returning_bind]
  exact ⟨fun eff heff => hk eff heff
    (hP hw.2 (hstep eff heff) (addsInvitations_denote heff hs)), fun _ _ => hw⟩

/-- What is written last, and committed. -/
theorem KeptBy.logsAndCommits (hP : KeptBy P user organizationId Edit) (event : AuditEvent) :
    (Prog.bind (logEvent event false) fun _ => (commitNow : Op Unit)).Preserves P :=
  (hP.logs event false).bind fun _ => preserves_commitNow

/-! ## Roles -/

theorem KeptBy.validates (hP : KeptBy P user organizationId Edit) (hw : Both P w)
    (names : List String) (inOrganization : ℕ) (actorUserId : Option ℕ) (roleName : String)
    (roleId : Option ℕ) :
    (validateRolePermissions A names (some inOrganization) actorUserId roleName roleId).Ends w
      fun r w' => match r with
        | .ok _ => w' = w ∧ Tenant names
        | .error _ => Both P w' := by
  simp only [validateRolePermissions, validateOrgScopedPermissionNames, bind_eq]
  refine ends_handle.mpr ((validatePermissionNames_ends names).mono ?_)
  rintro (x | ⟨⟩) w' ⟨rfl, -⟩
  · exact ends_raise.mpr hw
  dsimp only
  split
  · rename_i hnil
    exact ends_ret.mpr ⟨rfl, offendingPermissions_nil hnil⟩
  · refine Ends.bind (M := fun _ => Both P) ((hP.logs _ true _ hw).mono fun r w' hw' => ?_)
      fun _ w' hw' => ends_raise.mpr hw'
    cases r <;> exact hw'

/-- A role that is inserted, whose permissions are not the platform's. -/
theorem KeptBy.inserts (hP : KeptBy P user organizationId Edit) (hw : Both P w) {role : Role}
    (htenant : Tenant role.permissions) {k : Unit → Op β}
    (hk : ∀ w' : World, Both P w' → role ∈ w'.cur.roles → (k ()).Ends w' fun _ => Both P) :
    (Prog.bind (execute (.org (.insertRole role)) : Op Unit) k).Ends w fun _ => Both P := by
  have hinsert : ∀ eff, denote (.org (.insertRole role)) w.cur = .ok eff →
      (∀ r ∈ w.cur.roles, r.id ≠ role.id) ∧
        eff.delta w.cur = { w.cur with roles := w.cur.roles ++ [role] } := by
    intro eff heff
    simp only [denote, OrgStmt.denote] at heff
    split at heff
    · cases heff
    · rename_i hfree
      cases heff
      exact ⟨fun r hr hid => hfree ⟨r, hr, hid⟩, rfl⟩
  refine hP.executes hw (by trivial) (fun eff heff => ?_) fun eff heff hP' => ?_
  · obtain ⟨hnew, hdelta⟩ := hinsert eff heff
    rw [hdelta]
    exact .made role hnew htenant rfl rfl
  · refine hk _ ⟨hw.1, hP'⟩ ?_
    rw [(hinsert eff heff).2]
    exact List.mem_append_right _ List.mem_cons_self

/-- **The base role**, found or made without permissions. -/
theorem KeptBy.getsOrCreates (hP : KeptBy P user organizationId Edit) (hw : Both P w)
    (name : String) {k : Role → Op β}
    (hk : ∀ role (w' : World), Both P w' → role ∈ w'.cur.roles →
      (Tenant role.permissions ∨ getRoleByName w'.cur name none = some role) →
      (k role).Ends w' fun _ => Both P) :
    ((getOrCreateRole name []).bind k).Ends w fun _ => Both P := by
  simp only [getOrCreateRole, bind_eq, bind_bind, ends_query_bind]
  split
  · rename_i role hrole
    exact hk role w hw (getRoleByName_some hrole).1 (.inr hrole)
  · have htenant : Tenant [] := fun p hp => by cases hp
    rw [bind_bind, ends_draw_bind, bind_bind]
    refine hP.inserts (w := { w with next := w.next + 1 }) hw htenant fun w' hw' hmem => ?_
    exact hk _ w' hw' hmem (.inl htenant)

theorem KeptBy.creates (hP : KeptBy P user organizationId Edit) (inOrganization : ℕ)
    (name : String) (permissionNames : List String) (description : Option String)
    (actorUserId : ℕ) :
    (createRoleRoute A (some inOrganization) name permissionNames description
      actorUserId).Preserves P := by
  intro w hw
  refine valueErrorAs_ends ?_ fun _ _ _ h => h
  refine ends_handle.mpr ((checkNameAvailable_ends name (some inOrganization)).mono ?_)
  rintro (x | ⟨⟩) w' ⟨rfl, -⟩
  · exact ends_raise.mpr hw
  refine ends_handle.mpr ((hP.validates hw permissionNames inOrganization _ name none).mono ?_)
  rintro (x | ⟨⟩) w' hend
  · exact ends_raise.mpr hend
  obtain ⟨rfl, htenant⟩ := hend
  simp only [bind_eq, ends_draw_bind]
  refine hP.inserts (w := { w' with next := w'.next + 1 }) hw
    (fun p hp => htenant p (List.mem_dedup.mp hp)) fun w₁ hw₁ _ => ?_
  exact ((hP.logs _ false).bind fun _ => preserves_commitNow.bind fun _ => preserves_ret _) w₁ hw₁

/-- A role the router lets through. -/
theorem ends_roleOfRouter_bind {owner : Option ℕ} {roleId : ℕ} {k : Role → Op β}
    {post : Except Err β → World → Prop} (hx : ∀ x, post (.error x) w)
    (hk : ∀ role ∈ w.cur.roles, role.id = roleId → role.organizationId = owner →
      (k role).Ends w post) : ((roleOfRouter owner roleId).bind k).Ends w post := by
  simp only [roleOfRouter, bind_eq, bind_bind, ends_query_bind]
  split
  · rename_i role hrole
    have hid := List.find?_some hrole
    split
    · rename_i howner
      exact hk role (List.mem_of_find?_eq_some hrole) (of_decide_eq_true hid) howner
    · exact ends_raise.mpr (hx _)
  · exact ends_raise.mpr (hx _)

theorem KeptBy.updates (hP : KeptBy P user organizationId Edit) (hw : Both P w) {roleId : ℕ}
    {permissionNames : List String} (description : Option String) (actorUserId : ℕ)
    (hedit : ∀ role ∈ w.cur.roles, role.id = roleId → Edit w.cur role permissionNames.dedup) :
    (updateRoleRoute A (some organizationId) roleId permissionNames description
      actorUserId).Ends w fun _ => Both P := by
  refine ends_roleOfRouter_bind (fun _ => hw) fun role hrole hid howner => ?_
  refine valueErrorAs_ends ?_ fun _ _ _ h => h
  unfold updateRolePermissions
  rw [howner]
  refine ends_handle.mpr ((hP.validates hw permissionNames organizationId _ role.name _).mono ?_)
  rintro (x | ⟨⟩) w' hend
  · exact ends_raise.mpr hend
  obtain ⟨rfl, htenant⟩ := hend
  have hdedup : Tenant permissionNames.dedup := fun p hp => htenant p (List.mem_dedup.mp hp)
  refine hP.executes hw (by trivial) (fun eff heff => ?_) fun eff heff hP' => ?_
  · obtain rfl := Except.ok.inj heff
    exact .edited role _ description hrole howner hdedup (hedit role hrole hid) rfl rfl
  · refine Preserves.bind ?_ (fun _ => preserves_commitNow) _ ⟨hw.1, hP'⟩
    unfold logIfSome
    split
    · exact hP.logs _ false
    · exact preserves_ret _

theorem KeptBy.deletes (hP : KeptBy P user organizationId Edit) (roleId : ℕ) :
    (deleteRoleRoute (some organizationId) roleId).Preserves P := by
  intro w hw
  refine ends_roleOfRouter_bind (fun _ => hw) fun role hrole hid howner => ?_
  simp only [bind_eq, ends_query_bind]
  split
  · exact ends_raise.mpr hw
  rename_i hfree
  refine hP.executes hw (by trivial) (fun eff heff => ?_) fun eff heff hP' => ?_
  · obtain rfl := Except.ok.inj heff
    refine .deleted role hrole howner ?_ rfl rfl
    rw [hid]
    exact Bool.eq_false_iff.mpr hfree
  · exact ends_commitNow.mpr ⟨hP', hP'⟩

/-! ## Members -/

theorem getMembership_some {db : Database} {userId : ℕ} {m : OrganizationMembership}
    (h : db.getMembership organizationId userId = some m) :
    m ∈ db.memberships ∧ m.organizationId = organizationId ∧ m.userId = userId := by
  have hfound := List.find?_some h
  exact ⟨List.mem_of_find?_eq_some h, of_decide_eq_true hfound⟩

/-- The member a request is about. -/
theorem ends_target_bind {userId : ℕ} {k : OrganizationMembership → Op β}
    {post : Except Err β → World → Prop} (hx : ∀ x, post (.error x) w)
    (hk : ∀ target, w.cur.getMembership organizationId target.userId = some target →
      (k target).Ends w post) :
    ((queryOrRaise (getTargetMembership · organizationId userId)).bind k).Ends w post := by
  refine ends_queryOrRaise_bind (fun target htarget => hk target ?_) fun x _ => hx x
  have hfound := getTargetMembership_ok htarget
  rwa [(getMembership_some hfound).2.2]

/-- What the caller passes the guard with. -/
theorem escalates_false {db : Database} {target : OrganizationMembership} {roles : List Role}
    {actorUserId : ℕ} (h : ¬ db.escalates target roles actorUserId = true)
    (hself : target.userId = actorUserId) :
    ∀ role ∈ roles, ∀ p ∈ role.permissions, p ∈ db.permissionsOf target.roleIds := by
  intro role hrole p hp
  by_contra hnew
  refine h ?_
  rw [Database.escalates, decide_eq_true hself, Bool.true_and, List.any_eq_true]
  exact ⟨p, List.mem_flatMap.mpr ⟨role, hrole, hp⟩, decide_eq_true hnew⟩

/-- A statement on the row of a member. -/
theorem KeptBy.assigns (hP : KeptBy P user organizationId Edit) (hw : Both P w)
    {target : OrganizationMembership} {stmt : OrgStmt}
    {f : OrganizationMembership → OrganizationMembership}
    (htarget : w.cur.getMembership organizationId target.userId = some target)
    (hstmt : ∀ eff, denote (.org stmt) w.cur = .ok eff →
      eff.delta w.cur = w.cur.updateMembership target.id f)
    (hs : (Stmt.org stmt).InvitesNobody) (hassigns : Assigns user w.cur target f)
    {k : Unit → Op β} (hk : (k ()).Preserves P) :
    (Prog.bind (execute (.org stmt) : Op Unit) k).Ends w fun _ => Both P := by
  refine hP.executes hw hs (fun eff heff => ?_) fun eff heff hP' => hk _ ⟨hw.1, hP'⟩
  rw [hstmt eff heff]
  exact .assigned target f htarget hassigns rfl rfl

/-- Roles that are resolved, and guarded where they are the caller's own. -/
def Assignable (user : Claims) (db : Database) (target : OrganizationMembership)
    (roles : List Role) : Prop :=
  (∀ role ∈ roles, role ∈ db.roles ∧ Tenant role.permissions) ∧
    (user.sub = some (.user target.userId) →
      ∀ role ∈ roles, ∀ p ∈ role.permissions, p ∈ db.permissionsOf target.roleIds)

theorem KeptBy.setsRoles (hP : KeptBy P user organizationId Edit) (hw : Both P w)
    {target : OrganizationMembership}
    (htarget : w.cur.getMembership organizationId target.userId = some target)
    (before : List String) {roles : List Role} (hroles : Assignable user w.cur target roles)
    (actorUserId : ℕ) :
    (setMemberRoles target before roles actorUserId).Ends w fun _ => Both P := by
  refine hP.assigns (f := fun m => { m with roleIds := (roles.map (·.id)).dedup }) hw htarget
    (fun eff heff => ?_) (by trivial)
    ⟨fun _ => rfl, fun _ => rfl, fun _ => rfl, fun m id hid => .inr ?_⟩ ?_
  · obtain rfl := Except.ok.inj heff
    rfl
  · obtain ⟨role, hrole, rfl⟩ := List.mem_map.mp (List.mem_dedup.mp hid)
    obtain ⟨hmem, htenant⟩ := hroles.1 role hrole
    exact ⟨role, hmem, rfl, htenant, fun hself => hroles.2 hself role hrole⟩
  · split
    · exact hP.logsAndCommits _
    · exact preserves_commitNow

theorem KeptBy.addsRole (hP : KeptBy P user organizationId Edit) (hw : Both P w)
    {target : OrganizationMembership}
    (htarget : w.cur.getMembership organizationId target.userId = some target) {role : Role}
    (hrole : Assignable user w.cur target [role]) (actorUserId : ℕ) {k : Unit → Op β}
    (hk : (k ()).Preserves P) :
    ((addMemberRole target target.roleIds role actorUserId).bind k).Ends w fun _ => Both P := by
  unfold addMemberRole
  split
  · exact hk w hw
  rw [bind_eq, bind_bind]
  refine hP.assigns (f := fun m => { m with
      roleIds := if role.id ∈ m.roleIds then m.roleIds else m.roleIds ++ [role.id] }) hw htarget
    (fun eff heff => ?_) (by trivial) ⟨fun _ => rfl, fun _ => rfl, fun _ => rfl, fun m id hid => ?_⟩
    ((hP.logs _ false).bind fun _ => hk)
  · obtain rfl := Except.ok.inj heff
    rfl
  · dsimp only at hid
    split at hid
    · exact .inl hid
    rcases List.mem_append.mp hid with hid | hid
    · exact .inl hid
    · obtain rfl := List.mem_singleton.mp hid
      obtain ⟨hmem, htenant⟩ := hrole.1 role List.mem_cons_self
      exact .inr ⟨role, hmem, rfl, htenant, fun hself => hrole.2 hself role List.mem_cons_self⟩

theorem KeptBy.removesRole (hP : KeptBy P user organizationId Edit) (hw : Both P w)
    {target : OrganizationMembership}
    (htarget : w.cur.getMembership organizationId target.userId = some target) (role : Role)
    (actorUserId : ℕ) :
    (Prog.bind (removeMemberRole target target.roleIds role actorUserId) fun _ =>
      (commitNow : Op Unit)).Ends w fun _ => Both P := by
  unfold removeMemberRole
  split
  · rw [bind_eq, bind_bind]
    refine hP.assigns (f := fun m => { m with roleIds := m.roleIds.filter (· ≠ role.id) }) hw
      htarget (fun eff heff => ?_) (by trivial)
      ⟨fun _ => rfl, fun _ => rfl, fun _ => rfl, fun m id hid => .inl (List.mem_of_mem_filter hid)⟩
      (hP.logsAndCommits _)
    obtain rfl := Except.ok.inj heff
    rfl
  · exact preserves_commitNow w hw

/-- **A member who joins** with the base role, and is not the caller. -/
theorem KeptBy.joins (hP : KeptBy P user organizationId Edit) (inOrganization userId : ℕ)
    (hother : user.sub ≠ some (.user userId)) (status : MembershipStatus)
    (invitedByUserId : Option ℕ) (actorUserId : ℕ) (metadata : List (String × String)) :
    (joinAsMember inOrganization userId status invitedByUserId actorUserId metadata).Preserves
      P := by
  intro w hw
  refine hP.getsOrCreates hw orgMemberRole fun role w' hw' hrole hjoins => ?_
  simp only [bind_eq, ends_time_bind, ends_draw_bind]
  intro now hnow
  refine hP.executes (w := { w' with now := now, next := w'.next + 1 }) hw' (by trivial)
    (fun eff heff => ?_) fun eff heff hP' => ?_
  · simp only [denote, OrgStmt.denote] at heff
    split at heff
    · cases heff
    rename_i hfree
    cases heff
    refine .joined _ (fun m hm hid => hfree ⟨m, hm, .inl hid⟩) hother (fun id hid => ?_) rfl rfl
    obtain rfl := List.mem_singleton.mp hid
    exact ⟨role, hrole, rfl, hjoins⟩
  · exact ((hP.logs _ false).bind fun _ => preserves_commitNow.bind fun _ => preserves_ret _)
      _ ⟨hw'.1, hP'⟩

/-! ## Invitations -/

theorem KeptBy.checksInvitation (P : Database → Prop) (inOrganization : ℕ) (email : String) :
    (checkInvitation A inOrganization email).Preserves P := by
  unfold checkInvitation
  split
  · exact preserves_raise _
  split
  · exact preserves_raise _
  split
  · exact preserves_raise _
  split
  · exact preserves_raise _
  · refine preserves_query_bind fun db hdb => ?_
    split
    · exact preserves_raise _
    · exact preserves_ret _

theorem KeptBy.resolvesInvited (hP : KeptBy P user organizationId Edit) (inOrganization : ℕ)
    (actorUserId : ℕ) (roleNames : List String) :
    (resolveInvitedRoles A inOrganization false actorUserId roleNames).Preserves P := by
  intro w hw
  refine ends_handle.mpr ((hP.resolves hw inOrganization _ none roleNames).mono fun r w' hr => ?_)
  cases r with
  | ok roles =>
    obtain ⟨rfl, -⟩ := hr
    exact ends_ret.mpr hw
  | error x =>
    dsimp only
    split <;> exact ends_raise.mpr hr

theorem KeptBy.clearsPending (hP : KeptBy P user organizationId Edit) (inOrganization : ℕ)
    (actorUserId now : ℕ) (email : String) :
    (clearPending A inOrganization actorUserId now email).Preserves P := by
  have hlock : (Stmt.org (.lockPendingKey (A.activeKey inOrganization email))).Leaves
      Database.staff := by
    intro seen eff h db
    obtain rfl := Except.ok.inj h
    rfl
  refine (hP.leaves hlock (by trivial) _).bind fun existing => ?_
  cases existing with
  | none => exact preserves_ret _
  | some existing =>
    show (ite _ _ _ : Op Unit).Preserves P
    split
    · exact preserves_raise _
    · refine Preserves.bind (hP.leaves (fun seen eff h db => ?_) (by trivial) _)
        fun _ => hP.logs _ false
      obtain rfl := Except.ok.inj h
      rfl

theorem preserves_onClash {p h : Op α} (hp : p.Preserves P) (hh : h.Preserves P) :
    (onClash p h).Preserves P := by
  refine hp.orElse fun x => ?_
  split
  · exact preserves_rollbackNow.bind fun _ => hh
  · exact preserves_raise _

theorem KeptBy.insertsInvitation (hP : KeptBy P user organizationId Edit)
    {row : OrganizationInvitation} (hrow : row.inviterIsPlatformAdmin = false) :
    (execute (.org (.insertInvitation row)) : Op Unit).Preserves P := by
  refine preserves_returning fun db eff hdb heff => ?_
  simp only [denote, OrgStmt.denote] at heff
  split at heff
  · cases heff
  obtain rfl := Except.ok.inj heff
  refine hP hdb (.aside rfl rfl) fun t ht => ?_
  obtain ⟨i, hi, rfl⟩ := List.mem_map.mp ht
  rcases List.mem_append.mp hi with hi | hi
  · exact .inl (List.mem_map_of_mem hi)
  · obtain rfl := List.mem_singleton.mp hi
    exact .inr hrow

theorem KeptBy.invites (hP : KeptBy P user organizationId Edit) (timestamp : ℕ → String)
    (inOrganization actorUserId : ℕ) (email : String) (roleNames : List String)
    (mailed : Bool) :
    (createInvitation A timestamp inOrganization actorUserId email roleNames false
      mailed).Preserves P := by
  refine Preserves.bind (KeptBy.checksInvitation P _ _) fun _ w hw => ?_
  refine hP.getsOrCreates hw orgMemberRole fun _ w' hw' _ _ => ?_
  generalize (if roleNames = [] then [orgMemberRole] else roleNames) = names
  split
  · exact ends_raise.mpr hw'
  refine (hP.resolvesInvited _ _ _).bind (fun roles => ?_) w' hw'
  refine preserves_time.bind fun now => (hP.clearsPending _ _ _ _).bind fun _ => ?_
  refine preserves_draw.bind fun token => preserves_draw.bind fun id => ?_
  refine preserves_onClash ?_ (preserves_raise _)
  refine (hP.insertsInvitation rfl).bind fun _ => ?_
  split
  · exact (hP.logs _ false).bind fun _ => preserves_commitNow.bind fun _ => preserves_ret _
  · exact preserves_rollbackNow.bind fun _ => preserves_raise _

theorem KeptBy.gatesInvitations (hP : KeptBy P user organizationId Edit) (inOrganization : ℕ) :
    (requireInvitationManageOrg user inOrganization).Preserves P := by
  refine preserves_query_bind fun db hdb => ?_
  split
  · exact preserves_ret _
  · refine preserves_query_bind fun db' hdb' => (hP.logs _ true).bind fun _ => ?_
    split <;> exact preserves_raise _
  · exact preserves_raise _

/-! ## Requests -/

/-- The edits of a request. -/
def OrgCall.Edits (Edit : Database → Role → List String → Prop) (db : Database) : OrgCall → Prop
  | updateRole roleId permissions _ =>
      ∀ role ∈ db.roles, role.id = roleId → Edit db role permissions.dedup
  | _ => True

theorem memberRoleOut_preserves (roleIds : List ℕ) : (memberRoleOut A roleIds).Preserves P := by
  refine preserves_query_bind fun db hdb => ?_
  dsimp only
  split
  · exact preserves_raise _
  · exact preserves_ret _

/-- Roles of a member, resolved and guarded. -/
theorem KeptBy.resolvesGuarded (hP : KeptBy P user organizationId Edit) (hw : Both P w)
    {target : OrganizationMembership} {actorUserId : ℕ}
    (hactor : user.sub = some (.user actorUserId)) (names : List String) {refusal : Err}
    {k : List Role → Op β}
    (hk : ∀ roles, Assignable user w.cur target roles → (k roles).Ends w fun _ => Both P) :
    (Prog.bind (valueErrorAs refusedStatus
      (resolveRolesForOrg A organizationId false (some actorUserId) (some target.userId) names))
      fun roles => (query (S := AuthSig) fun db => db.escalates target roles actorUserId).bind
        fun escalates => if escalates then raise refusal else k roles).Ends w
          fun _ => Both P := by
  refine ends_handle.mpr (Ends.mono (valueErrorAs_ends
    (hP.resolves hw organizationId (some actorUserId) (some target.userId) names)
    fun _ _ _ h => h) fun r w' hr => ?_)
  cases r with
  | error x => exact ends_raise.mpr hr
  | ok roles =>
    obtain ⟨rfl, hroles⟩ := hr
    simp only [ends_query_bind]
    split
    · exact ends_raise.mpr hw
    · rename_i hguard
      refine hk roles ⟨hroles, fun hself => ?_⟩
      obtain rfl : actorUserId = target.userId := by
        rw [hactor] at hself
        cases hself
        rfl
      exact escalates_false hguard rfl

theorem KeptBy.updatesMemberRoles (hP : KeptBy P user organizationId Edit)
    (hadmin : manageAllOrgs ∉ user.permissions) (userId : ℕ) (roles : List String) :
    (updateMemberRoles A user organizationId userId roles).Preserves P := by
  intro w hw
  unfold updateMemberRoles
  rw [decide_eq_false hadmin]
  refine ends_queryOrRaise_bind (fun caller _ => ?_) fun _ _ => hw
  refine ends_target_bind (fun _ => hw) fun target hfound => ?_
  split
  · rename_i actorUserId hactor
    refine hP.resolvesGuarded hw hactor roles fun newRoles hroles => ?_
    split
    · exact ends_raise.mpr hw
    rw [bind_eq, ends_query_bind]
    refine Ends.bind (M := fun _ => Both P)
      ((hP.setsRoles hw hfound _ hroles _).mono fun r w' hw' => ?_) fun _ _ hw' => ends_ret.mpr hw'
    cases r <;> exact hw'
  · exact ends_raise.mpr hw

theorem KeptBy.assignsMemberRoles (hP : KeptBy P user organizationId Edit)
    (hadmin : manageAllOrgs ∉ user.permissions) (userId : ℕ) (roles : List String) :
    (assignOrganizationMemberRoles A user organizationId userId roles).Preserves P := by
  intro w hw
  unfold assignOrganizationMemberRoles assignRoles
  rw [decide_eq_false hadmin]
  refine ends_queryOrRaise_bind (fun caller _ => ?_) fun _ _ => hw
  split
  · rename_i actorUserId hactor
    refine ends_target_bind (fun _ => hw) fun target hfound => ?_
    split
    · exact ends_raise.mpr hw
    refine hP.resolvesGuarded hw hactor roles fun newRoles hroles => ?_
    rw [bind_eq, ends_query_bind]
    refine Ends.bind (M := fun _ => Both P)
      ((hP.setsRoles hw hfound _ hroles _).mono fun r w' hw' => ?_)
      fun _ _ hw' => memberRoleOut_preserves _ _ hw'
    cases r <;> exact hw'
  · exact ends_raise.mpr hw

theorem KeptBy.assignsMemberRole (hP : KeptBy P user organizationId Edit)
    (hadmin : manageAllOrgs ∉ user.permissions) (userId : ℕ) (role : String) :
    (assignMemberRole A user organizationId userId role).Preserves P := by
  intro w hw
  unfold assignMemberRole
  rw [decide_eq_false hadmin]
  refine ends_queryOrRaise_bind (fun caller _ => ?_) fun _ _ => hw
  refine ends_target_bind (fun _ => hw) fun target hfound => ?_
  split
  · rename_i actorUserId hactor
    refine ends_handle.mpr (Ends.mono (valueErrorAs_ends
      (hP.resolves hw organizationId (some actorUserId) (some target.userId) [role])
      fun _ _ _ h => h) fun r w' hr => ?_)
    cases r with
    | error x => exact ends_raise.mpr hr
    | ok resolved =>
      obtain ⟨rfl, hresolved⟩ := hr
      dsimp only
      split
      · exact ends_raise.mpr hw
      rename_i newRole rest
      rw [bind_eq, ends_query_bind]
      split
      · exact ends_raise.mpr hw
      rename_i hguard
      refine hP.addsRole hw hfound ⟨fun r hr => ?_, fun hself => ?_⟩ _ preserves_commitNow
      · obtain rfl := List.mem_singleton.mp hr
        exact hresolved r List.mem_cons_self
      · obtain rfl : actorUserId = target.userId := by
          rw [hactor] at hself
          cases hself
          rfl
        exact escalates_false hguard rfl
  · exact ends_raise.mpr hw

theorem KeptBy.removesMemberRole (hP : KeptBy P user organizationId Edit) (userId roleId : ℕ) :
    (removeMemberRoleById user organizationId userId roleId).Preserves P := by
  intro w hw
  refine ends_queryOrRaise_bind (fun caller _ => ?_) fun _ _ => hw
  refine ends_target_bind (fun _ => hw) fun target hfound => ?_
  rw [bind_eq, ends_query_bind]
  split
  · exact ends_raise.mpr hw
  split
  · exact ends_raise.mpr hw
  · exact hP.removesRole hw hfound _ _

theorem KeptBy.removesMemberRoleByName (hP : KeptBy P user organizationId Edit) (userId : ℕ)
    (roleName : String) :
    (removeOrganizationMemberRole user organizationId userId roleName).Preserves P := by
  intro w hw
  refine ends_queryOrRaise_bind (fun caller _ => ?_) fun _ _ => hw
  refine ends_target_bind (fun _ => hw) fun target hfound => ?_
  rw [bind_eq, ends_query_bind]
  split
  · exact ends_raise.mpr hw
  split
  · exact ends_raise.mpr hw
  · exact hP.removesRole hw hfound _ _

/-- **A manager who is no platform admin** is a member. -/
theorem requireOrgManager_member {db : Database} {caller : OrganizationMembership}
    (hadmin : manageAllOrgs ∉ user.permissions)
    (h : requireOrgManager db user organizationId = .ok caller) {userId : ℕ}
    (hsub : user.sub = some (.user userId)) :
    (db.getMembership organizationId userId).isSome := by
  rw [requireOrgManager, getOrgMembershipOrPlatformAdmin, if_neg fun hboth => hadmin hboth.2,
    getOrgMembership, hsub] at h
  dsimp only at h
  cases hactive : db.activeMembership userId organizationId with
  | none =>
    rw [hactive] at h
    cases h
  | some m =>
    have hfound := List.find?_some hactive
    obtain ⟨horganization, huser, -⟩ := of_decide_eq_true hfound
    exact List.find?_isSome.mpr ⟨m, List.mem_of_find?_eq_some hactive,
      decide_eq_true ⟨horganization, huser⟩⟩

theorem KeptBy.invitesMember (hP : KeptBy P user organizationId Edit)
    (hadmin : manageAllOrgs ∉ user.permissions) (email : String) :
    (inviteMember user organizationId email).Preserves P := by
  intro w hw
  refine ends_queryOrRaise_bind (fun caller hcaller => ?_) fun _ _ => hw
  split
  · rename_i actorUserId hactor
    simp only [bind_eq, ends_query_bind]
    split
    · exact ends_raise.mpr hw
    rename_i invitee _
    rw [ends_query_bind]
    split
    · exact ends_ret.mpr hw
    · rename_i hnone _
      refine hP.joins _ _ (fun hself => ?_) _ _ _ _ w hw
      have hmember := requireOrgManager_member hadmin hcaller hself
      rw [hnone] at hmember
      cases hmember
    · exact ends_raise.mpr hw
  · exact ends_raise.mpr hw

theorem KeptBy.createsInvitation (hP : KeptBy P user organizationId Edit)
    (hadmin : manageAllOrgs ∉ user.permissions) (timestamp : ℕ → String) (email : String)
    (roles : List String) (mailed : Bool) :
    (createOrganizationInvitation A timestamp user organizationId email roles mailed).Preserves
      P := by
  unfold createOrganizationInvitation
  rw [decide_eq_false hadmin]
  refine Preserves.bind (hP.gatesInvitations _) fun _ => ?_
  split
  · refine preserves_query_bind fun db hdb => ?_
    split
    · exact preserves_raise _
    · exact hP.invites _ _ _ _ _ _
  · exact preserves_raise _

/-- **What every step keeps, every request keeps.** -/
theorem KeptBy.call (hP : KeptBy P user organizationId Edit)
    (hadmin : manageAllOrgs ∉ user.permissions) (call : OrgCall) (hw : Both P w)
    (hedit : call.Edits Edit w.cur) : (call.op A user organizationId).Ends w fun _ => Both P := by
  cases call with
  | createRole name permissions description =>
    refine Preserves.bind (fun w hw => ?_) (fun _ => preserves_ret _) w hw
    refine ends_queryOrRaise_bind (fun caller hcaller => ?_) fun _ _ => hw
    split
    · exact hP.creates _ _ _ _ _ w hw
    · exact ends_raise.mpr hw
  | updateRole roleId permissions description =>
    refine ends_queryOrRaise_bind (fun caller hcaller => ?_) fun _ _ => hw
    split
    · exact hP.updates hw description _ hedit
    · exact ends_raise.mpr hw
  | deleteRole roleId =>
    exact ends_queryOrRaise_bind (fun _ _ => hP.deletes roleId w hw) fun _ _ => hw
  | updateMemberRoles userId roles =>
    exact (hP.updatesMemberRoles hadmin userId roles).bind (fun _ => preserves_ret _) w hw
  | assignMemberRoles userId roles =>
    exact (hP.assignsMemberRoles hadmin userId roles).bind (fun _ => preserves_ret _) w hw
  | assignMemberRole userId role => exact hP.assignsMemberRole hadmin userId role w hw
  | removeMemberRole userId roleId => exact hP.removesMemberRole userId roleId w hw
  | removeMemberRoleByName userId roleName => exact hP.removesMemberRoleByName userId roleName w hw
  | inviteMember email =>
    exact (hP.invitesMember hadmin email).bind (fun _ => preserves_ret _) w hw
  | createInvitation timestamp email roles mailed =>
    exact (hP.createsInvitation hadmin timestamp email roles mailed).bind
      (fun _ => preserves_ret _) w hw

end OmniAuth
