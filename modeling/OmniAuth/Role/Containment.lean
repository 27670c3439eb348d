import Mathlib.Data.List.Find
import OmniAuth.Role.Steps

/-!
# Permissions of the platform stay out of organizations

Managers who are no platform admins make roles, edit them, assign them and invite with them,
and members join by invitation or at their first sign-on. A permission of the platform comes
to no membership by any of it: a role is checked when it is written and again when it is
resolved, and the base role is made without permissions.
-/

namespace OmniAuth

open Txn Prog

/-! ## The invariant -/

/-- No permission of the platform is assigned to a member, or could be without a check. -/
structure Database.Contained (db : Database) : Prop where
  assigned : ∀ m ∈ db.memberships, ∀ role ∈ db.rolesOf m.roleIds, Tenant role.permissions
  owned : ∀ role ∈ db.roles, role.organizationId ≠ none → Tenant role.permissions
  base : ∀ role, getRoleByName db orgMemberRole none = some role → Tenant role.permissions

variable {α β : Type} {A : AppEnv} {user : Claims} {organizationId : ℕ}
  {Edit : Database → Role → List String → Prop} {P : Database → Prop} {db db' : Database}
  {w : World}

theorem Tenant.edit {role r : Role} {permissions : List String} {description : Option String}
    (hpermissions : Tenant permissions) (hr : Tenant r.permissions) :
    Tenant (r.edit role.id permissions description).permissions := by
  unfold Role.edit
  split
  · exact hpermissions
  · exact hr

namespace Database.Contained

theorem congr (h : db.Contained) (hroles : db'.roles = db.roles)
    (hmembers : db'.memberships = db.memberships) : db'.Contained where
  assigned := by
    rw [hmembers]
    intro m hm role hrole
    rw [mem_rolesOf, hroles, ← mem_rolesOf] at hrole
    exact h.assigned m hm role hrole
  owned := by
    rw [hroles]
    exact h.owned
  base := by
    intro role hrole
    rw [getRoleByName, hroles] at hrole
    exact h.base role hrole

theorem made (h : db.Contained) {role : Role} (htenant : Tenant role.permissions)
    (hroles : db'.roles = db.roles ++ [role]) (hmembers : db'.memberships = db.memberships) :
    db'.Contained where
  assigned := by
    rw [hmembers]
    intro m hm r hr
    rw [mem_rolesOf, hroles, List.mem_append, List.mem_singleton] at hr
    obtain ⟨hr | rfl, hid⟩ := hr
    · exact h.assigned m hm r (mem_rolesOf.mpr ⟨hr, hid⟩)
    · exact htenant
  owned := by
    rw [hroles]
    intro r hr howner
    rcases List.mem_append.mp hr with hr | hr
    · exact h.owned r hr howner
    · obtain rfl := List.mem_singleton.mp hr
      exact htenant
  base := by
    intro r hr
    rw [getRoleByName, hroles, List.find?_append, Option.or_eq_some_iff] at hr
    rcases hr with hr | ⟨-, hr⟩
    · exact h.base r hr
    · obtain rfl := List.mem_singleton.mp (List.mem_of_find?_eq_some hr)
      exact htenant

theorem edited (h : db.Contained) {role : Role} {permissions : List String}
    {description : Option String} (htenant : Tenant permissions)
    (hroles : db'.roles = db.roles.map (Role.edit role.id permissions description))
    (hmembers : db'.memberships = db.memberships) : db'.Contained where
  assigned := by
    rw [hmembers]
    intro m hm r hr
    rw [mem_rolesOf, hroles] at hr
    obtain ⟨hr, hid⟩ := hr
    obtain ⟨r₀, hr₀, rfl⟩ := List.mem_map.mp hr
    rw [Role.edit_id] at hid
    exact htenant.edit (h.assigned m hm r₀ (mem_rolesOf.mpr ⟨hr₀, hid⟩))
  owned := by
    rw [hroles]
    intro r hr howner
    obtain ⟨r₀, hr₀, rfl⟩ := List.mem_map.mp hr
    rw [Role.edit_organizationId] at howner
    exact htenant.edit (h.owned r₀ hr₀ howner)
  base := by
    intro r hr
    rw [getRoleByName, hroles, List.find?_map] at hr
    obtain ⟨r₀, hr₀, rfl⟩ := Option.map_eq_some_iff.mp hr
    simp only [Function.comp_def, Role.edit_name, Role.edit_organizationId] at hr₀
    exact htenant.edit (h.base r₀ hr₀)

/-- A role some organization owns is not the base role, and no other role has its id. -/
theorem deleted (h : db.Contained) (hids : db.RoleIdsUnique) {role : Role}
    (hrole : role ∈ db.roles) (howner : role.organizationId ≠ none)
    (hroles : db'.roles = db.roles.filter (·.id ≠ role.id))
    (hmembers : db'.memberships = db.memberships) : db'.Contained where
  assigned := by
    rw [hmembers]
    intro m hm r hr
    rw [mem_rolesOf, hroles] at hr
    exact h.assigned m hm r (mem_rolesOf.mpr ⟨List.mem_of_mem_filter hr.1, hr.2⟩)
  owned := by
    rw [hroles]
    intro r hr howner
    exact h.owned r (List.mem_of_mem_filter hr) howner
  base := by
    intro r hr
    refine h.base r ?_
    rw [← hr, getRoleByName, getRoleByName, hroles, List.find?_filter]
    refine List.find?_congr fun x hx => ?_
    by_cases hid : x.id = role.id
    · obtain rfl := List.inj_on_of_nodup_map hids hx hrole hid
      simp [howner]
    · simp [hid]

theorem assigns (h : db.Contained) (hids : db.RoleIdsUnique) {target : OrganizationMembership}
    {f : OrganizationMembership → OrganizationMembership} (hassigns : Assigns user db target f)
    (hroles : db'.roles = db.roles)
    (hmembers : db'.memberships = (db.updateMembership target.id f).memberships) :
    db'.Contained where
  assigned := by
    rw [hmembers]
    intro m hm role hrole
    rw [mem_rolesOf, hroles] at hrole
    obtain ⟨m₀, hm₀, rfl⟩ := List.mem_map.mp hm
    by_cases hid : m₀.id = target.id
    · rw [if_pos hid] at hrole
      rcases hassigns.roleIds m₀ role.id hrole.2 with hold | ⟨r, hr, hsame, htenant, -⟩
      · exact h.assigned m₀ hm₀ role (mem_rolesOf.mpr ⟨hrole.1, hold⟩)
      · obtain rfl := List.inj_on_of_nodup_map hids hr hrole.1 hsame
        exact htenant
    · rw [if_neg hid] at hrole
      exact h.assigned m₀ hm₀ role (mem_rolesOf.mpr hrole)
  owned := by
    rw [hroles]
    exact h.owned
  base := by
    intro role hrole
    rw [getRoleByName, hroles] at hrole
    exact h.base role hrole

theorem joined (h : db.Contained) (hids : db.RoleIdsUnique) {membership : OrganizationMembership}
    (hjoins : ∀ id ∈ membership.roleIds, JoinsWith db id) (hroles : db'.roles = db.roles)
    (hmembers : db'.memberships = db.memberships ++ [membership]) : db'.Contained where
  assigned := by
    rw [hmembers]
    intro m hm role hrole
    rw [mem_rolesOf, hroles] at hrole
    rcases List.mem_append.mp hm with hm | hm
    · exact h.assigned m hm role (mem_rolesOf.mpr hrole)
    obtain rfl := List.mem_singleton.mp hm
    obtain ⟨r, hr, hsame, htenant⟩ := hjoins role.id hrole.2
    obtain rfl := List.inj_on_of_nodup_map hids hr hrole.1 hsame
    rcases htenant with htenant | hbase
    · exact htenant
    · exact h.base r hbase
  owned := by
    rw [hroles]
    exact h.owned
  base := by
    intro role hrole
    rw [getRoleByName, hroles] at hrole
    exact h.base role hrole

/-- **Every step keeps it.** -/
theorem step (h : db.Contained) (hids : db.RoleIdsUnique)
    (hstep : SurfaceStep user organizationId Edit db db') : db'.Contained := by
  cases hstep with
  | aside hroles hmembers => exact h.congr hroles hmembers
  | made role hnew htenant hroles hmembers => exact h.made htenant hroles hmembers
  | edited role permissions description hrole howner htenant hedit hroles hmembers =>
    exact h.edited htenant hroles hmembers
  | deleted role hrole howner hfree hroles hmembers =>
    exact h.deleted hids hrole (by rw [howner]; exact Option.some_ne_none _) hroles hmembers
  | assigned target f htarget hassigns hroles hmembers =>
    exact h.assigns hids hassigns hroles hmembers
  | joined membership hnew hother hjoins hroles hmembers =>
    exact h.joined hids hjoins hroles hmembers

end Database.Contained

/-! ## Acceptance -/

/-- The invitations with this hash are no platform admin's. -/
def Database.InvitedByManager (db : Database) (tokenHash : ℕ) : Prop :=
  ∀ t ∈ db.invitationTerms, t.tokenHash = tokenHash → t.inviterIsPlatformAdmin = false

/-- What holds while an invitation of a manager is accepted. -/
structure Accepting (tokenHash : ℕ) (db : Database) : Prop where
  roleIdsUnique : db.RoleIdsUnique
  contained : db.Contained
  invited : db.InvitedByManager tokenHash

variable {tokenHash : ℕ}

theorem Accepting.kept : KeptBy (Accepting tokenHash) user organizationId Edit := by
  intro db db' h hstep hadds
  refine ⟨hstep.roleIdsUnique h.roleIdsUnique, h.contained.step h.roleIdsUnique hstep, ?_⟩
  intro t ht hhash
  rcases hadds t ht with hold | hmanager
  · exact h.invited t hold hhash
  · exact hmanager

/-- One whom no guard is about. -/
def nobody : Claims := {}

theorem accepting_kept (organizationId : ℕ) :
    KeptBy (Accepting tokenHash) nobody organizationId fun _ _ _ => True := Accepting.kept

theorem accepting_leaves {stmt : Stmt} (hstmt : stmt.Leaves Database.staff)
    (hs : stmt.InvitesNobody) (q : Database → α) :
    (returning (S := AuthSig) stmt q).Preserves (Accepting tokenHash) :=
  (accepting_kept 0).leaves hstmt hs q

theorem accepting_logs (event : AuditEvent) (commit : Bool) :
    (logEvent event commit).Preserves (Accepting tokenHash) :=
  (accepting_kept 0).logs event commit

theorem account_leaves (stmt : AccountStmt) : (Stmt.account stmt).Leaves Database.staff :=
  fun _ _ h db => AccountStmt.keeps Database.staff (fun _ => rfl) h db

theorem mfa_leaves (stmt : MfaStmt) : (Stmt.mfa stmt).Leaves Database.staff := by
  intro seen eff h db
  cases stmt <;> simp only [denote, MfaStmt.denote] at h <;> (try split at h) <;> cases h <;> rfl

theorem settling_leaves {known : List OrganizationInvitation} {stmt : Stmt}
    (h : stmt.Settling known tokenHash) : stmt.Leaves Database.staff := by
  intro seen eff hden db
  cases stmt with
  | insertAuditEvent event =>
    obtain rfl := Except.ok.inj hden
    rfl
  | mfa stmt => exact mfa_leaves stmt seen eff hden db
  | org stmt =>
    cases stmt with
    | lockInvitation hash | lockMembership o u | expireInvitation id | failInvitation id n t =>
      obtain rfl := Except.ok.inj hden
      rfl
    | _ => exact h.1.elim
  | _ => exact h.1.elim

/-- What settles an invitation keeps what holds while it is accepted. -/
theorem accepting_settling {F : Prop} {known : List OrganizationInvitation} {hash : ℕ}
    {p : Op α} (h : p.Within F (Executing (Stmt.Settling known hash))) :
    p.Preserves (Accepting tokenHash) := by
  refine h.preserves fun {stmt db eff} hA hden hdb => ?_
  have hs : stmt.Settling known hash := hA
  have hsame := settling_leaves hs db eff hden db
  exact accepting_kept 0 hdb (.aside (congrArg Prod.fst hsame) (congrArg Prod.snd hsame))
    (addsInvitations_denote hden hs.aside.1.1)

/-- **The pending invitation** is a manager's. -/
theorem pendingInvitation_accepting (token : String) :
    ∀ w : World, Both (Accepting (A.invitationHash token)) w →
      (pendingInvitation A token).Ends w fun r w' => Both (Accepting (A.invitationHash token)) w' ∧
        ∀ i, r = .ok i → i.inviterIsPlatformAdmin = false := by
  intro w hw
  have hraise : ∀ {x : Err} {w : World}, Both (Accepting (A.invitationHash token)) w →
      (raise x : Op OrganizationInvitation).Ends w fun r w' =>
        Both (Accepting (A.invitationHash token)) w' ∧
          ∀ i, r = .ok i → i.inviterIsPlatformAdmin = false :=
    fun hw => ends_raise.mpr ⟨hw, fun _ h => by cases h⟩
  unfold pendingInvitation
  split
  · exact hraise hw
  refine ends_returning_bind.mpr ⟨fun eff heff => ?_, fun x _ => ⟨hw, fun _ h => by cases h⟩⟩
  obtain rfl := Except.ok.inj heff
  split
  · exact hraise hw
  rename_i i hfound
  have hmanager : i.inviterIsPlatformAdmin = false := by
    have hhash := List.find?_some hfound
    exact hw.2.invited i.terms (List.mem_map_of_mem (List.mem_of_find?_eq_some hfound))
      (of_decide_eq_true hhash)
  split
  · exact hraise hw
  rw [bind_eq, ends_time_bind]
  intro now hnow
  have hnow : Both (Accepting (A.invitationHash token)) { w with now := now } := hw
  split
  · have hexpired : (setExpired i).Preserves (Accepting (A.invitationHash token)) :=
      accepting_settling (F := False) (setExpired_settling (List.mem_singleton.mpr rfl) rfl)
    refine ends_handle.mpr ((hexpired _ hnow).mono fun r w' hw' => ?_)
    cases r with
    | error x => exact hraise hw'
    | ok u => exact hraise ⟨hw'.2, hw'.2⟩
  · rw [bind_eq, ends_query_bind]
    split
    · refine ends_ret.mpr ⟨hw, fun j hj => ?_⟩
      cases hj
      exact hmanager
    · exact hraise hw

theorem acceptInvitation_leaves (id t userId : ℕ) :
    (Stmt.org (.acceptInvitation id t userId)).Leaves Database.staff := by
  intro seen eff h db
  obtain rfl := Except.ok.inj h
  rfl

/-- **The membership** has the roles of the invitation, resolved again. -/
theorem activateMembership_accepting {i : OrganizationInvitation}
    (hmanager : i.inviterIsPlatformAdmin = false) (userId now : ℕ) :
    (activateMembership A i userId now).Preserves (Accepting tokenHash) := by
  intro w hw
  unfold activateMembership
  rw [hmanager]
  refine ends_returning_bind.mpr ⟨fun eff heff => ?_, fun _ _ => hw⟩
  obtain rfl := Except.ok.inj heff
  split
  · exact ends_raise.mpr hw
  refine ends_handle.mpr (((accepting_kept 0).resolves hw i.organizationId _ _ i.roles).mono
    fun r w' hr => ?_)
  cases r with
  | error x => exact ends_raise.mpr hr
  | ok roles =>
    obtain ⟨rfl, hroles⟩ := hr
    dsimp only
    split
    · rename_i target htarget
      have hfound : w'.cur.getMembership i.organizationId target.userId = some target := by
        rwa [(getMembership_some htarget).2.2]
      refine (accepting_kept i.organizationId).assigns (k := fun _ => ret ()) (f := fun m =>
          { m with
            status := .active
            joinedAt := now
            roleIds := (roles.map (·.id)).dedup })
        hw hfound (fun eff heff => ?_) (by trivial)
        ⟨fun _ => rfl, fun _ => rfl, fun _ => rfl, fun m id hid => .inr ?_⟩ (preserves_ret _)
      · obtain rfl := Except.ok.inj heff
        rfl
      · obtain ⟨role, hrole, rfl⟩ := List.mem_map.mp (List.mem_dedup.mp hid)
        obtain ⟨hmem, htenant⟩ := hroles role hrole
        exact ⟨role, hmem, rfl, htenant, fun hself => by cases hself⟩
    · rw [bind_eq, ends_draw_bind]
      refine (accepting_kept 0).executes (w := { w' with next := w'.next + 1 })
        (k := fun _ => ret ()) hw (by trivial) (fun eff heff => ?_) fun eff heff hP' =>
          ends_ret.mpr ⟨hw.1, hP'⟩
      simp only [denote, OrgStmt.denote] at heff
      split at heff
      · cases heff
      rename_i hfree
      cases heff
      refine .joined _ (fun m hm hid => hfree ⟨m, hm, .inl hid⟩) (fun hself => by cases hself)
        (fun id hid => ?_) rfl rfl
      obtain ⟨role, hrole, rfl⟩ := List.mem_map.mp (List.mem_dedup.mp hid)
      obtain ⟨hmem, htenant⟩ := hroles role hrole
      exact ⟨role, hmem, rfl, .inl htenant⟩

theorem activateInvitation_accepting {i : OrganizationInvitation}
    (hmanager : i.inviterIsPlatformAdmin = false) (userId now : ℕ) :
    (activateInvitation A i userId now).Preserves (Accepting tokenHash) := by
  refine (activateMembership_accepting hmanager userId now).bind fun _ => ?_
  refine Preserves.bind (accepting_leaves (acceptInvitation_leaves _ _ _) trivial _) fun _ => ?_
  exact (accepting_logs _ false).bind fun _ => accepting_logs _ false

theorem answerAgain_preserves (found : Database → Option Accepted) (x : Err) :
    (answerAgain found x).Preserves P := by
  refine preserves_query_bind fun db hdb => ?_
  split
  · exact preserves_ret _
  · exact preserves_raise _

theorem assignDefaultRole_accepting (account : User) :
    (assignDefaultRole account).Preserves (Accepting tokenHash) := by
  intro w hw
  refine (accepting_kept 0).getsOrCreates hw "user" fun role w' hw' _ _ => ?_
  split
  · exact ends_ret.mpr hw'
  · exact accepting_leaves (account_leaves _) trivial _ w' hw'

theorem addSetupDevice_accepting (i : OrganizationInvitation) (userId now : ℕ) :
    (addSetupDevice i userId now).Preserves (Accepting tokenHash) := by
  refine preserves_draw.bind fun deviceId => ?_
  refine Preserves.bind (accepting_leaves (mfa_leaves _) trivial _) fun _ => ?_
  refine Preserves.bind (accepting_leaves (mfa_leaves _) trivial _) fun _ => ?_
  exact (accepting_logs _ false).bind fun _ => accepting_logs _ false

theorem openAccount_accepting {i : OrganizationInvitation}
    (hmanager : i.inviterIsPlatformAdmin = false) (password : String) (needsMfa : Bool)
    (again : Database → Option Accepted) :
    (openAccount A i password needsMfa again).Preserves (Accepting tokenHash) := by
  refine preserves_time.bind fun now => preserves_draw.bind fun salt => ?_
  refine preserves_draw.bind fun id => Preserves.bind ?_ fun clash => ?_
  · refine preserves_onClash ?_ ?_
    · exact Preserves.bind (accepting_leaves (account_leaves _) trivial _) fun _ => preserves_ret _
    · exact (answerAgain_preserves _ _).bind fun _ => preserves_ret _
  cases clash with
  | some answer => exact preserves_ret _
  | none =>
    have hactivate : (onClash
        ((activateInvitation A i id now).bind fun _ => commitNow.bind fun _ =>
          ret ⟨id, i.organizationId⟩)
        (answerAgain again unavailable) : Op Accepted).Preserves (Accepting tokenHash) :=
      preserves_onClash ((activateInvitation_accepting hmanager _ _).bind fun _ =>
        preserves_commitNow.bind fun _ => preserves_ret _) (answerAgain_preserves _ _)
    refine (assignDefaultRole_accepting _).bind fun _ => ?_
    dsimp only
    split
    · exact (addSetupDevice_accepting _ _ _).bind fun _ => hactivate
    · exact hactivate

theorem acceptAsNewUser_accepting {i : OrganizationInvitation}
    (hmanager : i.inviterIsPlatformAdmin = false) (password : String) (totpCode : Option String)
    (again : Database → Option Accepted) :
    (acceptAsNewUser A i password totpCode again).Preserves (Accepting tokenHash) := by
  refine preserves_query_bind fun db hdb => ?_
  split
  · exact preserves_raise _
  split
  · exact preserves_raise _
  refine preserves_query_bind fun db' hdb' => ?_
  have hopen : (openAccount A i password (policyRequiresMfa db' i.organizationId)
      again).Preserves (Accepting tokenHash) := openAccount_accepting hmanager _ _ _
  dsimp only
  split
  · exact Preserves.bind (accepting_settling (F := False)
      (checkSetupCode_settling (List.mem_singleton.mpr rfl) rfl totpCode)) fun _ => hopen
  · exact hopen

/-- The invitation of a manager, or the answer of a call made before. -/
theorem pendingOrAgain_accepting {token : String} {found : Database → Option Accepted} {γ : Type}
    {k : OrganizationInvitation ⊕ Accepted → Op γ}
    (hk : ∀ i, i.inviterIsPlatformAdmin = false →
      (k (.inl i)).Preserves (Accepting (A.invitationHash token)))
    (hagain : ∀ answer, (k (.inr answer)).Preserves (Accepting (A.invitationHash token))) :
    ((pendingOrAgain A token found).bind k).Preserves (Accepting (A.invitationHash token)) := by
  intro w hw
  have hpending : (pendingOrAgain A token found).Ends w fun r w' =>
      Both (Accepting (A.invitationHash token)) w' ∧
        ∀ i, r = .ok (.inl i) → i.inviterIsPlatformAdmin = false := by
    refine ends_handle.mpr (ends_handle.mpr ((pendingInvitation_accepting token w hw).mono
      fun r w' hr => ?_))
    obtain ⟨hw', hmanager⟩ := hr
    cases r with
    | ok i =>
      refine ends_ret.mpr (ends_ret.mpr ⟨hw', fun j hj => ?_⟩)
      cases hj
      exact hmanager i rfl
    | error x =>
      refine ends_raise.mpr ?_
      dsimp only
      split
      · refine ends_handle.mpr ((answerAgain_preserves _ _ w' hw').mono fun r w'' hw'' => ?_)
        cases r with
        | ok answer => exact ends_ret.mpr ⟨hw'', fun _ h => by cases h⟩
        | error y => exact ends_raise.mpr ⟨hw'', fun _ h => by cases h⟩
      · exact ends_raise.mpr ⟨hw', fun _ h => by cases h⟩
  refine ends_handle.mpr (hpending.mono fun r w' hr => ?_)
  obtain ⟨hw', hmanager⟩ := hr
  cases r with
  | error x => exact ends_raise.mpr hw'
  | ok found =>
    cases found with
    | inl i => exact hk i (hmanager i rfl) w' hw'
    | inr answer => exact hagain answer w' hw'

theorem acceptNewUser_accepting (token password : String) (totpCode : Option String) :
    (acceptNewUser A token password totpCode).Preserves
      (Accepting (A.invitationHash token)) := by
  refine preserves_query_bind fun db hdb => ?_
  split
  · exact preserves_ret _
  · exact pendingOrAgain_accepting (fun i hmanager => acceptAsNewUser_accepting hmanager _ _ _)
      fun answer => preserves_ret _

/-- The second factor, after which the invitation is looked up again. -/
theorem checkStepUp_accepting {i : OrganizationInvitation} {token : String} {user : User}
    {totpCode : Option String} {γ : Type} {k : OrganizationInvitation → Op γ}
    (hmanager : i.inviterIsPlatformAdmin = false)
    (hk : ∀ i, i.inviterIsPlatformAdmin = false →
      (k i).Preserves (Accepting (A.invitationHash token))) :
    ((checkStepUp A i token user totpCode).bind k).Preserves
      (Accepting (A.invitationHash token)) := by
  intro w hw
  have hstepUp : (checkStepUp A i token user totpCode).Ends w fun r w' =>
      Both (Accepting (A.invitationHash token)) w' ∧
        ∀ i, r = .ok i → i.inviterIsPlatformAdmin = false := by
    unfold checkStepUp
    split
    · exact ends_raise.mpr ⟨hw, fun _ h => by cases h⟩
    have hwithin : (verifyUserTotpStepUp A user.id (totpCode.getD "")).Within False
        (Executing (Stmt.Settling [] 0)) := verifyUserTotpStepUp_settling _ _
    have hverify : (verifyUserTotpStepUp A user.id (totpCode.getD "")).Preserves
        (Accepting (A.invitationHash token)) := accepting_settling hwithin
    refine ends_handle.mpr ((hverify w hw).mono fun r w' hw' => ?_)
    cases r with
    | error x => exact ends_raise.mpr ⟨hw', fun _ h => by cases h⟩
    | ok verified =>
      dsimp only
      split
      · exact pendingInvitation_accepting token w' hw'
      · have hcount : ∀ current : OrganizationInvitation, (countAttempt A current (some user.id)
            "mfa_step_up_failed" "A valid authenticator code is required").Preserves
            (Accepting (A.invitationHash token)) := fun current =>
          accepting_settling (F := False)
            (countAttempt_settling (List.mem_singleton.mpr rfl) rfl rfl _ _ _)
        have hrest : ∀ (current : OrganizationInvitation) (w : World),
            Both (Accepting (A.invitationHash token)) w →
            ((countAttempt A current (some user.id) "mfa_step_up_failed"
              "A valid authenticator code is required").bind fun _ => ret i).Ends w fun r w' =>
              Both (Accepting (A.invitationHash token)) w' ∧
                ∀ i, r = .ok i → i.inviterIsPlatformAdmin = false := by
          intro current w hw
          refine ends_handle.mpr ((hcount current w hw).mono fun r w'' hw'' => ?_)
          cases r with
          | error x => exact ends_raise.mpr ⟨hw'', fun _ h => by cases h⟩
          | ok u =>
            refine ends_ret.mpr ⟨hw'', fun j hj => ?_⟩
            cases hj
            exact hmanager
        split
        · rw [bind_eq, refreshInvitation, bind_eq, bind_bind]
          refine ends_query_bind.mpr ?_
          cases w'.cur.organizationInvitations.find? (·.id = i.id) with
          | none => exact ends_raise.mpr ⟨hw', fun _ h => by cases h⟩
          | some current => exact hrest current w' hw'
        · exact hrest i w' hw'
  refine ends_handle.mpr (hstepUp.mono fun r w' hr => ?_)
  obtain ⟨hw', hi⟩ := hr
  cases r with
  | error x => exact ends_raise.mpr hw'
  | ok i => exact hk i (hi i rfl) w' hw'

theorem acceptAsMember_accepting {i : OrganizationInvitation}
    (hmanager : i.inviterIsPlatformAdmin = false) (token email : String) (user : User)
    (totpCode : Option String) :
    (acceptAsMember A i token email user totpCode).Preserves
      (Accepting (A.invitationHash token)) := by
  unfold acceptAsMember
  split
  · exact (accepting_logs _ false).bind fun _ => preserves_commitNow.bind fun _ =>
      preserves_raise _
  refine preserves_query_bind fun db hdb => ?_
  have hrest : ∀ i : OrganizationInvitation, i.inviterIsPlatformAdmin = false →
      (time.bind fun now => (activateInvitation A i user.id now).bind fun _ =>
        onClash (commitNow.bind fun _ => ret ⟨user.id, i.organizationId⟩)
          (raise unavailable) : Op Accepted).Preserves (Accepting (A.invitationHash token)) :=
    fun i hmanager => preserves_time.bind fun now =>
      (activateInvitation_accepting hmanager _ _).bind fun _ =>
        preserves_onClash (preserves_commitNow.bind fun _ => preserves_ret _) (preserves_raise _)
  split
  · exact checkStepUp_accepting hmanager hrest
  · exact hrest i hmanager

theorem acceptExistingUser_accepting (token : String) (user : User) (totpCode : Option String) :
    (acceptExistingUser A token user totpCode).Preserves (Accepting (A.invitationHash token)) := by
  unfold acceptExistingUser
  split
  · exact preserves_raise _
  refine preserves_query_bind fun db hdb => ?_
  split
  · exact preserves_ret _
  · exact pendingOrAgain_accepting (fun i hmanager => acceptAsMember_accepting hmanager _ _ _ _)
      fun answer => preserves_ret _

/-! ## Runs -/

/-- What managers do, and what comes of it. -/
inductive TenancyCall
  | manage (user : Claims) (organizationId : ℕ) (call : OrgCall)
  | acceptNewUser (token password : String) (totpCode : Option String)
  | acceptExistingUser (token : String) (user : User) (totpCode : Option String)
  | jitProvision (organizationId userId : ℕ)

/-- A call, without its answer. -/
def TenancyCall.op (A : AppEnv) : TenancyCall → Op Unit
  | manage user organizationId call => call.op A user organizationId
  | acceptNewUser token password totpCode => do
      let _ ← OmniAuth.acceptNewUser A token password totpCode
      return ()
  | acceptExistingUser token user totpCode => do
      let _ ← OmniAuth.acceptExistingUser A token user totpCode
      return ()
  | jitProvision organizationId userId => do
      let _ ← jitProvisionMembership organizationId userId
      return ()

/-- No platform admin has a hand in it: the caller is none, and neither is the inviter. -/
def TenancyCall.ByManager (A : AppEnv) (db : Database) : TenancyCall → Prop
  | manage user _ _ => manageAllOrgs ∉ user.permissions
  | acceptNewUser token _ _ | acceptExistingUser token _ _ =>
      ∀ i ∈ db.organizationInvitations, i.tokenHash = A.invitationHash token →
        i.inviterIsPlatformAdmin = false
  | jitProvision _ _ => True

/-- Calls one after another, each in a session of its own. -/
inductive TenancyRun (A : AppEnv) (db : Database) : Database → Prop
  | start : TenancyRun A db db
  | call {w w' : World} {r : Except Err Unit} (call : TenancyCall) (hrun : TenancyRun A db w.base)
      (hidle : w.cur = w.base) (hmanager : call.ByManager A w.base)
      (hexec : (call.op A).close.Exec w r w') : TenancyRun A db w'.base

/-- The invariant of a run. -/
def Database.KeyedContained (db : Database) : Prop := db.RoleIdsUnique ∧ db.Contained

theorem keyedContained_kept :
    KeptBy Database.KeyedContained user organizationId fun _ _ _ => True :=
  fun _ _ h hstep _ => ⟨hstep.roleIdsUnique h.1, h.2.step h.1 hstep⟩

theorem accepted_keyedContained {p : Op α} (hp : p.Preserves (Accepting tokenHash))
    (hidle : w.cur = w.base) (h : w.base.KeyedContained)
    (hinvited : ∀ i ∈ w.base.organizationInvitations, i.tokenHash = tokenHash →
      i.inviterIsPlatformAdmin = false) :
    p.Ends w fun _ => Both Database.KeyedContained := by
  have haccepting : Accepting tokenHash w.base := by
    refine ⟨h.1, h.2, fun t ht hhash => ?_⟩
    obtain ⟨i, hi, rfl⟩ := List.mem_map.mp ht
    exact hinvited i hi hhash
  refine (hp w ⟨haccepting, hidle ▸ haccepting⟩).mono fun r w' hw' => ?_
  exact ⟨⟨hw'.1.roleIdsUnique, hw'.1.contained⟩, hw'.2.roleIdsUnique, hw'.2.contained⟩

/-- **One call keeps it.** -/
theorem TenancyCall.contained (call : TenancyCall) (hidle : w.cur = w.base)
    (h : w.base.KeyedContained) (hmanager : call.ByManager A w.base) :
    (call.op A).Ends w fun _ => Both Database.KeyedContained := by
  have hw : Both Database.KeyedContained w := ⟨h, hidle ▸ h⟩
  cases call with
  | manage user organizationId call =>
    refine keyedContained_kept.call hmanager call hw ?_
    cases call with
    | updateRole roleId permissions description => exact fun _ _ _ => trivial
    | _ => trivial
  | acceptNewUser token password totpCode =>
    exact accepted_keyedContained ((acceptNewUser_accepting token password totpCode).bind
      fun _ => preserves_ret _) hidle h hmanager
  | acceptExistingUser token user totpCode =>
    exact accepted_keyedContained ((acceptExistingUser_accepting token user totpCode).bind
      fun _ => preserves_ret _) hidle h hmanager
  | jitProvision organizationId userId =>
    have hkept : KeptBy Database.KeyedContained nobody organizationId fun _ _ _ => True :=
      keyedContained_kept
    refine Preserves.bind (preserves_query_bind fun db hdb => ?_) (fun _ => preserves_ret _) w hw
    split
    · exact preserves_ret _
    · exact hkept.joins _ _ (fun hself => by cases hself) _ _ _ _

/-- **Permissions of the platform stay with the platform.** -/
theorem global_permissions_contained (A : AppEnv) {db db' : Database} (hids : db.RoleIdsUnique)
    (h : db.Contained) (hrun : TenancyRun A db db') :
    ∀ m ∈ db'.memberships, ∀ role ∈ db'.rolesOf m.roleIds, ∀ p ∈ role.permissions,
      permissionScope p ≠ some .global := by
  have hkept : db'.KeyedContained := by
    induction hrun with
    | start => exact ⟨hids, h⟩
    | call call hrun hidle hmanager hexec ih =>
      have hends : (call.op A).close.Ends _ fun _ w' => w'.base.KeyedContained :=
        ends_close.mpr ((call.contained hidle ih hmanager).mono fun _ _ hw' => hw'.1)
      exact hends _ _ hexec
  exact hkept.2.assigned

theorem staffed_contained : (staffed (some 5)).Contained where
  assigned := by decide
  owned := by decide
  base := by
    intro role hrole
    have hnone : getRoleByName (staffed (some 5)) orgMemberRole none = none := by decide
    rw [hnone] at hrole
    cases hrole

theorem manager_noAdmin : manageAllOrgs ∉ manager.permissions := by decide

/-- A manager makes a role. -/
def createsReader : TenancyCall :=
  .manage manager 5 (.createRole "reader" ["dataset.read"] none)

/-- The manager assigns it, and another one. -/
def assignsReader : TenancyCall := .manage manager 5 (.assignMemberRoles 2 ["reader", "org_admin"])

def readerMade : World :=
  ((createsReader.op .symbolic).close.run ⟨staffed (some 5), staffed (some 5), 0, 10, []⟩).2

def readerAssigned : World := ((assignsReader.op .symbolic).close.run readerMade).2

/-- The member has both. -/
theorem reader_contained : readerAssigned.base.memberRoleIds 5 2 = [10, 3] ∧
    ∀ m ∈ readerAssigned.base.memberships, ∀ role ∈ readerAssigned.base.rolesOf m.roleIds,
      ∀ p ∈ role.permissions, permissionScope p ≠ some .global := by
  have hmade : TenancyRun .symbolic (staffed (some 5)) readerMade.base :=
    .call (w := ⟨staffed (some 5), staffed (some 5), 0, 10, []⟩) createsReader .start rfl
      manager_noAdmin (exec_run _ _)
  exact ⟨by decide, global_permissions_contained .symbolic (by decide) staffed_contained
    (.call assignsReader hmade rfl manager_noAdmin (exec_run _ _))⟩

end OmniAuth
