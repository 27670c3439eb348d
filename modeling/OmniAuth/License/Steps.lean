import OmniAuth.License.Manual
import OmniAuth.Session.Steps
import OmniAuth.Txn.Failing
import OmniAuth.Txn.Triple

/-!
# The steps of an issuance

Of the statements an issuance executes, those on roles, memberships and the audit trail
leave the licences and the issuance requests alone. What is left is written out in `issue`
itself, one statement at a time.
-/

namespace OmniAuth

open Txn Prog

variable {A : AppEnv} {F : Prop} {α : Type}

/-- Statements that leave the licences and the issuance requests alone. -/
def Stmt.BesideLicenses : Stmt → Prop
  | .account (.useLicense _ _ _) | .account (.bindMachine _ _) | .account (.insertLicense _)
  | .account (.revokeLicense _ _ _) | .account (.renewLicense _ _ _)
  | .account (.insertIssuanceRequest _) | .account (.setIssuanceLicense _ _) => False
  | _ => True

/-- The two tables. -/
def Database.issuance (db : Database) : List LicenseKey × List LicenseIssuanceRequest :=
  (db.licenseKeys, db.licenseIssuanceRequests)

theorem Stmt.BesideLicenses.issuance {stmt : Stmt} {seen : Database}
    {eff : Effect Database RowKey} (hb : stmt.BesideLicenses) (h : denote stmt seen = .ok eff)
    (db : Database) : (eff.delta db).issuance = db.issuance := by
  cases stmt with
  | credential stmt => exact CredentialStmt.keeps _ (fun _ => rfl) h db
  | org stmt => exact OrgStmt.keeps _ (fun _ => rfl) h db
  | account stmt =>
    cases stmt <;> first | exact hb.elim | skip
    all_goals
      simp only [denote, AccountStmt.denote] at h
      try split at h
      all_goals cases h
      all_goals rfl
  | mfa stmt =>
    cases stmt
    all_goals
      simp only [denote, MfaStmt.denote] at h
      try split at h
      all_goals cases h
      all_goals rfl
  | _ =>
    simp only [denote] at h
    try split at h
    all_goals cases h
    all_goals rfl

/-- Inside an issuance, beside the licences. -/
abbrev Aside : Label AuthSig → Prop := Inside Stmt.BesideLicenses

theorem aside_query (f : Database → α) : (query f : Op α).Within F Aside :=
  inside_of_reading (query_within f)

theorem aside_time : (time : Op ℕ).Within F Aside := inside_of_reading time_within

theorem aside_draw : (draw : Op ℕ).Within F Aside := inside_of_reading draw_within

theorem aside_lock {stmt : Stmt} {f : Database → α} (h : stmt.BesideLicenses) :
    (returning stmt f : Op α).Within F Aside :=
  within_returning (fun _ _ => h) (fun _ _ => h) fun _ _ => trivial

theorem aside_logEvent (event : AuditEvent) : (logEvent event false).Within F Aside :=
  logEvent_inside event fun _ => trivial

theorem getOrCreateRole_aside (name : String) (permissionNames : List String) :
    (getOrCreateRole name permissionNames).Within F Aside := by
  unfold getOrCreateRole
  refine (aside_query _).bind fun role => ?_
  cases role with
  | some role => trivial
  | none => exact aside_draw.bind fun id => Within.bind (execute_inside trivial) fun _ => trivial

theorem lockOwner_aside (email : String) : (lockOwner A email).Within F Aside := by
  unfold lockOwner
  refine Within.bind (aside_lock trivial) fun found => ?_
  cases found with
  | none => trivial
  | some user => exact aside_lock trivial

theorem lockHolder_aside (email : String) (organizationId : ℕ) :
    (lockHolder A email organizationId).Within F Aside := by
  unfold lockHolder
  refine (lockOwner_aside email).bind fun owner => ?_
  cases owner with
  | none => trivial
  | some owner =>
    show (if owner.status ≠ .active then _ else _ : Op _).Within F Aside
    split
    · trivial
    · refine Within.bind (aside_lock trivial) fun membership => ?_
      cases membership <;> trivial

theorem personaRole_aside (persona : Persona) : (personaRole persona).Within F Aside := by
  cases persona with
  | developer => exact getOrCreateRole_aside _ _
  | applicationUser => exact getOrCreateRole_aside _ _
  | other value => trivial

theorem personaRoles_aside (persona : Persona) (owner : User)
    (membership : OrganizationMembership) :
    (personaRoles persona owner membership).Within F Aside := by
  unfold personaRoles
  refine (personaRole_aside persona).bind fun _ => ?_
  exact (getOrCreateRole_aside _ _).bind fun _ => aside_query _

theorem addUserRole_aside (userId : ℕ) (roleIds : List ℕ) (role : Role) (actorUserId : ℕ) :
    (addUserRole userId roleIds role actorUserId).Within F Aside := by
  unfold addUserRole
  split
  · trivial
  · exact Within.bind (execute_inside trivial) fun _ => aside_logEvent _

theorem addMemberRole_aside (membership : OrganizationMembership) (roleIds : List ℕ) (role : Role)
    (actorUserId : ℕ) : (addMemberRole membership roleIds role actorUserId).Within F Aside := by
  unfold addMemberRole
  split
  · trivial
  · exact Within.bind (execute_inside trivial) fun _ => aside_logEvent _

theorem removeMemberRole_aside (membership : OrganizationMembership) (roleIds : List ℕ)
    (role : Role) (actorUserId : ℕ) :
    (removeMemberRole membership roleIds role actorUserId).Within F Aside := by
  unfold removeMemberRole
  split
  · exact Within.bind (execute_inside trivial) fun _ => aside_logEvent _
  · trivial

theorem removeOpposite_aside (membership : OrganizationMembership) (roles : PersonaRoles)
    (actorUserId : ℕ) : (removeOpposite membership roles actorUserId).Within F Aside := by
  unfold removeOpposite
  cases roles.opposite with
  | none => trivial
  | some role => exact removeMemberRole_aside _ _ _ _

theorem assignPersona_aside (owner : User) (membership : OrganizationMembership)
    (roles : PersonaRoles) (actorUserId : ℕ) :
    (assignPersona owner membership roles actorUserId).Within F Aside := by
  unfold assignPersona
  refine (addUserRole_aside _ _ _ _).bind fun _ => ?_
  refine (removeOpposite_aside _ _ _).bind fun _ => ?_
  exact addMemberRole_aside _ _ _ _

theorem changeRoles_aside (owner : User) (membership : OrganizationMembership)
    (roles : PersonaRoles) (actorUserId : ℕ) :
    (changeRoles owner membership roles actorUserId).Within F Aside := by
  unfold changeRoles
  split
  · exact assignPersona_aside _ _ _ _
  · trivial

theorem checkRequest_aside (r : IssueRequest) : (checkRequest A r).Within F Aside := by
  unfold checkRequest requireValidity
  refine Within.bind ?_ fun _ => ?_ <;> repeat' split
  all_goals trivial

theorem refreshLicense_aside (id : ℕ) : (refreshLicense id).Within F Aside := by
  unfold refreshLicense
  refine (aside_query _).bind fun license => ?_
  cases license <;> trivial

theorem replayIssuance_aside (r : IssueRequest) (existing : LicenseIssuanceRequest) :
    (replayIssuance A r existing).Within F Aside := by
  unfold replayIssuance
  split
  · trivial
  cases existing.licenseId with
  | none => trivial
  | some licenseId =>
    refine (aside_query _).bind fun license => ?_
    cases license <;> trivial

theorem generateKey_aside (attempts : ℕ) : (generateKey A attempts).Within F Aside := by
  induction attempts with
  | zero =>
    unfold generateKey
    refine aside_draw.bind fun n => ?_
    split <;> trivial
  | succ attempts ih =>
    unfold generateKey
    refine aside_draw.bind fun n => ?_
    split
    · trivial
    · refine (aside_query _).bind fun taken => ?_
      split
      · exact ih
      · trivial

/-- **Beside the licences, alone.** -/
theorem aside_ends {w : World} {o : Op α} (h : o.Within False Aside) :
    o.Ends w fun _ w' =>
      w'.base = w.base ∧ w'.cur.issuance = w.cur.issuance ∧ w.now ≤ w'.now :=
  h.ends (R := fun s s' : Database => s'.issuance = s.issuance) (fun _ => rfl)
    (fun hab hbc => hbc.trans hab) (fun hb hden => Stmt.BesideLicenses.issuance hb hden _) id id

theorem ends_aside {β : Type} {w : World} {o : Op α} {f : α → Op β}
    {post : Except Err β → World → Prop} (h : o.Within False Aside)
    (hf : ∀ a w', w'.base = w.base → w'.cur.issuance = w.cur.issuance → w.now ≤ w'.now →
      (f a).Ends w' post)
    (hx : ∀ x w', w'.base = w.base → w.now ≤ w'.now → post (.error x) w') :
    (Prog.bind o f).Ends w post := by
  refine ends_handle.mpr ((aside_ends h).mono ?_)
  rintro r w' ⟨hbase, hcur, hnow⟩
  cases r with
  | ok a => exact hf a w' hbase hcur hnow
  | error x => exact ends_raise.mpr (hx x w' hbase hnow)

end OmniAuth
