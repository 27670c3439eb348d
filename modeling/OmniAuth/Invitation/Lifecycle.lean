import OmniAuth.Invitation.Acceptance
import OmniAuth.Invitation.Edits
import OmniAuth.Invitation.Requests
import OmniAuth.Login.Entries

/-!
# An invitation's life among others

Any number of invitation requests at once, whatever fails. An acceptance writes only under the
lock of a row it has read pending, and the lock is kept until it commits. Revoking and listing
read without a lock and may overwrite what was accepted in between, but no request makes an
invitation pending again, and none changes who accepted it.
-/

namespace OmniAuth

open Txn Prog

variable {A : AppEnv} {F : Prop} {α β : Type}

/-! ## The discipline -/

/-- What a request that holds a pending invitation, or none, may execute. -/
def Stmt.Admitted (A : AppEnv) (held : Option ℕ) : Stmt → Prop
  | .org (.insertInvitation row) => row.Keyed A
  | .org (.acceptInvitation id _ _) => held = some id
  | _ => True

/-- Statements that accept nothing. -/
def Stmt.AcceptsNothing (A : AppEnv) (stmt : Stmt) : Prop := stmt.Admitted A none

/-- The invitation a locking read finds pending. -/
def Database.pendingId (db : Database) (tokenHash : ℕ) : Option ℕ :=
  ((db.invitationByHash tokenHash).filter (·.status = .pending)).map (·.id)

/-- The pending invitation whose row a request has locked, after a statement. -/
def Stmt.holds (stmt : Stmt) (seen : Database) (held : Option ℕ) : Option ℕ :=
  match stmt with
  | .org (.lockInvitation tokenHash) => seen.pendingId tokenHash
  | _ => held

/-- **The discipline of invitations.** Its state is the invitation that was read pending and is
locked. -/
def admitting (A : AppEnv) : Discipline AuthSig (Option ℕ) where
  next q
    | .wrote stmt seen _ => stmt.holds seen q
    | .committed | .commitLost _ | .rolledBack | .commitFailed _ | .crashed _ => none
    | _ => q
  sees _ _ := True
  may q
    | .wrote stmt _ _ => stmt.Admitted A q
    | _ => True

/-- Statements that accept nothing and look for no invitation. -/
def Stmt.Quiet (A : AppEnv) (stmt : Stmt) : Prop :=
  stmt.AcceptsNothing A ∧ ∀ h, stmt ≠ .org (.lockInvitation h)

theorem Stmt.AcceptsNothing.admitted {stmt : Stmt} (h : stmt.AcceptsNothing A) (q : Option ℕ) :
    stmt.Admitted A q := by
  cases stmt with
  | org stmt =>
    cases stmt with
    | acceptInvitation id t userId => cases h
    | insertInvitation row => exact h
    | _ => trivial
  | _ => trivial

theorem Stmt.Settling.quiet {stmt : Stmt} {known : List OrganizationInvitation} {tokenHash : ℕ}
    (h : stmt.Settling known tokenHash) : stmt.Quiet A := by
  refine ⟨?_, h.2⟩
  cases stmt with
  | org stmt => cases stmt <;> first | trivial | exact h.1.elim
  | _ => trivial

theorem holds_of_quiet {stmt : Stmt} {seen : Database} {q : Option ℕ}
    (h : ∀ h, stmt ≠ .org (.lockInvitation h)) : stmt.holds seen q = q := by
  unfold Stmt.holds
  split
  · exact absurd rfl (h _)
  · rfl

/-- A request that accepts nothing. -/
theorem nothing_follows {o : Op α} (h : o.Within F (Executing (Stmt.AcceptsNothing A)))
    (q : Option ℕ) : o.Follows (admitting A) F (Leads fun _ _ => True) q := by
  refine Follows.mono (h.follows (T := fun _ => True) (fun q ℓ _ hℓ => ?_)
    (fun _ _ _ _ => trivial) trivial) fun r _ _ => ?_
  · cases ℓ with
    | wrote stmt seen eff => exact Stmt.AcceptsNothing.admitted hℓ q
    | _ => trivial
  · cases r <;> trivial

/-- Inside the transaction a request goes on holding what it holds. -/
theorem quiet_follows {o : Op α} (h : o.Within F (Inside (Stmt.Quiet A))) (q : Option ℕ) :
    o.Follows (admitting A) F (Leads fun _ q' => q' = q) q := by
  refine Follows.mono (h.follows (T := fun q' => q' = q) (fun q' ℓ _ hℓ => ?_)
    (fun q' ℓ hq hℓ => ?_) rfl) fun r q' hq => ?_
  · cases ℓ with
    | wrote stmt seen eff => exact hℓ.1.admitted q'
    | _ => trivial
  · cases ℓ with
    | wrote stmt seen eff => exact (holds_of_quiet hℓ.2).trans hq
    | committed => exact hℓ.elim
    | rolledBack => exact hℓ.elim
    | commitFailed x => exact hℓ.elim
    | commitLost x => exact hℓ.elim
    | crashed x => exact hℓ.elim
    | _ => exact hq
  · cases r with
    | ok a => exact hq
    | error x => trivial

/-- What accepts nothing, whatever it holds, and goes on. -/
theorem nothing_then {o : Op α} {k : α → Op β} {M : β → Option ℕ → Prop}
    (h : o.Within F (Executing (Stmt.AcceptsNothing A)))
    (hk : ∀ a q, (k a).Follows (admitting A) F (Leads M) q) (q : Option ℕ) :
    (o.bind k).Follows (admitting A) F (Leads M) q :=
  Leads.bind (nothing_follows h q) fun a q _ => hk a q

/-- What is inside the transaction, and goes on with what is held. -/
theorem quiet_then {o : Op α} {k : α → Op β} {M : β → Option ℕ → Prop} {q : Option ℕ}
    (h : o.Within F (Inside (Stmt.Quiet A)))
    (hk : ∀ a, (k a).Follows (admitting A) F (Leads M) q) :
    (o.bind k).Follows (admitting A) F (Leads M) q := by
  refine Leads.bind (quiet_follows h q) fun a q' hq => ?_
  subst hq
  exact hk a

/-! ## Requests that accept nothing -/

theorem logEvent_nothing (event : AuditEvent) (commit : Bool) :
    (logEvent event commit).Within F (Executing (Stmt.AcceptsNothing A)) :=
  logEvent_executing (fun _ => trivial) commit

theorem execute_nothing {stmt : Stmt} (h : stmt.AcceptsNothing A) :
    (execute stmt : Op Unit).Within F (Executing (Stmt.AcceptsNothing A)) := execute_executing h

theorem returning_nothing {f : Database → α} {stmt : OrgStmt}
    (h : (Stmt.org stmt).AcceptsNothing A) :
    (returning (S := AuthSig) (.org stmt) f).Within F (Executing (Stmt.AcceptsNothing A)) :=
  within_returning (fun _ _ => h) (fun _ _ => h) fun _ _ => trivial

theorem expireInvitation_nothing (i : OrganizationInvitation) (actorUserId : Option ℕ) :
    (expireInvitation i actorUserId).Within F (Executing (Stmt.AcceptsNothing A)) :=
  Within.bind (execute_nothing trivial) fun _ => logEvent_nothing _ _

theorem expireOverdue_nothing (actorUserId : ℕ) (rows : List OrganizationInvitation) :
    (expireOverdue actorUserId rows).Within F (Executing (Stmt.AcceptsNothing A)) := by
  induction rows with
  | nil => trivial
  | cons row rest ih =>
    refine time_executing.bind fun now => ?_
    split
    · exact (expireInvitation_nothing _ _).bind fun _ => ih.bind fun _ => trivial
    · exact ih

theorem requireInvitationManageOrg_nothing (user : Claims) (organizationId : ℕ) :
    (requireInvitationManageOrg user organizationId).Within F
      (Executing (Stmt.AcceptsNothing A)) := by
  refine (query_executing _).bind fun answer => ?_
  split
  · trivial
  · refine (query_executing _).bind fun organization => (logEvent_nothing _ _).bind fun _ => ?_
    split <;> trivial
  · trivial

theorem getOrganizationInvitations_nothing (user : Claims) (organizationId : ℕ) :
    (getOrganizationInvitations user organizationId).Within F
      (Executing (Stmt.AcceptsNothing A)) := by
  refine (requireInvitationManageOrg_nothing _ _).bind fun _ => ?_
  split
  · refine (returning_nothing (by trivial)).bind fun rows => ?_
    refine (expireOverdue_nothing _ _).bind fun changed => ?_
    dsimp only
    split
    · exact commitNow_executing.bind fun _ => query_executing _
    · exact query_executing _
  · trivial

theorem revokeInvitation_nothing (i : OrganizationInvitation) (actorUserId : ℕ) :
    (revokeInvitation i actorUserId).Within F (Executing (Stmt.AcceptsNothing A)) := by
  unfold revokeInvitation
  split
  · trivial
  refine time_executing.bind fun now => Within.bind (execute_nothing trivial) fun _ => ?_
  exact (logEvent_nothing _ _).bind fun _ => commitNow_executing

theorem revokeOrganizationInvitation_nothing (user : Claims) (organizationId invitationId : ℕ) :
    (revokeOrganizationInvitation user organizationId invitationId).Within F
      (Executing (Stmt.AcceptsNothing A)) := by
  refine (requireInvitationManageOrg_nothing _ _).bind fun _ => ?_
  refine (query_executing _).bind fun invitation => ?_
  split
  · trivial
  · refine (query_executing _).bind fun actor => ?_
    split
    · trivial
    · exact revokeInvitation_nothing _ _
  · trivial

theorem previewInvitation_nothing (token : String) :
    (previewInvitation A token).Within F (Executing (Stmt.AcceptsNothing A)) := by
  refine Within.bind ?_ fun invitation => (query_executing _).bind fun existing =>
    (query_executing _).bind fun mfa => trivial
  unfold pendingUnlocked
  split
  · trivial
  refine (query_executing _).bind fun invitation => ?_
  split
  · trivial
  split
  · trivial
  refine time_executing.bind fun now => ?_
  split
  · exact (expireInvitation_nothing _ _).bind fun _ => commitNow_executing.bind fun _ => trivial
  · refine (query_executing _).bind fun active => ?_
    split <;> trivial

theorem setExpired_nothing (i : OrganizationInvitation) :
    (setExpired i).Within F (Executing (Stmt.AcceptsNothing A)) :=
  Within.bind (execute_nothing trivial) fun _ => logEvent_nothing _ _

theorem pendingInvitation_nothing (token : String) :
    (pendingInvitation A token).Within F (Executing (Stmt.AcceptsNothing A)) := by
  unfold pendingInvitation
  split
  · trivial
  refine (returning_nothing (by trivial)).bind fun invitation => ?_
  split
  · trivial
  split
  · trivial
  refine time_executing.bind fun now => ?_
  split
  · exact (setExpired_nothing _).bind fun _ => commitNow_executing.bind fun _ => trivial
  · refine (query_executing _).bind fun active => ?_
    split <;> trivial

theorem startInvitationMfa_nothing (configured : Bool) (token : String) :
    (startInvitationMfa A configured token).Within F (Executing (Stmt.AcceptsNothing A)) := by
  refine (pendingInvitation_nothing _).bind fun invitation => ?_
  refine (query_executing _).bind fun required => ?_
  split
  · trivial
  split
  · trivial
  split
  · split <;> trivial
  · refine draw_executing.bind fun n => ?_
    split
    · trivial
    refine time_executing.bind fun now => Within.bind (execute_nothing trivial) fun _ => ?_
    exact commitNow_executing.bind fun _ => trivial

theorem resolveRolesForOrg_nothing (organizationId : ℕ) (isAdmin : Bool)
    (actorUserId targetUserId : Option ℕ) (names : List String) :
    (resolveRolesForOrg A organizationId isAdmin actorUserId targetUserId names).Within F
      (Executing (Stmt.AcceptsNothing A)) := by
  induction names with
  | nil => trivial
  | cons name rest ih =>
    refine (query_executing _).bind fun role => ?_
    split
    · trivial
    dsimp only
    split
    · exact (logEvent_nothing _ _).bind fun _ => trivial
    · exact ih.bind fun _ => trivial

theorem clearPending_nothing (organizationId actorUserId now : ℕ) (email : String) :
    (clearPending A organizationId actorUserId now email).Within F
      (Executing (Stmt.AcceptsNothing A)) := by
  refine (returning_nothing (by trivial)).bind fun existing => ?_
  split
  · trivial
  split
  · trivial
  exact Within.bind (execute_nothing trivial) fun _ => logEvent_nothing _ _

/-- A new invitation holds the key of its organization and address. -/
theorem createInvitation_nothing (timestamp : ℕ → String) (organizationId actorUserId : ℕ)
    (email : String) (roleNames : List String) (isAdmin mailed : Bool) :
    (createInvitation A timestamp organizationId actorUserId email roleNames isAdmin
      mailed).Within F (Executing (Stmt.AcceptsNothing A)) := by
  refine Within.bind ?_ fun _ => ?_
  · unfold checkInvitation
    repeat' first | trivial | split
    refine (query_executing _).bind fun member => ?_
    split <;> trivial
  refine Within.bind ?_ fun role => ?_
  · refine (query_executing _).bind fun role => ?_
    split
    · trivial
    · exact draw_executing.bind fun n => Within.bind (execute_nothing trivial) fun _ => trivial
  generalize (if roleNames = [] then [orgMemberRole] else roleNames) = names
  split
  · trivial
  refine Within.bind (Within.orElse (resolveRolesForOrg_nothing _ _ _ _ _) fun x => ?_)
    fun roles => ?_
  · split <;> trivial
  refine time_executing.bind fun now => (clearPending_nothing _ _ _ _).bind fun _ => ?_
  refine draw_executing.bind fun token => draw_executing.bind fun id => ?_
  refine Within.orElse ?_ fun x => ?_
  · refine Within.bind ?_ fun _ => ?_
    · exact execute_nothing fun _ => rfl
    split
    · exact (logEvent_nothing _ _).bind fun _ => commitNow_executing.bind fun _ => trivial
    · exact ⟨trivial, trivial⟩
  · split
    · exact ⟨trivial, trivial⟩
    · trivial

theorem createOrganizationInvitation_nothing (timestamp : ℕ → String) (user : Claims)
    (organizationId : ℕ) (email : String) (roles : List String) (mailed : Bool) :
    (createOrganizationInvitation A timestamp user organizationId email roles mailed).Within F
      (Executing (Stmt.AcceptsNothing A)) := by
  refine (requireInvitationManageOrg_nothing _ _).bind fun _ => ?_
  split
  · refine (query_executing _).bind fun actor => ?_
    split
    · trivial
    · exact createInvitation_nothing _ _ _ _ _ _ _
  · trivial

/-! ## Acceptances -/

/-- **The pending invitation** is read under a lock. -/
theorem pendingInvitation_holds (token : String) (q : Option ℕ) :
    (pendingInvitation A token).Follows (admitting A) F (Leads fun i q => q = some i.id) q := by
  unfold pendingInvitation
  split
  · trivial
  refine follows_returning_bind.mpr ⟨fun seen eff _ _ => ⟨trivial, ?_⟩,
    fun _ _ _ _ => ⟨trivial, trivial⟩, fun _ _ => trivial⟩
  cases hfound : seen.invitationByHash (A.invitationHash token) with
  | none => trivial
  | some i =>
    show (ite _ _ _ : Op OrganizationInvitation).Follows _ _ _ _
    split
    · trivial
    rename_i hpending
    have hheld : (Stmt.org (.lockInvitation (A.invitationHash token))).holds seen q =
        some i.id := by
      show seen.pendingId _ = _
      unfold Database.pendingId
      rw [hfound, Option.filter_some, if_pos (decide_eq_true (not_not.mp hpending))]
      rfl
    refine follows_time_bind.mpr fun now _ => ?_
    split
    · exact nothing_then (setExpired_nothing i)
        (fun _ => nothing_then commitNow_executing fun _ _ => by trivial) _
    · refine follows_query_bind.mpr ⟨fun v _ => ⟨trivial, ?_⟩, fun _ _ => trivial⟩
      split
      · exact hheld
      · trivial

theorem answerAgain_nothing (found : Database → Option Accepted) (x : Err) :
    (answerAgain found x).Within F (Executing (Stmt.AcceptsNothing A)) := by
  refine (query_executing _).bind fun before => ?_
  split <;> trivial

theorem pendingOrAgain_holds (token : String) (found : Database → Option Accepted)
    (q : Option ℕ) :
    (pendingOrAgain A token found).Follows (admitting A) F
      (Leads fun answer q => ∀ i, answer = .inl i → q = some i.id) q := by
  refine Follows.orElse (M := fun _ _ => True) ?_ fun x q _ => ?_
  · refine (pendingInvitation_holds token q).handle fun r q hr => ?_
    cases r with
    | error x => trivial
    | ok i =>
      rintro i ⟨⟩
      exact hr
  · split
    · refine nothing_then (answerAgain_nothing _ _) (fun answer q => ?_) q
      rintro i ⟨⟩
    · trivial

theorem refreshInvitation_nothing (id : ℕ) :
    (refreshInvitation id).Within F (Executing (Stmt.AcceptsNothing A)) := by
  refine (query_executing _).bind fun found => ?_
  cases found <;> trivial

/-- A wrong code ends the request. -/
theorem countAttempt_raises {M : Unit → Option ℕ → Prop} (i : OrganizationInvitation)
    (actorUserId : Option ℕ) (reason message : String) (q : Option ℕ) :
    (countAttempt A i actorUserId reason message).Follows (admitting A) F (Leads M) q := by
  refine nothing_then (execute_nothing (by trivial)) (fun _ => ?_) q
  refine nothing_then (logEvent_nothing _ _) fun _ q => ?_
  have hraise : ∀ q, ((commitNow : Op Unit).bind fun _ =>
      (invitationError "mfa_invalid" message 400 : Op Unit)).Follows (admitting A) F (Leads M) q :=
    nothing_then commitNow_executing fun _ _ => trivial
  split
  · exact nothing_then time_executing
      (fun _ => nothing_then (execute_nothing (by trivial)) fun _ => hraise) q
  · exact hraise q

/-- The second factor of a new user keeps the lock. -/
theorem checkSetupCode_holds (i : OrganizationInvitation) (totpCode : Option String)
    (q : Option ℕ) :
    (checkSetupCode A i totpCode).Follows (admitting A) F (Leads fun _ q' => q' = q) q := by
  unfold checkSetupCode
  split
  · split
    · trivial
    refine quiet_then ?_ fun verified => ?_
    · unfold verifyTotpCode
      exact inside_of_reading ((totpMatchedStep_within _ _).bind fun _ => trivial)
    split
    · rfl
    · exact countAttempt_raises i none _ _ q
  · trivial

/-- The step-up of a member commits, and takes the lock again. -/
theorem checkStepUp_holds (i : OrganizationInvitation) (token : String) (user : User)
    (totpCode : Option String) (q : Option ℕ) :
    (checkStepUp A i token user totpCode).Follows (admitting A) F
      (Leads fun i q => q = some i.id) q := by
  unfold checkStepUp
  split
  · trivial
  refine nothing_then ?_ (fun verified q => ?_) q
  · have hsettling : (verifyUserTotpStepUp A user.id (totpCode.getD "")).Within F
        (Executing (Stmt.Settling [] 0)) := verifyUserTotpStepUp_settling _ _
    exact executing_mono hsettling fun stmt h => h.quiet.1
  split
  · exact pendingInvitation_holds token q
  · have hcount : ∀ current q, ((countAttempt A current (some user.id) "mfa_step_up_failed"
        "A valid authenticator code is required").bind fun _ => ret i).Follows (admitting A) F
        (Leads fun i q => q = some i.id) q := fun current q =>
      Leads.bind (countAttempt_raises (M := fun _ _ => False) current _ _ _ q) fun _ _ h => h.elim
    split
    · exact nothing_then (refreshInvitation_nothing i.id) hcount q
    · exact hcount i q

/-- Roles are resolved inside the transaction, unless one of them is refused. -/
theorem resolveRolesForOrg_holds (organizationId : ℕ) (isAdmin : Bool)
    (actorUserId targetUserId : Option ℕ) (names : List String) (q : Option ℕ) :
    (resolveRolesForOrg A organizationId isAdmin actorUserId targetUserId names).Follows
      (admitting A) F (Leads fun _ q' => q' = q) q := by
  induction names with
  | nil => rfl
  | cons name rest ih =>
    refine follows_query_bind.mpr ⟨fun v _ => ⟨trivial, ?_⟩, fun _ _ => trivial⟩
    split
    · trivial
    dsimp only
    split
    · exact nothing_then (logEvent_nothing _ _) (fun _ _ => by trivial) q
    · refine Leads.bind ih fun roles q' hq => ?_
      exact hq

theorem execute_unaccepting {stmt : Stmt} (h : stmt.Quiet A) :
    (execute stmt : Op Unit).Within F (Inside (Stmt.Quiet A)) := execute_inside h

theorem logEvent_unaccepting (event : AuditEvent) :
    (logEvent event false).Within F (Inside (Stmt.Quiet A)) :=
  logEvent_inside event fun _ => ⟨by trivial, by rintro _ ⟨⟩⟩

theorem activateMembership_holds (i : OrganizationInvitation) (userId now : ℕ) (q : Option ℕ) :
    (activateMembership A i userId now).Follows (admitting A) F (Leads fun _ q' => q' = q) q := by
  refine quiet_then ?_ fun existing => ?_
  · exact within_returning (fun _ _ => ⟨by trivial, by rintro _ ⟨⟩⟩) (fun _ _ => ⟨by trivial, by rintro _ ⟨⟩⟩)
      fun _ _ => trivial
  split
  · trivial
  refine Leads.bind (resolveRolesForOrg_holds _ _ _ _ _ q) fun roles q' hq => ?_
  subst hq
  split
  · exact quiet_follows (execute_unaccepting ⟨by trivial, by rintro _ ⟨⟩⟩) _
  · exact quiet_follows
      (Within.bind (within_draw fun _ => trivial) fun id => execute_unaccepting ⟨by trivial, by rintro _ ⟨⟩⟩) _

/-- **Accepting.** It is the invitation the request holds. -/
theorem activateInvitation_follows_admitting (i : OrganizationInvitation) (userId now : ℕ) :
    (activateInvitation A i userId now).Follows (admitting A) F (Leads fun _ _ => True)
      (some i.id) := by
  refine Leads.bind (activateMembership_holds i userId now _) fun _ q hq => ?_
  subst hq
  refine follows_returning_bind.mpr ⟨fun seen eff _ _ => ⟨rfl, ?_⟩,
    fun _ _ _ _ => ⟨trivial, trivial⟩, fun _ _ => trivial⟩
  exact nothing_follows ((logEvent_nothing _ _).bind fun _ => logEvent_nothing _ _) _

theorem assignDefaultRole_quiet (user : User) :
    (assignDefaultRole user).Within F (Inside (Stmt.Quiet A)) := by
  refine Within.bind ?_ fun role => ?_
  · refine (within_query (fun _ => trivial) fun _ _ => trivial).bind fun role => ?_
    split
    · trivial
    · refine (within_draw fun _ => trivial).bind fun n => ?_
      exact Within.bind (execute_unaccepting ⟨by trivial, by rintro _ ⟨⟩⟩) fun _ => trivial
  · split
    · trivial
    · exact execute_unaccepting ⟨by trivial, by rintro _ ⟨⟩⟩

theorem addSetupDevice_quiet (i : OrganizationInvitation) (userId now : ℕ) :
    (addSetupDevice i userId now).Within F (Inside (Stmt.Quiet A)) := by
  refine (within_draw fun _ => trivial).bind fun deviceId => ?_
  refine Within.bind (execute_unaccepting ⟨by trivial, by rintro _ ⟨⟩⟩) fun _ => ?_
  refine Within.bind (execute_unaccepting ⟨by trivial, by rintro _ ⟨⟩⟩) fun _ => ?_
  exact (logEvent_unaccepting _).bind fun _ => logEvent_unaccepting _

/-- What answers a clash accepts nothing. -/
theorem onClash_follows_admitting {p h : Op α} {M : α → Option ℕ → Prop} {q : Option ℕ}
    (hp : p.Follows (admitting A) F (Leads M) q)
    (hh : ∀ q, h.Follows (admitting A) F (Leads M) q) :
    (onClash p h).Follows (admitting A) F (Leads M) q := by
  refine Follows.orElse (M := fun _ _ => True) (hp.mono fun r q hr => ?_) fun x q _ => ?_
  · cases r with
    | ok a => exact hr
    | error x => trivial
  · split
    · exact hh none
    · trivial

theorem openAccount_follows_admitting (i : OrganizationInvitation) (password : String)
    (needsMfa : Bool) (again : Database → Option Accepted) :
    (openAccount A i password needsMfa again).Follows (admitting A) F (Leads fun _ _ => True)
      (some i.id) := by
  refine follows_time_bind.mpr fun now _ => follows_draw_bind.mpr fun salt _ => ?_
  refine follows_draw_bind.mpr fun id _ => ?_
  refine Leads.bind (M := fun clash q => clash = none → q = some i.id) ?_ fun clash q hclash => ?_
  · refine onClash_follows_admitting ?_ fun q => ?_
    · exact follows_returning_bind.mpr ⟨fun seen eff _ _ => ⟨trivial, fun _ => rfl⟩,
        fun _ _ _ _ => ⟨trivial, trivial⟩, fun _ _ => trivial⟩
    · refine nothing_then (answerAgain_nothing _ _) (fun answer q => ?_) q
      rintro ⟨⟩
  · cases clash with
    | some answer => trivial
    | none =>
      obtain rfl := hclash rfl
      refine quiet_then (assignDefaultRole_quiet _) fun _ => ?_
      have hlast : (onClash
          (do
            activateInvitation A i id now
            commitNow
            return (⟨id, i.organizationId⟩ : Accepted))
          (answerAgain again unavailable)).Follows (admitting A) F (Leads fun _ _ => True)
          (some i.id) := by
        refine onClash_follows_admitting ?_ fun q => nothing_follows (answerAgain_nothing _ _) q
        refine Leads.bind (activateInvitation_follows_admitting i id now) fun _ q _ => ?_
        exact nothing_follows (commitNow_executing.bind fun _ => by trivial) q
      split
      · exact quiet_then (addSetupDevice_quiet _ _ _) fun _ => hlast
      · exact hlast

theorem acceptAsNewUser_follows_admitting (i : OrganizationInvitation) (password : String)
    (totpCode : Option String) (again : Database → Option Accepted) :
    (acceptAsNewUser A i password totpCode again).Follows (admitting A) F
      (Leads fun _ _ => True) (some i.id) := by
  refine follows_query_bind.mpr ⟨fun v _ => ⟨trivial, ?_⟩, fun _ _ => trivial⟩
  split
  · trivial
  split
  · trivial
  refine follows_query_bind.mpr ⟨fun v _ => ⟨trivial, ?_⟩, fun _ _ => trivial⟩
  dsimp only
  split
  · refine Leads.bind (checkSetupCode_holds i totpCode _) fun _ q hq => ?_
    subst hq
    exact openAccount_follows_admitting _ _ _ _
  · exact openAccount_follows_admitting _ _ _ _

theorem acceptNewUser_follows_admitting (token password : String) (totpCode : Option String)
    (q : Option ℕ) :
    (acceptNewUser A token password totpCode).Follows (admitting A) F (Leads fun _ _ => True)
      q := by
  refine follows_query_bind.mpr ⟨fun v _ => ⟨trivial, ?_⟩, fun _ _ => trivial⟩
  split
  · trivial
  refine Leads.bind (pendingOrAgain_holds token _ _) fun found q hfound => ?_
  cases found with
  | inr answer => trivial
  | inl i =>
    obtain rfl := hfound i rfl
    exact acceptAsNewUser_follows_admitting _ _ _ _

theorem acceptAsMember_follows_admitting (i : OrganizationInvitation) (token email : String)
    (user : User) (totpCode : Option String) :
    (acceptAsMember A i token email user totpCode).Follows (admitting A) F
      (Leads fun _ _ => True) (some i.id) := by
  unfold acceptAsMember
  split
  · exact nothing_follows ((logEvent_nothing _ _).bind fun _ =>
      commitNow_executing.bind fun _ => by trivial) _
  refine follows_query_bind.mpr ⟨fun v _ => ⟨trivial, ?_⟩, fun _ _ => trivial⟩
  have hlast : ∀ i : OrganizationInvitation, (do
        let now ← time
        activateInvitation A i user.id now
        onClash
          (do
            commitNow
            return ⟨user.id, i.organizationId⟩)
          (raise unavailable) : Op Accepted).Follows (admitting A) F (Leads fun _ _ => True)
        (some i.id) := by
    intro i
    refine follows_time_bind.mpr fun now _ => ?_
    refine Leads.bind (activateInvitation_follows_admitting i user.id now) fun _ q _ => ?_
    refine onClash_follows_admitting ?_ fun _ => trivial
    exact nothing_follows (commitNow_executing.bind fun _ => by trivial) q
  dsimp only
  split
  · refine Leads.bind (checkStepUp_holds i token user totpCode _) fun i q hq => ?_
    subst hq
    exact hlast i
  · exact hlast i

theorem acceptExistingUser_follows_admitting (token : String) (user : User)
    (totpCode : Option String) (q : Option ℕ) :
    (acceptExistingUser A token user totpCode).Follows (admitting A) F (Leads fun _ _ => True)
      q := by
  unfold acceptExistingUser
  split
  · trivial
  refine follows_query_bind.mpr ⟨fun v _ => ⟨trivial, ?_⟩, fun _ _ => trivial⟩
  split
  · trivial
  refine Leads.bind (pendingOrAgain_holds token _ _) fun found q hfound => ?_
  cases found with
  | inr answer => trivial
  | inl i =>
    obtain rfl := hfound i rfl
    exact acceptAsMember_follows_admitting _ _ _ _ _

/-- **Every request follows the discipline.** -/
theorem InvitationCall.follows (call : InvitationCall) (q : Option ℕ) :
    (call.op A).close.Follows (admitting A) F (fun _ _ => True) q := by
  have hleads : (call.op A).Follows (admitting A) F (Leads fun _ _ => True) q := by
    cases call with
    | create user organizationId timestamp email roles mailed =>
      exact nothing_then (createOrganizationInvitation_nothing _ _ _ _ _ _) (fun _ _ => by trivial) q
    | list user organizationId =>
      exact nothing_then (getOrganizationInvitations_nothing _ _) (fun _ _ => by trivial) q
    | revoke user organizationId invitationId =>
      exact nothing_follows (revokeOrganizationInvitation_nothing _ _ _) q
    | preview token => exact nothing_then (previewInvitation_nothing _) (fun _ _ => by trivial) q
    | startMfa configured token =>
      exact nothing_then (startInvitationMfa_nothing _ _) (fun _ _ => by trivial) q
    | acceptNewUser token password totpCode =>
      exact Leads.bind (acceptNewUser_follows_admitting _ _ _ q) fun _ _ _ => trivial
    | acceptExistingUser token user totpCode =>
      exact Leads.bind (acceptExistingUser_follows_admitting _ _ _ q) fun _ _ _ => trivial
  exact Follows.close (hleads.mono fun _ _ _ => trivial)

end OmniAuth
