import OmniAuth.Invitation.Residue
import OmniAuth.Login.Decision

/-!
# Acceptances and their trails

Both acceptances keep to the automaton of `Invitation.Residue`. Up to the account of a new
user, or the membership of an existing one, a call commits permitted changes only; from
there on it commits once, at its end.
-/

namespace OmniAuth

open Txn Prog

variable {α β : Type} {A : AppEnv} {F opens : Prop} {tokenHash : ℕ}
  {known : List OrganizationInvitation} {q : Trail}

/-! ## Stages of a call -/

/-- Permitted statements that look for no invitation. -/
def Stmt.Settling (known : List OrganizationInvitation) (tokenHash : ℕ) (stmt : Stmt) : Prop :=
  stmt.Residual known tokenHash ∧ ∀ h, stmt ≠ .org (.lockInvitation h)

/-- Statements that look for no invitation, and add none and no account. -/
def Stmt.Aside (stmt : Stmt) : Prop :=
  (stmt.InvitesNobody ∧ ¬ stmt.OpensAccount) ∧ ∀ h, stmt ≠ .org (.lockInvitation h)

namespace Trail

/-- Nothing but permitted changes is pending. -/
structure Clean (known : List OrganizationInvitation) (q : Trail) : Prop where
  known : q.known = known
  opened : ¬ q.opened
  dirty : ¬ q.dirty
  done : ¬ q.done

/-- Nothing else is committed, and what is pending includes an account or is permitted. -/
structure Ready (known : List OrganizationInvitation) (q : Trail) : Prop where
  known : q.known = known
  pending : q.opened ∨ ¬ q.dirty
  done : ¬ q.done

/-- Nothing else is committed, as far as the call can tell. -/
def Calm (q : Trail) : Prop := q.lost ∨ ¬ q.done

theorem Clean.ready (h : q.Clean known) : q.Ready known := ⟨h.known, .inr h.dirty, h.done⟩

theorem Clean.calm (h : q.Clean known) : q.Calm := .inr h.done

theorem Calm.settled {r : Except Err α} (h : q.Calm) : Settled r q := fun _ => h

theorem settled_ok {a : α} : Settled (.ok a) q := nofun

end Trail

theorem Stmt.Settling.aside {stmt : Stmt} (h : stmt.Settling known tokenHash) :
    stmt.Aside := by
  refine ⟨⟨?_, fun hopens => ?_⟩, h.2⟩
  · cases stmt with
    | org stmt => cases stmt <;> first | trivial | exact h.1.elim
    | _ => trivial
  · cases stmt with
    | account stmt => exact h.1
    | _ => exact hopens

theorem wrote_known {stmt : Stmt} {seen : Database} (h : ∀ h, stmt ≠ .org (.lockInvitation h)) :
    (q.wrote tokenHash stmt seen).known = q.known := by
  unfold Trail.wrote
  split
  · exact absurd rfl (h _)
  · rfl

theorem Trail.Clean.wrote {stmt : Stmt} {seen : Database} (h : q.Clean known)
    (hs : stmt.Settling known tokenHash) : (q.wrote tokenHash stmt seen).Clean known where
  known := (wrote_known hs.2).trans h.known
  opened := by
    rintro (hq | hopens)
    · exact h.opened hq
    · exact hs.aside.1.2 hopens
  dirty := by
    rintro (hq | hresidual)
    · exact h.dirty hq
    · exact hresidual (h.known ▸ hs.1)
  done := h.done

theorem Trail.Clean.next {ℓ : Label AuthSig} (h : q.Clean known)
    (hℓ : Executing (Stmt.Settling known tokenHash) ℓ) :
    ((leaving opens tokenHash).next q ℓ).Clean known := by
  have hdropped : q.dropped.Clean known := ⟨h.known, id, id, h.done⟩
  cases ℓ with
  | wrote stmt seen eff => exact h.wrote hℓ
  | committed => exact ⟨h.known, id, id, not_or.mpr ⟨h.done, h.dirty⟩⟩
  | rolledBack => exact hdropped
  | commitFailed x => exact hdropped
  | commitLost x => exact ⟨h.known, id, id, h.done⟩
  | crashed x => exact ⟨h.known, id, id, h.done⟩
  | read v => exact ⟨h.known, h.opened, h.dirty, h.done⟩
  | _ => exact h

theorem may_settling {ℓ : Label AuthSig} (hℓ : Executing (Stmt.Settling known tokenHash) ℓ) :
    (leaving opens tokenHash).may q ℓ := by
  cases ℓ with
  | wrote stmt seen eff =>
    have haside := Stmt.Settling.aside hℓ
    exact ⟨haside.1.1, fun hopens => absurd hopens haside.1.2⟩
  | _ => trivial

/-- What commits permitted changes only. -/
theorem Trail.Clean.follows {p : Op α} (h : p.Within F (Executing (Stmt.Settling known tokenHash)))
    (hq : q.Clean known) :
    p.Follows (leaving opens tokenHash) F (fun _ q => q.Clean known) q :=
  h.follows (fun _ _ _ hℓ => may_settling hℓ) (fun _ _ hq hℓ => hq.next hℓ) hq

theorem Trail.Clean.bind {p : Op α} {k : α → Op β} {post : Except Err β → Trail → Prop}
    (h : p.Within F (Executing (Stmt.Settling known tokenHash))) (hq : q.Clean known)
    (hk : ∀ a q', q'.Clean known → (k a).Follows (leaving opens tokenHash) F post q')
    (hx : ∀ x q', q'.Clean known → post (.error x) q') :
    (p.bind k).Follows (leaving opens tokenHash) F post q :=
  h.follows_bind (fun _ _ _ hℓ => may_settling hℓ) (fun _ _ hq hℓ => hq.next hℓ) hq hk hx

/-- Inside a transaction with an account pending. -/
def Trail.Open (known : List OrganizationInvitation) (q : Trail) : Prop :=
  q.known = known ∧ q.opened ∧ ¬ q.done

theorem Trail.Open.ready (h : q.Open known) : q.Ready known := ⟨h.1, .inl h.2.1, h.2.2⟩

theorem Trail.Open.next {ℓ : Label AuthSig} (h : q.Open known) (hℓ : Inside Stmt.Aside ℓ) :
    ((leaving opens tokenHash).next q ℓ).Open known := by
  cases ℓ with
  | wrote stmt seen eff => exact ⟨(wrote_known hℓ.2).trans h.1, .inl h.2.1, h.2.2⟩
  | read v => exact h
  | committed => exact hℓ.elim
  | commitFailed x => exact hℓ.elim
  | commitLost x => exact hℓ.elim
  | rolledBack => exact hℓ.elim
  | crashed x => exact hℓ.elim
  | _ => exact h

theorem may_aside {ℓ : Label AuthSig} (hℓ : Inside Stmt.Aside ℓ) :
    (leaving opens tokenHash).may q ℓ := by
  cases ℓ with
  | wrote stmt seen eff => exact ⟨hℓ.1.1, fun hopens => absurd hopens hℓ.1.2⟩
  | _ => trivial

/-- A call with an account pending goes on. -/
theorem Trail.Open.bind {p : Op α} {k : α → Op β} {post : Except Err β → Trail → Prop}
    (h : p.Within F (Inside Stmt.Aside)) (hq : q.Open known)
    (hk : ∀ a q', q'.Open known → (k a).Follows (leaving opens tokenHash) F post q')
    (hx : ∀ x q', ¬ q'.done → post (.error x) q') :
    (p.bind k).Follows (leaving opens tokenHash) F post q :=
  h.follows_bind (fun _ _ _ hℓ => may_aside hℓ) (fun _ _ hq hℓ => hq.next hℓ) hq hk
    fun x _ hq => hx x _ hq.2.2

theorem not_done_next {ℓ : Label AuthSig} (h : ¬ q.done) (hℓ : Inside Stmt.Aside ℓ) :
    ¬ ((leaving opens tokenHash).next q ℓ).done := by
  cases ℓ with
  | committed => exact hℓ.elim
  | commitFailed x => exact hℓ.elim
  | commitLost x => exact hℓ.elim
  | rolledBack => exact hℓ.elim
  | crashed x => exact hℓ.elim
  | _ => exact h

/-- What happens inside the transaction, whatever is pending. -/
theorem not_done_follows {p : Op α} (h : p.Within F (Inside Stmt.Aside)) (hq : ¬ q.done) :
    p.Follows (leaving opens tokenHash) F (fun _ q => ¬ q.done) q :=
  h.follows (fun _ _ _ hℓ => may_aside hℓ) (fun _ _ hq hℓ => not_done_next hq hℓ) hq

/-- Reads, and the rollback before them. -/
def Lookup : Label AuthSig → Prop
  | .read _ | .faulted _ | .rolledBack => True
  | _ => False

/-- They change nothing to what the call knows of its commits. -/
theorem calm_follows {p : Op α} (h : p.Within F Lookup) (hq : q.Calm) :
    p.Follows (leaving opens tokenHash) F (fun _ q => q.Calm) q := by
  refine h.follows (fun _ ℓ _ hℓ => ?_) (fun _ ℓ hq hℓ => ?_) hq
  · cases ℓ <;> trivial
  · cases ℓ <;> first | exact hq | exact hℓ.elim

theorem rollback_lookup {p : Op α} (h : p.Within F Lookup) :
    (rollbackNow.bind fun _ => p).Within F Lookup := ⟨trivial, h⟩

theorem answerAgain_lookup (found : Database → Option Accepted) (x : Err) :
    (answerAgain found x).Within F Lookup := by
  refine (within_query (fun _ => trivial) fun _ _ => trivial).bind fun before => ?_
  cases before <;> trivial

/-! ## The invitation -/

theorem execute_settling {stmt : Stmt} (h : stmt.Settling known tokenHash) :
    (execute stmt : Op Unit).Within F (Executing (Stmt.Settling known tokenHash)) :=
  execute_executing h

theorem logEvent_settling (event : AuditEvent) (commit : Bool) :
    (logEvent event commit).Within F (Executing (Stmt.Settling known tokenHash)) :=
  logEvent_executing (fun _ => ⟨trivial, nofun⟩) commit

theorem query_settling {f : Database → α} :
    (query (S := AuthSig) f).Within F (Executing (Stmt.Settling known tokenHash)) :=
  within_query (fun _ => trivial) fun _ _ => trivial

theorem time_settling :
    (time : Op ℕ).Within F (Executing (Stmt.Settling known tokenHash)) :=
  within_time fun _ => trivial

theorem setExpired_settling {invitation : OrganizationInvitation}
    (hknown : invitation.terms ∈ known) (hhash : invitation.tokenHash = tokenHash) :
    (setExpired invitation).Within F (Executing (Stmt.Settling known tokenHash)) :=
  Within.bind (execute_settling ⟨⟨_, hknown, rfl, hhash⟩, nofun⟩) fun _ => logEvent_settling _ _

/-- The invitation a call holds. -/
def Held (tokenHash : ℕ) (invitation : OrganizationInvitation) (q : Trail) : Prop :=
  ∃ known, q.Clean known ∧ invitation.terms ∈ known ∧ invitation.tokenHash = tokenHash

/-- **The pending invitation** is the one of the token, and nothing else is pending. -/
theorem pendingInvitation_follows (token : String) (hq : q.Clean known) :
    (pendingInvitation A token).Follows (leaving opens (A.invitationHash token)) F
      (fun r q => match r with
        | .ok invitation => Held (A.invitationHash token) invitation q
        | .error _ => ∃ known, q.Clean known) q := by
  unfold pendingInvitation
  split
  · exact ⟨known, hq⟩
  refine follows_returning_bind.mpr ⟨fun seen eff hden _ => ⟨⟨trivial, nofun⟩, ?_⟩,
    fun seen x _ _ => ⟨trivial, known, hq⟩, fun _ x => ⟨known, hq⟩⟩
  have hlocked : (q.wrote (A.invitationHash token)
      (.org (.lockInvitation (A.invitationHash token))) seen).Clean seen.invitationTerms :=
    ⟨rfl, not_or.mpr ⟨hq.opened, id⟩, not_or.mpr ⟨hq.dirty, fun h => h trivial⟩, hq.done⟩
  cases hfound : seen.invitationByHash (A.invitationHash token) with
  | none => exact ⟨_, hlocked⟩
  | some invitation =>
    have hmem : invitation ∈ seen.organizationInvitations := List.mem_of_find?_eq_some hfound
    have hterms : invitation.terms ∈ seen.invitationTerms := List.mem_map_of_mem hmem
    have hhash : invitation.tokenHash = A.invitationHash token := by
      have h := List.find?_some hfound
      exact of_decide_eq_true h
    show (ite _ _ _ : Op OrganizationInvitation).Follows _ _ _ _
    split
    · exact ⟨_, hlocked⟩
    refine hlocked.bind time_settling (fun now q' hq' => ?_) fun x q' hq' => ⟨_, hq'⟩
    split
    · refine hq'.bind (setExpired_settling hterms hhash) (fun _ q' hq' => ?_)
        fun x q' hq' => ⟨_, hq'⟩
      exact hq'.bind commitNow_executing (fun _ q' hq' => ⟨_, hq'⟩) fun x q' hq' => ⟨_, hq'⟩
    · refine hq'.bind query_settling (fun active q' hq' => ?_) fun x q' hq' => ⟨_, hq'⟩
      split
      · exact ⟨_, hq', hterms, hhash⟩
      · exact ⟨_, hq'⟩

/-- The invitation, or what the call answered before. -/
theorem pendingOrAgain_follows (token : String) (found : Database → Option Accepted)
    (hq : q.Clean known) :
    (pendingOrAgain A token found).Follows (leaving opens (A.invitationHash token)) F
      (fun (r : Except Err (OrganizationInvitation ⊕ Accepted)) q => match r with
        | .ok (.inl invitation) => Held (A.invitationHash token) invitation q
        | _ => q.Calm) q := by
  refine Follows.orElse (M := fun _ q => q.Calm) ?_ fun x q hq => ?_
  · refine (pendingInvitation_follows token hq).handle fun r q hr => ?_
    cases r with
    | error x =>
      obtain ⟨known, hq⟩ := hr
      exact hq.calm
    | ok invitation => exact hr
  · split
    · refine (calm_follows (answerAgain_lookup _ _) hq).handle fun r q hr => ?_
      cases r with
      | ok answer => exact hr
      | error y => exact hr
    · exact hq

/-! ## Second factors -/

theorem countAttempt_settling {held invitation : OrganizationInvitation}
    (hknown : held.terms ∈ known) (hhash : held.tokenHash = tokenHash) (hid : held.id = invitation.id)
    (actorUserId : Option ℕ) (reason message : String) :
    (countAttempt A invitation actorUserId reason message).Within F
      (Executing (Stmt.Settling known tokenHash)) := by
  have hfail : ∀ attempts revokedAt, (execute (.org
      (.failInvitation invitation.id attempts revokedAt)) : Op Unit).Within F
      (Executing (Stmt.Settling known tokenHash)) :=
    fun _ _ => execute_settling ⟨⟨_, hknown, hid, hhash⟩, nofun⟩
  refine (hfail _ _).bind fun _ => (logEvent_settling _ _).bind fun _ => ?_
  have hraise : ∀ _ : Unit, (invitationError "mfa_invalid" message 400 : Op Unit).Within F
      (Executing (Stmt.Settling known tokenHash)) := fun _ => trivial
  split
  · exact time_settling.bind fun now => (hfail _ _).bind fun _ => commitNow_executing.bind hraise
  · exact commitNow_executing.bind hraise

theorem totpMatchedStep_settling (secret code : String) :
    (totpMatchedStep A secret code).Within F (Executing (Stmt.Settling known tokenHash)) :=
  executing_of_reading (totpMatchedStep_within secret code)

theorem verifyTotpCode_settling (secret code : String) :
    (verifyTotpCode A secret code).Within F (Executing (Stmt.Settling known tokenHash)) := by
  refine (totpMatchedStep_settling secret code).bind fun _ => ?_
  trivial

theorem checkSetupCode_settling {invitation : OrganizationInvitation}
    (hknown : invitation.terms ∈ known) (hhash : invitation.tokenHash = tokenHash)
    (totpCode : Option String) :
    (checkSetupCode A invitation totpCode).Within F
      (Executing (Stmt.Settling known tokenHash)) := by
  unfold checkSetupCode
  split
  · split
    · trivial
    refine (verifyTotpCode_settling _ _).bind fun verified => ?_
    split
    · trivial
    · exact countAttempt_settling hknown hhash rfl _ _ _
  · trivial

theorem matchDevice_settling (code : String) (devices : List MFADevice) :
    (matchDevice A code devices).Within F (Executing (Stmt.Settling known tokenHash)) := by
  have hclaim : ∀ device : MFADevice, (claimDevice A code device).Within F
      (Executing (Stmt.Settling known tokenHash)) := by
    intro device
    unfold claimDevice
    split
    · trivial
    refine (totpMatchedStep_settling _ _).bind fun step => ?_
    split
    · refine Within.bind (Within.orElse ?_ fun _ => ⟨trivial, trivial⟩) fun _ => trivial
      refine Within.bind (execute_settling ⟨trivial, nofun⟩) fun _ => ?_
      exact commitNow_executing.bind fun _ => (within_note trivial).bind fun _ => trivial
    · trivial
  induction devices with
  | nil => trivial
  | cons device rest ih =>
    refine Within.bind (Within.orElse (hclaim device) fun _ => trivial) fun claim => ?_
    split
    · trivial
    · exact ih.bind fun _ => trivial
    · exact ih

theorem verifyUserTotpStepUp_settling (userId : ℕ) (code : String) :
    (verifyUserTotpStepUp A userId code).Within F (Executing (Stmt.Settling known tokenHash)) := by
  unfold verifyUserTotpStepUp
  split
  · trivial
  exact query_settling.bind fun devices => (matchDevice_settling _ _).bind fun _ => trivial

/-- The invitation that is loaded again is the one with the id. -/
theorem refreshInvitation_bind {id : ℕ} {k : OrganizationInvitation → Op β}
    {post : Except Err β → Trail → Prop} (hq : q.Clean known)
    (hk : ∀ current q', current.id = id → q'.Clean known →
      (k current).Follows (leaving opens tokenHash) F post q')
    (hx : ∀ x q', q'.Clean known → post (.error x) q') :
    ((refreshInvitation id).bind k).Follows (leaving opens tokenHash) F post q := by
  rw [refreshInvitation, bind_eq, bind_bind]
  refine follows_query_bind.mpr ⟨fun v _ => ⟨trivial, ?_⟩, fun _ x => hx x _ hq⟩
  have hread : ((leaving opens tokenHash).next q (.read v)).Clean known :=
    ⟨hq.known, hq.opened, hq.dirty, hq.done⟩
  cases hfound : v.organizationInvitations.find? (·.id = id) with
  | none => exact hx _ _ hread
  | some current =>
    have hid := List.find?_some hfound
    exact hk current _ (of_decide_eq_true hid) hread

/-- A call that goes on after its step-up holds the invitation again. -/
theorem checkStepUp_follows {invitation : OrganizationInvitation} (token : String) (user : User)
    (totpCode : Option String) (h : Held (A.invitationHash token) invitation q) :
    (checkStepUp A invitation token user totpCode).Follows (leaving opens (A.invitationHash token)) F
      (fun r q => match r with
        | .ok invitation => Held (A.invitationHash token) invitation q
        | .error _ => q.Calm) q := by
  obtain ⟨known, hq, hknown, hhash⟩ := h
  unfold checkStepUp
  split
  · exact hq.calm
  refine hq.bind (verifyUserTotpStepUp_settling _ _) (fun verified q' hq' => ?_)
    fun x q' hq' => hq'.calm
  split
  · refine (pendingInvitation_follows token hq').mono fun r q' hr => ?_
    cases r with
    | ok invitation => exact hr
    | error x =>
      obtain ⟨known, hq'⟩ := hr
      exact hq'.calm
  · have hcount : ∀ {current : OrganizationInvitation} {q' : Trail}, current.id = invitation.id →
        q'.Clean known → ((countAttempt A current (some user.id) "mfa_step_up_failed"
          "A valid authenticator code is required").bind fun _ => ret invitation).Follows
          (leaving opens (A.invitationHash token)) F (fun r q => match r with
            | .ok invitation => Held (A.invitationHash token) invitation q
            | .error _ => q.Calm) q' := fun hid hq' =>
      hq'.bind (countAttempt_settling hknown hhash hid.symm _ _ _)
        (fun _ q' hq' => ⟨known, hq', hknown, hhash⟩) fun x q' hq' => hq'.calm
    split
    · exact refreshInvitation_bind hq' (fun current q' hid hq' => hcount hid hq')
        fun x q' hq' => hq'.calm
    · exact hcount rfl hq'

/-! ## The roles -/

/-- The refusal of a role is logged, and nothing else is pending. -/
theorem denyRole_settling (role : Role) (offending : List String) (organizationId : ℕ)
    (actorUserId targetUserId : Option ℕ) :
    (denyRole A role offending organizationId actorUserId targetUserId).Within F
      (Executing (Stmt.Settling known tokenHash)) :=
  (logEvent_settling _ _).bind fun _ => trivial

/-- **No refusal with an account pending.** `resolve_roles_for_org` reads the names one after
the other in one transaction; those it has passed are still passed where the next is read. -/
theorem resolveRolesForOrg_follows {i : OrganizationInvitation} (hknown : i.terms ∈ known)
    (hhash : i.tokenHash = tokenHash) (actorUserId targetUserId : Option ℕ)
    (names : List String) (hq : q.Ready known)
    (hpassed : ∀ v : Database, (∀ roles, q.roles = some roles → v.roles = roles) →
      i.inviterIsPlatformAdmin = false →
      v.refusedRole i.organizationId i.roles = v.refusedRole i.organizationId names) :
    (resolveRolesForOrg A i.organizationId i.inviterIsPlatformAdmin actorUserId targetUserId
      names).Follows (leaving opens tokenHash) F (fun _ q => ¬ q.done) q := by
  induction names generalizing q with
  | nil => exact hq.done
  | cons name rest ih =>
    refine follows_query_bind.mpr ⟨fun v hsees => ⟨trivial, ?_⟩, fun _ x => hq.done⟩
    have hnow := hpassed v hsees.1
    cases hrole : getRoleInScope v name i.organizationId with
    | none => exact hq.done
    | some role =>
      show (ite _ _ _ : Op (List Role)).Follows _ _ _ _
      split
      · rename_i hrefused
        have hopened : ¬ q.opened := by
          -- the name is the first that is not passed
          intro hopened
          refine hsees.2 hopened i.terms (hq.known ▸ hknown) hhash ⟨hrefused.1, ?_⟩
          show (v.refusedRole i.organizationId i.roles).isSome
          rw [hnow hrefused.1]
          simp only [Database.refusedRole, hrole, hrefused.2, if_false, Option.isSome_some]
        have hclean : ({ q with roles := some v.roles } : Trail).Clean known :=
          ⟨hq.known, hopened, hq.pending.resolve_left hopened, hq.done⟩
        exact (hclean.follows (denyRole_settling _ _ _ _ _)).mono fun r q hq => hq.done
      · rename_i hpasses
        have hread : ({ q with roles := some v.roles } : Trail).Ready known :=
          ⟨hq.known, hq.pending, hq.done⟩
        refine Follows.handle (ih hread fun v' hv' hadmin => ?_) fun r q hq => ?_
        · have hroles : v'.roles = v.roles := hv' _ rfl
          have hoffending : offendingPermissions role.permissions = [] := by
            by_contra h
            exact hpasses ⟨hadmin, h⟩
          rw [refusedRole_congr hroles, hnow hadmin, refusedRole_congr hroles]
          simp only [Database.refusedRole, hrole, hoffending, if_true]
        · cases r <;> exact hq

/-! ## The membership -/

theorem execute_inside_aside {stmt : Stmt} (h : stmt.Aside) :
    (execute stmt : Op Unit).Within F (Inside Stmt.Aside) := execute_inside h

theorem logEvent_aside (event : AuditEvent) :
    (logEvent event false).Within F (Inside Stmt.Aside) :=
  logEvent_inside event fun _ => ⟨⟨trivial, id⟩, nofun⟩

/-- The membership of a call that has committed nothing else yet. -/
theorem activateMembership_follows {i : OrganizationInvitation} (hknown : i.terms ∈ known)
    (hhash : i.tokenHash = tokenHash) (userId now : ℕ) (hq : q.Ready known) :
    (activateMembership A i userId now).Follows (leaving opens tokenHash) F (fun _ q => ¬ q.done) q := by
  refine follows_returning_bind.mpr ⟨fun seen eff hden _ => ⟨⟨trivial, nofun⟩, ?_⟩,
    fun seen x _ _ => ⟨trivial, hq.done⟩, fun _ x => hq.done⟩
  have hready : (q.wrote tokenHash (.org (.lockMembership i.organizationId userId)) seen).Ready
      known := by
    refine ⟨hq.known, ?_, hq.done⟩
    rcases hq.pending with hopened | hdirty
    · exact .inl (.inl hopened)
    · exact .inr (not_or.mpr ⟨hdirty, fun h => h trivial⟩)
  show (ite _ _ _ : Op Unit).Follows _ _ _ _
  split
  · exact hq.done
  refine Follows.handle (resolveRolesForOrg_follows hknown hhash _ _ _ hready fun _ _ _ => rfl)
    fun r q hq => ?_
  cases r with
  | error x => exact hq
  | ok roles =>
    refine not_done_follows ?_ hq
    dsimp only
    split
    · refine execute_inside_aside ?_
      exact ⟨⟨trivial, id⟩, nofun⟩
    · refine Within.bind (within_draw fun _ => trivial) fun n => execute_inside_aside ?_
      exact ⟨⟨trivial, id⟩, nofun⟩

theorem activateInvitation_follows {i : OrganizationInvitation} (hknown : i.terms ∈ known)
    (hhash : i.tokenHash = tokenHash) (userId now : ℕ) (hq : q.Ready known) :
    (activateInvitation A i userId now).Follows (leaving opens tokenHash) F (fun _ q => ¬ q.done) q := by
  refine Follows.handle (activateMembership_follows hknown hhash userId now hq) fun r q hq => ?_
  cases r with
  | error x => exact hq
  | ok _ =>
    refine not_done_follows ?_ hq
    refine Within.bind (execute_inside_aside ⟨⟨trivial, id⟩, nofun⟩) fun _ => ?_
    exact (logEvent_aside _).bind fun _ => logEvent_aside _

/-- The one commit of an acceptance, at its end. -/
theorem commitNow_follows {answer : Accepted} (hq : ¬ q.done) :
    ((commitNow : Op Unit).bind fun _ => ret answer).Follows (leaving opens tokenHash) F
      (fun r q => (∃ x, r = .error x) → q.Calm) q := by
  refine follows_commitNow_bind.mpr ⟨fun _ => ⟨trivial, nofun⟩, fun _ x => ⟨?_, trivial, ?_⟩⟩
  · exact fun _ => .inr hq
  · exact fun _ => .inl trivial

/-- The last part of both acceptances, with what answers a lost race. -/
theorem activateAndCommit_follows {i : OrganizationInvitation} (hknown : i.terms ∈ known)
    (hhash : i.tokenHash = tokenHash) (userId now : ℕ) (answer : Accepted) (hq : q.Ready known) :
    ((activateInvitation A i userId now).bind fun _ => commitNow.bind fun _ => ret answer).Follows
      (leaving opens tokenHash) F (fun r q => (∃ x, r = .error x) → q.Calm) q := by
  refine Follows.handle (activateInvitation_follows hknown hhash userId now hq) fun r q hq => ?_
  cases r with
  | error x => exact fun _ => .inr hq
  | ok _ => exact commitNow_follows hq

theorem onClash_follows {p h : Op α} (hp : p.Follows (leaving opens tokenHash) F
      (fun r q => (∃ x, r = .error x) → q.Calm) q) (hh : h.Within F Lookup) :
    (onClash p h).Follows (leaving opens tokenHash) F Trail.Settled q := by
  refine Follows.orElse (M := fun _ q => q.Calm) (hp.mono fun r q hr => ?_) fun x q hq => ?_
  · cases r with
    | ok a => exact Trail.settled_ok
    | error x => exact hr ⟨x, rfl⟩
  · split
    · refine (calm_follows (rollback_lookup hh) hq).mono fun r q hq => ?_
      exact hq.settled
    · exact hq.settled

/-! ## The acceptances -/

theorem getOrCreateRole_staged (name : String) (permissionNames : List String) :
    (getOrCreateRole name permissionNames).Within F (Inside Stmt.Aside) := by
  refine (within_query (fun _ => trivial) fun _ _ => trivial).bind fun role => ?_
  split
  · trivial
  · refine (within_draw fun _ => trivial).bind fun n => ?_
    exact Within.bind (execute_inside_aside ⟨⟨trivial, id⟩, nofun⟩) fun _ => trivial

theorem assignDefaultRole_staged (user : User) :
    (assignDefaultRole user).Within F (Inside Stmt.Aside) := by
  refine (getOrCreateRole_staged _ _).bind fun role => ?_
  split
  · trivial
  · exact execute_inside_aside ⟨⟨trivial, id⟩, nofun⟩

theorem addSetupDevice_staged (invitation : OrganizationInvitation) (userId now : ℕ) :
    (addSetupDevice invitation userId now).Within F (Inside Stmt.Aside) := by
  refine (within_draw fun _ => trivial).bind fun deviceId => ?_
  refine Within.bind (execute_inside_aside ⟨⟨trivial, id⟩, nofun⟩) fun _ => ?_
  refine Within.bind (execute_inside_aside ⟨⟨trivial, id⟩, nofun⟩) fun _ => ?_
  exact (logEvent_aside _).bind fun _ => logEvent_aside _

/-- The account of a new user, from the moment it is pending. -/
theorem openAccount_follows {i : OrganizationInvitation} (h : Held tokenHash i q)
    (password : String) (needsMfa : Bool) (again : Database → Option Accepted) :
    (openAccount A i password needsMfa again).Follows (leaving True tokenHash) F Trail.Settled q := by
  obtain ⟨known, hq, hknown, hhash⟩ := h
  refine follows_time_bind.mpr fun now _ => ?_
  refine follows_draw_bind.mpr fun salt _ => ?_
  refine follows_draw_bind.mpr fun id _ => ?_
  refine Follows.bind (M := fun clash q => clash = none → q.Open known) ?_ fun clash q hclash => ?_
  · refine Follows.orElse (M := fun _ q => q.Calm) ?_ fun x q hq => ?_
    · refine follows_returning_bind.mpr ⟨fun seen eff hden _ => ⟨⟨trivial, fun _ => trivial⟩, fun _ => ?_⟩,
        fun seen x _ _ => ⟨trivial, hq.calm⟩, fun _ x => hq.calm⟩
      exact ⟨hq.known, .inr trivial, hq.done⟩
    · split
      · have hdropped : q.dropped.Calm := hq
        change ((answerAgain again unavailable).bind fun answer => ret (some answer)).Follows
          (leaving True tokenHash) F _ q.dropped
        refine Follows.handle (calm_follows (answerAgain_lookup again unavailable) hdropped)
          fun r q hq => ?_
        cases r with
        | ok answer => exact nofun
        | error x => exact hq.settled
      · exact hq.settled
  · cases clash with
    | some answer => exact Trail.settled_ok
    | none =>
      refine (hclash rfl).bind (assignDefaultRole_staged _) (fun _ q hq => ?_)
        fun x q hq => Trail.Calm.settled (.inr hq)
      have hlast : ∀ _ : Unit, ∀ q : Trail, q.Open known → (onClash
          ((activateInvitation A i id now).bind fun _ => commitNow.bind fun _ =>
            ret (⟨id, i.organizationId⟩ : Accepted))
          (answerAgain again unavailable)).Follows (leaving True tokenHash) F Trail.Settled q :=
        fun _ q hq => onClash_follows
          (activateAndCommit_follows hknown hhash id now _ hq.ready) (answerAgain_lookup _ _)
      split
      · exact hq.bind (addSetupDevice_staged _ _ _) hlast fun x q hq => Trail.Calm.settled (.inr hq)
      · exact hlast () q hq

/-- `accept_new_user`, once the invitation is found. -/
theorem acceptAsNewUser_follows {i : OrganizationInvitation} (h : Held tokenHash i q)
    (password : String) (totpCode : Option String) (again : Database → Option Accepted) :
    (acceptAsNewUser A i password totpCode again).Follows (leaving True tokenHash) F
      Trail.Settled q := by
  obtain ⟨known, hq, hknown, hhash⟩ := h
  refine hq.bind query_settling (fun account q hq => ?_) fun x q hq => hq.calm.settled
  split
  · exact hq.calm.settled
  split
  · exact hq.calm.settled
  refine hq.bind query_settling (fun needsMfa q hq => ?_) fun x q hq => hq.calm.settled
  split
  · refine hq.bind (checkSetupCode_settling hknown hhash _) (fun _ q hq => ?_)
      fun x q hq => hq.calm.settled
    exact openAccount_follows ⟨known, hq, hknown, hhash⟩ _ _ _
  · exact openAccount_follows ⟨known, hq, hknown, hhash⟩ _ _ _

theorem Trail.clean_start : Trail.start.Clean [] := ⟨rfl, id, id, id⟩

theorem acceptNewUser_follows (token password : String) (totpCode : Option String) :
    (acceptNewUser A token password totpCode).Follows (leaving True (A.invitationHash token)) F
      Trail.Settled Trail.start := by
  refine Trail.clean_start.bind query_settling (fun before q hq => ?_)
    fun x q hq => hq.calm.settled
  split
  · exact Trail.settled_ok
  refine Follows.handle (pendingOrAgain_follows token _ hq) fun r q hr => ?_
  cases r with
  | error x => exact Trail.Calm.settled hr
  | ok found =>
    cases found with
    | inr answer => exact Trail.settled_ok
    | inl invitation => exact acceptAsNewUser_follows hr _ _ _

/-- `accept_existing_user`, once the invitation is found. -/
theorem acceptAsMember_follows {i : OrganizationInvitation} (token email : String) (user : User)
    (totpCode : Option String) (h : Held (A.invitationHash token) i q) :
    (acceptAsMember A i token email user totpCode).Follows (leaving opens (A.invitationHash token)) F
      Trail.Settled q := by
  obtain ⟨known, hq, hknown, hhash⟩ := h
  unfold acceptAsMember
  split
  · refine (hq.follows ?_).mono fun r q hq => hq.calm.settled
    exact (logEvent_settling _ _).bind fun _ => commitNow_executing.bind fun _ => trivial
  refine hq.bind query_settling (fun needsMfa q hq => ?_) fun x q hq => hq.calm.settled
  have hlast : ∀ (i : OrganizationInvitation) (q : Trail), Held (A.invitationHash token) i q →
      (do
        let now ← time
        activateInvitation A i user.id now
        onClash
          (do
            commitNow
            return ⟨user.id, i.organizationId⟩)
          (raise unavailable) : Op Accepted).Follows (leaving opens (A.invitationHash token)) F
        Trail.Settled q := by
    rintro i q ⟨known, hq, hknown, hhash⟩
    refine follows_time_bind.mpr fun now _ => ?_
    refine Follows.handle (activateInvitation_follows hknown hhash user.id now hq.ready)
      fun r q hq => ?_
    cases r with
    | error x => exact Trail.Calm.settled (.inr hq)
    | ok _ => exact onClash_follows (commitNow_follows hq) trivial
  split
  · refine Follows.handle (checkStepUp_follows token user totpCode ⟨known, hq, hknown, hhash⟩)
      fun r q hr => ?_
    cases r with
    | error x => exact Trail.Calm.settled hr
    | ok i => exact hlast i q hr
  · exact hlast i q ⟨known, hq, hknown, hhash⟩

theorem acceptExistingUser_follows (token : String) (user : User) (totpCode : Option String) :
    (acceptExistingUser A token user totpCode).Follows (leaving opens (A.invitationHash token)) F
      Trail.Settled Trail.start := by
  unfold acceptExistingUser
  split
  · exact Trail.clean_start.calm.settled
  refine Trail.clean_start.bind query_settling (fun before q hq => ?_)
    fun x q hq => hq.calm.settled
  split
  · exact Trail.settled_ok
  refine Follows.handle (pendingOrAgain_follows token _ hq) fun r q hr => ?_
  cases r with
  | error x => exact Trail.Calm.settled hr
  | ok found =>
    cases found with
    | inr answer => exact Trail.settled_ok
    | inl invitation => exact acceptAsMember_follows _ _ _ _ hr

end OmniAuth
