import OmniAuth.Invitation.Acceptance
import OmniAuth.Session.Outcome

/-!
# A refused role and the account before it

A new user's acceptance that runs alone and gets as far as the roles of its invitation. The
account, its default role and its second factor are pending when a role is refused; the
commit of the refusal's audit row stores them.
-/

namespace OmniAuth

open Txn Prog

variable {α : Type} {A : AppEnv} {w : World}

/-! ## Up to the invitation -/

/-- The token is that of one invitation, which nobody has used yet. -/
structure Database.Awaits (db : Database) (A : AppEnv) (token : String)
    (i : OrganizationInvitation) : Prop where
  wellFormed : malformedToken token = false
  found : db.invitationByHash (A.invitationHash token) = some i
  unique : ∀ j ∈ db.organizationInvitations, j.tokenHash = A.invitationHash token → j = i
  pending : i.status = .pending

namespace Database.Awaits

variable {db : Database} {token password : String} {i : OrganizationInvitation}

theorem acceptedNewUser (h : db.Awaits A token i) :
    db.acceptedNewUser A (tokenDigest A token) password = none := by
  have hnone : (db.organizationInvitations.find? fun j =>
      j.tokenHash = A.invitationHash token ∧ j.status = .accepted) = none := by
    refine List.find?_eq_none.mpr fun j hj haccepted => ?_
    obtain ⟨hhash, haccepted⟩ := of_decide_eq_true haccepted
    rw [h.unique j hj hhash, h.pending] at haccepted
    cases haccepted
  simp only [Database.acceptedNewUser, tokenDigest, h.wellFormed, Bool.false_eq_true, if_false,
    Option.bind_eq_bind, Option.bind_some, hnone, Option.bind_none]

end Database.Awaits

/-- **The invitation is found**, in an organization that is active, by a call that does not
outlast it. -/
theorem pendingInvitation_ends {token : String} {i : OrganizationInvitation}
    (h : w.cur.Awaits A token i)
    (hactive : w.cur.organizationActive i.organizationId = true) :
    (pendingInvitation A token).Ends w fun r w' =>
      (∃ t, w.now ≤ t ∧ w' = { w with now := t } ∧ r = .ok i) ∨ i.expiresAt ≤ w'.now := by
  simp only [pendingInvitation, h.wellFormed, Bool.false_eq_true, if_false, bind_eq]
  refine ends_returning_bind.mpr ⟨fun eff heff => ?_, fun x hx => nomatch hx⟩
  obtain rfl := Except.ok.inj heff
  simp only [h.found, h.pending, ne_eq, not_true_eq_false, if_false]
  refine ends_time_bind.mpr fun t ht => ?_
  split
  · rename_i hexpired
    exact fun r w' hexec => .inr (hexpired.trans hexec.mono.1)
  · have hstill : Database.organizationActive (id w.cur) i.organizationId = true := hactive
    refine ends_query_bind.mpr ?_
    rw [if_pos hstill]
    exact ends_ret.mpr (.inl ⟨t, ht, rfl, rfl⟩)

theorem acceptNewUser_ends {token password : String} {totpCode : Option String}
    {i : OrganizationInvitation} {post : Except Err Accepted → World → Prop}
    (h : w.cur.Awaits A token i) (hactive : w.cur.organizationActive i.organizationId = true)
    (hrest : ∀ t, w.now ≤ t → (acceptAsNewUser A i password totpCode
      fun db => db.acceptedNewUser A (tokenDigest A token) password).Ends
        { w with now := t } post)
    (hlate : ∀ r w', i.expiresAt ≤ w'.now → post r w') :
    (acceptNewUser A token password totpCode).Ends w post := by
  simp only [acceptNewUser, bind_eq]
  refine ends_query_bind.mpr ?_
  rw [h.acceptedNewUser]
  have hfound : (pendingOrAgain A token fun db =>
      db.acceptedNewUser A (tokenDigest A token) password).Ends w fun r w' =>
        (∃ t, w.now ≤ t ∧ w' = { w with now := t } ∧ r = .ok (.inl i)) ∨
          i.expiresAt ≤ w'.now := by
    refine Ends.orElse (M := fun _ (w' : World) => i.expiresAt ≤ w'.now) ?_
      fun x w₁ hw₁ r w' hexec => .inr (hw₁.trans hexec.mono.1)
    refine ends_handle.mpr ((pendingInvitation_ends h hactive).mono fun r w₁ hr => ?_)
    rcases hr with ⟨t, ht, rfl, rfl⟩ | hr
    · exact ends_ret.mpr (.inl ⟨t, ht, rfl, rfl⟩)
    · cases r with
      | ok j => exact ends_ret.mpr (.inr hr)
      | error x => exact ends_raise.mpr hr
  refine ends_handle.mpr (hfound.mono fun r w₁ hr => ?_)
  rcases hr with ⟨t, ht, rfl, rfl⟩ | hr
  · exact hrest t ht
  · exact fun r w' hexec => hlate r w' (hr.trans hexec.mono.1)

/-! ## From the account to the refusal -/

/-- An account is pending on `db`, in a transaction of its own. -/
structure Staged (db : Database) (w : World) : Prop where
  base : w.base = db
  users : db.users.length < w.cur.users.length
  roles : db.roles <+: w.cur.roles
  memberships : w.cur.memberships = db.memberships
  roleIds : ∀ role ∈ w.cur.roles, role.id < w.next
  deviceIds : ∀ device ∈ w.cur.mfaDevices, device.id < w.next

/-- Row ids are drawn in order. -/
structure Database.IdsBelow (db : Database) (n : ℕ) : Prop where
  users : ∀ user ∈ db.users, user.id < n
  roles : ∀ role ∈ db.roles, role.id < n
  devices : ∀ device ∈ db.mfaDevices, device.id < n
  members : ∀ membership ∈ db.memberships, membership.userId < n

variable {db : Database}

/-- What the transaction does to other tables and columns. -/
theorem Staged.moves (h : Staged db w) {w' : World} (hbase : w'.base = w.base)
    (hnext : w'.next = w.next) (husers : w'.cur.users.length = w.cur.users.length)
    (hroles : w'.cur.roles = w.cur.roles) (hmembers : w'.cur.memberships = w.cur.memberships)
    (hdevices : w'.cur.mfaDevices = w.cur.mfaDevices) : Staged db w' where
  base := hbase.trans h.base
  users := husers ▸ h.users
  roles := hroles ▸ h.roles
  memberships := hmembers.trans h.memberships
  roleIds := by
    rw [hroles, hnext]
    exact h.roleIds
  deviceIds := by
    rw [hdevices, hnext]
    exact h.deviceIds

theorem Staged.draw (h : Staged db w) : Staged db { w with next := w.next + 1 } where
  base := h.base
  users := h.users
  roles := h.roles
  memberships := h.memberships
  roleIds := fun role hrole => (h.roleIds role hrole).trans (Nat.lt_succ_self _)
  deviceIds := fun device hdevice => (h.deviceIds device hdevice).trans (Nat.lt_succ_self _)

theorem Staged.logEvent (h : Staged db w) (event : AuditEvent) :
    (logEvent event false).Ends w fun r w' => r = .ok () ∧ Staged db w' := by
  intro r w' hexec
  obtain ⟨rfl, t, e, rfl⟩ := logEvent_exec hexec
  exact ⟨rfl, h.moves rfl rfl rfl rfl rfl rfl⟩

/-- The default role is there, or is made. -/
theorem Staged.getOrCreateRole (h : Staged db w) (name : String) (permissions : List String) :
    (getOrCreateRole name permissions).Ends w fun r w' =>
      (∃ role, r = .ok role) ∧ Staged db w' := by
  refine ends_query_bind.mpr ?_
  cases getRoleByName w.cur name none with
  | some role => exact ends_ret.mpr ⟨⟨role, rfl⟩, h⟩
  | none =>
    refine ends_draw_bind.mpr (ends_returning_bind.mpr ⟨fun eff heff => ?_, fun x hx => ?_⟩)
    · simp only [denote, OrgStmt.denote] at heff
      split at heff
      · cases heff
      obtain rfl := Except.ok.inj heff
      refine ends_ret.mpr ⟨⟨_, rfl⟩, ?_⟩
      have hdrawn := h.draw
      refine ⟨hdrawn.base, hdrawn.users, hdrawn.roles.trans (List.prefix_append _ _),
        hdrawn.memberships, fun role hrole => ?_, hdrawn.deviceIds⟩
      rcases List.mem_append.mp hrole with hold | hnew
      · exact hdrawn.roleIds role hold
      · obtain rfl := List.mem_singleton.mp hnew
        exact Nat.lt_succ_self _
    · simp only [denote, OrgStmt.denote] at hx
      split at hx
      · rename_i hclash
        obtain ⟨role, hrole, hid⟩ := hclash
        have hlt := h.roleIds role hrole
        omega
      · cases hx

theorem Staged.assignDefaultRole (h : Staged db w) {user : User} (huser : user.roleIds = []) :
    (assignDefaultRole user).Ends w fun r w' => r = .ok () ∧ Staged db w' := by
  refine ends_handle.mpr ((h.getOrCreateRole _ _).mono fun r w₁ hr => ?_)
  obtain ⟨⟨role, rfl⟩, h₁⟩ := hr
  have hnew : role.id ∉ user.roleIds := by
    rw [huser]
    exact List.not_mem_nil
  show (ite _ _ _ : Op Unit).Ends _ _
  rw [if_neg hnew]
  refine ends_returning.mpr ⟨fun eff heff => ⟨rfl, ?_⟩, fun x hx => nomatch hx⟩
  obtain rfl := Except.ok.inj heff
  exact h₁.moves rfl rfl (List.length_map ..) rfl rfl rfl

/-- The columns of the account and its device. -/
theorem Staged.device (h : Staged db w) {userId : ℕ} {columns : MfaColumns} {device : MFADevice}
    (hid : device.id = w.next) :
    Staged db { w with
      next := w.next + 1
      cur := { Database.updateUser userId (User.setMfa columns) w.cur with
        mfaDevices := w.cur.mfaDevices ++ [device] } } := by
  have hdrawn := h.draw
  refine ⟨hdrawn.base, ?_, hdrawn.roles, hdrawn.memberships, hdrawn.roleIds, fun d hd => ?_⟩
  · show db.users.length < (List.map _ w.cur.users).length
    rw [List.length_map]
    exact h.users
  · rcases List.mem_append.mp hd with hold | hnew
    · exact hdrawn.deviceIds d hold
    · obtain rfl := List.mem_singleton.mp hnew
      show d.id < w.next + 1
      omega

theorem Staged.addSetupDevice (h : Staged db w) (i : OrganizationInvitation) (userId now : ℕ) :
    (addSetupDevice i userId now).Ends w fun r w' => r = .ok () ∧ Staged db w' := by
  refine ends_draw_bind.mpr (ends_returning_bind.mpr ⟨fun eff heff => ?_, fun x hx => nomatch hx⟩)
  obtain rfl := Except.ok.inj heff
  refine ends_returning_bind.mpr ⟨fun eff heff => ?_, fun x hx => ?_⟩
  · simp only [denote, MfaStmt.denote] at heff
    split at heff
    · cases heff
    obtain rfl := Except.ok.inj heff
    refine ends_handle.mpr (((h.device ?_).logEvent _).mono fun r w₁ hr => ?_)
    · rfl
    obtain ⟨rfl, h₁⟩ := hr
    exact h₁.logEvent _
  · simp only [denote, MfaStmt.denote] at hx
    split at hx
    · rename_i hclash
      obtain ⟨device, hdevice, hid⟩ := hclash
      have hlt := h.deviceIds device hdevice
      have hid' : device.id = w.next := hid
      omega
    · cases hx

/-- The call has raised, and the account is committed. -/
def Stranded (db : Database) (r : Except Err α) (w : World) : Prop :=
  (∃ message, r = .error (.value message)) ∧ db.users.length < w.base.users.length

/-- **The refusal commits what is pending.** -/
theorem Staged.resolveRolesForOrg {organizationId : ℕ} {names : List String}
    (h : Staged db w) (actorUserId targetUserId : Option ℕ)
    (hrefused : (w.cur.refusedRole organizationId names).isSome) :
    (resolveRolesForOrg A organizationId false actorUserId targetUserId names).Ends w
      (Stranded db) := by
  induction names with
  | nil => cases hrefused
  | cons name rest ih =>
    refine ends_query_bind.mpr ?_
    cases hrole : getRoleInScope w.cur name organizationId with
    | none =>
      simp only [Database.refusedRole, hrole] at hrefused
      cases hrefused
    | some role =>
      simp only [Database.refusedRole, hrole] at hrefused
      by_cases hoffending : offendingPermissions role.permissions = []
      · rw [if_pos hoffending] at hrefused
        show (ite _ _ _ : Op (List Role)).Ends _ _
        rw [if_neg fun hboth => hboth.2 hoffending]
        refine ends_handle.mpr ((ih hrefused).mono fun r w' hr => ?_)
        obtain ⟨⟨message, rfl⟩, husers⟩ := hr
        exact ends_raise.mpr ⟨⟨message, rfl⟩, husers⟩
      · show (ite _ _ _ : Op (List Role)).Ends _ _
        rw [if_pos ⟨rfl, hoffending⟩]
        refine ends_handle.mpr fun r w' hexec => ?_
        obtain ⟨rfl, t, e, rfl⟩ := logEvent_exec hexec
        exact ends_raise.mpr ⟨⟨_, rfl⟩, h.users⟩

/-- Roles that come after change nothing to a refusal. -/
theorem refusedRole_grows {db db' : Database} (h : db.roles <+: db'.roles)
    {organizationId : ℕ} {names : List String}
    (hrefused : (db.refusedRole organizationId names).isSome) :
    (db'.refusedRole organizationId names).isSome := by
  induction names with
  | nil => exact hrefused
  | cons name rest ih =>
    cases hrole : getRoleInScope db name organizationId with
    | none =>
      simp only [Database.refusedRole, hrole] at hrefused
      cases hrefused
    | some role =>
      obtain ⟨later, hlater⟩ := h
      have hrole' : getRoleInScope db' name organizationId = some role := by
        unfold getRoleInScope at hrole ⊢
        rw [← hlater, List.find?_append, hrole]
        rfl
      simp only [Database.refusedRole, hrole] at hrefused
      simp only [Database.refusedRole, hrole']
      split at hrefused
      · rename_i hoffending
        rw [if_pos hoffending]
        exact ih hrefused
      · rename_i hoffending
        rw [if_neg hoffending]
        rfl

theorem Staged.activateInvitation (h : Staged db w) {i : OrganizationInvitation} {userId : ℕ}
    (now : ℕ) (hrefused : db.RefusesRoleOf i)
    (hnobody : ∀ membership ∈ db.memberships, membership.userId ≠ userId) :
    (activateInvitation A i userId now).Ends w (Stranded db) := by
  have hmember : w.cur.getMembership i.organizationId userId = none := by
    refine List.find?_eq_none.mpr fun membership hmem hboth => ?_
    rw [h.memberships] at hmem
    exact hnobody membership hmem (of_decide_eq_true hboth).2
  have hactivate : (activateMembership A i userId now).Ends w (Stranded db) := by
    refine ends_returning_bind.mpr ⟨fun eff heff => ?_, fun x hx => nomatch hx⟩
    obtain rfl := Except.ok.inj heff
    rw [hmember]
    rw [hrefused.1]
    refine ends_handle.mpr ((h.resolveRolesForOrg _ _
      (refusedRole_grows h.roles hrefused.2)).mono fun r w' hr => ?_)
    obtain ⟨⟨message, rfl⟩, husers⟩ := hr
    exact ends_raise.mpr ⟨⟨message, rfl⟩, husers⟩
  refine ends_handle.mpr (hactivate.mono fun r w' hr => ?_)
  obtain ⟨⟨message, rfl⟩, husers⟩ := hr
  exact ends_raise.mpr ⟨⟨message, rfl⟩, husers⟩

/-- **An account that is stranded.** -/
theorem openAccount_ends {i : OrganizationInvitation} {password : String} {needsMfa : Bool}
    {again : Database → Option Accepted} (hrested : w.cur = w.base)
    (hbelow : w.base.IdsBelow w.next) (haccount : w.base.userByEmail i.invitedEmail = none)
    (hrefused : w.base.RefusesRoleOf i) :
    (openAccount A i password needsMfa again).Ends w (Stranded w.base) := by
  refine ends_time_bind.mpr fun now _ => ?_
  refine ends_draw_bind.mpr (ends_draw_bind.mpr ?_)
  have hinsert : ∀ user : User, user.id = w.next + 1 → user.email = some i.invitedEmail →
      (onClash
        (do
          execute (.account (.insertUser user))
          return none)
        (do
          let answer ← answerAgain again unavailable
          return some answer) : Op (Option Accepted)).Ends
        { w with now := now, next := w.next + 1 + 1 }
        fun r w' => r = .ok none ∧ Staged w.base w' := by
    intro user hid hemail
    have hclear : ¬ ∃ u ∈ w.cur.users, u.id = user.id ∨ (u.email.isSome ∧ u.email = user.email) := by
      rintro ⟨u, hu, hclash⟩
      rw [hrested] at hu
      rcases hclash with hsame | ⟨-, hsame⟩
      · have hlt := hbelow.users u hu
        omega
      · have hother := List.find?_eq_none.mp haccount u hu
        exact hother (decide_eq_true (hsame.trans hemail))
    refine Ends.orElse (M := fun _ (_ : World) => False) ?_ fun _ _ h => h.elim
    refine ends_returning_bind.mpr ⟨fun eff heff => ?_, fun x hx => ?_⟩
    · simp only [denote, AccountStmt.denote, if_neg hclear] at heff
      obtain rfl := Except.ok.inj heff
      refine ends_ret.mpr ⟨rfl, ?_⟩
      have hlength : (w.cur.users ++ [user]).length = w.cur.users.length + 1 := by simp
      exact
        { base := rfl
          users := by
            show w.base.users.length < (w.cur.users ++ [user]).length
            rw [hlength, hrested]
            omega
          roles := by
            show w.base.roles <+: w.cur.roles
            rw [hrested]
          memberships := by
            show w.cur.memberships = w.base.memberships
            rw [hrested]
          roleIds := fun role hrole => by
            have hlt := hbelow.roles role (hrested ▸ hrole)
            show role.id < w.next + 1 + 1
            omega
          deviceIds := fun device hdevice => by
            have hlt := hbelow.devices device (hrested ▸ hdevice)
            show device.id < w.next + 1 + 1
            omega }
    · simp only [denote, AccountStmt.denote, if_neg hclear] at hx
      cases hx
  refine ends_handle.mpr ((hinsert _ rfl rfl).mono fun r w₁ hr => ?_)
  obtain ⟨rfl, h₁⟩ := hr
  refine ends_handle.mpr ((h₁.assignDefaultRole rfl).mono fun r w₂ hr => ?_)
  obtain ⟨rfl, h₂⟩ := hr
  have hnobody : ∀ membership ∈ w.base.memberships, membership.userId ≠ w.next + 1 := by
    intro membership hmember hsame
    have hlt := hbelow.members membership hmember
    omega
  have hlast : ∀ w₃, Staged w.base w₃ → (onClash
      ((activateInvitation A i (w.next + 1) now).bind fun _ => commitNow.bind fun _ =>
        ret (⟨w.next + 1, i.organizationId⟩ : Accepted))
      (answerAgain again unavailable)).Ends w₃ (Stranded w.base) := by
    intro w₃ h₃
    refine ends_handle.mpr (ends_handle.mpr ?_)
    refine (h₃.activateInvitation now hrefused hnobody).mono fun r w₄ hr => ?_
    obtain ⟨⟨message, rfl⟩, husers⟩ := hr
    exact ends_raise.mpr (ends_raise.mpr ⟨⟨message, rfl⟩, husers⟩)
  cases needsMfa with
  | false => exact hlast w₂ h₂
  | true =>
    refine ends_handle.mpr ((h₂.addSetupDevice i _ now).mono fun r w₃ hr => ?_)
    obtain ⟨rfl, h₃⟩ := hr
    exact hlast w₃ h₃

/-- The code is one of the invitation's secret, at every time from `t` to `t'`. -/
def SetupCodeHolds (A : AppEnv) (i : OrganizationInvitation) (totpCode : Option String)
    (t t' : ℕ) : Prop :=
  ∃ encrypted secret code, i.mfaSecretEncrypted = some encrypted ∧ encrypted ≠ "" ∧
    totpCode = some code ∧ malformedCode A code = false ∧ A.decrypt encrypted = some secret ∧
    ∀ now, t ≤ now → now ≤ t' → ∃ step, matchedStepAt A secret code (now / 1000000) =
      some (some step)

theorem malformedCode_empty : malformedCode A "" = true := rfl

/-- A code that holds passes. -/
theorem checkSetupCode_ends {i : OrganizationInvitation} {totpCode : Option String} {t' : ℕ}
    (h : SetupCodeHolds A i totpCode w.now t') :
    (checkSetupCode A i totpCode).Ends w fun r w' =>
      (∃ now, w.now ≤ now ∧ w' = { w with now := now } ∧ r = .ok ()) ∨ t' < w'.now := by
  obtain ⟨encrypted, secret, code, hencrypted, hsecret, rfl, hwell, hdecrypt, hholds⟩ := h
  have hcode : code ≠ "" := by
    rintro rfl
    rw [malformedCode_empty] at hwell
    cases hwell
  have hmatch : (totpMatchedStep A secret code).Ends w fun r w' =>
      (∃ now step, w.now ≤ now ∧ w' = { w with now := now } ∧ r = .ok (some step)) ∨
        t' < w'.now := by
    simp only [totpMatchedStep, hwell, Bool.false_eq_true, if_false, bind_eq]
    refine ends_time_bind.mpr fun now hnow => ?_
    by_cases hlate : t' < now
    · exact fun r w' hexec => .inr (hlate.trans_le hexec.mono.1)
    · obtain ⟨step, hstep⟩ := hholds now hnow (not_lt.mp hlate)
      rw [hstep]
      exact ends_ret.mpr (.inl ⟨now, step, hnow, rfl, rfl⟩)
  simp only [checkSetupCode, hencrypted, Option.filter_some, decide_eq_true hsecret,
    decide_eq_true hcode, if_true, hdecrypt, bind_eq]
  refine ends_handle.mpr (ends_handle.mpr (hmatch.mono fun r w₁ hr => ?_))
  rcases hr with ⟨now, step, hnow, rfl, rfl⟩ | hlate
  · exact ends_ret.mpr (ends_ret.mpr (.inl ⟨now, hnow, rfl, rfl⟩))
  · refine fun r w₂ hexec r' w₃ hexec' => .inr ?_
    exact hlate.trans_le (hexec.mono.1.trans hexec'.mono.1)

/-- What else a new user's acceptance asks for before it opens the account. -/
structure Database.Admits (db : Database) (A : AppEnv) (i : OrganizationInvitation)
    (password : String) (totpCode : Option String) (t t' : ℕ) : Prop where
  active : db.organizationActive i.organizationId = true
  account : db.userByEmail i.invitedEmail = none
  policy : A.passwordPolicy password i.invitedEmail = none
  factor : policyRequiresMfa db i.organizationId = true → SetupCodeHolds A i totpCode t t'

theorem acceptAsNewUser_ends {i : OrganizationInvitation} {password : String}
    {totpCode : Option String} {t' : ℕ} {again : Database → Option Accepted}
    (hrested : w.cur = w.base) (hbelow : w.base.IdsBelow w.next)
    (hadmits : w.base.Admits A i password totpCode w.now t') (hrefused : w.base.RefusesRoleOf i) :
    (acceptAsNewUser A i password totpCode again).Ends w fun r w' =>
      Stranded w.base r w' ∨ t' < w'.now := by
  have hopen : ∀ needsMfa now, (openAccount A i password needsMfa again).Ends
      { w with now := now } fun r w' => Stranded w.base r w' ∨ t' < w'.now := fun needsMfa now =>
    (openAccount_ends (w := { w with now := now }) hrested hbelow hadmits.account hrefused).mono
      fun r w' hr => .inl hr
  refine ends_query_bind.mpr ?_
  rw [hrested, hadmits.account]
  simp only [Option.isSome_none, Bool.false_eq_true, if_false, hadmits.policy]
  refine ends_query_bind.mpr ?_
  rw [hrested]
  split
  · rename_i hneeds
    refine ends_handle.mpr ((checkSetupCode_ends (hadmits.factor hneeds)).mono fun r w₁ hr => ?_)
    rcases hr with ⟨now, -, rfl, rfl⟩ | hlate
    · exact hopen _ now
    · exact fun r w' hexec => .inr (hlate.trans_le hexec.mono.1)
  · exact hopen _ w.now

/-- **A refused role strands the account**, where a new user's call that runs alone meets all
else that is asked of it. -/
theorem acceptNewUser_stranded {token password : String} {totpCode : Option String}
    {i : OrganizationInvitation} {w' : World} {r : Except Err Accepted}
    (hrested : w.cur = w.base) (hbelow : w.base.IdsBelow w.next)
    (hawaits : w.base.Awaits A token i)
    (hadmits : w.base.Admits A i password totpCode w.now w'.now) (hexpires : w'.now < i.expiresAt)
    (hrefused : w.base.RefusesRoleOf i)
    (hexec : (acceptNewUser A token password totpCode).close.Exec w r w') :
    Stranded w.base r w' := by
  have hends : (acceptNewUser A token password totpCode).close.Ends w fun r w₁ =>
      Stranded w.base r w₁ ∨ w'.now < w₁.now ∨ i.expiresAt ≤ w₁.now := by
    refine ends_close.mpr (acceptNewUser_ends (hrested ▸ hawaits) (hrested ▸ hadmits.active)
      (fun t ht => ?_) fun r w₁ hlate => .inr (.inr hlate))
    have hfrom : ({ w with now := t } : World).base.Admits A i password totpCode t w'.now :=
      { active := hadmits.active
        account := hadmits.account
        policy := hadmits.policy
        factor := fun hneeds => by
          obtain ⟨e, s, c, he, hne, hc, hm, hd, hholds⟩ := hadmits.factor hneeds
          exact ⟨e, s, c, he, hne, hc, hm, hd, fun now hnow => hholds now (ht.trans hnow)⟩ }
    refine (acceptAsNewUser_ends (w := { w with now := t }) hrested hbelow hfrom hrefused).mono
      fun r w₁ hr => ?_
    rcases hr with hr | hlate
    · exact .inl hr
    · exact .inr (.inl hlate)
  rcases hends r w' hexec with hr | hlate | hlate
  · exact hr
  · exact absurd hlate (lt_irrefl _)
  · exact absurd hlate (not_le.mpr hexpires)

/-- An account more is no permitted change. -/
theorem Stranded.not_leavesOnly {db : Database} {r : Except Err α} (h : Stranded db r w)
    (tokenHash : ℕ) : ¬ db.LeavesOnly tokenHash w.base := by
  intro hleaves
  have husers : w.base.users = db.users := by
    have hrest := congrArg Database.users hleaves.rest
    exact hrest
  have hlt := h.2
  rw [husers] at hlt
  exact absurd hlt (lt_irrefl _)

/-! ## Acceptances among others -/

/-- A call of one of the two acceptances. -/
inductive AcceptCall
  | newUser (token password : String) (totpCode : Option String)
  | existingUser (token : String) (user : User) (totpCode : Option String)

namespace AcceptCall

def op (A : AppEnv) : AcceptCall → Op Accepted
  | newUser token password totpCode => acceptNewUser A token password totpCode
  | existingUser token user totpCode => acceptExistingUser A token user totpCode

def token : AcceptCall → String
  | newUser token _ _ => token
  | existingUser token _ _ => token

/-- The call may open an account. -/
def Opens : AcceptCall → Prop
  | newUser .. => True
  | existingUser .. => False

instance (call : AcceptCall) : Decidable call.Opens :=
  match call with
  | newUser .. => isTrue trivial
  | existingUser .. => isFalse id

theorem follows {F : Prop} (call : AcceptCall) :
    (call.op A).close.Follows (leaving call.Opens (A.invitationHash call.token)) F Trail.Settled
      Trail.start := by
  refine Follows.close ?_
  cases call with
  | newUser token password totpCode => exact acceptNewUser_follows token password totpCode
  | existingUser token user totpCode => exact acceptExistingUser_follows token user totpCode

end AcceptCall

section

variable {ι : Type} [DecidableEq ι]

/-- A step at which the ids of the invitations are unique and, where process `i` makes it, the
answer is not lost; and where `i` may open an account, it reads no refused role with that
account pending. -/
def Undisturbed (A : AppEnv) (i : ι) (call : AcceptCall) (s : Sys AuthSig ι α) (j : ι)
    (ℓ : Label AuthSig) : Prop :=
  s.db.InvitationIdsUnique ∧ (j = i → ¬ ℓ.Unanswered ∧
    (call.Opens → RolesPass (A.invitationHash call.token) s i ℓ))

instance (ℓ : Label AuthSig) : Decidable ℓ.Unanswered :=
  match ℓ with
  | .commitLost _ | .crashed _ => isTrue trivial
  | .read _ | .wrote .. | .refused .. | .committed | .rolledBack | .ticked _ | .drew _
  | .emitted _ | .faulted _ | .commitFailed _ => isFalse id

instance (tokenHash : ℕ) (s : Sys AuthSig ι α) (i : ι) (ℓ : Label AuthSig) :
    Decidable (RolesPass tokenHash s i ℓ) :=
  match ℓ with
  | .read v => inferInstanceAs (Decidable (s.db.users.length < (s.latest i).users.length →
      ∀ invitation ∈ s.db.organizationInvitations, invitation.tokenHash = tokenHash →
        ¬ v.RefusesRoleOf invitation))
  | .wrote .. | .refused .. | .committed | .rolledBack | .ticked _ | .drew _ | .emitted _
  | .faulted _ | .commitFailed _ | .commitLost _ | .crashed _ => isTrue trivial

instance (db : Database) : Decidable db.InvitationIdsUnique :=
  inferInstanceAs (Decidable (List.Nodup _))

instance (A : AppEnv) (i : ι) (call : AcceptCall) (s : Sys AuthSig ι α) (j : ι)
    (ℓ : Label AuthSig) : Decidable (Undisturbed A i call s j ℓ) :=
  inferInstanceAs (Decidable (_ ∧ (j = i → _ ∧ (_ → _))))

end

/-- **A failed acceptance leaves nothing behind** but what it may: in no step of its own did
the committed state change otherwise, whatever else the service does at the time. Where the
roles are refused with the account pending, the account stays. -/
theorem failed_acceptance_leaves (A : AppEnv) :
    (∀ {ι : Type} [DecidableEq ι] (F : Prop) (proc : ι → Op Accepted) (i : ι) (call : AcceptCall)
      (db : Database) (now next : ℕ) (s : Sys AuthSig ι Accepted) (x : Err),
      proc i = (call.op A).close →
      Sys.Run F (Undisturbed A i call) (Sys.start db now next proc) s →
      (s.proc i).reply? = some (.error x) →
      Sys.Run F (fun (s : Sys AuthSig ι Accepted) j ℓ => j = i →
          s.db.LeavesOnly (A.invitationHash call.token) (s.dbAfter j ℓ))
        (Sys.start db now next proc) s) ∧
    ∀ (token password : String) (totpCode : Option String) (i : OrganizationInvitation)
      (w w' : World) (r : Except Err Accepted), w.cur = w.base → w.base.IdsBelow w.next →
      w.base.Awaits A token i → w.base.Admits A i password totpCode w.now w'.now →
      w'.now < i.expiresAt → w.base.RefusesRoleOf i →
      (acceptNewUser A token password totpCode).close.Exec w r w' →
      (∃ x, r = .error x) ∧ ¬ w.base.LeavesOnly (A.invitationHash token) w'.base := by
  refine ⟨fun F proc i call db now next s x hproc hrun hr => ?_, ?_⟩
  · refine (leaves_only_of_failed hrun (fun s ℓ h => ⟨h.1, h.2 rfl⟩) ?_ hr).mono
      fun s j ℓ h => h.2
    rw [hproc]
    exact call.follows
  · intro token password totpCode i w w' r hrested hbelow hawaits hadmits hexpires hrefused hexec
    have hstranded := acceptNewUser_stranded hrested hbelow hawaits hadmits hexpires hrefused hexec
    obtain ⟨message, hr⟩ := hstranded.1
    exact ⟨⟨_, hr⟩, hstranded.not_leavesOnly _⟩

/-- An organization whose one invitation, of the token `7`, names this role; the role `lead`
of the organization has come to carry a platform-wide permission. -/
def inviting (role : String) : Database :=
  { Database.empty with
    organizations := [{ id := 1, slug := "lab", status := .active }]
    roles := [{ id := 1, name := "lead", organizationId := some 1, permissions := ["manage_roles"] }]
    organizationInvitations :=
      [{ id := 3, organizationId := 1, invitedByUserId := 2, invitedEmail := "a", roleNames := [role]
         tokenHash := AppEnv.symbolic.invitationHash "7", activeKey := some 1, status := .pending
         createdAt := 0, expiresAt := 9 }] }

def invitedTo (role : String) : World := ⟨inviting role, inviting role, 0, 4, []⟩

/-- The invitee's call raises, and the account is there. -/
theorem failed_acceptance_strands :
    ¬ ∀ (w' : World) (r : Except Err Accepted),
      (acceptNewUser AppEnv.symbolic "7" "b" none).close.Exec (invitedTo "lead") r w' →
      (∃ x, r = .error x) →
      (inviting "lead").LeavesOnly (AppEnv.symbolic.invitationHash "7") w'.base := by
  intro hall
  have hexec := exec_run (acceptNewUser AppEnv.symbolic "7" "b" none).close (invitedTo "lead")
  generalize hrun : (acceptNewUser AppEnv.symbolic "7" "b" none).close.run (invitedTo "lead") = out
    at hexec
  have hplays : out.1.toOption = none ∧ out.2.base.users.length = 1 := by
    rw [← hrun]
    decide
  have hraised : ∃ x, out.1 = .error x := by
    obtain ⟨r, w'⟩ := out
    cases r with
    | ok a => cases hplays.1
    | error x => exact ⟨x, rfl⟩
  have husers : out.2.base.users = (inviting "lead").users := by
    have hrest := congrArg Database.users (hall _ _ hexec hraised).rest
    exact hrest
  have hcount := congrArg List.length husers
  rw [hplays.2] at hcount
  cases hcount

/-- A role that does not exist any more leaves nothing, and the other does. -/
theorem failed_acceptance_leaves_ghost :
    (∃ s, Sys.Run False (fun (s : Sys AuthSig Unit Accepted) j ℓ => j = () →
        s.db.LeavesOnly (AppEnv.symbolic.invitationHash "7") (s.dbAfter j ℓ))
      (Sys.start (inviting "ghost") 0 4 fun _ => (acceptNewUser AppEnv.symbolic "7" "b" none).close)
      s ∧ ∃ x, (s.proc ()).reply? = some (.error x)) ∧
    ∃ w' : World, ∃ r, (acceptNewUser AppEnv.symbolic "7" "b" none).close.Exec (invitedTo "lead")
      r w' ∧ (∃ x, r = .error x) ∧
      ¬ (inviting "lead").LeavesOnly (AppEnv.symbolic.invitationHash "7") w'.base := by
  constructor
  · let call : AcceptCall := .newUser "7" "b" none
    let proc : Unit → Op Accepted := fun _ => (call.op AppEnv.symbolic).close
    have hplays : ((Sys.start (S := AuthSig) (inviting "ghost") 0 4 proc).follow
        (Undisturbed AppEnv.symbolic () call) (List.replicate 17 ())).any (fun s =>
          ((s.proc ()).reply?.map fun r => r.toOption.isNone).getD false) = true := by decide
    obtain ⟨s, hs, hreply⟩ := (Option.any_eq_true _ _).mp hplays
    have hraised : ∃ x, (s.proc ()).reply? = some (.error x) := by
      cases hr : (s.proc ()).reply? with
      | none =>
        rw [hr] at hreply
        cases hreply
      | some r =>
        cases r with
        | error x => exact ⟨x, rfl⟩
        | ok a =>
          rw [hr] at hreply
          cases hreply
    obtain ⟨x, hx⟩ := hraised
    exact ⟨s, (failed_acceptance_leaves AppEnv.symbolic).1 False proc () call _ _ _ s x rfl
      (Sys.run_of_follow _ hs) hx, x, hx⟩
  · have hexec := exec_run (acceptNewUser AppEnv.symbolic "7" "b" none).close (invitedTo "lead")
    refine ⟨_, _, hexec, (failed_acceptance_leaves AppEnv.symbolic).2 "7" "b" none
      ((inviting "lead").organizationInvitations.head (by decide)) (invitedTo "lead") _ _ rfl
      ⟨by decide, by decide, by decide, by decide⟩ ⟨by decide, by decide, by decide, by decide⟩
      ⟨by decide, by decide, by decide, fun hneeds => absurd hneeds (by decide)⟩ (by decide)
      (by decide) hexec⟩

end OmniAuth
