import OmniAuth.Invitation.Service
import OmniAuth.Session.Steps
import OmniAuth.Txn.Evolution
import OmniAuth.Txn.Failing

/-!
# What a failed acceptance leaves behind

An acceptance that fails may have counted an attempt, locked the invitation out or found it
expired, claimed a TOTP step, and written audit rows. Everything else it wrote is still
uncommitted when it raises, with one exception: the refusal of a role is logged with a
commit of its own, and a new user's account is pending by then.
-/

namespace OmniAuth

open Txn Prog

/-! ## Invitations and their terms -/

namespace OrganizationInvitation

/-- What an invitation says and no statement changes. -/
def terms (i : OrganizationInvitation) : OrganizationInvitation :=
  { i with
    status := .pending, activeKey := none, acceptedAt := none, acceptedUserId := none
    revokedAt := none, revokedByUserId := none, mfaSecretEncrypted := none, mfaSetupAt := none
    mfaAttempts := 0 }

/-- What a failed acceptance may do to its invitation: count, lock out, let expire. -/
def Settles (i i' : OrganizationInvitation) : Prop :=
  ∃ status activeKey revokedAt attempts,
    (status = i.status ∨ status = .revoked ∨ status = .expired) ∧
    i' = { i with
      status := status, activeKey := activeKey, revokedAt := revokedAt, mfaAttempts := attempts }

variable {a b c : OrganizationInvitation}

theorem Settles.trans (h₁ : a.Settles b) (h₂ : b.Settles c) : a.Settles c := by
  obtain ⟨s₁, k₁, r₁, n₁, hs₁, rfl⟩ := h₁
  obtain ⟨s₂, k₂, r₂, n₂, hs₂, rfl⟩ := h₂
  refine ⟨s₂, k₂, r₂, n₂, ?_, rfl⟩
  rcases hs₂ with hs | hs | hs
  · rw [hs]
    exact hs₁
  · exact .inr (.inl hs)
  · exact .inr (.inr hs)

theorem settles_expire (i : OrganizationInvitation) : i.Settles i.expire :=
  ⟨.expired, none, i.revokedAt, i.mfaAttempts, .inr (.inr rfl), rfl⟩

theorem settles_fail (attempts : ℕ) (revokedAt : Option ℕ) (i : OrganizationInvitation) :
    i.Settles (i.fail attempts revokedAt) := by
  cases revokedAt with
  | none => exact ⟨i.status, i.activeKey, i.revokedAt, attempts, .inl rfl, rfl⟩
  | some t => exact ⟨.revoked, none, some t, attempts, .inr (.inl rfl), rfl⟩

theorem Settles.id (h : a.Settles b) : b.id = a.id := by
  obtain ⟨_, _, _, _, -, rfl⟩ := h
  rfl

end OrganizationInvitation

/-- The terms of all invitations, in the order of the table. -/
def Database.invitationTerms (db : Database) : List OrganizationInvitation :=
  db.organizationInvitations.map (·.terms)

/-- The primary key of `organization_invitations`. -/
def Database.InvitationIdsUnique (db : Database) : Prop :=
  (db.organizationInvitations.map (·.id)).Nodup

theorem invitationTerms_update {id : ℕ} {f : OrganizationInvitation → OrganizationInvitation}
    (hf : ∀ i, (f i).terms = i.terms) (db : Database) :
    (db.updateInvitation id f).invitationTerms = db.invitationTerms := by
  show List.map _ (List.map _ _) = _
  rw [List.map_map]
  refine List.map_congr_left fun i _ => ?_
  show (if i.id = id then f i else i).terms = i.terms
  split
  · exact hf i
  · rfl

/-- Statements that add no invitation. -/
def Stmt.InvitesNobody : Stmt → Prop
  | .org (.insertInvitation _) => False
  | _ => True

theorem mfa_keeps_invitations {stmt : MfaStmt} {seen : Database}
    {eff : Effect Database RowKey} (h : stmt.denote seen = .ok eff) (db : Database) :
    (eff.delta db).organizationInvitations = db.organizationInvitations := by
  cases stmt <;> simp only [MfaStmt.denote] at h <;> (try split at h) <;> cases h <;> rfl

/-- **Invitations keep their terms**, and only an invitation adds one. -/
theorem invitationTerms_denote {stmt : Stmt} {seen : Database} {eff : Effect Database RowKey}
    (h : denote stmt seen = .ok eff) (hs : stmt.InvitesNobody) (db : Database) :
    (eff.delta db).invitationTerms = db.invitationTerms := by
  cases stmt with
  | credential stmt => exact CredentialStmt.keeps Database.invitationTerms (fun _ => rfl) h db
  | account stmt => exact AccountStmt.keeps Database.invitationTerms (fun _ => rfl) h db
  | mfa stmt => exact congrArg (List.map _) (mfa_keeps_invitations h db)
  | org stmt =>
    cases stmt with
    | insertInvitation row => exact hs.elim
    | expireInvitation id =>
      obtain rfl := Except.ok.inj h
      exact invitationTerms_update (f := OrganizationInvitation.expire) (fun _ => rfl) db
    | revokeInvitation id t userId =>
      obtain rfl := Except.ok.inj h
      exact invitationTerms_update (f := OrganizationInvitation.revoke t (some userId))
        (fun _ => rfl) db
    | acceptInvitation id t userId =>
      obtain rfl := Except.ok.inj h
      exact invitationTerms_update (f := OrganizationInvitation.accept t userId)
        (fun _ => rfl) db
    | failInvitation id attempts revokedAt =>
      obtain rfl := Except.ok.inj h
      exact invitationTerms_update (fun i => by cases revokedAt <;> rfl) db
    | setInvitationSecret id secret t =>
      obtain rfl := Except.ok.inj h
      exact invitationTerms_update
        (f := fun i => { i with mfaSecretEncrypted := some secret, mfaSetupAt := some t })
        (fun _ => rfl) db
    | insertIdp saml row =>
      simp only [denote, OrgStmt.denote] at h
      split at h
      · cases h
      obtain rfl := Except.ok.inj h
      cases saml <;> rfl
    | updateIdp saml id columns =>
      obtain rfl := Except.ok.inj h
      cases saml <;> rfl
    | _ =>
      simp only [denote, OrgStmt.denote] at h
      (try split at h) <;> cases h
      all_goals rfl
  | _ =>
    simp only [denote] at h
    (try split at h) <;> cases h
    all_goals rfl

/-! ## Accounts -/

/-- Statements that add an account. -/
def Stmt.OpensAccount : Stmt → Prop
  | .account (.insertUser _) => True
  | _ => False

theorem users_length_denote {stmt : Stmt} {seen : Database} {eff : Effect Database RowKey}
    (h : denote stmt seen = .ok eff) (db : Database) :
    db.users.length ≤ (eff.delta db).users.length ∧
      (stmt.OpensAccount → db.users.length < (eff.delta db).users.length) := by
  cases stmt with
  | credential stmt =>
    rw [CredentialStmt.keeps Database.users (fun _ => rfl) h db]
    exact ⟨le_rfl, False.elim⟩
  | org stmt =>
    rw [OrgStmt.keeps Database.users (fun _ => rfl) h db]
    exact ⟨le_rfl, False.elim⟩
  | account stmt =>
    cases stmt with
    | insertUser row =>
      simp only [denote, AccountStmt.denote] at h
      split at h
      · cases h
      obtain rfl := Except.ok.inj h
      have hlength : (db.users ++ [row]).length = db.users.length + 1 := by simp
      constructor
      · show db.users.length ≤ (db.users ++ [row]).length
        omega
      · intro _
        show db.users.length < (db.users ++ [row]).length
        omega
    | _ =>
      simp only [denote, AccountStmt.denote] at h
      (try split at h) <;> cases h
      all_goals exact ⟨by simp [Database.updateUser, Database.updateLicense], False.elim⟩
  | mfa stmt =>
    cases stmt <;> simp only [denote, MfaStmt.denote] at h <;> (try split at h) <;> cases h <;>
      exact ⟨by simp [Database.updateUser, Database.useCodes, Database.updateDevices,
        Database.updateOtps, Database.updateEnrollments], False.elim⟩
  | _ =>
    simp only [denote] at h
    (try split at h) <;> cases h
    all_goals exact ⟨by simp [Database.updateUser, Database.insertToken, Database.updateTokens,
      Database.insertSession, Database.updateSession, Database.insertAudit], False.elim⟩

/-- Neither accounts nor invitations are deleted, and invitations keep their terms. -/
def rowsGrow : Evolution AuthSig where
  le db db' := db.invitationTerms <+: db'.invitationTerms ∧ db.users.length ≤ db'.users.length
  refl _ := ⟨List.prefix_refl _, le_rfl⟩
  trans h₁ h₂ := ⟨h₁.1.trans h₂.1, h₁.2.trans h₂.2⟩
  stmt {stmt seen eff} h db := by
    refine ⟨?_, (users_length_denote h db).1⟩
    by_cases hs : stmt.InvitesNobody
    · rw [invitationTerms_denote h hs db]
    · cases stmt with
      | org stmt =>
        cases stmt with
        | insertInvitation row =>
          simp only [denote, OrgStmt.denote] at h
          split at h
          · cases h
          obtain rfl := Except.ok.inj h
          show _ <+: List.map _ (db.organizationInvitations ++ [row])
          rw [List.map_append]
          exact List.prefix_append _ _
        | _ => exact absurd trivial hs
      | _ => exact absurd trivial hs

/-! ## The permitted changes -/

/-- All tables but the audit trail, the used TOTP steps and the invitations. -/
def Database.beyondAcceptance (db : Database) : Database :=
  { db with auditEvents := [], mfaUsedTotpSteps := [], organizationInvitations := [] }

/-- What a failed acceptance of the invitation with this token hash may leave behind: audit
rows, claimed TOTP steps, and of that invitation a counted attempt, a lockout, an expiry. -/
structure Database.LeavesOnly (tokenHash : ℕ) (db db' : Database) : Prop where
  rest : db'.beyondAcceptance = db.beyondAcceptance
  auditEvents : db.auditEvents <+: db'.auditEvents
  usedTotpSteps : db.mfaUsedTotpSteps <+: db'.mfaUsedTotpSteps
  invitations : List.Forall₂ (fun i i' => i' = i ∨ i.tokenHash = tokenHash ∧ i.Settles i')
    db.organizationInvitations db'.organizationInvitations

namespace Database

variable {tokenHash : ℕ} {a b c : Database}

theorem forall₂_settles_refl (rows : List OrganizationInvitation) :
    List.Forall₂ (fun i i' => i' = i ∨ i.tokenHash = tokenHash ∧ i.Settles i') rows rows :=
  List.forall₂_same.mpr fun _ _ => .inl rfl

theorem LeavesOnly.refl (tokenHash : ℕ) (db : Database) : db.LeavesOnly tokenHash db :=
  ⟨rfl, List.prefix_refl _, List.prefix_refl _, forall₂_settles_refl _⟩

theorem forall₂_settles_trans {xs ys zs : List OrganizationInvitation}
    (h₁ : List.Forall₂ (fun i i' => i' = i ∨ i.tokenHash = tokenHash ∧ i.Settles i') xs ys)
    (h₂ : List.Forall₂ (fun i i' => i' = i ∨ i.tokenHash = tokenHash ∧ i.Settles i') ys zs) :
    List.Forall₂ (fun i i' => i' = i ∨ i.tokenHash = tokenHash ∧ i.Settles i') xs zs := by
  induction h₁ generalizing zs with
  | nil => exact h₂
  | @cons x y xs ys hxy _ ih =>
    cases h₂ with
    | @cons _ z _ zs hyz h₂ =>
      refine .cons ?_ (ih h₂)
      rcases hxy with rfl | ⟨hx, hxy⟩
      · exact hyz
      · rcases hyz with rfl | ⟨-, hyz⟩
        · exact .inr ⟨hx, hxy⟩
        · exact .inr ⟨hx, hxy.trans hyz⟩

theorem LeavesOnly.trans (h₁ : a.LeavesOnly tokenHash b) (h₂ : b.LeavesOnly tokenHash c) :
    a.LeavesOnly tokenHash c :=
  ⟨h₂.rest.trans h₁.rest, h₁.auditEvents.trans h₂.auditEvents,
    h₁.usedTotpSteps.trans h₂.usedTotpSteps, forall₂_settles_trans h₁.invitations h₂.invitations⟩

theorem LeavesOnly.invitationIdsUnique (h : a.LeavesOnly tokenHash b)
    (ha : a.InvitationIdsUnique) : b.InvitationIdsUnique := by
  have hids : b.organizationInvitations.map (·.id) = a.organizationInvitations.map (·.id) := by
    have hrows := h.invitations
    generalize a.organizationInvitations = xs at hrows
    generalize b.organizationInvitations = ys at hrows
    induction hrows with
    | nil => rfl
    | @cons x y xs ys hxy _ ih =>
      have hid : y.id = x.id := by
        rcases hxy with rfl | ⟨-, hxy⟩
        · rfl
        · exact hxy.id
      rw [List.map_cons, List.map_cons, ih, hid]
  rw [InvitationIdsUnique, hids]
  exact ha

/-- An update of the invitation with a given id that settles it. -/
theorem leavesOnly_update {id : ℕ} {f : OrganizationInvitation → OrganizationInvitation}
    (hf : ∀ i : OrganizationInvitation, i.Settles (f i)) {db : Database}
    (hid : ∀ i ∈ db.organizationInvitations, i.id = id → i.tokenHash = tokenHash) :
    db.LeavesOnly tokenHash (db.updateInvitation id f) := by
  refine ⟨rfl, List.prefix_refl _, List.prefix_refl _, ?_⟩
  show List.Forall₂ _ _ (List.map _ _)
  rw [List.forall₂_map_right_iff, List.forall₂_same]
  intro i hi
  by_cases hid' : i.id = id
  · rw [if_pos hid']
    exact .inr ⟨hid i hi hid', hf i⟩
  · rw [if_neg hid']
    exact .inl rfl

/-- A known invitation is the one row with its id. -/
theorem tokenHash_of_known {known : List OrganizationInvitation} {t i : OrganizationInvitation}
    {db : Database} (hknown : known <+: db.invitationTerms) (hunique : db.InvitationIdsUnique)
    (ht : t ∈ known) (hi : i ∈ db.organizationInvitations) (hid : i.id = t.id) :
    i.tokenHash = t.tokenHash := by
  obtain ⟨j, hj, rfl⟩ := List.mem_map.mp (hknown.subset ht)
  obtain rfl : i = j := List.inj_on_of_nodup_map hunique hi hj hid
  rfl

end Database

/-- Statements a failed acceptance may commit; `known` are the terms it has read. -/
def Stmt.Residual (known : List OrganizationInvitation) (tokenHash : ℕ) : Stmt → Prop
  | .insertAuditEvent _ => True
  | .mfa (.insertUsedTotpStep _ _) => True
  | .org (.lockInvitation _) | .org (.lockMembership _ _) => True
  | .org (.expireInvitation id) | .org (.failInvitation id _ _) =>
      ∃ t ∈ known, t.id = id ∧ t.tokenHash = tokenHash
  | _ => False

theorem Stmt.Residual.leavesOnly {known : List OrganizationInvitation} {tokenHash : ℕ}
    {stmt : Stmt} {seen : Database} {eff : Effect Database RowKey}
    (hs : stmt.Residual known tokenHash) (h : denote stmt seen = .ok eff) {db : Database}
    (hunique : db.InvitationIdsUnique) (hknown : known <+: db.invitationTerms) :
    db.LeavesOnly tokenHash (eff.delta db) := by
  have hrow : ∀ {id}, (∃ t ∈ known, t.id = id ∧ t.tokenHash = tokenHash) →
      ∀ i ∈ db.organizationInvitations, i.id = id → i.tokenHash = tokenHash := by
    rintro id ⟨t, ht, rfl, hhash⟩ i hi hid
    rw [Database.tokenHash_of_known hknown hunique ht hi hid, hhash]
  cases stmt with
  | insertAuditEvent event =>
    obtain rfl := Except.ok.inj h
    exact ⟨rfl, List.prefix_append _ _, List.prefix_refl _, Database.forall₂_settles_refl _⟩
  | mfa stmt =>
    cases stmt with
    | insertUsedTotpStep d t =>
      simp only [denote, MfaStmt.denote] at h
      split at h
      · cases h
      obtain rfl := Except.ok.inj h
      exact ⟨rfl, List.prefix_refl _, List.prefix_append _ _, Database.forall₂_settles_refl _⟩
    | _ => exact hs.elim
  | org stmt =>
    cases stmt with
    | lockInvitation tokenHash =>
      obtain rfl := Except.ok.inj h
      exact .refl _ _
    | lockMembership organizationId userId =>
      obtain rfl := Except.ok.inj h
      exact .refl _ _
    | expireInvitation id =>
      obtain rfl := Except.ok.inj h
      exact Database.leavesOnly_update OrganizationInvitation.settles_expire (hrow hs)
    | failInvitation id attempts revokedAt =>
      obtain rfl := Except.ok.inj h
      exact Database.leavesOnly_update (OrganizationInvitation.settles_fail attempts revokedAt)
        (hrow hs)
    | _ => exact hs.elim
  | _ => exact hs.elim

/-! ## The roles of an invitation -/

/-- The first name that `resolve_roles_for_org` does not pass, if it is that of a role with
platform-wide permissions. -/
def Database.refusedRole (db : Database) (organizationId : ℕ) : List String → Option Role
  | [] => none
  | name :: rest =>
      match getRoleInScope db name organizationId with
      | none => none
      | some role =>
          if offendingPermissions role.permissions = [] then db.refusedRole organizationId rest
          else some role

/-- The roles the invitation names are refused to its inviter. -/
def Database.RefusesRoleOf (db : Database) (i : OrganizationInvitation) : Prop :=
  i.inviterIsPlatformAdmin = false ∧ (db.refusedRole i.organizationId i.roles).isSome

instance (db : Database) (i : OrganizationInvitation) : Decidable (db.RefusesRoleOf i) :=
  inferInstanceAs (Decidable (_ ∧ _))

theorem refusedRole_congr {db db' : Database} (h : db'.roles = db.roles) (organizationId : ℕ)
    (names : List String) :
    db'.refusedRole organizationId names = db.refusedRole organizationId names := by
  induction names with
  | nil => rfl
  | cons name rest ih => simp only [Database.refusedRole, getRoleInScope, h, ih]

/-! ## The trail of a call -/

/-- What a call has done so far, as far as it matters to what it leaves behind: the terms it
has locked, the roles its transaction reads, whether an account is pending and whether more
than the permitted changes are, whether such changes have been committed, and whether an
answer was lost. -/
structure Trail where
  known : List OrganizationInvitation
  roles : Option (List Role)
  opened : Prop
  dirty : Prop
  done : Prop
  lost : Prop

namespace Trail

def start : Trail := ⟨[], none, False, False, False, False⟩

/-- The transaction is over and nothing of it was kept. -/
def dropped (q : Trail) : Trail := { q with roles := none, opened := False, dirty := False }

def wrote (tokenHash : ℕ) (stmt : Stmt) (seen : Database) (q : Trail) : Trail where
  known := match stmt with
    | .org (.lockInvitation _) => seen.invitationTerms
    | _ => q.known
  roles := none
  opened := q.opened ∨ stmt.OpensAccount
  dirty := q.dirty ∨ ¬ stmt.Residual q.known tokenHash
  done := q.done
  lost := q.lost

end Trail

/-- The automaton of an acceptance of the invitation with this token hash, by a call that may
open an account or not. While an account of its own is pending it counts on no role being
refused. -/
def leaving (opens : Prop) (tokenHash : ℕ) : Discipline AuthSig Trail where
  next q ℓ := match ℓ with
    | .read v => { q with roles := some v.roles }
    | .wrote stmt seen _ => q.wrote tokenHash stmt seen
    | .committed => { q.dropped with done := q.done ∨ q.dirty }
    | .commitLost _ | .crashed _ => { q.dropped with lost := True }
    | .rolledBack | .commitFailed _ => q.dropped
    | _ => q
  sees q ℓ := match ℓ with
    | .read v => (∀ roles, q.roles = some roles → v.roles = roles) ∧
        (q.opened → ∀ i ∈ q.known, i.tokenHash = tokenHash → ¬ v.RefusesRoleOf i)
    | _ => True
  may _ ℓ := match ℓ with
    | .wrote stmt _ _ => stmt.InvitesNobody ∧ (stmt.OpensAccount → opens)
    | _ => True

section Runs

variable {ι α : Type} [DecidableEq ι]

/-- What the trail of process `i` says about its connection and about the run so far. -/
structure Trail.Traces (F : Prop) (ok : Sys AuthSig ι α → ι → Label AuthSig → Prop) (i : ι)
    (opens : Prop) (tokenHash : ℕ) (start s : Sys AuthSig ι α) (q : Trail) : Prop where
  pending : rowsGrow.Pending s
  own : ∀ db, ((s.conn i).pend db).invitationTerms = db.invitationTerms
  known : q.known <+: s.db.invitationTerms
  clean : ¬ q.dirty → ∀ db : Database, db.InvitationIdsUnique → q.known <+: db.invitationTerms →
    db.LeavesOnly tokenHash ((s.conn i).pend db)
  opened : q.opened → opens ∧
    ∀ db : Database, db.users.length < ((s.conn i).pend db).users.length
  roles : ∀ roles, q.roles = some roles →
    ∃ v, (s.conn i).snap = some v ∧ ((s.conn i).pend v).roles = roles
  answered : ¬ q.lost
  run : ¬ q.done → Sys.Run F
    (fun s j ℓ => ok s j ℓ ∧ (j = i → s.db.LeavesOnly tokenHash (s.dbAfter j ℓ))) start s

namespace Trail.Traces

variable {F : Prop} {ok : Sys AuthSig ι α → ι → Label AuthSig → Prop} {i : ι} {opens : Prop}
  {tokenHash : ℕ} {start s : Sys AuthSig ι α} {q : Trail}

/-- A step of another process. -/
theorem other (h : Traces F ok i opens tokenHash start s q) {j : ι} {ℓ : Label AuthSig} {p : Op α}
    (hj : j ≠ i) (hok : ok s j ℓ) (hstep : s.Step F j ℓ (s.after j ℓ p)) :
    Traces F ok i opens tokenHash start (s.after j ℓ p) q := by
  obtain ⟨_, _, hen, -⟩ := id hstep
  have hconn : (s.after j ℓ p).conn i = s.conn i := Sys.after_conn_of_ne _ _ _ (Ne.symm hj)
  have hgrow := rowsGrow.after h.pending j ℓ p
  exact
    { pending := h.pending.after rowsGrow hen p
      own := by rw [hconn]; exact h.own
      known := h.known.trans hgrow.1
      clean := by rw [hconn]; exact h.clean
      opened := by rw [hconn]; exact h.opened
      roles := by rw [hconn]; exact h.roles
      answered := h.answered
      run := fun hq => .tail (h.run hq) ⟨hok, fun hji => absurd hji hj⟩ hstep }

/-- A step that ends the transaction of `i`. -/
theorem idle (h : Traces F ok i opens tokenHash start s q) {ℓ : Label AuthSig} {p : Op α}
    {q' : Trail} (hconn : s.connAfter i ℓ = Conn.idle AuthSig) (hok : ok s i ℓ)
    (hstep : s.Step F i ℓ (s.after i ℓ p)) (hknown : q'.known = q.known) (hopened : ¬ q'.opened)
    (hroles : q'.roles = none) (hlost : ¬ q'.lost)
    (hdone : ¬ q'.done → ¬ q.done ∧ s.db.LeavesOnly tokenHash (s.dbAfter i ℓ)) :
    Traces F ok i opens tokenHash start (s.after i ℓ p) q' := by
  obtain ⟨_, _, hen, -⟩ := id hstep
  have hidle : (s.after i ℓ p).conn i = Conn.idle AuthSig := by rw [Sys.after_conn_self, hconn]
  have hgrow := rowsGrow.after h.pending i ℓ p
  exact
    { pending := h.pending.after rowsGrow hen p
      own := by rw [hidle]; exact fun _ => rfl
      known := by rw [hknown]; exact h.known.trans hgrow.1
      clean := by rw [hidle]; exact fun _ db _ _ => .refl _ _
      opened := fun hq => absurd hq hopened
      roles := by rw [hroles]; exact nofun
      answered := hlost
      run := fun hq => .tail (h.run (hdone hq).1) ⟨hok, fun _ => (hdone hq).2⟩ hstep }

/-- A step of `i` that changes neither its pending changes nor the store. -/
theorem quiet (h : Traces F ok i opens tokenHash start s q) {ℓ : Label AuthSig} {p : Op α}
    (hpend : (s.connAfter i ℓ).pend = (s.conn i).pend) (hdb : s.dbAfter i ℓ = s.db)
    (read : Option (List Role))
    (hread : ∀ roles, read = some roles → ∃ v, (s.connAfter i ℓ).snap = some v ∧
      ((s.conn i).pend v).roles = roles)
    (hok : ok s i ℓ) (hstep : s.Step F i ℓ (s.after i ℓ p)) :
    Traces F ok i opens tokenHash start (s.after i ℓ p) { q with roles := read } := by
  obtain ⟨_, _, hen, -⟩ := id hstep
  have hconn : ((s.after i ℓ p).conn i).pend = (s.conn i).pend := by
    rw [Sys.after_conn_self, hpend]
  have hafter : (s.after i ℓ p).db = s.db := hdb
  exact
    { pending := h.pending.after rowsGrow hen p
      own := by rw [hconn]; exact h.own
      known := by rw [hafter]; exact h.known
      clean := by rw [hconn]; exact h.clean
      opened := by rw [hconn]; exact h.opened
      roles := by rw [Sys.after_conn_self, hpend]; exact hread
      answered := h.answered
      run := fun hq => .tail (h.run hq) ⟨hok, fun _ => hdb ▸ .refl _ _⟩ hstep }

/-- A statement of `i`. -/
theorem wrote (h : Traces F ok i opens tokenHash start s q) {stmt : Stmt} {seen : Database}
    {eff : Effect Database RowKey} {p : Op α} (hinvites : stmt.InvitesNobody)
    (hopens : stmt.OpensAccount → opens) (hok : ok s i (.wrote stmt seen eff))
    (hstep : s.Step F i (.wrote stmt seen eff) (s.after i (.wrote stmt seen eff) p)) :
    Traces F ok i opens tokenHash start (s.after i (.wrote stmt seen eff) p)
      (q.wrote tokenHash stmt seen) := by
  obtain ⟨_, _, hen, -⟩ := id hstep
  obtain ⟨hseen, hden, -⟩ := id hen
  have hpend : ((s.after i (.wrote stmt seen eff) p).conn i).pend =
      eff.delta ∘ (s.conn i).pend := by
    rw [Sys.after_conn_self]
    rfl
  have hknown : q.known <+: (q.wrote tokenHash stmt seen).known ∧
      (q.wrote tokenHash stmt seen).known <+: s.db.invitationTerms := by
    have hlatest : seen.invitationTerms = s.db.invitationTerms := by
      rw [hseen]
      exact h.own s.db
    unfold Trail.wrote
    split
    · exact ⟨hlatest ▸ h.known, hlatest ▸ List.prefix_refl _⟩
    · exact ⟨List.prefix_refl _, h.known⟩
  refine
    { pending := h.pending.after rowsGrow hen p
      own := fun db => ?_
      known := hknown.2
      clean := fun hclean db hunique hterms => ?_
      opened := fun hopened => ⟨hopened.elim (fun hq => (h.opened hq).1) hopens, fun db => ?_⟩
      roles := nofun
      answered := h.answered
      run := fun hq => .tail (h.run hq) ⟨hok, fun _ => .refl _ _⟩ hstep }
  · rw [hpend]
    exact (invitationTerms_denote hden hinvites _).trans (h.own db)
  · rw [hpend]
    obtain ⟨hq, hresidual⟩ := not_or.mp hclean
    have hbefore := h.clean hq db hunique (hknown.1.trans hterms)
    refine hbefore.trans ((not_not.mp hresidual).leavesOnly hden
      (hbefore.invitationIdsUnique hunique) ?_)
    rw [h.own]
    exact hknown.1.trans hterms
  · rw [hpend]
    obtain ⟨hle, hlt⟩ := users_length_denote hden ((s.conn i).pend db)
    show db.users.length < (eff.delta ((s.conn i).pend db)).users.length
    rcases hopened with hq | hopens
    · exact ((h.opened hq).2 db).trans_le hle
    · exact (h.pending i db).2.trans_lt (hlt hopens)

end Trail.Traces

/-- The call has an account pending that is not committed. -/
def AccountPending (s : Sys AuthSig ι α) (i : ι) : Prop :=
  s.db.users.length < (s.latest i).users.length

/-- Where the call reads with an account pending, no role of its invitation is refused. -/
def RolesPass (tokenHash : ℕ) (s : Sys AuthSig ι α) (i : ι) : Label AuthSig → Prop
  | .read v => AccountPending s i → ∀ invitation ∈ s.db.organizationInvitations,
      invitation.tokenHash = tokenHash → ¬ v.RefusesRoleOf invitation
  | _ => True

namespace Trail.Traces

variable {F : Prop} {ok : Sys AuthSig ι α → ι → Label AuthSig → Prop} {i : ι} {opens : Prop}
  {tokenHash : ℕ} {start s : Sys AuthSig ι α} {q : Trail}

theorem sees (h : Traces F ok i opens tokenHash start s q) {ℓ : Label AuthSig} (hen : s.Enabled i ℓ)
    (hpass : opens → RolesPass tokenHash s i ℓ) : (leaving opens tokenHash).sees q ℓ := by
  cases ℓ with
  | read v =>
    refine ⟨fun roles hroles => ?_, fun hopened t ht hhash => ?_⟩
    · obtain ⟨snap, hsnap, rfl⟩ := h.roles roles hroles
      rw [show v = s.view i from hen, Sys.view, hsnap]
      rfl
    · obtain ⟨invitation, hmem, rfl⟩ := List.mem_map.mp (h.known.subset ht)
      obtain ⟨hopens, hlength⟩ := h.opened hopened
      exact hpass hopens (hlength s.db) invitation hmem hhash
  | _ => trivial

/-- **A step of the call** and its trail. -/
theorem self (h : Traces F ok i opens tokenHash start s q) {ℓ : Label AuthSig} {p : Op α}
    (hunique : s.db.InvitationIdsUnique) (hanswered : ¬ ℓ.Unanswered) (hok : ok s i ℓ)
    (hvouched : (leaving opens tokenHash).Vouched q ℓ) (hstep : s.Step F i ℓ (s.after i ℓ p)) :
    Traces F ok i opens tokenHash start (s.after i ℓ p) ((leaving opens tokenHash).next q ℓ) := by
  cases ℓ with
  | read v =>
    obtain ⟨_, _, hen, -⟩ := id hstep
    refine h.quiet rfl rfl (some v.roles) (fun roles hroles => ?_) hok hstep
    obtain rfl := Option.some.inj hroles
    exact ⟨_, rfl, by rw [show v = s.view i from hen]; rfl⟩
  | wrote stmt seen eff => exact h.wrote hvouched.1 hvouched.2 hok hstep
  | committed =>
    refine h.idle rfl hok hstep rfl id rfl h.answered fun hdone => ?_
    obtain ⟨hq, hdirty⟩ := not_or.mp hdone
    exact ⟨hq, h.clean hdirty s.db hunique h.known⟩
  | rolledBack => exact h.idle rfl hok hstep rfl id rfl h.answered fun hq => ⟨hq, .refl _ _⟩
  | commitFailed x => exact h.idle rfl hok hstep rfl id rfl h.answered fun hq => ⟨hq, .refl _ _⟩
  | commitLost x => exact absurd trivial hanswered
  | crashed x => exact absurd trivial hanswered
  | _ => exact h.quiet rfl rfl q.roles h.roles hok hstep

end Trail.Traces

/-- A failure is not reported once more than the permitted changes are committed, unless an
answer was lost. -/
def Trail.Settled (r : Except Err α) (q : Trail) : Prop :=
  (∃ x, r = .error x) → q.lost ∨ ¬ q.done

/-- **What a failed call leaves behind.** In no step of its own did the committed state change
but in the permitted ways. -/
theorem leaves_only_of_failed {F : Prop} {ok : Sys AuthSig ι α → ι → Label AuthSig → Prop}
    {db : Database} {now next : ℕ} {proc : ι → Op α} {i : ι} {opens : Prop} {tokenHash : ℕ}
    {s' : Sys AuthSig ι α} {x : Err} (hrun : Sys.Run F ok (Sys.start db now next proc) s')
    (hok : ∀ s ℓ, ok s i ℓ →
      s.db.InvitationIdsUnique ∧ ¬ ℓ.Unanswered ∧ (opens → RolesPass tokenHash s i ℓ))
    (hfol : (proc i).Follows (leaving opens tokenHash) F Trail.Settled Trail.start)
    (hr : (s'.proc i).reply? = some (.error x)) :
    Sys.Run F (fun s j ℓ => ok s j ℓ ∧ (j = i → s.db.LeavesOnly tokenHash (s.dbAfter j ℓ)))
      (Sys.start db now next proc) s' := by
  obtain ⟨q, htrace, hq⟩ := hfol.among
    (Trail.Traces F ok i opens tokenHash (Sys.start db now next proc))
    (fun h hen hi => h.sees hen (hok _ _ hi).2.2)
    (fun h hi hvouched hstep => h.self (hok _ _ hi).1 (hok _ _ hi).2.1 hi hvouched hstep)
    (fun hj h hother hstep => h.other hj hother hstep)
    (fun hi => absurd trivial (hok _ _ hi).2.1)
    { pending := rowsGrow.pending_start db now next proc
      own := fun _ => rfl
      known := List.nil_prefix
      clean := fun _ _ _ _ => .refl _ _
      opened := False.elim
      roles := by intro _ hroles; cases hroles
      answered := id
      run := fun _ => .refl }
    hrun
  rcases hq.reply hr ⟨x, rfl⟩ with hlost | hdone
  · exact absurd hlost htrace.answered
  · exact htrace.run hdone

end Runs

end OmniAuth
