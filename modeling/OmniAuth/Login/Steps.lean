import OmniAuth.Login.Decision
import OmniAuth.Login.Routes

/-!
# The steps of a login

What the statements of an entry point do to the rows a login is about. Before the
decision an entry point may create accounts, identities, memberships and licences' uses,
but no session and no challenge; from the decision on, everything it writes is for the
user it decided about.
-/

namespace OmniAuth

open Txn Prog

variable {A : AppEnv} {F : Prop} {w w' : World}

/-! ## Accounts -/

/-- What the decision reads of an account is the same. -/
structure User.SameAccount (u u' : User) : Prop where
  id : u'.id = u.id
  email : u'.email = u.email
  status : u'.status = u.status
  mfaEnabled : u'.mfaEnabled = u.mfaEnabled

theorem User.SameAccount.refl (u : User) : u.SameAccount u := ⟨rfl, rfl, rfl, rfl⟩

theorem User.SameAccount.trans {u u' u'' : User} (h : u.SameAccount u') (h' : u'.SameAccount u'') :
    u.SameAccount u'' :=
  ⟨h'.id.trans h.id, h'.email.trans h.email, h'.status.trans h.status,
    h'.mfaEnabled.trans h.mfaEnabled⟩

/-- Statements that keep what the decision reads of an account. -/
def Stmt.KeepsAccounts : Stmt → Prop
  | setStatus _ _ _ _ _ => False
  | .mfa (.updateMfa _ columns) => columns.enabled = none
  | _ => True

/-- The user is there, with what `user` has. -/
def Database.HasAccount (db : Database) (user : User) : Prop :=
  ∃ u, db.userById user.id = some u ∧ user.SameAccount u

theorem Database.hasAccount_updateUser {db : Database} {user : User} {id : ℕ} {f : User → User}
    (hf : ∀ u : User, u.SameAccount (f u)) (h : db.HasAccount user) :
    (db.updateUser id f).HasAccount user := by
  obtain ⟨u, hu, hsame⟩ := h
  have hkeep : ∀ v : User, decide ((if v.id = id then f v else v).id = user.id) =
      decide (v.id = user.id) := by
    intro v
    by_cases hv : v.id = id
    · rw [if_pos hv, (hf v).id]
    · rw [if_neg hv]
  have hfind : (db.updateUser id f).userById user.id =
      (db.userById user.id).map fun v => if v.id = id then f v else v := by
    simp only [Database.userById, Database.updateUser, List.find?_map, Function.comp_def, hkeep]
  rw [hu] at hfind
  refine ⟨_, hfind, hsame.trans ?_⟩
  by_cases hv : u.id = id
  · simp only [if_pos hv]
    exact hf u
  · simp only [if_neg hv]
    exact .refl u

theorem Database.hasAccount_of_users {db db' : Database} {user : User} (h : db'.users = db.users)
    (hu : db.HasAccount user) : db'.HasAccount user := by
  unfold Database.HasAccount Database.userById at *
  rwa [h]

/-- **Accounts are kept.** -/
theorem Stmt.KeepsAccounts.account {stmt : Stmt} {seen : Database} {eff : Effect Database RowKey}
    {user : User} (hk : stmt.KeepsAccounts) (h : denote stmt seen = .ok eff)
    (hu : seen.HasAccount user) : (eff.delta seen).HasAccount user := by
  cases stmt with
  | setStatus userId status t reason actor => exact hk.elim
  | touchLogin userId t method =>
    obtain rfl := Except.ok.inj h
    exact Database.hasAccount_updateUser (fun _ => ⟨rfl, rfl, rfl, rfl⟩) hu
  | credential stmt =>
    have husers := congrArg Database.users (CredentialStmt.frame h seen)
    exact Database.hasAccount_of_users husers hu
  | org stmt =>
    have husers := congrArg Database.users (OrgStmt.frame h seen)
    exact Database.hasAccount_of_users husers hu
  | account stmt =>
    cases stmt with
    | insertUser row =>
      simp only [denote, AccountStmt.denote] at h
      split at h
      · cases h
      · obtain rfl := Except.ok.inj h
        obtain ⟨u, hu, hsame⟩ := hu
        refine ⟨u, ?_, hsame⟩
        simp only [Database.userById, List.find?_append] at hu ⊢
        rw [hu]
        rfl
    | assignUserRole userId roleId =>
      obtain rfl := Except.ok.inj h
      exact Database.hasAccount_updateUser (fun _ => ⟨rfl, rfl, rfl, rfl⟩) hu
    | setPassword userId hash =>
      obtain rfl := Except.ok.inj h
      exact Database.hasAccount_updateUser (fun _ => ⟨rfl, rfl, rfl, rfl⟩) hu
    | _ =>
      simp only [denote, AccountStmt.denote] at h
      try split at h
      all_goals
        cases h
        try exact hu
  | mfa stmt =>
    cases stmt with
    | updateMfa userId columns =>
      obtain rfl := Except.ok.inj h
      have hoff : columns.enabled = none := hk
      refine Database.hasAccount_updateUser (fun u => ⟨rfl, rfl, rfl, ?_⟩) hu
      simp only [User.setMfa, hoff, Option.getD_none]
    | _ =>
      simp only [denote, MfaStmt.denote] at h
      try split at h
      all_goals
        cases h
        try exact hu
  | _ =>
    simp only [denote] at h
    try split at h
    all_goals
      cases h
      try exact hu

/-! ## Rows of logins -/

/-- The challenges of a user on the audit trail. -/
def Database.challengesOf (db : Database) (userId : ℕ) : ℕ :=
  (db.auditEvents.filter fun e =>
    e.eventType = .mfaChallengeRequired ∧ e.targetUserId = some userId).length

/-- No login since: the tokens, the sessions and the challenges are the same. -/
structure Database.SameLogins (db db' : Database) : Prop where
  tokens : db'.refreshTokens = db.refreshTokens
  sessions : db'.sessions = db.sessions
  challenges : ∀ userId, db'.challengesOf userId = db.challengesOf userId

/-- Logins since were of the one user. -/
structure Database.LoginsOf (db : Database) (userId : ℕ) (db' : Database) : Prop where
  tokens : ∀ r' ∈ db'.refreshTokens,
    (∃ r ∈ db.refreshTokens, r.id = r'.id ∧ r.userId = r'.userId) ∨ r'.userId = userId
  sessions : ∀ s' ∈ db'.sessions,
    (∃ s ∈ db.sessions, s.id = s'.id ∧ s.userId = s'.userId) ∨ s'.userId = userId
  challenges : ∀ u, u ≠ userId → db'.challengesOf u = db.challengesOf u

theorem Database.SameLogins.refl (db : Database) : db.SameLogins db := ⟨rfl, rfl, fun _ => rfl⟩

theorem Database.sameLogins_of_eq {db db' : Database} (ht : db'.refreshTokens = db.refreshTokens)
    (hs : db'.sessions = db.sessions) (he : db'.auditEvents = db.auditEvents) :
    db.SameLogins db' := by
  refine ⟨ht, hs, fun u => ?_⟩
  unfold Database.challengesOf
  rw [he]

theorem Database.SameLogins.trans {a b c : Database} (h : a.SameLogins b) (h' : b.SameLogins c) :
    a.SameLogins c :=
  ⟨h'.tokens.trans h.tokens, h'.sessions.trans h.sessions,
    fun u => (h'.challenges u).trans (h.challenges u)⟩

theorem Database.SameLogins.loginsOf {db db' : Database} (h : db.SameLogins db') (userId : ℕ) :
    db.LoginsOf userId db' := by
  refine ⟨fun r' hr' => .inl ⟨r', ?_, rfl, rfl⟩, fun s' hs' => .inl ⟨s', ?_, rfl, rfl⟩,
    fun u _ => h.challenges u⟩
  · rwa [h.tokens] at hr'
  · rwa [h.sessions] at hs'

theorem Database.LoginsOf.trans {a b c : Database} {userId : ℕ} (h : a.LoginsOf userId b)
    (h' : b.LoginsOf userId c) : a.LoginsOf userId c := by
  refine ⟨fun r'' hr'' => ?_, fun s'' hs'' => ?_,
    fun u hu => (h'.challenges u hu).trans (h.challenges u hu)⟩
  · rcases h'.tokens r'' hr'' with ⟨r', hr', hid', huser'⟩ | hown
    · rcases h.tokens r' hr' with ⟨r, hr, hid, huser⟩ | hown
      · exact .inl ⟨r, hr, hid.trans hid', huser.trans huser'⟩
      · exact .inr (huser'.symm.trans hown)
    · exact .inr hown
  · rcases h'.sessions s'' hs'' with ⟨s', hs', hid', huser'⟩ | hown
    · rcases h.sessions s' hs' with ⟨s, hs, hid, huser⟩ | hown
      · exact .inl ⟨s, hs, hid.trans hid', huser.trans huser'⟩
      · exact .inr (huser'.symm.trans hown)
    · exact .inr hown

/-- Statements that may stand beside a login: they write no token, no session and no
challenge. -/
def Stmt.Beside : Stmt → Prop
  | insertAuditEvent event => event.eventType ≠ .mfaChallengeRequired
  | touchLogin _ _ _ | lockActiveSessions _ => True
  | .account _ | .org _ => True
  | .mfa (.updateMfa _ columns) => columns.enabled = none
  | .mfa _ => True
  | _ => False

/-- Statements of a login of the user. -/
def Stmt.For (userId : ℕ) : Stmt → Prop
  | insertRefreshToken row => row.userId = userId
  | insertSession row => row.userId = userId
  | insertAuditEvent event =>
      event.eventType = .mfaChallengeRequired → event.targetUserId = some userId
  | setStatus _ _ _ _ _ | touchSession _ _ _ => False
  | .mfa (.updateMfa _ columns) => columns.enabled = none
  | _ => True

theorem Stmt.Beside.for {stmt : Stmt} (h : stmt.Beside) (userId : ℕ) : stmt.For userId := by
  cases stmt with
  | insertAuditEvent event =>
    intro hchallenge
    exact absurd hchallenge h
  | mfa stmt => cases stmt <;> exact h
  | _ => first | exact h.elim | trivial

theorem Stmt.For.keepsAccounts {stmt : Stmt} {userId : ℕ} (h : stmt.For userId) :
    stmt.KeepsAccounts := by
  cases stmt with
  | setStatus userId status t reason actor => exact h.elim
  | mfa stmt => cases stmt <;> exact h
  | _ => trivial

theorem Database.challengesOf_insertAudit (db : Database) (event : AuditEvent) (u : ℕ) :
    (db.insertAudit event).challengesOf u = db.challengesOf u +
      if event.eventType = .mfaChallengeRequired ∧ event.targetUserId = some u then 1 else 0 := by
  unfold Database.challengesOf Database.insertAudit
  rw [List.filter_append, List.length_append]
  by_cases h : event.eventType = .mfaChallengeRequired ∧ event.targetUserId = some u
  · simp [h]
  · rw [if_neg h]
    simp [h]

theorem Stmt.Beside.sameLogins {stmt : Stmt} {seen : Database} {eff : Effect Database RowKey}
    (hb : stmt.Beside) (h : denote stmt seen = .ok eff) : seen.SameLogins (eff.delta seen) := by
  cases stmt with
  | insertAuditEvent event =>
    obtain rfl := Except.ok.inj h
    refine ⟨rfl, rfl, fun u => ?_⟩
    have hother : ¬ (event.eventType = .mfaChallengeRequired ∧ event.targetUserId = some u) :=
      fun hchallenge => hb hchallenge.1
    rw [Database.challengesOf_insertAudit, if_neg hother]
    rfl
  | account stmt =>
    have htokens := congrArg Database.refreshTokens (AccountStmt.frame h seen)
    have hsessions := congrArg Database.sessions (AccountStmt.frame h seen)
    have hevents := congrArg Database.auditEvents (AccountStmt.frame h seen)
    exact Database.sameLogins_of_eq htokens hsessions hevents
  | org stmt =>
    have htokens := congrArg Database.refreshTokens (OrgStmt.frame h seen)
    have hsessions := congrArg Database.sessions (OrgStmt.frame h seen)
    have hevents := congrArg Database.auditEvents (OrgStmt.frame h seen)
    exact Database.sameLogins_of_eq htokens hsessions hevents
  | mfa stmt =>
    cases stmt <;> simp only [denote, MfaStmt.denote] at h <;> (try split at h) <;> cases h <;>
      exact ⟨rfl, rfl, fun _ => rfl⟩
  | touchLogin userId t method =>
    obtain rfl := Except.ok.inj h
    exact ⟨rfl, rfl, fun _ => rfl⟩
  | lockActiveSessions userId =>
    obtain rfl := Except.ok.inj h
    exact .refl _
  | _ => exact hb.elim

theorem Database.loginsOf_updateTokens (db : Database) (ids : List ℕ)
    {f : RefreshToken → RefreshToken} (hid : ∀ r, (f r).id = r.id)
    (huser : ∀ r, (f r).userId = r.userId) (userId : ℕ) :
    db.LoginsOf userId (db.updateTokens ids f) := by
  refine ⟨?_, (Database.SameLogins.refl db).loginsOf userId |>.sessions, fun _ _ => rfl⟩
  rw [Database.forall_updateTokens]
  intro r hr
  exact ⟨fun _ => .inl ⟨r, hr, (hid r).symm, (huser r).symm⟩, fun _ => .inl ⟨r, hr, rfl, rfl⟩⟩

/-- **What is written for a user shows no login of another.** -/
theorem Stmt.For.loginsOf {stmt : Stmt} {seen : Database} {eff : Effect Database RowKey}
    {userId : ℕ} (hf : stmt.For userId) (h : denote stmt seen = .ok eff) :
    seen.LoginsOf userId (eff.delta seen) := by
  have hsame := Database.SameLogins.refl seen
  cases stmt with
  | insertRefreshToken row =>
    simp only [denote] at h
    split at h
    · cases h
    obtain rfl := Except.ok.inj h
    refine ⟨fun r' hr' => ?_, (hsame.loginsOf userId).sessions, fun _ _ => rfl⟩
    rcases List.mem_append.mp hr' with hr' | hr'
    · exact .inl ⟨r', hr', rfl, rfl⟩
    · obtain rfl := List.mem_singleton.mp hr'
      exact .inr hf
  | insertSession row =>
    simp only [denote] at h
    split at h
    · cases h
    obtain rfl := Except.ok.inj h
    refine ⟨(hsame.loginsOf userId).tokens, fun s' hs' => ?_, fun _ _ => rfl⟩
    rcases List.mem_append.mp hs' with hs' | hs'
    · exact .inl ⟨s', hs', rfl, rfl⟩
    · obtain rfl := List.mem_singleton.mp hs'
      exact .inr hf
  | insertAuditEvent event =>
    obtain rfl := Except.ok.inj h
    refine ⟨(hsame.loginsOf userId).tokens, (hsame.loginsOf userId).sessions, fun u hu => ?_⟩
    have hother : ¬ (event.eventType = .mfaChallengeRequired ∧ event.targetUserId = some u) := by
      rintro ⟨htype, htarget⟩
      exact hu (Option.some.inj (htarget.symm.trans (hf htype)))
    rw [Database.challengesOf_insertAudit, if_neg hother]
    rfl
  | revokeRefreshToken id =>
    obtain rfl := Except.ok.inj h
    exact seen.loginsOf_updateTokens [id] (f := RefreshToken.revoke) (fun _ => rfl) (fun _ => rfl)
      userId
  | rotateRefreshToken id t backfill =>
    obtain rfl := Except.ok.inj h
    exact seen.loginsOf_updateTokens [id] (f := RefreshToken.rotate t backfill) (fun _ => rfl)
      (fun _ => rfl) userId
  | revokeFamily f =>
    obtain rfl := Except.ok.inj h
    exact seen.loginsOf_updateTokens _ (f := RefreshToken.revoke) (fun _ => rfl) (fun _ => rfl)
      userId
  | revokeSession id t reason =>
    obtain rfl := Except.ok.inj h
    refine ⟨(hsame.loginsOf userId).tokens, ?_, fun _ _ => rfl⟩
    rw [Database.forall_updateSession]
    intro s hs
    exact ⟨fun _ => .inl ⟨s, hs, rfl, rfl⟩, fun _ => .inl ⟨s, hs, rfl, rfl⟩⟩
  | credential stmt =>
    have htokens := congrArg Database.refreshTokens (CredentialStmt.frame h seen)
    have hsessions := congrArg Database.sessions (CredentialStmt.frame h seen)
    have hevents := congrArg Database.auditEvents (CredentialStmt.frame h seen)
    have hkept : seen.SameLogins (eff.delta seen) :=
      Database.sameLogins_of_eq htokens hsessions hevents
    exact hkept.loginsOf userId
  | mfa stmt =>
    have hbeside : (Stmt.mfa stmt).Beside := by
      cases stmt <;> exact hf
    exact (hbeside.sameLogins h).loginsOf userId
  | setStatus u status t reason actor => exact hf.elim
  | touchSession id t e => exact hf.elim
  | touchLogin u t method =>
    have hbeside : (Stmt.touchLogin u t method).Beside := trivial
    exact (hbeside.sameLogins h).loginsOf userId
  | lockActiveSessions u =>
    have hbeside : (Stmt.lockActiveSessions u).Beside := trivial
    exact (hbeside.sameLogins h).loginsOf userId
  | account stmt =>
    have hbeside : (Stmt.account stmt).Beside := trivial
    exact (hbeside.sameLogins h).loginsOf userId
  | org stmt =>
    have hbeside : (Stmt.org stmt).Beside := trivial
    exact (hbeside.sameLogins h).loginsOf userId

end OmniAuth
