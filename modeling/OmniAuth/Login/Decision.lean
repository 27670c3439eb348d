import OmniAuth.Txn.Triple
import OmniAuth.Login.Service
import OmniAuth.Mfa.SingleUse

/-!
# What a login is decided to be

`generate_tokens_or_mfa_challenge` comes to one of three: tokens, a challenge, or the
refusal that sends the user to enroll. Which one is a function of the account, of the
login and of the database it is asked in. A challenge writes no session and changes no
account: only the audit trail and the rows of the mailed codes.
-/

namespace OmniAuth

open Txn Prog

variable {A : AppEnv} {w w' : World}

inductive Decision
  | issue
  | challenge
  | enroll
  deriving DecidableEq

/-- The decision of `generate_tokens_or_mfa_challenge`. -/
def Database.decideLogin (A : AppEnv) (db : Database) (user : User) (login : LoginContext) :
    Decision :=
  if user.mfaEnabled = false ∧ emailMfaRequired A user login = false then
    if db.orgRequiresMfa ((db.resolvePrimaryMembership user.id).map (·.organizationId)) then
      .enroll
    else .issue
  else .challenge

section

variable {user : User} {login : LoginContext} {client : ClientInfo} {mailSent : Bool}
  {r : Except Err (LoginReply A)}

theorem decided_enroll (h : w.cur.decideLogin A user login = .enroll) :
    (generateTokensOrMfaChallenge A user login client mailSent).Exec w r w' ↔
      r = .error .mfaEnrollmentRequired ∧ w' = w := by
  simp only [Database.decideLogin] at h
  split at h
  · rename_i hdirect
    split at h
    · rename_i horg
      simp only [generateTokensOrMfaChallenge, bind_eq, exec_query_bind, if_pos hdirect,
        if_pos horg, exec_raise]
    · cases h
  · cases h

/-- The tokens of a login that nothing stands in the way of. -/
def issueTokens (A : AppEnv) (user : User) (login : LoginContext) (client : ClientInfo) :
    Op (A.Token × A.Token) :=
  generateTokens A.toEnv user login.authMethod login.idpOrgId
    { client with
      samlNameId := login.samlNameId
      samlSessionIndex := login.samlSessionIndex
      organizationSamlConfigId := login.organizationSamlConfigId }

theorem decided_issue (h : w.cur.decideLogin A user login = .issue) :
    (generateTokensOrMfaChallenge A user login client mailSent).Exec w r w' ↔
      ((issueTokens A user login client).bind fun tokens =>
        ret (.tokens tokens.1 tokens.2)).Exec w r w' := by
  simp only [Database.decideLogin] at h
  split at h
  · rename_i hdirect
    split at h
    · cases h
    · rename_i horg
      simp only [generateTokensOrMfaChallenge, bind_eq, exec_query_bind, if_pos hdirect,
        if_neg horg, pure_eq, issueTokens]
  · cases h

theorem decided_challenge (h : w.cur.decideLogin A user login = .challenge) :
    (generateTokensOrMfaChallenge A user login client mailSent).Exec w r w' ↔
      (challengeLogin A user login
        ((w.cur.resolvePrimaryMembership user.id).map (·.organizationId)) mailSent).Exec w r w' := by
  simp only [Database.decideLogin] at h
  split at h
  · split at h <;> cases h
  · rename_i hdirect
    simp only [generateTokensOrMfaChallenge, bind_eq, exec_query_bind, if_neg hdirect]

end

/-! ## The exceptions of a challenge -/

/-- What a challenge may fail with. -/
def Err.OfChallenge : Err → Prop
  | .database | .emailMfaUnavailable | .emailMfaChallenge | .emailMfaResendLimited _ => True
  | _ => False

theorem logEvent_throws {P : Err → Prop} (event : AuditEvent) (commit : Bool) :
    (logEvent event commit).Throws P := by
  intro t
  refine ⟨fun seen => ?_, fun seen x hx => by cases hx⟩
  cases commit <;> trivial

theorem refreshUser_throws {P : Err → Prop} (hP : P .database) (userId : ℕ) :
    (refreshUser userId).Throws P := by
  refine throws_query.bind fun user => ?_
  cases user with
  | none => exact hP
  | some user => trivial

theorem sendCode_throws (user : User) (jti now : ℕ) (resend mailSent : Bool) :
    (sendCode A user jti now resend mailSent).Throws Err.OfChallenge := by
  unfold sendCode
  refine throws_draw.bind fun n => ?_
  split
  · trivial
  refine Throws.orElse (P := fun _ => True) ?_ fun _ _ => trivial
  refine throws_draw.bind fun id => ?_
  refine Throws.bind (throws_returning fun _ _ _ => trivial) fun _ => ?_
  split
  · trivial
  · exact (logEvent_throws _ _).bind fun _ => trivial

theorem issueCode_throws (user : User) (challengeToken : A.Token) (resend mailSent : Bool) :
    (issueCode A user challengeToken resend mailSent).Throws Err.OfChallenge := by
  unfold issueCode
  split
  · trivial
  refine throws_time.bind fun now => ?_
  split
  · trivial
  split
  · trivial
  refine throws_query.bind fun revoked => ?_
  split
  · trivial
  refine Throws.bind (throws_returning fun _ _ hx => by cases hx) fun _ => ?_
  refine throws_time.bind fun now => ?_
  refine throws_query.bind fun limit => ?_
  split
  · trivial
  refine Throws.bind (throws_returning fun _ _ hx => by cases hx) fun _ => ?_
  exact (sendCode_throws _ _ _ _ _).bind fun _ => trivial

theorem challengeLogin_throws (user : User) (login : LoginContext) (organizationId : Option ℕ)
    (mailSent : Bool) :
    (challengeLogin A user login organizationId mailSent).Throws Err.OfChallenge := by
  unfold challengeLogin
  refine Throws.bind (p := createMfaChallengeToken _ _ _ _) (fun _ _ => trivial) fun token => ?_
  refine (logEvent_throws _ _).bind fun _ => ?_
  refine (refreshUser_throws trivial _).bind fun fresh => ?_
  split
  · exact (issueCode_throws _ _ _ _).bind fun _ => trivial
  · trivial

/-! ## The writes of a challenge -/

/-- Statements of a challenge: the audit row and the mailed code. -/
def Stmt.OfChallenge : Stmt → Prop
  | insertAuditEvent _ => True
  | .mfa (.lockUser _) | .mfa (.insertEmailOtp _) | .mfa (.invalidateEmailOtps _ _) => True
  | _ => False

/-- What a challenge leaves alone: the other tables. -/
def Database.beyondChallenges (db : Database) : Database :=
  { db with auditEvents := [], mfaEmailOtps := [] }

theorem Stmt.OfChallenge.frame {stmt : Stmt} {seen : Database} {eff : Effect Database RowKey}
    (hstmt : stmt.OfChallenge) (h : denote stmt seen = .ok eff) (db : Database) :
    (eff.delta db).beyondChallenges = db.beyondChallenges := by
  cases stmt with
  | insertAuditEvent event =>
    obtain rfl := Except.ok.inj h
    rfl
  | mfa stmt =>
    cases stmt with
    | lockUser userId =>
      obtain rfl := Except.ok.inj h
      rfl
    | insertEmailOtp row =>
      simp only [denote, MfaStmt.denote] at h
      split at h <;> cases h
      rfl
    | invalidateEmailOtps userId now =>
      obtain rfl := Except.ok.inj h
      rfl
    | _ => exact hstmt.elim
  | _ => exact hstmt.elim

/-- An audit row does nothing but log, so its writer is in any class of programs
that allows it. -/
theorem logEvent_executing {F : Prop} {P : Stmt → Prop} {event : AuditEvent}
    (hP : ∀ t, P (.insertAuditEvent { event with createdAt := t })) (commit : Bool) :
    (logEvent event commit).Within F (Executing P) := by
  refine (executing_of_reading time_within).bind fun t => ?_
  refine Within.bind (execute_executing (hP _)) fun _ => ?_
  cases commit with
  | false => trivial
  | true => exact commitNow_executing.orElse fun _ => ⟨trivial, trivial⟩

/-- Statements that mail a code: of the audit rows, none is a challenge's. -/
def Stmt.OfMail (stmt : Stmt) : Prop :=
  stmt.OfChallenge ∧ ∀ event, stmt = .insertAuditEvent event →
    event.eventType ≠ .mfaChallengeRequired

theorem Stmt.ofMail_mfa {stmt : MfaStmt} (h : (Stmt.mfa stmt).OfChallenge) :
    (Stmt.mfa stmt).OfMail := ⟨h, fun _ heq => by cases heq⟩

theorem issueCode_within {F : Prop} (user : User) (challengeToken : A.Token)
    (resend mailSent : Bool) :
    (issueCode A user challengeToken resend mailSent).Within F (Executing Stmt.OfMail) := by
  unfold issueCode
  split
  · trivial
  refine (executing_of_reading time_within).bind fun now => ?_
  split
  · trivial
  split
  · trivial
  refine (executing_of_reading (query_within _)).bind fun revoked => ?_
  split
  · trivial
  refine Within.bind (execute_executing (Stmt.ofMail_mfa trivial)) fun _ => ?_
  refine (executing_of_reading time_within).bind fun now => ?_
  refine (executing_of_reading (query_within _)).bind fun limit => ?_
  split
  · trivial
  refine Within.bind (execute_executing (Stmt.ofMail_mfa trivial)) fun _ => ?_
  refine Within.bind ?_ fun _ => trivial
  unfold sendCode
  refine (executing_of_reading draw_within).bind fun n => ?_
  split
  · trivial
  refine Within.orElse ?_ fun _ => ⟨trivial, trivial⟩
  refine (executing_of_reading draw_within).bind fun id => ?_
  refine Within.bind (execute_executing (Stmt.ofMail_mfa trivial)) fun _ => ?_
  split
  · trivial
  · refine (logEvent_executing (fun t => ⟨trivial, ?_⟩) _).bind fun _ => commitNow_executing
    rintro event ⟨⟩
    cases resend <;> simp

theorem challengeLogin_within {F : Prop} (user : User) (login : LoginContext)
    (organizationId : Option ℕ) (mailSent : Bool) :
    (challengeLogin A user login organizationId mailSent).Within F
      (Executing Stmt.OfChallenge) := by
  unfold challengeLogin
  refine (executing_of_reading (createMfaChallengeToken_within _ _ _)).bind fun token => ?_
  refine (logEvent_executing (fun _ => trivial) _).bind fun _ => ?_
  refine (executing_of_reading (refreshUser_within _)).bind fun fresh => ?_
  split
  · exact (executing_mono (issueCode_within _ _ _ _) fun _ h => h.1).bind fun _ => trivial
  · trivial

/-- **A challenge leaves the other tables alone.** -/
theorem challengeLogin_frame {user : User} {login : LoginContext} {organizationId : Option ℕ}
    {mailSent : Bool} {r : Except Err (LoginReply A)}
    (h : (challengeLogin A user login organizationId mailSent).Exec w r w')
    (hw : w.cur.beyondChallenges = w.base.beyondChallenges) :
    w'.base.beyondChallenges = w.base.beyondChallenges ∧
      w'.cur.beyondChallenges = w'.base.beyondChallenges :=
  (challengeLogin_within (F := True) user login organizationId mailSent).exec
    (R := fun db db' : Database => db'.beyondChallenges = db.beyondChallenges) (fun _ => rfl)
    (fun hab hbc => hbc.trans hab) (fun hstmt hden => Stmt.OfChallenge.frame hstmt hden _) h hw

end OmniAuth
