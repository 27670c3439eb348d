import OmniAuth.Login.Decision

/-!
# The organization's policy on second factors

An organization may require a second factor of its members. The decision point asks for
it in one branch only, the one that would hand out tokens at once: a login that is
challenged by mail instead is never asked, neither there nor where the challenge is
answered.
-/

namespace OmniAuth

open Txn Prog

variable {A : AppEnv}

/-- The user has no second factor, and the organization of their primary membership
requires one. -/
def Database.MustEnroll (db : Database) (userId : ℕ) : Prop :=
  (∃ user, db.userById userId = some user ∧ user.mfaEnabled = false) ∧
    db.orgRequiresMfa ((db.resolvePrimaryMembership userId).map (·.organizationId)) = true

/-- **A login, from its decision to its answer.** A challenge may be answered, in a later
request and with anything; in between the world may change in every way that leaves the
user to enroll. -/
inductive LoginFlow (A : AppEnv) (user : User) (login : LoginContext) :
    World → Except Err (LoginReply A) → World → Prop
  | decided {w w' : World} {r : Except Err (LoginReply A)} (client : ClientInfo)
      (mailSent : Bool)
      (run : (generateTokensOrMfaChallenge A user login client mailSent).close.Exec w r w') :
      LoginFlow A user login w r w'
  | answered {w w₁ w₂ w' : World} {challengeToken : A.Token} {methods : List String}
      {r : Except Err (LoginReply A)}
      (flow : LoginFlow A user login w (.ok (.mfaRequired challengeToken methods)) w₁)
      (idle : w₂.cur = w₂.base) (must : w₂.base.MustEnroll user.id) (later : w₁.now ≤ w₂.now)
      (request : ChallengeRequest A) (presented : request.challengeToken = challengeToken)
      (run : (verifyMfaChallenge A request).close.Exec w₂ r w') :
      LoginFlow A user login w r w'

/-- The reply ends a login: it asks for nothing more. -/
def LoginEnds (r : Except Err (LoginReply A)) : Prop :=
  ∀ token methods, r ≠ .ok (.mfaRequired token methods)

theorem Database.mustEnroll_congr {db db' : Database} (userId : ℕ)
    (h : db'.beyondChallenges = db.beyondChallenges) (hdb : db.MustEnroll userId) :
    db'.MustEnroll userId := by
  have hbeyond : db.beyondChallenges.MustEnroll userId := hdb
  rw [← h] at hbeyond
  exact hbeyond

/-- Where mail is asked for, the policy is not. -/
theorem decideLogin_mail {db : Database} {user : User} {login : LoginContext}
    (h : emailMfaRequired A user login = true) : db.decideLogin A user login = .challenge := by
  unfold Database.decideLogin
  rw [if_neg]
  rintro ⟨-, hno⟩
  rw [h] at hno
  cases hno

/-- Where it is not, the policy decides. -/
theorem decideLogin_policy {db : Database} {user : User} {login : LoginContext}
    (hfound : db.userById user.id = some user) (hmust : db.MustEnroll user.id)
    (h : emailMfaRequired A user login = false) : db.decideLogin A user login = .enroll := by
  obtain ⟨⟨u, hu, hoff⟩, horg⟩ := hmust
  obtain rfl : user = u := Option.some.inj (hfound.symm.trans hu)
  unfold Database.decideLogin
  rw [if_pos ⟨hoff, h⟩, if_pos horg]

/-- A challenge answered while the throttle is locked is refused, and not because the
user has to enroll. -/
theorem verifyMfaChallenge_locked {w w' : World} {request : ChallengeRequest A}
    {r : Except Err (LoginReply A)} (hlocked : request.throttle.status.locked = true)
    (h : (verifyMfaChallenge A request).Exec w r w') :
    ∃ x, r = .error x ∧ x ≠ .mfaEnrollmentRequired := by
  simp only [verifyMfaChallenge, bind_eq, exec_time_bind] at h
  obtain ⟨t, -, h⟩ := h
  split at h
  · obtain ⟨rfl, -⟩ := h
    exact ⟨_, rfl, by simp⟩
  rename_i payload _
  split at h
  · obtain ⟨rfl, -⟩ := h
    exact ⟨_, rfl, by simp⟩
  split at h
  · obtain ⟨rfl, -⟩ := h
    exact ⟨_, rfl, by simp⟩
  rename_i hthrottle
  have hnobody : payload.userId = none := by
    simpa [hlocked] using hthrottle
  simp only [exec_query_bind, hnobody, Option.bind_none] at h
  split at h
  · obtain ⟨rfl, -⟩ := h
    exact ⟨_, rfl, by simp⟩
  · obtain ⟨rfl, -⟩ := h
    exact ⟨_, rfl, by simp⟩

/-- **A flow that the policy decides ends where it starts.** -/
theorem LoginFlow.enrolls {user : User} {login : LoginContext} {w w' : World}
    {r : Except Err (LoginReply A)} (h : LoginFlow A user login w r w')
    (hdecided : w.cur.decideLogin A user login = .enroll) :
    r = .error .mfaEnrollmentRequired := by
  induction h with
  | decided client mailSent run =>
    obtain ⟨w₁, hrun, -⟩ := exec_close.mp run
    exact ((decided_enroll hdecided).mp hrun).1
  | answered flow idle must later request presented run ih =>
    -- a login that has to enroll is never challenged
    cases ih

/-- **A login challenged by mail ends otherwise.** -/
theorem exists_loginFlow {user : User} {login : LoginContext} {w : World} (hidle : w.cur = w.base)
    (hmust : w.base.MustEnroll user.id)
    (hdecided : w.cur.decideLogin A user login = .challenge) :
    ∃ r w', LoginFlow A user login w r w' ∧ LoginEnds r ∧ r ≠ .error .mfaEnrollmentRequired := by
  obtain ⟨r, w₁, hrun⟩ :=
    exec_total (generateTokensOrMfaChallenge A user login {} true).close w
  have hflow : LoginFlow A user login w r w₁ := .decided {} true hrun
  obtain ⟨w₀, hdecide, rfl⟩ := exec_close.mp hrun
  have hchallenge := (decided_challenge hdecided).mp hdecide
  match r with
  | .error x =>
    have hx := (challengeLogin_throws user login _ true).exec hchallenge
    refine ⟨.error x, _, hflow, by simp [LoginEnds], ?_⟩
    rintro ⟨⟩
    exact hx
  | .ok (.tokens access refresh) =>
    exact ⟨_, _, hflow, by simp [LoginEnds], by simp⟩
  | .ok (.mfaRequired token methods) =>
    -- what the challenge wrote leaves the user to enroll, so it can be answered
    have hframe := challengeLogin_frame hchallenge (by rw [hidle])
    have hstill : w₀.base.MustEnroll user.id := Database.mustEnroll_congr _ hframe.1 hmust
    let request : ChallengeRequest A :=
      { challengeToken := token, code := "", throttle := { status := ⟨true, 1⟩ } }
    let closed : World := { w₀ with cur := w₀.base }
    have hclosed : closed.cur = closed.base := rfl
    obtain ⟨r', w', hanswer⟩ := exec_total (verifyMfaChallenge A request).close closed
    obtain ⟨w₂, hverify, -⟩ := exec_close.mp hanswer
    obtain ⟨x, rfl, hx⟩ := verifyMfaChallenge_locked rfl hverify
    have hlater : LoginFlow A user login w (.error x) w' :=
      .answered hflow hclosed hstill (Nat.le_refl _) request rfl hanswer
    refine ⟨.error x, w', hlater, ?_, ?_⟩
    · simp [LoginEnds]
    · rintro ⟨⟩
      exact hx rfl

/-- **When the policy is enforced.** For a user who has to enroll, every login that ends
does so with the demand to enroll, unless it is a password login and codes are mailed
to the user: then the policy is not asked. -/
theorem enrollment_enforced_iff {user : User} {login : LoginContext} {w : World}
    (hidle : w.cur = w.base) (hfound : w.base.userById user.id = some user)
    (hmust : w.base.MustEnroll user.id) :
    (∀ r w', LoginFlow A user login w r w' → LoginEnds r → r = .error .mfaEnrollmentRequired) ↔
      ¬ (login.authMethod = .password ∧ isEnabledFor A user = true) := by
  have hmail : emailMfaRequired A user login = true ↔
      login.authMethod = .password ∧ isEnabledFor A user = true := by
    simp [emailMfaRequired]
  rw [← hmail]
  constructor
  · intro hends hrequired
    have hdecided : w.cur.decideLogin A user login = .challenge := decideLogin_mail hrequired
    obtain ⟨r, w', hflow, hend, hother⟩ := exists_loginFlow hidle hmust hdecided
    exact hother (hends r w' hflow hend)
  · intro hno r w' hflow _
    have hdecided : w.cur.decideLogin A user login = .enroll := by
      rw [hidle]
      exact decideLogin_policy hfound hmust (by simpa using hno)
    exact hflow.enrolls hdecided

/-! ## A login the policy does not stop -/

/-- A member without a second factor of an organization that requires one. -/
def unenrolled : User := { id := 1, email := some "ada@lab.org", status := .active }

def requiring : Database := { Database.empty with
  users := [unenrolled]
  organizations := [{ id := 5, slug := "lab", status := .active }]
  memberships := [{ id := 1, organizationId := 5, userId := 1, status := .active, roleIds := [] }]
  organizationMfaPolicies := [{ organizationId := 5, required := true, overrideActive := false }] }

/-- The world when they have given their password. -/
def passwordGiven : World := ⟨requiring, requiring, minutes 1, 10, []⟩

/-- The policy lets them through to a challenge by mail. -/
def mailed : Except Err (LoginReply .symbolic) × World :=
  (generateTokensOrMfaChallenge .symbolic unenrolled { authMethod := .password } {} true).close.run
    passwordGiven

def LoginReply.challenge? : Except Err (LoginReply A) → Option A.Token
  | .ok (.mfaRequired token _) => some token
  | _ => none

/-- The code that was mailed is given back. -/
def mailAnswer : ChallengeRequest .symbolic where
  challengeToken := (LoginReply.challenge? mailed.1).getD (.hs256, {})
  code := "000011"

def mailAnswered : Except Err (LoginReply .symbolic) × World :=
  (verifyMfaChallenge .symbolic mailAnswer).close.run mailed.2

def LoginReply.signsIn : Except Err (LoginReply A) → Bool
  | .ok (.tokens _ _) => true
  | _ => false

/-- The same user by another method has to enroll. -/
theorem enrollment_enforced_oauth :
    requiring.MustEnroll unenrolled.id ∧
      ∀ r w', LoginFlow .symbolic unenrolled { authMethod := .oauth } passwordGiven r w' →
        LoginEnds r → r = .error .mfaEnrollmentRequired := by
  have hmust : requiring.MustEnroll unenrolled.id :=
    ⟨⟨unenrolled, by decide, by decide⟩, by decide⟩
  exact ⟨hmust, (enrollment_enforced_iff rfl (by decide) hmust).mpr (by decide)⟩

/-- **Tokens without enrollment.** -/
theorem enrollment_enforced_bypassed :
    requiring.MustEnroll unenrolled.id ∧
      ∃ r w', LoginFlow .symbolic unenrolled { authMethod := .password } passwordGiven r w' ∧
        ∃ access refresh, r = .ok (.tokens access refresh) := by
  have hmust : requiring.MustEnroll unenrolled.id :=
    ⟨⟨unenrolled, by decide, by decide⟩, by decide⟩
  refine ⟨hmust, mailAnswered.1, mailAnswered.2, ?_, ?_⟩
  · have hfirst : LoginFlow .symbolic unenrolled { authMethod := .password } passwordGiven
        mailed.1 mailed.2 := .decided {} true (exec_run _ _)
    have hreply : ∃ methods, mailed.1 = .ok (.mfaRequired mailAnswer.challengeToken methods) := by
      exact ⟨["email"], by rfl⟩
    obtain ⟨methods, hreply⟩ := hreply
    rw [hreply] at hfirst
    refine .answered hfirst (by decide) ?_ (Nat.le_refl _) mailAnswer rfl (exec_run _ _)
    exact ⟨⟨unenrolled, by decide, by decide⟩, by decide⟩
  · have hsigned : LoginReply.signsIn mailAnswered.1 = true := by decide
    match hr : mailAnswered.1 with
    | .ok (.tokens access refresh) => exact ⟨access, refresh, rfl⟩
    | .ok (.mfaRequired _ _) =>
      rw [hr] at hsigned
      cases hsigned
    | .error _ =>
      rw [hr] at hsigned
      cases hsigned

end OmniAuth
