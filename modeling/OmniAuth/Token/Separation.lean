import OmniAuth.Session.Family
import OmniAuth.Session.Steps
import OmniAuth.Token.Blacklist

/-!
# Kinds of tokens

`get_current_user` turns token kinds away one by one, after it has asked the
revocation stores about the `jti` and the database about the `sub`. Of the
kinds `app/core/jwt.py` mints beside the access tokens of users, the delegated,
challenge, enrollment and service tokens are turned away; refresh tokens, the
state tokens of the login redirects and link tokens are not. Revoking a refresh
token in the `refresh_tokens` table changes nothing of that, since
`get_current_user` does not read that table.
-/

namespace OmniAuth

open Txn Prog

/-! ## What is minted -/

/-- The functions of `app/core/jwt.py` that mint something else than an access
token of a user. -/
inductive MintRequest
  | refresh (data : Claims)
  | delegatedExecution (clientId : String) (userId organizationId : ℕ)
      (permissions : List String) (delegationId : ℕ)
  | toolserverRegistration (clientId : String) (organizationId registrationId : ℕ)
  | oauthState (provider : String) (codeVerifier : Option String)
  | ssoState (organizationId organizationSsoConfigId : ℕ) (codeVerifier nonce : String)
  | samlRelayState (organizationId organizationSamlConfigId : ℕ) (requestId : String)
  | samlSloRelayState (organizationId organizationSamlConfigId : ℕ) (requestId : String)
  | serviceAccess (data : Claims) (expiresMinutes : ℕ)
  | mfaChallenge (userId : ℕ) (login : LoginContext) (requiredStage : Option Stage)
  | mfaEnrollment (userId tokenJti : ℕ) (expiresAt : Option ℕ)
  | link (userId : ℕ) (provider providerUserId email : String)
      (organizationSsoConfigId organizationSamlConfigId idpOrgId : Option ℕ)

namespace MintRequest

def mint (E : Env) : MintRequest → Op E.Token
  | refresh data => createRefreshToken E data
  | delegatedExecution clientId userId organizationId permissions delegationId =>
      createDelegatedExecutionToken E clientId userId organizationId permissions delegationId
  | toolserverRegistration clientId organizationId registrationId =>
      createToolserverRegistrationToken E clientId organizationId registrationId
  | oauthState provider codeVerifier => createOauthStateToken E provider codeVerifier
  | ssoState organizationId configId codeVerifier nonce =>
      createSsoStateToken E organizationId configId codeVerifier nonce
  | samlRelayState organizationId configId requestId =>
      createSamlRelayStateToken E organizationId configId requestId
  | samlSloRelayState organizationId configId requestId =>
      createSamlSloRelayStateToken E organizationId configId requestId
  | serviceAccess data expiresMinutes => createServiceAccessToken E data expiresMinutes
  | mfaChallenge userId login requiredStage => createMfaChallengeToken E userId login requiredStage
  | mfaEnrollment userId tokenJti expiresAt => createMfaEnrollmentToken E userId tokenJti expiresAt
  | link userId provider providerUserId email ssoConfigId samlConfigId idpOrgId =>
      createLinkToken E userId provider providerUserId email ssoConfigId samlConfigId idpOrgId

/-- The requests whose tokens are turned away for what they are. The audience
of a registration token keeps it out as long as it is not the platform's own. -/
def TurnedAway (E : Env) : MintRequest → Prop
  | refresh data | serviceAccess data _ => data.authMethod = some .clientCredentials
  | delegatedExecution .. | mfaChallenge .. | mfaEnrollment .. => True
  | toolserverRegistration .. => E.jwtAudience ≠ "omnibioai-toolserver"
  | _ => False

variable {E : Env} {w w' : World} {token : E.Token}

/-- **What a minted token is**: signed claims, that are barred, or are for
another audience, exactly when the request is turned away. -/
theorem signed {m : MintRequest} (h : (m.mint E).Exec w (.ok token) w') :
    ∃ c : Claims, token = sign E c ∧
      (m.TurnedAway E → c.Barred ∨ ∃ a, c.aud = some a ∧ a ≠ E.jwtAudience) ∧
      (c.Barred → m.TurnedAway E) := by
  cases m with
  | refresh data =>
    simp only [mint, createRefreshToken, bind_eq, exec_time_bind, exec_draw_bind] at h
    obtain ⟨t, -, h, -⟩ := h
    refine ⟨_, Except.ok.inj h, fun hc => .inl (.inl hc), ?_⟩
    rintro (hc | hc | hc | hc)
    · exact hc
    all_goals cases hc
  | serviceAccess data expiresMinutes =>
    simp only [mint, createServiceAccessToken, bind_eq, exec_time_bind, exec_draw_bind] at h
    obtain ⟨t, -, h, -⟩ := h
    refine ⟨_, Except.ok.inj h, fun hc => .inl (.inl hc), ?_⟩
    rintro (hc | hc | hc | hc)
    · exact hc
    all_goals cases hc
  | delegatedExecution clientId userId organizationId permissions delegationId =>
    simp only [mint, createDelegatedExecutionToken, bind_eq, exec_time_bind] at h
    obtain ⟨t, -, h, -⟩ := h
    exact ⟨_, Except.ok.inj h, fun _ => .inl (.inr (.inl rfl)), fun _ => trivial⟩
  | mfaChallenge userId login requiredStage =>
    simp only [mint, createMfaChallengeToken, bind_eq, exec_time_bind, exec_draw_bind] at h
    obtain ⟨t, -, h, -⟩ := h
    exact ⟨_, Except.ok.inj h, fun _ => .inl (.inr (.inr (.inl rfl))), fun _ => trivial⟩
  | mfaEnrollment userId tokenJti expiresAt =>
    simp only [mint, createMfaEnrollmentToken, bind_eq, exec_time_bind] at h
    obtain ⟨t, -, h, -⟩ := h
    exact ⟨_, Except.ok.inj h, fun _ => .inl (.inr (.inr (.inr rfl))), fun _ => trivial⟩
  | toolserverRegistration clientId organizationId registrationId =>
    simp only [mint, createToolserverRegistrationToken, bind_eq, exec_time_bind] at h
    obtain ⟨t, -, h, -⟩ := h
    refine ⟨_, Except.ok.inj h, fun haud => .inr ⟨_, rfl, haud.symm⟩, ?_⟩
    rintro (hc | hc | hc | hc) <;> cases hc
  | oauthState provider codeVerifier =>
    simp only [mint, createOauthStateToken, bind_eq, exec_time_bind, exec_draw_bind] at h
    obtain ⟨t, -, h, -⟩ := h
    refine ⟨_, Except.ok.inj h, False.elim, ?_⟩
    rintro (hc | hc | hc | hc) <;> cases hc
  | ssoState organizationId configId codeVerifier nonce =>
    simp only [mint, createSsoStateToken, bind_eq, exec_time_bind, exec_draw_bind] at h
    obtain ⟨t₀, -, t, -, h, -⟩ := h
    refine ⟨_, Except.ok.inj h, False.elim, ?_⟩
    rintro (hc | hc | hc | hc) <;> cases hc
  | samlRelayState organizationId configId requestId =>
    simp only [mint, createSamlRelayStateToken, createRelayStateToken, bind_eq, exec_time_bind,
      exec_draw_bind] at h
    obtain ⟨t, -, h, -⟩ := h
    refine ⟨_, Except.ok.inj h, False.elim, ?_⟩
    rintro (hc | hc | hc | hc) <;> cases hc
  | samlSloRelayState organizationId configId requestId =>
    simp only [mint, createSamlSloRelayStateToken, createRelayStateToken, bind_eq, exec_time_bind,
      exec_draw_bind] at h
    obtain ⟨t, -, h, -⟩ := h
    refine ⟨_, Except.ok.inj h, False.elim, ?_⟩
    rintro (hc | hc | hc | hc) <;> cases hc
  | link userId provider providerUserId email ssoConfigId samlConfigId idpOrgId =>
    simp only [mint, createLinkToken, bind_eq, exec_time_bind, exec_draw_bind] at h
    obtain ⟨t, -, h, -⟩ := h
    refine ⟨_, Except.ok.inj h, False.elim, ?_⟩
    rintro (hc | hc | hc | hc) <;> cases hc

end MintRequest

/-- A token for another audience does not decode here. -/
theorem decodeToken_sign_audience {E : Env} (hJ : E.jose.Lawful) {now : ℕ} {c payload : Claims}
    {a : String} (haud : c.aud = some a) (hne : a ≠ E.jwtAudience) :
    decodeToken E now (sign E c) ≠ .ok payload := by
  intro h
  rw [decodeToken, decodeTokenForAudience_sign hJ] at h
  simp only [Claims.validate, haud] at h
  split at h
  · cases h
  · rename_i hv
    split at hv
    · cases hv
    · rw [if_pos (by simp [onSome, hne])] at hv
      cases hv

/-! ## What the session services leave alone

The verdict of `get_current_user` rests on the status of the users and on
`revoked_tokens`. Issuing, rotating and revoking write neither. -/

/-- The users and their standing, and the tokens withdrawn by `jti`. -/
structure Database.SameStanding (db db' : Database) : Prop where
  users : db'.users.map (fun u => (u.id, u.status)) = db.users.map fun u => (u.id, u.status)
  revokedTokens : db'.revokedTokens = db.revokedTokens

namespace Database.SameStanding

variable {db db' db'' : Database}

theorem refl (db : Database) : db.SameStanding db := ⟨rfl, rfl⟩

theorem trans (h₁ : db.SameStanding db') (h₂ : db'.SameStanding db'') : db.SameStanding db'' :=
  ⟨h₂.users.trans h₁.users, h₂.revokedTokens.trans h₁.revokedTokens⟩

theorem status (h : db.SameStanding db') (id : ℕ) :
    (db'.userById id).map (·.status) = (db.userById id).map (·.status) := by
  have hfind : ∀ l : List User, (l.find? (·.id = id)).map (·.status) =
      ((l.map fun u => (u.id, u.status)).find? (·.1 = id)).map (·.2) := by
    intro l
    rw [List.find?_map, Option.map_map]
    rfl
  unfold Database.userById
  rw [hfind, hfind, h.users]

theorem subjectInactive (h : db.SameStanding db') (sub : Subject) :
    SubjectInactive db' sub ↔ SubjectInactive db sub := by
  cases sub with
  | system name => simp [SubjectInactive, Database.userBySubject]
  | user id =>
    have hiff : ∀ o : Option User, (∀ user, o = some user → user.status ≠ .active) ↔
        o.map (·.status) ≠ some .active := by
      intro o
      cases o <;> simp
    unfold SubjectInactive Database.userBySubject
    rw [hiff, hiff, h.status]

theorem rejects (h : db.SameStanding db') {E : Env} {now : ℕ} {redis : Option Redis}
    {token : E.Token} :
    (∃ x, getCurrentUser now redis db' E token = .error x) ↔
      ∃ x, getCurrentUser now redis db E token = .error x := by
  simp only [getCurrentUser_rejects, JtiRevoked, h.revokedTokens, h.subjectInactive]

end Database.SameStanding

/-- Statements of the session services other than a change of status. -/
def Stmt.KeepsStanding (stmt : Stmt) : Prop :=
  stmt.OfSessions ∨ match stmt with
    | .touchLogin _ _ _ | .insertRefreshToken _ => True
    | .revokeRefreshToken _ | .rotateRefreshToken _ _ _ => True
    | _ => False

theorem sameStanding_denote {stmt : Stmt} {seen : Database} {eff : Effect Database RowKey}
    (hP : stmt.KeepsStanding) (h : denote stmt seen = .ok eff) :
    seen.SameStanding (eff.delta seen) := by
  cases stmt with
  | touchLogin userId t method =>
    obtain rfl := Except.ok.inj h
    refine ⟨?_, rfl⟩
    simp only [Database.updateUser, List.map_map]
    refine List.map_congr_left fun u _ => ?_
    dsimp only [Function.comp]
    split <;> rfl
  | insertRefreshToken row =>
    simp only [denote] at h
    split at h
    · cases h
    · obtain rfl := Except.ok.inj h
      exact ⟨rfl, rfl⟩
  | insertSession row =>
    simp only [denote] at h
    split at h
    · cases h
    · obtain rfl := Except.ok.inj h
      exact ⟨rfl, rfl⟩
  | setStatus _ _ _ _ _ => exact hP.elim False.elim False.elim
  | credential _ => exact hP.elim False.elim False.elim
  | mfa _ => exact hP.elim False.elim False.elim
  | account _ => exact hP.elim False.elim False.elim
  | org _ => exact hP.elim False.elim False.elim
  | _ =>
    obtain rfl := Except.ok.inj h
    exact ⟨rfl, rfl⟩

/-! ## The session services keep to these statements -/

variable {F : Prop} {E : Env}

theorem ofSessions_keeps {α : Type} {o : Op α} (h : o.Within F (Writing F Stmt.OfSessions)) :
    o.Within F (Executing Stmt.KeepsStanding) := executing_of_within h fun _ => .inl

theorem revokes_keeps {α : Type} {o : Op α} (h : o.Within F (Writing F Stmt.Revokes)) :
    o.Within F (Executing Stmt.KeepsStanding) := executing_of_within h fun _ h => .inl h.ofSessions

theorem generateTokens_keeps (user : User) (authMethod : AuthMethod) (idpOrgId : Option ℕ)
    (client : ClientInfo) :
    (generateTokens E user authMethod idpOrgId client).Within F (Executing Stmt.KeepsStanding) := by
  refine executing_of_within (generateTokens_within user authMethod idpOrgId client) fun stmt h => ?_
  rcases h with h | h
  · exact .inl h
  · cases stmt <;> first | exact h.elim | exact .inr trivial

theorem exchange_keeps (token : E.Token) (teamId : Option (Option ℕ)) (dbToken : RefreshToken)
    (session : Option UserSession) (user : User) :
    (exchange E token teamId dbToken session user).Within F (Executing Stmt.KeepsStanding) := by
  unfold exchange
  refine (executing_of_reading time_within).bind fun decodedAt => ?_
  refine (executing_of_reading (query_within _)).bind fun freshClaims => ?_
  refine (executing_of_reading (createAccessToken_within _ _)).bind fun newAccess => ?_
  refine (executing_of_reading (createRefreshToken_within _)).bind fun newRefresh => ?_
  refine (executing_of_reading time_within).bind fun rotatedAt => ?_
  have hfamily : (familyOrFresh dbToken.familyId).Within F (Reading F) := by
    cases dbToken.familyId with
    | none => exact draw_within
    | some f => trivial
  refine (executing_of_reading hfamily).bind fun familyId => ?_
  refine (executing_of_reading time_within).bind fun now => ?_
  refine (executing_of_reading (touchIfPresent_within _ _)).bind fun touched => ?_
  refine (executing_of_reading draw_within).bind fun id => ?_
  refine (execute_executing (.inr trivial)).bind fun _ => ?_
  refine (execute_executing (.inr trivial)).bind fun _ => ?_
  refine (ofSessions_keeps (writeSession_within _ _ _ _ _ _ _)).bind fun _ => ?_
  exact commitNow_executing.bind fun _ => trivial

theorem rotateRefreshToken_keeps (token : E.Token) (teamId : Option (Option ℕ)) :
    (rotateRefreshToken E token teamId).Within F (Executing Stmt.KeepsStanding) := by
  unfold rotateRefreshToken
  refine (executing_of_reading (query_within _)).bind fun row => ?_
  cases row with
  | none => trivial
  | some dbToken =>
    dsimp only
    have hend : ∀ reason, ((endSession dbToken.userId dbToken.familyId reason none).bind fun _ =>
        commitNow.bind fun _ => (ret none : Op (Option (E.Token × E.Token)))).Within F
          (Executing Stmt.KeepsStanding) := fun reason =>
      (revokes_keeps (endSession_within _ _ _ _)).bind fun _ => commitNow_executing.bind fun _ => trivial
    split
    · exact (within_note trivial).bind fun _ => hend _
    split
    · trivial
    refine (executing_of_reading time_within).bind fun now => ?_
    split
    · trivial
    refine (executing_of_reading (query_within _)).bind fun session => ?_
    refine (executing_of_reading (isUsable_within _)).bind fun usable => ?_
    split
    · trivial
    refine (executing_of_reading (checkTimeoutPolicy_within _)).bind fun violated => ?_
    cases violated with
    | some reason => exact hend reason
    | none =>
      refine (executing_of_reading (query_within _)).bind fun user => ?_
      cases user with
      | none => trivial
      | some user =>
        dsimp only
        split
        · trivial
        · exact (exchange_keeps _ _ _ _ _).bind fun _ => trivial

theorem call_keeps (c : Call E) : c.op.Within F (Executing Stmt.KeepsStanding) := by
  cases c with
  | generateTokens user authMethod idpOrgId client =>
    exact (generateTokens_keeps _ _ _ _).bind fun _ => trivial
  | rotateRefreshToken token teamId =>
    refine (rotateRefreshToken_keeps token teamId).bind fun r => ?_
    cases r <;> trivial
  | revokeToken token =>
    refine Within.bind ?_ fun _ => trivial
    unfold revokeToken
    refine (executing_of_reading (query_within _)).bind fun row => ?_
    cases row with
    | none => trivial
    | some dbToken =>
      refine (revokes_keeps (revoke_within _ _)).bind fun _ => ?_
      have hlog : ((logSessionRevoked dbToken.userId dbToken.familyId .userLogout none).bind
          fun _ => commitNow).Within F (Executing Stmt.KeepsStanding) :=
        (revokes_keeps (logEvent_within _ _)).bind fun _ => commitNow_executing
      dsimp only
      split
      · exact hlog
      · exact (execute_executing (.inr trivial)).bind fun _ => hlog
  | revokeSession sessionId =>
    refine Within.bind ?_ fun _ => trivial
    unfold revokeSession
    refine (executing_of_reading (query_within _)).bind fun session => ?_
    cases session with
    | none => trivial
    | some session => exact (revokes_keeps (endSession_within _ _ _ _)).bind fun _ => trivial
  | revokeAllSessionsForUser userId reason actor =>
    exact (revokes_keeps (revokeAllSessionsForUser_within _ _ _)).bind fun _ => trivial

/-- A call that ends leaves no transaction open, and everybody's standing as it
was. -/
theorem Call.Step.sameStanding {c : Call E} {w w' : World} {r : Except Err (Reply E)}
    (h : c.Step w r w') (hw : w.cur = w.base) :
    w.base.SameStanding w'.base ∧ w'.cur = w'.base := by
  obtain ⟨w₁, hexec, rfl⟩ := exec_close.mp h
  have hrun := (call_keeps c : c.op.Within False _).exec (R := Database.SameStanding)
    Database.SameStanding.refl Database.SameStanding.trans sameStanding_denote hexec
    (hw ▸ Database.SameStanding.refl w.cur)
  exact ⟨hrun.1, rfl⟩

theorem Call.Run.sameStanding {w w' : World} (h : Call.Run E w w') (hw : w.cur = w.base) :
    w.base.SameStanding w'.base ∧ w'.cur = w'.base := by
  induction h with
  | refl => exact ⟨.refl _, hw⟩
  | tail _ hstep ih =>
    obtain ⟨hstanding, hquiet⟩ := ih
    obtain ⟨hstep, hquiet'⟩ := hstep.sameStanding hquiet
    exact ⟨hstanding.trans hstep, hquiet'⟩

/-! ## Which tokens are turned away -/

/-- **The kinds of tokens that are no access tokens.** `get_current_user` turns
away a token of such a kind exactly when the kind is one it turns away, or the
token does not decode, or its `jti` is revoked in Redis or in
`revoked_tokens`, or Redis cannot be asked, or its subject is no active user.
Issuing, rotating and revoking refresh tokens, in any order and number, does
not change its verdict on any of them. -/
theorem getCurrentUser_rejects_iff (hJ : E.jose.Lawful) (m : MintRequest) {w w' : World}
    {token : E.Token} (hmint : (m.mint E).Exec w (.ok token) w') (now : ℕ)
    (redis : Option Redis) :
    (∀ db, (∃ x, getCurrentUser now redis db E token = .error x) ↔
      m.TurnedAway E ∨ ∀ payload, decodeToken E now token = .ok payload →
        (∃ j, payload.jti = some j ∧ JtiRevoked now redis db j) ∨
        ∃ s, payload.sub = some s ∧ SubjectInactive db s) ∧
    ∀ w₁ w₂, w₁.cur = w₁.base → Call.Run E w₁ w₂ →
      ((∃ x, getCurrentUser now redis w₂.base E token = .error x) ↔
        ∃ x, getCurrentUser now redis w₁.base E token = .error x) := by
  obtain ⟨c, rfl, haway, hbarred⟩ := MintRequest.signed hmint
  refine ⟨fun db => ?_, fun w₁ w₂ hquiet hrun => (hrun.sameStanding hquiet).1.rejects⟩
  rw [getCurrentUser_rejects]
  have hpayload : ∀ payload, decodeToken E now (sign E c) = .ok payload →
      (payload.Barred ↔ c.Barred) := by
    intro payload hd
    obtain ⟨rfl, -⟩ := decodeToken_sign_ok hJ hd
    exact Iff.rfl
  constructor
  · intro h
    by_cases hm : m.TurnedAway E
    · exact .inl hm
    · refine .inr fun payload hd => (h payload hd).resolve_left fun hb => ?_
      exact hm (hbarred ((hpayload payload hd).mp hb))
  · rintro (hm | h) payload hd
    · rcases haway hm with hb | ⟨a, ha, hne⟩
      · exact .inl ((hpayload payload hd).mpr hb)
      · exact absurd hd (decodeToken_sign_audience hJ ha hne)
    · exact .inr (h payload hd)

/-! ## Two tokens of user 1 -/

/-- User 1 is about to log in. -/
def beforeLogin : World :=
  ⟨allActive (some (.user 1)), allActive (some (.user 1)), 0, 10, []⟩

/-- The claims of user 1, who has a password and no organization. -/
def loginClaims : Claims :=
  buildUserClaims beforeLogin.base { id := 1, status := .active } .password none none none

/-- The refresh token of the first login. -/
def firstRefreshToken : Env.symbolic.Token :=
  sign .symbolic { loginClaims with
    exp := some (numericDate (days 7)), type := some .refresh, jti := some 11 }

/-- User 1 logs in, and out again with the refresh token. -/
def loginAndLogout : List (Call .symbolic) :=
  [.generateTokens { id := 1, status := .active } .password none {},
   .revokeToken firstRefreshToken]

/-- An MFA challenge for the same user. -/
def challengeToken : Env.symbolic.Token :=
  sign .symbolic
    { type := some .mfaChallenge
      userId := some 1
      mfaRequired := true
      authMethod := some .password
      exp := some 300
      jti := some 10 }

/-- A challenge is turned away, before these calls and after. -/
theorem getCurrentUser_rejects_iff_challenge :
    ∃ x, getCurrentUser (seconds 1) (some .empty) (Call.runAll loginAndLogout beforeLogin).base
      .symbolic challengeToken = .error x := by
  have hmint : (MintRequest.mint .symbolic (.mfaChallenge 1 { authMethod := .password } none)).Exec
      beforeLogin (.ok challengeToken) { beforeLogin with next := 11 } :=
    ⟨0, Nat.le_refl 0, rfl, rfl⟩
  obtain ⟨hverdict, hruns⟩ :=
    getCurrentUser_rejects_iff Jose.symbolic_lawful _ hmint (seconds 1) (some .empty)
  rw [hruns beforeLogin _ rfl (Call.run_runAll _ .refl)]
  exact (hverdict _).mpr (.inl trivial)

/-- **A refresh token is taken for an access token**, also after the logout that
revoked it. -/
theorem refresh_token_accepted_after_logout :
    ((MintRequest.refresh loginClaims).mint .symbolic).Exec { beforeLogin with next := 11 }
      (.ok firstRefreshToken) { beforeLogin with next := 12 } ∧
    Call.Run .symbolic beforeLogin (Call.runAll loginAndLogout beforeLogin) ∧
    (∃ row ∈ (Call.runAll loginAndLogout beforeLogin).base.refreshTokens,
      row.tokenHash = Env.symbolic.sha256 firstRefreshToken ∧ row.revoked = true) ∧
    ¬ ∃ x, getCurrentUser (seconds 1) (some .empty)
      (Call.runAll loginAndLogout beforeLogin).base .symbolic firstRefreshToken = .error x := by
  refine ⟨⟨0, Nat.le_refl 0, rfl, rfl⟩, Call.run_runAll _ .refl, by decide, ?_⟩
  rintro ⟨x, hx⟩
  have hok : getCurrentUser (seconds 1) (some .empty)
      (Call.runAll loginAndLogout beforeLogin).base .symbolic firstRefreshToken =
        .ok firstRefreshToken.2 := by decide
  exact nomatch hok.symm.trans hx

end OmniAuth
