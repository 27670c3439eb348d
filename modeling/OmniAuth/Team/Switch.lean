import OmniAuth.Session.Outcome
import OmniAuth.Team.Service
import OmniAuth.Token.Blacklist
import OmniAuth.Txn.Triple

/-!
# Switching the workspace

`POST /auth/switch-team` asks the presented token for its organization and holds the team
against that; the rotation asks the database for the primary organization of today and
holds the team against this. Where the two differ the route lets the switch pass, and the
rotation quietly answers with no team at all.
-/

namespace OmniAuth

open Txn Prog

/-! ## The route -/

section

variable (E : Env)

/-- `int(old_claims.get("sub", 0))`; `none` where it raises. -/
def subjectInt : Option Subject → Option ℕ
  | none => some 0
  | some (.user id) => some id
  | some (.system _) => none

/-- `db.query(Team).filter(Team.id == team_id).first()` -/
def Database.teamById (db : Database) (teamId : ℕ) : Option Team :=
  db.teams.find? (·.id = teamId)

/-- What `switch_team` asks of the team before it rotates. -/
def checkSwitch (oldClaims : Claims) (userId : ℕ) : Option ℕ → Op Unit
  | none => return ()
  | some teamId => do
      let team ← query (·.teamById teamId)
      match team with
      | none => raise (.http 404 "Team not found")
      | some team =>
          if oldClaims.orgId ≠ some team.organizationId then
            raise (.http 403 "Team does not belong to your organization")
          else do
            let member ← query (·.getTeamMember teamId userId)
            if member = none then raise (.http 403 "Not a member of this team") else return ()

/-- `switch_team`; the token presented is the one of the body, or else of the cookie. -/
def switchTeam (presentedToken : Option E.Token) (teamId : Option ℕ) :
    Op (E.Token × E.Token) :=
  match presentedToken with
  | none => raise (.http 401 "Invalid refresh token")
  | some presentedToken => do
      let now ← time
      match decodeToken E now presentedToken with
      | .error _ => raise (.http 401 "Invalid refresh token")
      | .ok oldClaims =>
          match subjectInt oldClaims.sub with
          | none => raise (.value "invalid literal for int()")
          | some userId => do
              checkSwitch oldClaims userId teamId
              let result ← rotateRefreshToken E presentedToken (some teamId)
              match result with
              | none => raise (.http 401 "Invalid refresh token")
              | some tokens => return tokens

end

variable {E : Env} {w w' : World}

/-! ## The claim of a team -/

/-- The team is in the primary organization of the user, who is a member of it. -/
def Database.InPrimary (db : Database) (teamId userId : ℕ) : Prop :=
  ∃ team membership, db.teamById teamId = some team ∧
    db.resolvePrimaryMembership userId = some membership ∧
    membership.organizationId = team.organizationId ∧ db.getTeamMember teamId userId ≠ none

/-- **When a team is granted**: exactly there. -/
theorem resolveTeamClaim_iff {db : Database} {teamId userId : ℕ} :
    (db.resolveTeamClaim ((db.resolvePrimaryMembership userId).map (·.organizationId))
      (some teamId) userId).1 = some teamId ↔ db.InPrimary teamId userId := by
  cases hprimary : db.resolvePrimaryMembership userId with
  | none =>
    constructor
    · intro h
      cases h
    · rintro ⟨team, membership, -, hm, -⟩
      rw [hprimary] at hm
      cases hm
  | some membership =>
    cases hteam : db.teamById teamId with
    | none =>
      constructor
      · intro h
        simp only [Option.map_some, Database.resolveTeamClaim] at h
        rw [show db.teams.find? (·.id = teamId) = none from hteam] at h
        cases h
      · rintro ⟨team, m, ht, -⟩
        rw [hteam] at ht
        cases ht
    | some team =>
      simp only [Option.map_some, Database.resolveTeamClaim]
      rw [show db.teams.find? (·.id = teamId) = some team from hteam]
      dsimp only
      constructor
      · intro h
        split at h
        · rename_i horg
          split at h
          · rename_i member hmember
            refine ⟨team, membership, hteam, hprimary, horg.symm, ?_⟩
            rw [Database.getTeamMember, hmember]
            simp
          · cases h
        · cases h
      · rintro ⟨t, m, ht, hm, horg, hmember⟩
        obtain rfl := Option.some.inj (hteam.symm.trans ht)
        obtain rfl := Option.some.inj (hprimary.symm.trans hm)
        obtain ⟨member, hfound⟩ := Option.ne_none_iff_exists'.mp hmember
        rw [Database.getTeamMember] at hfound
        rw [if_pos horg.symm, hfound]

/-! ## The tokens of a rotation -/

/-- The token is signed for these claims, with an expiry, a type and a `jti` of its own. -/
def Carries (E : Env) (claims : Claims) (token : E.Token) : Prop :=
  ∃ (now exp : ℕ) (type : Option TokenType) (jti : Option ℕ), numericDate now ≤ exp ∧
    token = sign E { claims with exp := some exp, type := type, jti := jti }

theorem createAccessToken_carries {claims : Claims} {token : E.Token}
    (h : (createAccessToken E claims none).Exec w (.ok token) w') : Carries E claims token := by
  simp only [createAccessToken, bind_eq, exec_time_bind, exec_draw_bind] at h
  obtain ⟨t, -, h, -⟩ := h
  exact ⟨t, _, _, _, Nat.div_le_div_right (Nat.le_add_right _ _), Except.ok.inj h⟩

theorem createRefreshToken_carries {claims : Claims} {token : E.Token}
    (h : (createRefreshToken E claims).Exec w (.ok token) w') : Carries E claims token := by
  simp only [createRefreshToken, bind_eq, exec_time_bind, exec_draw_bind] at h
  obtain ⟨t, -, h, -⟩ := h
  exact ⟨t, _, _, _, Nat.div_le_div_right (Nat.le_add_right _ _), Except.ok.inj h⟩

theorem Carries.decoded {claims payload : Claims} {token : E.Token} (hJ : E.jose.Lawful)
    (h : Carries E claims token) {now : ℕ} (hdecode : decodeToken E now token = .ok payload) :
    payload.teamId = claims.teamId ∧ payload.orgId = claims.orgId := by
  obtain ⟨t, exp, type, jti, -, rfl⟩ := h
  obtain ⟨rfl, -⟩ := decodeToken_sign_ok hJ hdecode
  exact ⟨rfl, rfl⟩

/-- Where it is minted, it decodes. -/
theorem Carries.decodes {claims : Claims} {token : E.Token} (hJ : E.jose.Lawful)
    (h : Carries E claims token) (hiss : claims.iss = none) (haud : claims.aud = none) :
    ∃ now payload, decodeToken E now token = .ok payload := by
  obtain ⟨now, exp, type, jti, hexp, rfl⟩ := h
  have hlive : ¬ exp < numericDate now := by omega
  refine ⟨now, ?_⟩
  rw [decodeToken, decodeTokenForAudience_sign hJ]
  simp [Claims.validate, hiss, haud, onSome, hlive]

theorem exchange_carries {token : E.Token} {teamId : Option ℕ} {dbToken : RefreshToken}
    {session : Option UserSession} {user : User} {tokens : E.Token × E.Token}
    (h : (exchange E token (some teamId) dbToken session user).Exec w (.ok tokens) w') :
    ∃ authMethod idpOrgId, let claims := buildUserClaims w.cur user authMethod idpOrgId teamId none
      Carries E claims tokens.1 ∧ Carries E claims tokens.2 := by
  simp only [exchange, bind_eq, exec_time_bind, exec_query_bind] at h
  obtain ⟨t, -, h⟩ := h
  obtain ⟨access, w₁, h₁, h⟩ := exec_bind_inv h (fun _ _ h => (createAccessToken_exec h).1)
  obtain ⟨refresh, w₂, h₂, h⟩ := exec_bind_inv h
    (fun _ _ h => (createRefreshToken_exec h).1.imp fun _ h => h.1)
  -- what comes after only returns the two
  have hreply : tokens = (access, refresh) := by
    refine Yields.exec (P := fun r => ∀ p, r = .ok p → p = (access, refresh)) ?_ h tokens rfl
    have hx : ∀ (x : Err) p, .error x = Except.ok p → p = (access, refresh) := by
      rintro x p ⟨⟩
    iterate 9 refine yields_bind _ (fun _ => ?_) hx
    rintro p ⟨⟩
    rfl
  rw [hreply]
  exact ⟨_, _, createAccessToken_carries h₁, createRefreshToken_carries h₂⟩

/-- A rotation that hands out tokens comes to its exchange with nothing written. -/
theorem rotateRefreshToken_ok {token : E.Token} {teamId : Option (Option ℕ)}
    {tokens : E.Token × E.Token}
    (h : (rotateRefreshToken E token teamId).Exec w (.ok (some tokens)) w') :
    ∃ row user session w₁, w.cur.tokenByHash (E.sha256 token) = some row ∧
      user.id = row.userId ∧ w₁.cur = w.cur ∧
      (exchange E token teamId row session user).Exec w₁ (.ok tokens) w' := by
  simp only [rotateRefreshToken, bind_eq, exec_query_bind] at h
  split at h
  · cases h.1
  rename_i row hfound
  split at h
  · simp only [exec_note_bind] at h
    obtain ⟨_, w₁, -, h, -⟩ := exec_bind_inv h (fun _ _ h => ⟨_, (endSession_exec h).1⟩)
    cases h
  split at h
  · cases h.1
  simp only [exec_time_bind] at h
  obtain ⟨t₁, -, h⟩ := h
  split at h
  · cases h.1
  simp only [exec_query_bind] at h
  obtain ⟨usable, w₂, h₂, h⟩ := exec_bind_inv h
    (fun _ _ h => by
      obtain ⟨_, _, h, -⟩ := isUsable_exec h
      exact ⟨_, h⟩)
  obtain ⟨_, t₂, -, -, rfl, -⟩ := isUsable_exec h₂
  split at h
  · cases h.1
  obtain ⟨violated, w₃, h₃, h⟩ := exec_bind_inv h
    (fun _ _ h => (checkTimeoutPolicy_exec h).imp fun _ h => h.1)
  obtain ⟨_, -, hcur₃, -⟩ := checkTimeoutPolicy_exec h₃
  split at h
  · obtain ⟨_, w₄, -, h, -⟩ := exec_bind_inv h (fun _ _ h => ⟨_, (endSession_exec h).1⟩)
    cases h
  simp only [exec_query_bind] at h
  split at h
  · cases h.1
  rename_i user huser
  split at h
  · cases h.1
  rcases exec_bind.mp h with ⟨tokens', w₄, h₄, hreply, rfl⟩ | ⟨x, -, hx⟩
  · obtain rfl := Option.some.inj (Except.ok.inj hreply)
    exact ⟨row, user, _, w₃, hfound, by simpa using List.find?_some huser, hcur₃, h₄⟩
  · cases hx

/-! ## All or nothing -/

/-- No row of a refresh token is added, and none is rotated. -/
def Database.Unrotated (db db' : Database) : Prop :=
  db'.refreshTokens.map (fun r => (r.id, r.rotatedAt)) =
    db.refreshTokens.map fun r => (r.id, r.rotatedAt)

theorem Database.Decays.unrotated {db db' : Database} (h : db.Decays db') : db.Unrotated db' := by
  obtain ⟨g, hg, htokens⟩ := h.tokens
  rw [Database.Unrotated, htokens, List.map_map]
  refine List.map_congr_left fun r _ => ?_
  simp only [Function.comp_apply, (hg r).id, (hg r).rotatedAt]

/-- The claims are for the team that was asked for, and for its organization. -/
def Database.ClaimsFor (db : Database) (teamId : Option ℕ) (claims : Claims) : Prop :=
  claims.teamId = teamId ∧ ∀ t, teamId = some t →
    ∃ team, db.teamById t = some team ∧ claims.orgId = some team.organizationId

/-- Both tokens are, whenever they decode. -/
def Database.SwitchedTo (db : Database) (E : Env) (teamId : Option ℕ)
    (tokens : E.Token × E.Token) : Prop :=
  ∀ token, token = tokens.1 ∨ token = tokens.2 → ∀ now payload,
    decodeToken E now token = .ok payload → db.ClaimsFor teamId payload

/-- No team is asked for, or one of the primary organization that the user of the presented
token has today. -/
def Database.Resolves (db : Database) (E : Env) (presentedToken : E.Token) :
    Option ℕ → Prop
  | none => True
  | some teamId => ∃ row, db.tokenByHash (E.sha256 presentedToken) = some row ∧
      db.InPrimary teamId row.userId

/-- What the tokens say is what their claims say. -/
theorem switchedTo_iff {db : Database} {teamId : Option ℕ} {claims : Claims}
    {tokens : E.Token × E.Token} (hJ : E.jose.Lawful) (hiss : claims.iss = none)
    (haud : claims.aud = none) (haccess : Carries E claims tokens.1)
    (hrefresh : Carries E claims tokens.2) :
    db.SwitchedTo E teamId tokens ↔ db.ClaimsFor teamId claims := by
  constructor
  · intro h
    obtain ⟨now, payload, hdecode⟩ := haccess.decodes hJ hiss haud
    have hfor := h tokens.1 (.inl rfl) now payload hdecode
    obtain ⟨hteam, horg⟩ := haccess.decoded hJ hdecode
    rwa [Database.ClaimsFor, hteam, horg] at hfor
  · rintro hfor token (rfl | rfl) now payload hdecode
    · obtain ⟨hteam, horg⟩ := haccess.decoded hJ hdecode
      rwa [Database.ClaimsFor, hteam, horg]
    · obtain ⟨hteam, horg⟩ := hrefresh.decoded hJ hdecode
      rwa [Database.ClaimsFor, hteam, horg]

/-- **What the rotation makes of the request.** -/
theorem buildUserClaims_for {db : Database} {user : User} {authMethod : AuthMethod}
    {idpOrgId teamId : Option ℕ} :
    db.ClaimsFor teamId (buildUserClaims db user authMethod idpOrgId teamId none) ↔
      ∀ t, teamId = some t → db.InPrimary t user.id := by
  cases teamId with
  | none =>
    refine iff_of_true ⟨rfl, ?_⟩ ?_
    · rintro t ⟨⟩
    · rintro t ⟨⟩
  | some t =>
    have hclaim : (buildUserClaims db user authMethod idpOrgId (some t) none).teamId = some t ↔
        db.InPrimary t user.id := resolveTeamClaim_iff
    constructor
    · rintro ⟨hteam, -⟩ _ ⟨⟩
      exact hclaim.mp hteam
    · intro hin
      obtain ⟨team, membership, hteam, hprimary, horg, -⟩ := hin t rfl
      refine ⟨hclaim.mpr (hin t rfl), ?_⟩
      rintro _ ⟨⟩
      refine ⟨team, hteam, ?_⟩
      show (db.resolvePrimaryMembership user.id).map (·.organizationId) = some team.organizationId
      rw [hprimary, Option.map_some, horg]

/-- The checks of the route only read, and take no time. -/
theorem checkSwitch_exec {oldClaims : Claims} {userId : ℕ} {teamId : Option ℕ}
    {r : Except Err Unit} (h : (checkSwitch oldClaims userId teamId).Exec w r w') : w' = w := by
  cases teamId with
  | none => exact h.2
  | some teamId =>
    simp only [checkSwitch, bind_eq, exec_query_bind] at h
    split at h
    · exact h.2
    split at h
    · exact h.2
    simp only [exec_query_bind] at h
    split at h <;> exact h.2

/-- A switch fails before its rotation, or does what the rotation does. -/
theorem switchTeam_exec {presentedToken : Option E.Token} {teamId : Option ℕ}
    {r : Except Err (E.Token × E.Token)} (h : (switchTeam E presentedToken teamId).Exec w r w') :
    ((∃ x, r = .error x) ∧ w'.base = w.base) ∨
      ∃ token t result, presentedToken = some token ∧
        (rotateRefreshToken E token (some teamId)).Exec { w with now := t } result w' ∧
        ∀ tokens, r = .ok tokens ↔ result = .ok (some tokens) := by
  cases presentedToken with
  | none =>
    obtain ⟨rfl, rfl⟩ := h
    exact .inl ⟨⟨_, rfl⟩, rfl⟩
  | some token =>
    simp only [switchTeam, bind_eq, exec_time_bind] at h
    obtain ⟨t, -, h⟩ := h
    split at h
    · obtain ⟨rfl, rfl⟩ := h
      exact .inl ⟨⟨_, rfl⟩, rfl⟩
    split at h
    · obtain ⟨rfl, rfl⟩ := h
      exact .inl ⟨⟨_, rfl⟩, rfl⟩
    rcases exec_bind.mp h with ⟨_, w₁, hcheck, h⟩ | ⟨x, hcheck, rfl⟩
    · obtain rfl := checkSwitch_exec hcheck
      rcases exec_bind.mp h with ⟨result, w₂, hrotate, h⟩ | ⟨x, hrotate, rfl⟩
      · refine .inr ⟨token, t, .ok result, rfl, ?_⟩
        cases result with
        | none =>
          obtain ⟨rfl, rfl⟩ := h
          exact ⟨hrotate, by simp⟩
        | some tokens =>
          obtain ⟨rfl, rfl⟩ := h
          exact ⟨hrotate, by simp⟩
      · exact .inr ⟨token, t, .error x, rfl, hrotate, by simp⟩
    · obtain rfl := checkSwitch_exec hcheck
      exact .inl ⟨⟨_, rfl⟩, rfl⟩

/-- A rotation that hands out nothing has rotated nothing. -/
theorem rotateRefreshToken_unrotated {token : E.Token} {teamId : Option (Option ℕ)}
    {r : Except Err (Option (E.Token × E.Token))} (hidle : w.cur = w.base)
    (h : (rotateRefreshToken E token teamId).Exec w r w') (hr : ∀ tokens, r ≠ .ok (some tokens)) :
    w.base.Unrotated w'.base := by
  cases rotateRefreshToken_exec h with
  | refused hcur hbase =>
    rw [hbase]
    exact (Database.Decays.refl _).unrotated
  | ended row found hbase decays =>
    rw [hbase, ← hidle]
    exact decays.unrotated
  | failed x row found admitted hbase =>
    rw [hbase]
    exact (Database.Decays.refl _).unrotated
  | exchanged tokens => exact absurd rfl (hr tokens)

/-- **Switched exactly where the two organizations agree.** A request that fails has rotated
nothing; one that answers does so for the team that was asked for if, and only if, the
primary organization of the day is the team's. -/
theorem team_switch_exact (hJ : E.jose.Lawful) {presentedToken : E.Token} {teamId : Option ℕ}
    {r : Except Err (E.Token × E.Token)} (hidle : w.cur = w.base)
    (hexec : (switchTeam E (some presentedToken) teamId).close.Exec w r w') :
    (∀ x, r = .error x → w.base.Unrotated w'.base) ∧
    ∀ tokens, r = .ok tokens →
      (w.base.SwitchedTo E teamId tokens ↔ w.base.Resolves E presentedToken teamId) := by
  obtain ⟨w₁, hswitch, rfl⟩ := exec_close.mp hexec
  rcases switchTeam_exec hswitch with ⟨⟨x, rfl⟩, hbase⟩ | ⟨token, t, result, htoken, hrotate, hreply⟩
  · refine ⟨fun _ _ => ?_, ?_⟩
    · show w.base.Unrotated w₁.base
      rw [hbase]
      exact (Database.Decays.refl _).unrotated
    · rintro tokens ⟨⟩
  obtain rfl := Option.some.inj htoken
  refine ⟨?_, ?_⟩
  · rintro x rfl
    have hnothing : ∀ tokens, result ≠ .ok (some tokens) := by
      intro tokens hresult
      cases (hreply tokens).mpr hresult
    exact (rotateRefreshToken_unrotated (w := { w with now := t }) hidle hrotate hnothing :)
  · rintro tokens rfl
    obtain rfl := (hreply tokens).mp rfl
    obtain ⟨row, user, session, w₂, hfound, huser, hcur, hexchange⟩ := rotateRefreshToken_ok hrotate
    obtain ⟨authMethod, idpOrgId, haccess, hrefresh⟩ := exchange_carries hexchange
    have hsnapshot : w₂.cur = w.base := hcur.trans hidle
    rw [hsnapshot] at haccess hrefresh
    have hrow : w.base.tokenByHash (E.sha256 presentedToken) = some row := hidle ▸ hfound
    rw [switchedTo_iff hJ rfl rfl haccess hrefresh, buildUserClaims_for, huser]
    cases teamId with
    | none =>
      refine iff_of_true ?_ trivial
      rintro t ⟨⟩
    | some teamId =>
      constructor
      · intro hin
        exact ⟨row, hrow, hin teamId rfl⟩
      · rintro ⟨row', hrow', hin⟩ _ ⟨⟩
        obtain rfl := Option.some.inj (hrow.symm.trans hrow')
        exact hin

/-! ## A switch that ends up nowhere -/

/-- A member of an organization, and of its one team. -/
def labMember : User := { id := 1, email := some "ada@lab.org", status := .active }

def labTeam : Database := { Database.empty with
  users := [labMember]
  organizations := [{ id := 5, slug := "lab", status := .active },
    { id := 6, slug := "default", status := .active }]
  memberships := [{ id := 1, organizationId := 5, userId := 1, status := .active, roleIds := [] }]
  teams := [{ id := 9, organizationId := 5 }]
  teamMembers := [{ teamId := 9, userId := 1, role := "member" }] }

/-- They sign in. -/
def labSignedIn : Except Err (Env.symbolic.Token × Env.symbolic.Token) × World :=
  (generateTokens Env.symbolic labMember .password none {}).close.run ⟨labTeam, labTeam, 0, 10, []⟩

def labToken : Env.symbolic.Token :=
  match labSignedIn.1 with
  | .ok tokens => tokens.2
  | .error _ => (.hs256, {})

/-- Then they become a member of the default organization as well, which comes first. -/
def alsoDefault (db : Database) : Database :=
  { db with memberships := db.memberships ++
      [{ id := 2, organizationId := 6, userId := 1, status := .active, roleIds := [] }] }

def switching (db : Database) : World := ⟨db, db, 0, labSignedIn.2.next, []⟩

def switched (db : Database) : Except Err (Env.symbolic.Token × Env.symbolic.Token) × World :=
  (switchTeam Env.symbolic (some labToken) (some 9)).close.run (switching db)

/-- The team of an access token that is handed out. -/
def teamOf (r : Except Err (Env.symbolic.Token × Env.symbolic.Token)) : Option (Option ℕ) :=
  r.toOption.bind fun tokens =>
    (decodeToken Env.symbolic 0 tokens.1).toOption.map fun claims => claims.teamId

theorem eq_ok_of_toOption {ε α : Type} {r : Except ε α} {a : α} (h : r.toOption = some a) :
    r = .ok a := by
  cases r with
  | ok b => exact congrArg Except.ok (Option.some.inj h)
  | error x => cases h

/-- The team they asked for is theirs, and the tokens are for none. -/
theorem team_switch_degrades :
    ∃ tokens w', (switchTeam Env.symbolic (some labToken) (some 9)).close.Exec
        (switching (alsoDefault labSignedIn.2.base)) (.ok tokens) w' ∧
      ¬ (alsoDefault labSignedIn.2.base).SwitchedTo Env.symbolic (some 9) tokens := by
  have hexec := exec_run (switchTeam Env.symbolic (some labToken) (some 9)).close
    (switching (alsoDefault labSignedIn.2.base))
  have hteam : teamOf (switched (alsoDefault labSignedIn.2.base)).1 = some none := by decide
  rw [← switched] at hexec
  obtain ⟨tokens, hr, hclaims⟩ := Option.bind_eq_some_iff.mp hteam
  obtain ⟨claims, hdecode, hnone⟩ := Option.map_eq_some_iff.mp hclaims
  rw [eq_ok_of_toOption hr] at hexec
  refine ⟨tokens, _, hexec, fun hfor => ?_⟩
  obtain ⟨hfor, -⟩ := hfor tokens.1 (.inl rfl) 0 claims (eq_ok_of_toOption hdecode)
  rw [hnone] at hfor
  cases hfor

/-- Before, the switch did what it was asked. -/
theorem team_switch_exact_lab :
    ∃ tokens w', (switchTeam Env.symbolic (some labToken) (some 9)).close.Exec
        (switching labSignedIn.2.base) (.ok tokens) w' ∧
      labSignedIn.2.base.SwitchedTo Env.symbolic (some 9) tokens := by
  have hexec := exec_run (switchTeam Env.symbolic (some labToken) (some 9)).close
    (switching labSignedIn.2.base)
  have hteam : teamOf (switched labSignedIn.2.base).1 = some (some 9) := by decide
  rw [← switched] at hexec
  obtain ⟨tokens, hr, -⟩ := Option.bind_eq_some_iff.mp hteam
  rw [eq_ok_of_toOption hr] at hexec
  refine ⟨tokens, _, hexec, ?_⟩
  refine ((team_switch_exact Jose.symbolic_lawful rfl hexec).2 tokens rfl).mpr ?_
  refine ⟨labSignedIn.2.base.refreshTokens.head (by decide), by decide, ?_⟩
  exact ⟨labTeam.teams.head (by decide), labTeam.memberships.head (by decide), by decide,
    by decide, by decide, by decide⟩

end OmniAuth
