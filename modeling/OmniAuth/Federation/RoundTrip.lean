import OmniAuth.Federation.Logout
import OmniAuth.Token.Blacklist
import OmniAuth.Login.Routes

/-!
# The round trip of a logout

`POST /auth/saml/{org_slug}/logout` sends the browser to the identity provider with a RelayState;
`GET /auth/saml/{org_slug}/slo` gets it back with the provider's answer. The RelayState is
good for the organization, the configuration and the request it was made for, for ten minutes,
and for nothing else.
-/

namespace OmniAuth

open Txn Prog

variable (A : AppEnv)

/-- `get_session_for_refresh_token` -/
def Database.sessionForRefreshToken (db : Database) (refreshToken : A.Token) :
    Option UserSession :=
  (db.tokenByHash (A.sha256 refreshToken)).bind fun r => db.getByFamilyId r.familyId

/-- A request of `saml_logout`. `blacklisted` is what `blacklist_access_token` answers, where
there is an access token; `requestId` names the request python3-saml builds, unless it raises. -/
structure SamlLogout where
  orgSlug : String
  refreshToken : A.Token
  blacklisted : Except Err Unit
  requestId : Option String

/-- `build_logout_request_url`: the endpoint and the RelayState. -/
def buildLogoutRequestUrl (org : Organization) (config : IdpConfig) (requestId : Option String) :
    Op (Option (String × A.Token)) :=
  match config.saml.sloUrl.filter (· ≠ "") with
  | none => return none
  | some sloUrl =>
      match requestId with
      | none => raise (.samlLogout "could not construct SAML logout request")
      | some requestId => do
          let relayState ← createSamlSloRelayStateToken A.toEnv org.id config.id requestId
          return some (sloUrl, relayState)

/-- `config.id == session.organization_saml_config_id`, and the configuration is active. -/
def Database.sloConfig (db : Database) (orgSlug : String) (configId : ℕ) :
    Option (Organization × IdpConfig) :=
  (db.organizations.find? (·.slug = orgSlug)).bind fun org =>
    ((db.getIdpConfig true org.id).filter fun config =>
      config.id = configId ∧ config.status = .active).map fun config => (org, config)

/-- The session, after the commit of `revoke_token`. -/
def reloadSession (session : UserSession) : Op UserSession := do
  let session ← query fun db => db.sessions.find? (·.id = session.id)
  match session with
  | some session => return session
  | none => raise .database

/-- `saml_logout`: `idp_logout_url`, where there is one. -/
def samlLogout (r : SamlLogout A) : Op (Option (String × A.Token)) := do
  let session ← query (·.sessionForRefreshToken A r.refreshToken)
  revokeToken A.toEnv r.refreshToken
  match r.blacklisted, session with
  | .error x, _ => raise x
  | .ok (), none => return none
  | .ok (), some session => do
      let session ← reloadSession session
      match session.samlNameId.filter (· ≠ ""), session.organizationSamlConfigId with
      | some _, some configId => do
          let found ← query (·.sloConfig r.orgSlug configId)
          match found with
          | some (org, config) => buildLogoutRequestUrl A org config r.requestId
          | none => return none
      | _, _ => return none

/-! ## What the RelayState is good for -/

section

variable {A} {db : Database} {org : Organization} {config : IdpConfig} {requestId : String}
  {w w' : World} {sloUrl : String} {relayState : A.Token}

/-- A RelayState of a logout is signed with the ids it was made for. -/
def RelayStateFor (organizationId configId : ℕ) (requestId : String) (issuedAt : ℕ)
    (relayState : A.Token) : Prop :=
  ∃ jti, relayState = sign A.toEnv
    { type := some .samlSloRelayState
      organizationId := some organizationId
      organizationSamlConfigId := some configId
      requestId := some requestId
      exp := some (numericDate (issuedAt + minutes 10))
      jti := some jti }

theorem buildLogoutRequestUrl_relayState {id : Option String}
    (h : (buildLogoutRequestUrl A org config id).Exec w (.ok (some (sloUrl, relayState))) w') :
    w'.cur = w.cur ∧ ∃ requestId, id = some requestId ∧
      RelayStateFor org.id config.id requestId w'.now relayState := by
  unfold buildLogoutRequestUrl at h
  split at h
  · cases h.1
  · cases id with
    | none => cases h.1
    | some requestId =>
      simp only [createSamlSloRelayStateToken, createRelayStateToken, bind_eq, bind_bind,
        exec_time_bind, exec_draw_bind] at h
      obtain ⟨t, -, h, rfl⟩ := h
      obtain ⟨-, rfl⟩ := Prod.mk.inj (Option.some.inj (Except.ok.inj h))
      exact ⟨rfl, requestId, rfl, _, rfl⟩

theorem Database.sloConfig_some {orgSlug : String} {configId : ℕ}
    (h : db.sloConfig orgSlug configId = some (org, config)) :
    db.organizations.find? (·.slug = orgSlug) = some org ∧
      db.getIdpConfig true org.id = some config ∧ config.status = .active := by
  unfold Database.sloConfig at h
  obtain ⟨org', horg, h⟩ := Option.bind_eq_some_iff.mp h
  obtain ⟨config', hconfig, h⟩ := Option.map_eq_some_iff.mp h
  obtain ⟨hget, hactive⟩ := Option.filter_eq_some_iff.mp hconfig
  obtain ⟨rfl, rfl⟩ := Prod.mk.inj h
  exact ⟨horg, hget, (of_decide_eq_true hactive).2⟩

/-- A logout that answers with a redirect made its RelayState last of all. -/
theorem samlLogout_relayState {r : SamlLogout A}
    (h : (samlLogout A r).Exec w (.ok (some (sloUrl, relayState))) w') :
    ∃ org config requestId, r.requestId = some requestId ∧
      w'.cur.organizations.find? (·.slug = r.orgSlug) = some org ∧
      w'.cur.getIdpConfig true org.id = some config ∧ config.status = .active ∧
      RelayStateFor org.id config.id requestId w'.now relayState := by
  unfold samlLogout at h
  simp only [bind_eq, exec_query_bind] at h
  obtain ⟨_, w₁, -, h⟩ | ⟨x, -, h⟩ := exec_bind.mp h
  swap
  · cases h
  split at h
  · cases h.1
  · cases h.1
  obtain ⟨session, w₂, -, h⟩ | ⟨x, -, h⟩ := exec_bind.mp h
  swap
  · cases h
  split at h
  · simp only [exec_query_bind] at h
    split at h
    · rename_i org config hfound
      obtain ⟨hcur, requestId, hid, hmade⟩ := buildLogoutRequestUrl_relayState h
      obtain ⟨horg, hget, hactive⟩ := Database.sloConfig_some hfound
      rw [hcur]
      exact ⟨org, config, requestId, hid, horg, hget, hactive, hmade⟩
    · cases h.1
  · cases h.1

/-- **A signed token that names neither issuer nor audience** decodes until it expires. -/
theorem decodeToken_sign_exp {E : Env} (hJ : E.jose.Lawful) {c : Claims} {e : ℕ}
    (hexp : c.exp = some e) (hiss : c.iss = none) (haud : c.aud = none) (now : ℕ) :
    decodeToken E now (sign E c) =
      if numericDate now ≤ e then
        .ok { c with iss := some E.jwtIssuer, aud := some E.jwtAudience }
      else .error .expired := by
  rw [decodeToken, decodeTokenForAudience_sign hJ]
  by_cases hnow : numericDate now ≤ e
  · simp [Claims.validate, onSome, hexp, hiss, haud, Nat.not_lt.mpr hnow, hnow]
  · simp [Claims.validate, onSome, hexp, Nat.not_le.mp hnow, hnow]

/-- A RelayState decodes to its claims until it expires. -/
theorem RelayStateFor.decode (hJ : A.jose.Lawful) {organizationId configId issuedAt : ℕ}
    (h : RelayStateFor organizationId configId requestId issuedAt relayState) (now : ℕ) :
    (∃ payload, decodeToken A.toEnv now relayState = .ok payload ∧
        payload.type = some .samlSloRelayState ∧ payload.organizationId = some organizationId ∧
        payload.organizationSamlConfigId = some configId ∧ payload.requestId = some requestId ∧
        numericDate now ≤ numericDate (issuedAt + minutes 10)) ∨
      (∃ x, decodeToken A.toEnv now relayState = .error x) ∧
        ¬ numericDate now ≤ numericDate (issuedAt + minutes 10) := by
  obtain ⟨jti, rfl⟩ := h
  generalize numericDate (issuedAt + minutes 10) = e
  rw [decodeToken_sign_exp hJ rfl rfl rfl]
  by_cases hexp : numericDate now ≤ e
  · rw [if_pos hexp]
    exact .inl ⟨_, rfl, rfl, rfl, rfl, rfl, hexp⟩
  · rw [if_neg hexp]
    exact .inr ⟨⟨_, rfl⟩, hexp⟩

/-- **The checks of a RelayState that comes back** are met for what it was made for, until it
expires. -/
theorem verifySloRelayState_iff (hJ : A.jose.Lawful) {now issuedAt organizationId configId : ℕ}
    {answer : Option String}
    (h : RelayStateFor organizationId configId requestId issuedAt relayState) :
    verifySloRelayState A now org config relayState = .ok answer ↔
      numericDate now ≤ numericDate (issuedAt + minutes 10) ∧ org.id = organizationId ∧
        config.id = configId ∧ answer = some requestId := by
  unfold verifySloRelayState
  rcases h.decode hJ now with ⟨payload, hdecode, htype, horg, hconfig, hrequest, hexp⟩ |
    ⟨⟨x, hdecode⟩, hexp⟩
  · simp only [hdecode, htype, ne_eq, not_true_eq_false, if_false, horg, hconfig, hrequest]
    split
    · rename_i hother
      constructor
      · intro h
        cases h
      · rintro ⟨-, ho, hc, -⟩
        exact absurd hother (by simp [ho, hc])
    · rename_i hsame
      rw [not_or, not_not, not_not] at hsame
      constructor
      · intro h
        exact ⟨hexp, (Option.some.inj hsame.1).symm, (Option.some.inj hsame.2).symm,
          (Except.ok.inj h).symm⟩
      · rintro ⟨-, -, -, ha⟩
        rw [ha]
  · simp only [hdecode]
    constructor
    · intro h
      cases h
    · exact fun h => absurd h.1 hexp

/-- No login takes it for its own. -/
theorem verifySamlRelayState_refuses (hJ : A.jose.Lawful) {now issuedAt organizationId configId : ℕ}
    {orgSlug : String} (h : RelayStateFor organizationId configId requestId issuedAt relayState) :
    ∃ message, verifySamlRelayState A db now orgSlug relayState = .error (.http 400 message) := by
  unfold verifySamlRelayState verifyIdpState
  rcases h.decode hJ now with ⟨payload, hdecode, htype, -⟩ |
    ⟨⟨x, hdecode⟩, -⟩
  · simp only [hdecode, htype]
    exact ⟨_, rfl⟩
  · simp only [hdecode]
    exact ⟨_, rfl⟩

/-! ## The round trip -/

/-- **The RelayState of a logout** closes that logout and nothing else. It is made for an active
configuration of the organization; `/slo` answers the provider's response with "Logged out"
exactly for this organization and this configuration, while it is active, for ten minutes, where
the response is to the very request; and no login accepts it. -/
theorem logout_round_trip (hJ : A.jose.Lawful) {r : SamlLogout A}
    (hlogout : (samlLogout A r).Exec w (.ok (some (sloUrl, relayState))) w') :
    ∃ org config requestId, r.requestId = some requestId ∧
      w'.cur.organizations.find? (·.slug = r.orgSlug) = some org ∧
      w'.cur.getIdpConfig true org.id = some config ∧ config.status = .active ∧
      (∀ slug accepts w₁ reply w₂,
        (samlSlo A slug (.response (some relayState) accepts)).Exec w₁ reply w₂ →
        (reply = .ok .loggedOut ↔ ∃ org' config',
          w₁.cur.organizations.find? (·.slug = slug) = some org' ∧ org'.id = org.id ∧
            w₁.cur.getIdpConfig true org'.id = some config' ∧ config'.id = config.id ∧
            config'.status = .active ∧
            numericDate w₂.now ≤ numericDate (w'.now + minutes 10) ∧
            accepts (some requestId) = true)) ∧
      ∀ (login : SamlAcs A) w₁ reply w₂, login.relayState = some relayState →
        (samlAcs A login).Exec w₁ reply w₂ → ∃ message, reply = .error (.http 400 message) := by
  obtain ⟨org₀, config₀, requestId, hid, horg₀, hget₀, hactive₀, hmade⟩ :=
    samlLogout_relayState hlogout
  refine ⟨org₀, config₀, requestId, hid, horg₀, hget₀, hactive₀,
    fun slug accepts w₁ reply w₂ hslo => ?_, fun login w₁ reply w₂ hrelay hacs => ?_⟩
  · unfold samlSlo at hslo
    simp only [bind_eq, exec_query_bind] at hslo
    split at hslo
    · rename_i hnone
      obtain ⟨rfl, rfl⟩ := hslo
      constructor
      · intro h
        cases h
      · rintro ⟨org, config, horg, -⟩
        rw [hnone] at horg
        cases horg
    rename_i org horg
    simp only [exec_query_bind] at hslo
    split at hslo
    · rename_i hnone
      obtain ⟨rfl, rfl⟩ := hslo
      constructor
      · intro h
        cases h
      · rintro ⟨org', config, horg', -, hget, -, hactive, -⟩
        obtain rfl := Option.some.inj (horg.symm.trans horg')
        rw [hget] at hnone
        simp [hactive] at hnone
    rename_i config hconfig
    obtain ⟨hget, hactive⟩ := Option.filter_eq_some_iff.mp hconfig
    simp only [answerLogoutResponse, bind_eq, exec_time_bind] at hslo
    obtain ⟨t, -, hslo⟩ := hslo
    have hchecks : ∀ answer, verifySloRelayState A t org config relayState = .ok answer ↔ _ :=
      fun answer => verifySloRelayState_iff hJ hmade
    cases hverify : verifySloRelayState A t org config relayState with
    | error x =>
      rw [hverify] at hslo hchecks
      obtain ⟨rfl, rfl⟩ := hslo
      constructor
      · intro h
        cases h
      · rintro ⟨org', config', horg', hid', hget', hcid, -, hexp, -⟩
        obtain rfl := Option.some.inj (horg.symm.trans horg')
        obtain rfl := Option.some.inj (hget.symm.trans hget')
        cases (hchecks (some requestId)).mpr ⟨hexp, hid', hcid, rfl⟩
    | ok answer =>
      rw [hverify] at hslo hchecks
      obtain ⟨hexp, hid', hcid, rfl⟩ := (hchecks answer).mp rfl
      dsimp only at hslo
      split at hslo
      · rename_i haccepts
        obtain ⟨rfl, rfl⟩ := hslo
        exact iff_of_true rfl ⟨org, config, horg, hid', hget, hcid, of_decide_eq_true hactive,
          hexp, haccepts⟩
      · rename_i hrefuses
        obtain ⟨rfl, rfl⟩ := hslo
        constructor
        · intro h
          cases h
        · rintro ⟨-, -, -, -, -, -, -, -, haccepts⟩
          exact absurd haccepts hrefuses
  · unfold samlAcs at hacs
    rw [hrelay] at hacs
    simp only [bind_eq, exec_time_bind, exec_query_bind] at hacs
    obtain ⟨t, -, hacs⟩ := hacs
    obtain ⟨message, hmessage⟩ := verifySamlRelayState_refuses hJ hmade
    rw [hmessage] at hacs
    exact ⟨message, hacs.1⟩

end

/-! ## One logout -/

def adaToken : AppEnv.symbolic.Token := (.hs256, { jti := some 3 })

/-- Ada is signed in by SAML. -/
def adaSessions : Database :=
  { samlLab with
    refreshTokens := [{
      id := 1
      userId := 20
      tokenHash := 3
      revoked := false
      expiresAt := days 7
      familyId := some 7
      rotatedAt := none }] }

def adaSignedIn : World := ⟨adaSessions, adaSessions, 0, 30, []⟩

def adaLogout : SamlLogout .symbolic where
  orgSlug := "lab"
  refreshToken := adaToken
  blacklisted := .ok ()
  requestId := some "_r9"

/-- While nobody changes the configuration, the provider's answer is taken for ten minutes. -/
theorem logout_round_trip_ada : ∃ sloUrl relayState w',
    (samlLogout .symbolic adaLogout).Exec adaSignedIn (.ok (some (sloUrl, relayState))) w' ∧
    ∀ accepts w₁ reply w₂, w₁.cur = w'.cur →
      (samlSlo .symbolic "lab" (.response (some relayState) accepts)).Exec w₁ reply w₂ →
      (reply = .ok .loggedOut ↔ numericDate w₂.now ≤ numericDate (w'.now + minutes 10) ∧
        accepts (some "_r9") = true) := by
  have hplays : ((samlLogout .symbolic adaLogout).run adaSignedIn).1.toOption.join.isSome =
    true := by decide
  cases hrun : ((samlLogout .symbolic adaLogout).run adaSignedIn).1 with
  | error x =>
    rw [hrun] at hplays
    cases hplays
  | ok found =>
    cases found with
    | none =>
      rw [hrun] at hplays
      cases hplays
    | some found =>
      obtain ⟨sloUrl, relayState⟩ := found
      have hlogout := exec_run (samlLogout .symbolic adaLogout) adaSignedIn
      rw [hrun] at hlogout
      refine ⟨sloUrl, relayState, _, hlogout, fun accepts w₁ reply w₂ hsame hslo => ?_⟩
      obtain ⟨org, config, requestId, hid, horg, hget, hactive, hanswer, -⟩ :=
        logout_round_trip Jose.symbolic_lawful hlogout
      obtain rfl := Option.some.inj hid
      rw [← hsame] at horg hget
      rw [hanswer "lab" accepts w₁ reply w₂ hslo]
      constructor
      · rintro ⟨-, -, -, -, -, -, -, hexp, haccepts⟩
        exact ⟨hexp, haccepts⟩
      · rintro ⟨hexp, haccepts⟩
        exact ⟨org, config, horg, rfl, hget, rfl, hactive, hexp, haccepts⟩

end OmniAuth
