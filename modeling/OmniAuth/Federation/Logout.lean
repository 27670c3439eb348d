import OmniAuth.Session.Suspension
import OmniAuth.Federation.Config

/-!
# Single logout

`GET /auth/saml/{org_slug}/slo` and `POST /auth/saml/{org_slug}/logout`. What python3-saml makes
of a message, and the store of the messages that were used, are fields of the request. A logout
the identity provider asks for ends, in one transaction, every session its identity had when
the request first read; no rotation that begins later gets tokens out of their families.
-/

namespace OmniAuth

open Txn Prog

variable (A : AppEnv)

/-! ## The requests -/

/-- `find_active_by_saml_identity` -/
def Database.findActiveBySamlIdentity (db : Database) (organizationSamlConfigId : ℕ)
    (nameId : String) (sessionIndex : Option String) : List UserSession :=
  db.sessions.filter fun s => s.organizationSamlConfigId = some organizationSamlConfigId ∧
    s.samlNameId = some nameId ∧ s.status = .active ∧
    (sessionIndex = none ∨ s.samlSessionIndex = sessionIndex)

/-- `SAMLLogoutRequestIdentity` -/
structure SamlLogoutRequestIdentity where
  nameId : String
  sessionIndex : Option String
  requestId : String
  deriving DecidableEq

/-- What the query string carries. Of a `SAMLRequest` there is the answer of
`validate_slo_logout_request`, of a `SAMLResponse` the request ids for which
`validate_slo_logout_response` accepts it. -/
inductive SloMessage
  | request (identity : Option SamlLogoutRequestIdentity)
  | response (relayState : Option A.Token) (accepts : Option String → Bool)
  | nothing

/-- A redirect carries the id of the request it answers. -/
inductive SloReply
  | redirect (sloUrl inResponseTo : String)
  | loggedOut
  deriving DecidableEq

/-- `revoke`, short of the write, which is the commit's: the session, and when. -/
def markRevoked (familyId : ℕ) : Op (Option (ℕ × ℕ)) := do
  let session ← query (·.getByFamilyId (some familyId))
  match session with
  | none => return none
  | some session =>
      if session.status = .revoked then return none
      else do
        let now ← time
        return some (session.id, now)

/-- The loop over the sessions of the identity. -/
def markSessions : List UserSession → Op (List (ℕ × ℕ))
  | [] => return []
  | session :: rest => do
      let mark ← markRevoked session.sessionId
      let marks ← markSessions rest
      return mark.toList ++ marks

/-- The flush of the sessions that were marked. -/
def flushSessions : List (ℕ × ℕ) → Op Unit
  | [] => return ()
  | mark :: rest => do
      execute (.revokeSession mark.1 mark.2 .userLogout)
      flushSessions rest

/-- `config.slo_url`, after the commit. -/
def sloUrlOf (configId : ℕ) : Op (Option String) := do
  let config ← query fun db => (db.idpConfigs true).find? (·.id = configId)
  match config with
  | some config => return config.saml.sloUrl.filter (· ≠ "")
  | none => raise .database

/-- A logout the identity provider asks for. -/
def answerLogoutRequest (config : IdpConfig) :
    Option SamlLogoutRequestIdentity → Op SloReply
  | none => raise (.http 400 "SAML logout failed")
  | some identity => do
      let sessions ← query fun db =>
        db.findActiveBySamlIdentity config.id identity.nameId identity.sessionIndex
      let marks ← markSessions sessions
      flushSessions marks
      commitNow
      let sloUrl ← sloUrlOf config.id
      match sloUrl with
      | some sloUrl => return .redirect sloUrl identity.requestId
      | none => raise (.http 400 "SAML logout failed")

/-- The checks of the RelayState that comes back: the id of the request it was made for. -/
def verifySloRelayState (now : ℕ) (org : Organization) (config : IdpConfig) (relayState : A.Token) :
    Except Err (Option String) :=
  match decodeToken A.toEnv now relayState with
  | .error _ => .error (.http 400 "Invalid or expired SAML RelayState")
  | .ok payload =>
      if payload.type ≠ some .samlSloRelayState then .error (.http 400 "Invalid SAML RelayState")
      else if payload.organizationId ≠ some org.id ∨
          payload.organizationSamlConfigId ≠ some config.id then
        .error (.http 400 "SAML RelayState does not match this organization")
      else .ok payload.requestId

/-- The answer to a logout this service asked for. -/
def answerLogoutResponse (org : Organization) (config : IdpConfig) (relayState : Option A.Token)
    (accepts : Option String → Bool) : Op SloReply :=
  match relayState with
  | none => raise (.http 400 "Missing RelayState")
  | some relayState => do
      let now ← time
      match verifySloRelayState A now org config relayState with
      | .error x => raise x
      | .ok requestId =>
          if accepts requestId then return .loggedOut
          else raise (.http 400 "SAML logout failed")

/-- `saml_slo` -/
def samlSlo (orgSlug : String) (message : SloMessage A) : Op SloReply := do
  let org ← query fun db => db.organizations.find? (·.slug = orgSlug)
  match org with
  | none => raise (.http 404 "Unknown organization")
  | some org => do
      let config ← query (·.getIdpConfig true org.id)
      match config.filter (·.status = .active) with
      | none => raise (.http 404 "SAML SSO is not configured for this organization")
      | some config =>
          match message with
          | .request identity => answerLogoutRequest config identity
          | .response relayState accepts => answerLogoutResponse A org config relayState accepts
          | .nothing => raise (.http 400 "Missing SAMLRequest or SAMLResponse")

/-! ## What a logout has marked -/

/-- The sessions with these ids are revoked. -/
def Database.revoked (db : Database) (marks : List (ℕ × ℕ)) : Database :=
  marks.foldl (fun db mark => db.updateSession mark.1 (UserSession.revoke mark.2 .userLogout)) db

/-- The session of the family is over in `db`, or one of those that are marked. -/
def Marked (db : Database) (marks : List (ℕ × ℕ)) (f : ℕ) : Prop :=
  ∃ s, db.getByFamilyId (some f) = some s ∧ (s.status = .revoked ∨ s.id ∈ marks.map Prod.fst)

section

variable {A : AppEnv} {db db' v : Database} {marks marks' : List (ℕ × ℕ)} {f : ℕ}

theorem Marked.evolve (h : Marked db marks f) (hle : db.Evolves db') : Marked db' marks f := by
  obtain ⟨s, hs, hmark⟩ := h
  obtain ⟨s', hs', hev⟩ := hle.getByFamilyId hs
  refine ⟨s', hs', hmark.imp hev.revoked fun hid => ?_⟩
  rw [hev.id]
  exact hid

theorem Marked.mono (h : Marked db marks f)
    (hmarks : ∀ id ∈ marks.map Prod.fst, id ∈ marks'.map Prod.fst) : Marked db marks' f := by
  obtain ⟨s, hs, hmark⟩ := h
  exact ⟨s, hs, hmark.imp id (hmarks s.id)⟩

/-- **Once what was marked is written**, the families that were marked are over. -/
theorem Marked.ended (h : Marked db marks f) : Ended (db.revoked marks) f := by
  induction marks generalizing db with
  | nil =>
    obtain ⟨s, hs, hmark⟩ := h
    exact ⟨s, hs, hmark.resolve_right List.not_mem_nil⟩
  | cons mark rest ih =>
    refine ih ?_
    obtain ⟨s, hs, hmark⟩ := h
    have hle : db.Evolves (db.updateSession mark.1 (UserSession.revoke mark.2 .userLogout)) :=
      Database.evolves_updateSession _ (UserSession.revoke mark.2 .userLogout)
        (fun s => ⟨rfl, rfl, rfl, fun _ => rfl⟩) db
    by_cases hid : s.id = mark.1
    · obtain ⟨s', hs', hrevoked⟩ := Database.ended_updateSession hs mark.2 .userLogout
      rw [hid] at hs'
      exact ⟨s', hs', .inl hrevoked⟩
    · refine Marked.evolve ⟨s, hs, hmark.imp_right fun hmem => ?_⟩ hle
      exact (List.mem_cons.mp hmem).resolve_left hid

/-! ## The discipline -/

/-- How far a logout has come: what it has written so far, or what it has committed. -/
inductive LogoutStage
  | writing (marks : List (ℕ × ℕ))
  | finished (marks : List (ℕ × ℕ))

namespace LogoutStage

def onWrite : Stmt → LogoutStage → LogoutStage
  | .revokeSession id t _, writing marks => writing (marks ++ [(id, t)])
  | _, q => q

def onCommit : LogoutStage → LogoutStage
  | writing marks => finished marks
  | q => q

/-- The transaction is gone, or nobody knows. -/
def onFailure : LogoutStage → LogoutStage
  | writing _ => finished []
  | q => q

end LogoutStage

/-- A logout whose transaction has the snapshot `v`. Before it writes it reads `v`, it writes
revocations only, and none of them after its commit. -/
def loggingOut (v : Database) : Discipline AuthSig LogoutStage where
  next q
    | .wrote stmt _ _ => q.onWrite stmt
    | .committed => q.onCommit
    | .rolledBack | .commitFailed _ | .commitLost _ | .crashed _ => q.onFailure
    | _ => q
  sees q
    | .read v' => q = .writing [] → v' = v
    | _ => True
  may q
    | .wrote stmt _ _ => ∃ marks id t, q = .writing marks ∧ stmt = .revokeSession id t .userLogout
    | _ => True

/-- **What is so while a logout runs.** -/
structure LoggingOut {ι α : Type} (v : Database) (i : ι) (s : Sys AuthSig ι α)
    (q : LogoutStage) : Prop where
  moves : Database.evolution.Pending s
  base : v.Evolves s.db
  writing : ∀ marks, q = .writing marks →
    (s.conn i).snap = some v ∧ ∀ st, (s.conn i).pend st = st.revoked marks
  finished : ∀ marks, q = .finished marks → ∀ f, Marked v marks f → Ended s.db f

section

variable {ι α : Type} [DecidableEq ι] {s : Sys AuthSig ι α} {q : LogoutStage} {i j : ι}
  {ℓ : Label AuthSig} {p : Prog AuthSig α} {F : Prop}

omit [DecidableEq ι] in
theorem LoggingOut.sees (h : LoggingOut v i s q) (hen : s.Enabled i ℓ) :
    (loggingOut v).sees q ℓ := by
  cases ℓ with
  | read v' =>
    intro hq
    obtain ⟨hsnap, hpend⟩ := h.writing [] hq
    obtain rfl : v' = s.view i := hen
    rw [Sys.view, hsnap, hpend]
    rfl
  | _ => trivial

/-- **A step of another** leaves all of it. -/
theorem LoggingOut.other (h : LoggingOut v i s q) (hne : j ≠ i)
    (hstep : s.Step F j ℓ (s.after j ℓ p)) : LoggingOut v i (s.after j ℓ p) q := by
  obtain ⟨p', hact, hen, heq⟩ := hstep
  have hle := Database.evolution.after h.moves j ℓ p
  have hmoves := h.moves.after (i := j) _ hen p'
  rw [← heq] at hmoves
  refine ⟨hmoves, h.base.trans hle, fun marks hq => ?_, fun marks hq f hf => ?_⟩
  · rw [Sys.after_conn_of_ne _ _ _ (Ne.symm hne)]
    exact h.writing marks hq
  · exact hle.finds.ended (h.finished marks hq f hf)

omit [DecidableEq ι] in
/-- Where the transaction is over, nothing it marked is asked for. -/
theorem LoggingOut.failed (h : LoggingOut v i s q) (hle : s.db.Evolves db) (marks : List (ℕ × ℕ))
    (hq : q.onFailure = .finished marks) (f : ℕ) (hf : Marked v marks f) : Ended db f := by
  cases q with
  | writing marks' =>
    obtain rfl := LogoutStage.finished.inj hq
    exact (hf.evolve (h.base.trans hle)).ended
  | finished marks' =>
    obtain rfl := LogoutStage.finished.inj hq
    exact hle.finds.ended (h.finished _ rfl f hf)

/-- **A step of the logout itself.** -/
theorem LoggingOut.self (h : LoggingOut v i s q) (hvouched : (loggingOut v).Vouched q ℓ)
    (hstep : s.Step F i ℓ (s.after i ℓ p)) :
    LoggingOut v i (s.after i ℓ p) ((loggingOut v).next q ℓ) := by
  obtain ⟨p', hact, hen, heq⟩ := hstep
  have hle := Database.evolution.after h.moves i ℓ p
  have hmoves := h.moves.after (i := i) _ hen p'
  rw [← heq] at hmoves
  have hfailed : ∀ marks, q.onFailure = .writing marks → False := by
    intro marks hq
    cases q <;> cases hq
  refine ⟨hmoves, h.base.trans hle, ?_, ?_⟩
  · rw [Sys.after_conn_self]
    cases ℓ with
    | read v' =>
      intro marks hq
      obtain ⟨hsnap, hpend⟩ := h.writing marks hq
      refine ⟨?_, hpend⟩
      show some ((s.conn i).snap.getD s.db) = some v
      rw [hsnap]
      rfl
    | wrote stmt seen eff =>
      obtain ⟨marks, id, t, rfl, rfl⟩ := hvouched
      obtain ⟨hsnap, hpend⟩ := h.writing marks rfl
      obtain rfl := Except.ok.inj hen.2.1
      intro marks' hq
      obtain rfl := LogoutStage.writing.inj hq
      refine ⟨hsnap, fun st => ?_⟩
      show Database.updateSession id _ ((s.conn i).pend st) = _
      rw [hpend, Database.revoked, Database.revoked, List.foldl_append]
      rfl
    | committed =>
      intro marks hq
      cases q <;> cases hq
    | rolledBack => exact fun marks hq => (hfailed marks hq).elim
    | commitFailed x => exact fun marks hq => (hfailed marks hq).elim
    | commitLost x => exact fun marks hq => (hfailed marks hq).elim
    | crashed x => exact fun marks hq => (hfailed marks hq).elim
    | _ => exact h.writing
  · cases ℓ with
    | committed =>
      intro marks hq f hf
      cases q with
      | writing marks' =>
        obtain rfl := LogoutStage.finished.inj hq
        have hended : Ended (s.db.revoked marks') f := (hf.evolve h.base).ended
        rw [← (h.writing _ rfl).2] at hended
        exact hended
      | finished marks' =>
        obtain rfl := LogoutStage.finished.inj hq
        exact hle.finds.ended (h.finished _ rfl f hf)
    | rolledBack => exact h.failed hle
    | commitFailed x => exact h.failed hle
    | commitLost x => exact h.failed hle
    | crashed x => exact h.failed hle
    | wrote stmt seen eff =>
      obtain ⟨marks, id, t, rfl, rfl⟩ := hvouched
      intro marks' hq
      cases hq
    | _ => exact fun marks hq f hf => hle.finds.ended (h.finished marks hq f hf)

end

/-! ## The program keeps to it -/

variable {F : Prop} {sessions : List UserSession}

theorem markRevoked_loggingOut : (markRevoked f).Follows (loggingOut v) F
    (Leads fun mark q => q = .writing [] ∧ (Known v f → Marked v mark.toList f)) (.writing []) := by
  refine ⟨fun v' hv => ⟨trivial, ?_⟩, fun _ x => trivial⟩
  obtain rfl := hv rfl
  cases hs : v'.getByFamilyId (some f) with
  | none =>
    simp only [handle, hs]
    refine ⟨rfl, ?_⟩
    rintro ⟨s, hs'⟩
    rw [hs] at hs'
    cases hs'
  | some session =>
    simp only [handle, hs]
    split
    · rename_i hrevoked
      exact ⟨rfl, fun _ => ⟨session, hs, .inl hrevoked⟩⟩
    · intro now _
      exact ⟨rfl, fun _ => ⟨session, hs, .inr (List.mem_singleton.mpr rfl)⟩⟩

/-- **The loop marks every session** that was found. -/
theorem markSessions_loggingOut : (markSessions sessions).Follows (loggingOut v) F
    (Leads fun marks q => q = .writing [] ∧
      ∀ session ∈ sessions, Known v session.sessionId → Marked v marks session.sessionId)
    (.writing []) := by
  induction sessions with
  | nil => exact ⟨rfl, fun _ h => absurd h List.not_mem_nil⟩
  | cons session rest ih =>
    refine Leads.bind markRevoked_loggingOut fun mark q hmark => ?_
    obtain ⟨rfl, hmark⟩ := hmark
    refine Leads.bind ih fun marks q hmarks => ?_
    obtain ⟨rfl, hmarks⟩ := hmarks
    refine ⟨rfl, fun s hs hknown => ?_⟩
    rcases List.mem_cons.mp hs with rfl | hs
    · exact (hmark hknown).mono fun id hid => by
        rw [List.map_append]
        exact List.mem_append_left _ hid
    · exact (hmarks s hs hknown).mono fun id hid => by
        rw [List.map_append]
        exact List.mem_append_right _ hid

theorem flushSessions_loggingOut {done : List (ℕ × ℕ)} :
    (flushSessions marks).Follows (loggingOut v) F
      (Leads fun _ q => q = .writing (done ++ marks)) (.writing done) := by
  induction marks generalizing done with
  | nil => exact congrArg LogoutStage.writing (List.append_nil done).symm
  | cons mark rest ih =>
    refine ⟨fun seen eff _ _ => ⟨⟨done, mark.1, mark.2, rfl, rfl⟩, ?_⟩,
      fun _ x _ _ => ⟨trivial, trivial⟩, fun _ x => trivial⟩
    have hassoc : done ++ mark :: rest = (done ++ [mark]) ++ rest := by simp
    rw [hassoc]
    exact ih

/-- The sessions of the identity are marked, and that is committed. -/
def LoggedOut (v : Database) (orgSlug : String) (identity : SamlLogoutRequestIdentity)
    (q : LogoutStage) : Prop :=
  ∃ org config marks, v.organizations.find? (·.slug = orgSlug) = some org ∧
    v.getIdpConfig true org.id = some config ∧ config.status = .active ∧ q = .finished marks ∧
    ∀ session ∈ v.findActiveBySamlIdentity config.id identity.nameId identity.sessionIndex,
      Marked v marks session.sessionId

theorem sloUrlOf_loggingOut {configId : ℕ} : (sloUrlOf configId).Follows (loggingOut v) F
    (fun _ q => q = .finished marks) (.finished marks) := by
  refine ⟨fun v' _ => ⟨trivial, ?_⟩, fun _ x => rfl⟩
  cases h : (v'.idpConfigs true).find? (·.id = configId) with
  | none =>
    simp only [handle, h]
    exact rfl
  | some config =>
    simp only [handle, h]
    exact rfl

theorem answerLogoutRequest_loggingOut {orgSlug : String} {org : Organization} {config : IdpConfig}
    {identity : SamlLogoutRequestIdentity}
    (horg : v.organizations.find? (·.slug = orgSlug) = some org)
    (hget : v.getIdpConfig true org.id = some config) (hactive : config.status = .active) :
    (answerLogoutRequest config (some identity)).Follows (loggingOut v) F
      (Leads fun _ q => LoggedOut v orgSlug identity q) (.writing []) := by
  refine follows_query_bind.mpr ⟨fun v' hv => ⟨trivial, ?_⟩, fun _ x => trivial⟩
  obtain rfl := hv rfl
  refine Leads.bind markSessions_loggingOut fun marks q hmarks => ?_
  obtain ⟨rfl, hmarks⟩ := hmarks
  refine Leads.bind flushSessions_loggingOut fun _ q hq => ?_
  subst hq
  have hdone : LoggedOut v' orgSlug identity (.finished ([] ++ marks)) := by
    refine ⟨org, config, marks, horg, hget, hactive, rfl, fun session hsession => ?_⟩
    refine hmarks session hsession ?_
    have hfound : (v'.sessions.find? fun s => s.sessionId = session.sessionId).isSome :=
      List.find?_isSome.mpr ⟨session, (List.mem_filter.mp hsession).1, decide_eq_true rfl⟩
    exact Option.isSome_iff_exists.mp hfound
  refine follows_commitNow_bind.mpr
    ⟨fun _ => ⟨trivial, ?_⟩, fun _ x => ⟨trivial, trivial, trivial⟩⟩
  refine sloUrlOf_loggingOut.handle fun r q hq => ?_
  obtain rfl := hq
  cases r with
  | error x => exact trivial
  | ok sloUrl =>
    cases sloUrl with
    | none => exact trivial
    | some sloUrl => exact hdone

/-- **A logout that is answered** has marked and committed. -/
theorem samlSlo_loggingOut {orgSlug : String} {identity : SamlLogoutRequestIdentity} :
    (samlSlo A orgSlug (.request (some identity))).Follows (loggingOut v) F
      (Leads fun _ q => LoggedOut v orgSlug identity q) (.writing []) := by
  refine follows_query_bind.mpr ⟨fun v' hv => ⟨trivial, ?_⟩, fun _ x => trivial⟩
  obtain rfl := hv rfl
  cases horg : v'.organizations.find? (·.slug = orgSlug) with
  | none => exact trivial
  | some org =>
    refine follows_query_bind.mpr ⟨fun v'' hv => ⟨trivial, ?_⟩, fun _ x => trivial⟩
    obtain rfl := hv rfl
    dsimp only
    split
    · exact trivial
    · rename_i config hconfig
      obtain ⟨hget, hactive⟩ := Option.filter_eq_some_iff.mp hconfig
      exact answerLogoutRequest_loggingOut horg hget (of_decide_eq_true hactive)

end

/-! ## Logouts among other requests -/

/-- What the requests here reply. -/
inductive SessionReply
  | slo (reply : SloReply)
  | rotated (tokens : Option (A.Token × A.Token))
  | other

/-- A logout, a rotation, or anything else. -/
inductive SessionCall
  | slo (orgSlug : String) (message : SloMessage A)
  | rotate (token : A.Token) (teamId : Option (Option ℕ))
  | other (o : Op Unit)

/-- The handler of a request. -/
def SessionCall.op : SessionCall A → Op (SessionReply A)
  | slo orgSlug message => do
      let reply ← samlSlo A orgSlug message
      return .slo reply
  | rotate token teamId => do
      let tokens ← rotateRefreshToken A.toEnv token teamId
      return .rotated tokens
  | other o => do
      o
      return .other

section

variable {A : AppEnv} {ι : Type} [DecidableEq ι] {F : Prop}
  {ok ok' : Sys AuthSig ι (SessionReply A) → ι → Label AuthSig → Prop}
  {calls : ι → SessionCall A} {db : Database} {now next : ℕ} {i₀ : ι} {orgSlug : String}
  {identity : SamlLogoutRequestIdentity} {s₀ s₀' s₁ s₂ : Sys AuthSig ι (SessionReply A)}
  {ℓ : Label AuthSig}

/-- From `s` on no rotation that begins gets tokens for a token of the family. -/
def FamilyClosed (F : Prop) (calls : ι → SessionCall A) (f : ℕ)
    (s : Sys AuthSig ι (SessionReply A)) : Prop :=
  ∀ s₂ s₃ j token teamId tokens, Sys.Run F (fun _ _ _ => True) s s₂ →
    (∃ r, s₂.db.tokenByHash (A.sha256 token) = some r ∧ r.familyId = some f) →
    calls j = .rotate token teamId → s₂.begun j = false →
    Sys.Run F (fun _ _ _ => True) s₂ s₃ →
    (s₃.proc j).reply? ≠ some (.ok (.rotated (some tokens)))

/-- **Whatever is over** stays closed. -/
theorem familyClosed_of_ended {f : ℕ}
    (hrun : Sys.Run F ok (Sys.start db now next fun i => (calls i).op.close) s₁)
    (hended : Ended s₁.db f) : FamilyClosed F calls f s₁ := by
  intro s₂ s₃ j token teamId tokens hrun₂ ⟨r, hr, hf⟩ hj hlate hrun₃ hreply
  have hidle := Database.evolution.pending_start db now next fun i => (calls i).op.close
  have hmoves₁ := (Database.evolution.run hidle hrun).2
  obtain ⟨hle, hmoves₂⟩ := Database.evolution.run hmoves₁ hrun₂
  have hrefused : Refused (A.sha256 token) (some f) s₂.db := by
    refine ⟨⟨r, hr, .inr ⟨f, rfl, hf⟩⟩, fun f' hf' => ?_⟩
    obtain rfl := Option.some.inj hf'
    exact hle.finds.ended hended
  have hall : Sys.Run F (fun _ _ _ => True)
      (Sys.start db now next fun i => (calls i).op.close) s₂ :=
    (hrun.mono fun _ _ _ _ => trivial).trans hrun₂
  obtain ⟨hconn, hproc⟩ := hall.unbegun hlate
  have hfol : (s₂.proc j).Follows (Evolution.reads (Refused (A.sha256 token) (some f))) F
      (fun r _ => ∀ tokens, r ≠ .ok (.rotated (some tokens))) true := by
    rw [hproc, hj]
    refine Follows.close ((rotateRefreshToken_refused token teamId (some f)).handle fun r q hr => ?_)
    cases r with
    | error x => exact fun tokens => nofun
    | ok pair =>
      intro tokens h
      obtain rfl := SessionReply.rotated.inj (Except.ok.inj h)
      exact hr tokens rfl
  have hx := (Sys.exclusive_start db now next fun i => (calls i).op.close).run hall
  exact Database.evolution.late_reply (fun _ _ hle h => Refused.evolve hle h) hx hmoves₂ hrefused
    (by rw [hconn]; rfl) hfol (fun _ _ _ => nofun) hrun₃ hreply tokens rfl

/-- **Single logout.** Let a logout of an identity make its first read in `s₀` and answer in
`s₁`. Then every session the identity had in `s₀` is over, and whatever else runs, no rotation
that begins later gets tokens for one of theirs. -/
theorem single_logout_final {v : Database} {reply : SessionReply A}
    (hslo : calls i₀ = .slo orgSlug (.request (some identity)))
    (hrun₀ : Sys.Run F ok (Sys.start db now next fun i => (calls i).op.close) s₀)
    (hbegun : s₀.begun i₀ = false) (hfirst : s₀.Step F i₀ (.read v) s₀')
    (hrun₁ : Sys.Run F ok s₀' s₁) (hret : (s₁.proc i₀).reply? = some (.ok reply)) :
    ∃ org config, s₀.db.organizations.find? (·.slug = orgSlug) = some org ∧
      s₀.db.getIdpConfig true org.id = some config ∧ config.status = .active ∧
      ∀ session ∈ s₀.db.findActiveBySamlIdentity config.id identity.nameId identity.sessionIndex,
        Ended s₁.db session.sessionId ∧ FamilyClosed F calls session.sessionId s₁ := by
  obtain ⟨hconn, hproc⟩ := hrun₀.unbegun hbegun
  obtain ⟨p, hact, hen, rfl⟩ := id hfirst
  obtain rfl : v = s₀.db := by
    have hview : v = s₀.view i₀ := hen
    rw [hview, Sys.view, hconn]
    rfl
  have hidle := Database.evolution.pending_start db now next fun i => (calls i).op.close
  have hmoves := (Database.evolution.run hidle hrun₀).2
  have hall : ((s₀.proc i₀).Follows (loggingOut s₀.db) F
      (Leads fun _ q => LoggedOut s₀.db orgSlug identity q) (.writing [])) := by
    rw [hproc, hslo]
    refine Follows.close ((samlSlo_loggingOut (A := A)).handle fun r q hq => ?_)
    cases r with
    | error x => exact trivial
    | ok reply =>
      obtain ⟨org, config, marks, horg, hget, hactive, rfl, hmarks⟩ := hq
      exact ⟨org, config, marks, horg, hget, hactive, rfl, hmarks⟩
  have hfol : p.Follows (loggingOut s₀.db) F
      (Leads fun _ q => LoggedOut s₀.db orgSlug identity q) (.writing []) :=
    hall.act hact (fun _ _ _ h => by cases h) (fun _ _ _ h => by cases h) (fun _ => rfl)
      fun x h => by cases h
  have hinv : LoggingOut s₀.db i₀ (s₀.after i₀ (.read s₀.db) p) (.writing []) := by
    refine ⟨hmoves.after _ hen p, .refl _, fun marks hq => ?_, fun marks hq => by cases hq⟩
    obtain rfl := LogoutStage.writing.inj hq
    rw [Sys.after_conn_self, Sys.connAfter, hconn]
    exact ⟨rfl, fun _ => rfl⟩
  have hdone : ∃ q, LoggingOut s₀.db i₀ s₁ q ∧ (s₁.proc i₀).Follows (loggingOut s₀.db) F
      (Leads fun _ q => LoggedOut s₀.db orgSlug identity q) q := by
    refine Follows.among (LoggingOut s₀.db i₀) (fun h hen _ => h.sees hen)
      (fun h _ hvouched hstep => h.self hvouched hstep) (fun hne h _ hstep => h.other hne hstep)
      (fun _ _ => trivial) hinv ?_ hrun₁
    rw [Sys.after_proc_self]
    exact hfol
  obtain ⟨q, hlogout, hfollows⟩ := hdone
  obtain ⟨org, config, marks, horg, hget, hactive, rfl, hmarks⟩ := hfollows.reply hret
  refine ⟨org, config, horg, hget, hactive, fun session hsession => ?_⟩
  have hended := hlogout.finished marks rfl _ (hmarks session hsession)
  have hrun : Sys.Run F (fun _ _ _ => True)
      (Sys.start db now next fun i => (calls i).op.close) s₁ :=
    ((hrun₀.mono fun _ _ _ _ => trivial).tail trivial hfirst).trans
      (hrun₁.mono fun _ _ _ _ => trivial)
  exact ⟨hended, familyClosed_of_ended hrun hended⟩

end

/-! ## Two identities -/

def samlSession (id sessionId : ℕ) (nameId : String) : UserSession :=
  { id := id
    sessionId := sessionId
    userId := id
    organizationId := some 1
    orgRole := []
    authMethod := .saml
    mfaVerified := true
    status := .active
    createdAt := 0
    lastActivityAt := 0
    expiresAt := days 7
    revokedAt := none
    revokedReason := none
    clientIp := none
    userAgent := none
    samlNameId := some nameId
    samlSessionIndex := none
    organizationSamlConfigId := some 5 }

def samlLab : Database :=
  { Database.empty with
    organizations := [{ id := 1, slug := "lab", status := .active }]
    samlConfigs := [{
      id := 5
      organizationId := 1
      status := .active
      allowedDomains := []
      enforced := false
      saml := { sloUrl := some "https://idp/slo" } }]
    sessions := [samlSession 20 7 "ada@lab.org", samlSession 21 8 "eve@lab.org"] }

def logoutOfAda : Bool → SessionCall .symbolic
  | true => .slo "lab" (.request (some ⟨"ada@lab.org", none, "_r1"⟩))
  | false => .other (pure ())

def loggingAdaOut : Sys AuthSig Bool (SessionReply .symbolic) :=
  Sys.start samlLab 0 30 fun i => ((logoutOfAda i).op).close

/-- The session of the other identity is left. -/
theorem single_logout_final_ada : ∃ s₁, Sys.Run False (fun _ _ _ => True) loggingAdaOut s₁ ∧
    Ended s₁.db 7 ∧ FamilyClosed False logoutOfAda 7 s₁ ∧ ¬ Ended s₁.db 8 := by
  have hplays : (loggingAdaOut.go (fun _ _ _ => True) true).any (fun s₀ =>
      (s₀.follow (fun _ _ _ => True) (List.replicate 8 true)).any fun s₁ =>
        ((s₁.proc true).reply?.any Except.isOk) && decide (∃ s ∈ s₁.db.sessions,
          s₁.db.getByFamilyId (some 8) = some s ∧ s.status = .active)) = true := by decide
  obtain ⟨s₀, hgo, hplays⟩ := (Option.any_eq_true _ _).mp hplays
  obtain ⟨s₁, hs₁, hends⟩ := (Option.any_eq_true _ _).mp hplays
  obtain ⟨hreply, hleft⟩ := (Bool.and_eq_true _ _).mp hends
  obtain ⟨r, hr, hok⟩ := (Option.any_eq_true _ _).mp hreply
  obtain ⟨ℓ, _, hfirst⟩ := Sys.step_of_go _ hgo
  obtain ⟨p, hact, hen, rfl⟩ := hfirst
  obtain ⟨v, rfl, rfl⟩ := Act.select_inv hact
  cases r with
  | error x => cases hok
  | ok reply =>
    have hrun₁ := Sys.run_of_follow (fun _ _ _ => True) hs₁
    have hslo : logoutOfAda true = .slo "lab" (.request (some ⟨"ada@lab.org", none, "_r1"⟩)) := rfl
    have hstart : Sys.Run False (fun _ _ _ => True) loggingAdaOut loggingAdaOut := .refl
    obtain ⟨org, config, horg, hget, -, hall⟩ :=
      single_logout_final hslo hstart rfl ⟨_, hact, hen, rfl⟩ hrun₁ hr
    obtain rfl := Option.some.inj horg
    obtain rfl := Option.some.inj hget
    obtain ⟨hended, hclosed⟩ := hall (samlSession 20 7 "ada@lab.org") (by decide)
    have hrun := (hstart.tail trivial ⟨_, hact, hen, rfl⟩).trans hrun₁
    refine ⟨s₁, hrun, hended, hclosed, ?_⟩
    rintro ⟨s, hs, hrevoked⟩
    obtain ⟨s', -, hs', hactive⟩ := of_decide_eq_true hleft
    obtain rfl := Option.some.inj (hs.symm.trans hs')
    rw [hrevoked] at hactive
    cases hactive

end OmniAuth
