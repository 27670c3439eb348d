import OmniAuth.Session.Decay
import OmniAuth.Session.Service

/-!
# What each call does

One lemma a function: the reply it can give when it runs alone, and what it
leaves behind. The files after this one reason from these and do not look at
the programs again.
-/

namespace OmniAuth

open Txn Prog

variable {E : Env} {w w' : World}

/-! ## Revocation -/

theorem logEvent_exec {event : AuditEvent} {commit : Bool} {r : Except Err Unit}
    (h : (logEvent event commit).Exec w r w') :
    r = .ok () ∧ ∃ t e, w' = { w with
      now := t
      cur := w.cur.insertAudit e
      base := if commit then w.cur.insertAudit e else w.base } := by
  simp only [logEvent, bind_eq, exec_time_bind] at h
  obtain ⟨t, _, h⟩ := h
  rw [execute, exec_returning_bind_ok (e := ⟨[], Database.insertAudit _⟩) rfl] at h
  cases commit with
  | false =>
    obtain ⟨rfl, rfl⟩ := h
    exact ⟨rfl, t, _, rfl⟩
  | true =>
    simp only [if_true, exec_orElse, exec_commitNow] at h
    obtain ⟨_, ⟨_, rfl⟩, rfl⟩ | ⟨_, _, ⟨hx, _⟩, _⟩ := h
    · exact ⟨rfl, t, _, rfl⟩
    · cases hx

/-- `revoke` marks the session of the family, when there is one. -/
theorem revoke_exec {familyId : Option ℕ} {reason : RevokedReason} {r : Except Err Unit}
    (h : (revoke familyId reason).Exec w r w') :
    r = .ok () ∧ w'.base = w.base ∧ w.cur.Decays w'.cur ∧
      ∀ f, familyId = some f → w'.cur.SessionRevoked f := by
  simp only [revoke, bind_eq, exec_query_bind] at h
  split at h
  · rename_i hnone
    obtain ⟨rfl, rfl⟩ := h
    refine ⟨rfl, rfl, .refl _, ?_⟩
    rintro f rfl s hs
    rw [hnone] at hs
    cases hs
  · rename_i session hsome
    split at h
    · rename_i hrevoked
      obtain ⟨rfl, rfl⟩ := h
      refine ⟨rfl, rfl, .refl _, ?_⟩
      rintro f rfl s hs
      obtain rfl : session = s := Option.some.inj (hsome.symm.trans hs)
      exact hrevoked
    · simp only [exec_time_bind] at h
      obtain ⟨t, _, h⟩ := h
      rw [execute, exec_returning] at h
      obtain ⟨_, heff, rfl, rfl⟩ | ⟨_, hx, _⟩ := h
      · obtain rfl := Except.ok.inj heff
        refine ⟨rfl, rfl, Database.decays_revokeSession _ _ _ _, ?_⟩
        rintro f rfl
        exact Database.sessionRevoked_revokeSession hsome _ _
      · cases hx

theorem revokeFamily_exec {familyId : Option ℕ} {r : Except Err Unit}
    (h : (revokeFamily familyId).Exec w r w') :
    r = .ok () ∧ w.cur.Decays w'.cur ∧ ∀ f, familyId = some f → w'.cur.FamilyRevoked f := by
  cases familyId with
  | none =>
    obtain ⟨rfl, rfl⟩ := h
    exact ⟨rfl, .refl _, by simp⟩
  | some f =>
    simp only [revokeFamily, bind_eq, execute] at h
    rw [exec_returning_bind_ok (e := ⟨_, _⟩) rfl] at h
    obtain ⟨rfl, rfl⟩ := h
    refine ⟨rfl, Database.decays_revokeTokens _ _, ?_⟩
    rintro _ ⟨⟩
    exact Database.familyRevoked_revokeTokens _ f

/-- **Ending a session** only revokes, commits what it did, and leaves the
family with no live row and its session revoked. -/
theorem endSession_exec {userId : ℕ} {familyId actorUserId : Option ℕ} {reason : RevokedReason}
    {r : Except Err Unit} (h : (endSession userId familyId reason actorUserId).Exec w r w') :
    r = .ok () ∧ w'.base = w'.cur ∧ w.cur.Decays w'.cur ∧
      ∀ f, familyId = some f → w'.cur.FamilyRevoked f ∧ w'.cur.SessionRevoked f := by
  obtain ⟨_, w₁, h₁, h⟩ := exec_bind_inv h (fun _ _ h => ⟨_, (revokeFamily_exec h).1⟩)
  obtain ⟨_, w₂, h₂, h₃⟩ := exec_bind_inv h (fun _ _ h => ⟨_, (revoke_exec h).1⟩)
  obtain ⟨_, hd₁, hf⟩ := revokeFamily_exec h₁
  obtain ⟨_, _, hd₂, hs⟩ := revoke_exec h₂
  obtain ⟨rfl, t, e, rfl⟩ := logEvent_exec h₃
  have hd₃ := Database.decays_insertAudit w₂.cur e
  refine ⟨rfl, rfl, hd₁.trans (hd₂.trans hd₃), fun f hfam => ⟨?_, ?_⟩⟩
  · exact (hf f hfam).decays (hd₂.trans hd₃)
  · exact (hs f hfam).decays hd₃

theorem endSessions_exec {userId : ℕ} {reason : RevokedReason} {actorUserId : Option ℕ}
    {sessions : List UserSession} {r : Except Err Unit}
    (h : (endSessions userId reason actorUserId sessions).Exec w r w') :
    r = .ok () ∧ w.cur.Decays w'.cur ∧
      ∀ s ∈ sessions, w'.cur.FamilyRevoked s.sessionId ∧ w'.cur.SessionRevoked s.sessionId := by
  induction sessions generalizing w with
  | nil =>
    obtain ⟨rfl, rfl⟩ := h
    exact ⟨rfl, .refl _, by simp⟩
  | cons s rest ih =>
    obtain ⟨_, w₁, h₁, h₂⟩ := exec_bind_inv h (fun _ _ h => ⟨_, (endSession_exec h).1⟩)
    obtain ⟨_, _, hd₁, hend⟩ := endSession_exec h₁
    obtain ⟨rfl, hd₂, hrest⟩ := ih h₂
    refine ⟨rfl, hd₁.trans hd₂, fun s' hs' => ?_⟩
    rcases List.mem_cons.mp hs' with rfl | hs'
    · obtain ⟨hf, hs⟩ := hend _ rfl
      exact ⟨hf.decays hd₂, hs.decays hd₂⟩
    · exact hrest s' hs'

/-- `revoke_token` ends the session of the presented token; of the rows of
its family it marks the presented one only. -/
theorem revokeToken_exec {token : E.Token} {r : Except Err Unit}
    (h : (revokeToken E token).Exec w r w') :
    r = .ok () ∧ w.cur.Decays w'.cur ∧
      ((w.cur.tokenByHash (E.sha256 token) = none ∧ w' = w) ∨
        ∃ row, w.cur.tokenByHash (E.sha256 token) = some row ∧ w'.base = w'.cur ∧
          ∀ f, row.familyId = some f → w'.cur.SessionRevoked f) := by
  simp only [revokeToken, bind_eq, exec_query_bind] at h
  split at h
  · rename_i hnone
    obtain ⟨rfl, rfl⟩ := h
    exact ⟨rfl, .refl _, .inl ⟨hnone, rfl⟩⟩
  · rename_i row hsome
    obtain ⟨_, w₁, h₁, h⟩ := exec_bind_inv h (fun _ _ h => ⟨_, (revoke_exec h).1⟩)
    obtain ⟨_, _, hd₁, hs⟩ := revoke_exec h₁
    -- the row's own mark, unless it has it already; then the log
    have hmark : ∃ w₂ : World, w₁.cur.Decays w₂.cur ∧
        ((logSessionRevoked row.userId row.familyId .userLogout none).bind
          fun _ => commitNow).Exec w₂ r w' := by
      split at h
      · exact ⟨w₁, .refl _, h⟩
      · rw [execute, exec_returning_bind_ok (e := ⟨_, _⟩) rfl] at h
        exact ⟨_, Database.decays_revokeTokens _ _, h⟩
    obtain ⟨w₂, hd₂, h⟩ := hmark
    obtain ⟨_, w₃, h₃, rfl, rfl⟩ := exec_bind_inv h (fun _ _ h => ⟨_, (logEvent_exec h).1⟩)
    obtain ⟨_, t, e, rfl⟩ := logEvent_exec h₃
    have hd₃ := hd₂.trans (Database.decays_insertAudit w₂.cur e)
    exact ⟨rfl, hd₁.trans hd₃, .inr ⟨row, hsome, rfl, fun f hf => (hs f hf).decays hd₃⟩⟩

/-- `revoke_session` leaves the session it finds revoked, with its family. -/
theorem revokeSession_exec {sessionId : ℕ} {r : Except Err Bool}
    (h : (revokeSession sessionId).Exec w r w') :
    w.cur.Decays w'.cur ∧
      ((w.cur.getByFamilyId (some sessionId) = none ∧ r = .ok false ∧ w' = w) ∨
        ((w.cur.getByFamilyId (some sessionId)).isSome ∧ r = .ok true ∧ w'.base = w'.cur ∧
          w'.cur.FamilyRevoked sessionId ∧ w'.cur.SessionRevoked sessionId)) := by
  simp only [revokeSession, bind_eq, exec_query_bind] at h
  split at h
  · rename_i hnone
    obtain ⟨rfl, rfl⟩ := h
    exact ⟨.refl _, .inl ⟨hnone, rfl, rfl⟩⟩
  · rename_i session hsome
    obtain ⟨_, w₁, h₁, rfl, rfl⟩ := exec_bind_inv h (fun _ _ h => ⟨_, (endSession_exec h).1⟩)
    obtain ⟨_, hb, hd, hend⟩ := endSession_exec h₁
    exact ⟨hd, .inr ⟨by rw [hsome]; rfl, rfl, hb, hend sessionId rfl⟩⟩

/-- `revoke_all_sessions_for_user` leaves every session of the user that was not
revoked so, with its family. -/
theorem revokeAllSessionsForUser_exec {userId : ℕ} {reason : RevokedReason}
    {actorUserId : Option ℕ} {r : Except Err ℕ}
    (h : (revokeAllSessionsForUser userId reason actorUserId).Exec w r w') :
    (∃ n, r = .ok n) ∧ w.cur.Decays w'.cur ∧ w'.base = w'.cur ∧
      ∀ s ∈ w.cur.sessions, s.userId = userId → s.status ≠ .revoked →
        w'.cur.FamilyRevoked s.sessionId ∧ w'.cur.SessionRevoked s.sessionId := by
  simp only [revokeAllSessionsForUser, bind_eq, exec_query_bind] at h
  obtain ⟨_, w₁, h₁, rfl, rfl⟩ := exec_bind_inv h (fun _ _ h => ⟨_, (endSessions_exec h).1⟩)
  obtain ⟨_, hd, hend⟩ := endSessions_exec h₁
  refine ⟨⟨_, rfl⟩, hd, rfl, fun s hs huser hlive => hend s ?_⟩
  exact List.mem_filter.mpr ⟨hs, decide_eq_true ⟨huser, hlive⟩⟩

/-! ## Issuance -/

theorem checkTimeoutPolicy_exec {session : Option UserSession}
    {r : Except Err (Option RevokedReason)} (h : (checkTimeoutPolicy E session).Exec w r w') :
    ∃ violated, r = .ok violated ∧ w'.cur = w.cur ∧ w'.base = w.base ∧ w'.next = w.next ∧
      w.now ≤ w'.now ∧
      ∀ s, session = some s → violated = timeoutReason E s w'.now ∧
        w'.log = w.log ++ [.policyEvaluated s.sessionId w'.now] := by
  cases session with
  | none =>
    obtain ⟨rfl, rfl⟩ := h
    exact ⟨none, rfl, rfl, rfl, rfl, Nat.le_refl _, by simp⟩
  | some s =>
    simp only [checkTimeoutPolicy, bind_eq, exec_time_bind, exec_note_bind] at h
    obtain ⟨t, ht, rfl, rfl⟩ := h
    refine ⟨_, rfl, rfl, rfl, rfl, ht, ?_⟩
    rintro _ ⟨⟩
    exact ⟨rfl, rfl⟩

theorem effectiveStatus_exec {session : UserSession} {r : Except Err EffectiveStatus}
    (h : (effectiveStatus E session).Exec w r w') :
    (∃ status, r = .ok status) ∧ w'.cur = w.cur ∧ w'.base = w.base := by
  unfold effectiveStatus at h
  split at h
  · obtain ⟨rfl, rfl⟩ := h
    exact ⟨⟨_, rfl⟩, rfl, rfl⟩
  · obtain ⟨_, w₁, h₁, h⟩ := exec_bind_inv h
      (fun _ _ h => (checkTimeoutPolicy_exec h).imp fun _ h => h.1)
    obtain ⟨_, _, hc, hb, _⟩ := checkTimeoutPolicy_exec h₁
    split at h
    · obtain ⟨rfl, rfl⟩ := h
      exact ⟨⟨_, rfl⟩, hc, hb⟩
    · obtain ⟨rfl, rfl⟩ := h
      exact ⟨⟨_, rfl⟩, hc, hb⟩
    · simp only [bind_eq, exec_time_bind] at h
      obtain ⟨t, _, h⟩ := h
      split at h <;> obtain ⟨rfl, rfl⟩ := h <;> exact ⟨⟨_, rfl⟩, hc, hb⟩

theorem effectivelyActive_exec {sessions : List UserSession} {r : Except Err (List UserSession)}
    (h : (effectivelyActive E sessions).Exec w r w') :
    (∃ l, r = .ok l) ∧ w'.cur = w.cur ∧ w'.base = w.base := by
  induction sessions generalizing w w' r with
  | nil =>
    obtain ⟨rfl, rfl⟩ := h
    exact ⟨⟨_, rfl⟩, rfl, rfl⟩
  | cons s rest ih =>
    obtain ⟨status, w₁, h₁, h⟩ := exec_bind_inv h (fun _ _ h => (effectiveStatus_exec h).1)
    obtain ⟨_, hc₁, hb₁⟩ := effectiveStatus_exec h₁
    obtain ⟨others, w₂, h₂, rfl, rfl⟩ := exec_bind_inv h (fun _ _ h => (ih h).1)
    obtain ⟨_, hc₂, hb₂⟩ := ih h₂
    exact ⟨⟨_, rfl⟩, hc₂.trans hc₁, hb₂.trans hb₁⟩

/-- Eviction only revokes. -/
theorem evictOldestSessionsOverLimit_exec {userId : ℕ} {r : Except Err Unit}
    (h : (evictOldestSessionsOverLimit E userId).Exec w r w') :
    r = .ok () ∧ w.cur.Decays w'.cur := by
  simp only [evictOldestSessionsOverLimit, bind_eq] at h
  rw [exec_returning_bind_ok (e := ⟨_, _⟩) rfl] at h
  obtain ⟨active, w₁, h₁, h₂⟩ := exec_bind_inv h (fun _ _ h => (effectivelyActive_exec h).1)
  obtain ⟨_, hc, _⟩ := effectivelyActive_exec h₁
  obtain ⟨rfl, hd, _⟩ := endSessions_exec h₂
  rw [hc] at hd
  exact ⟨rfl, hd⟩

theorem createSession_exec {sessionId userId : ℕ} {claims : Claims} {authMethod : AuthMethod}
    {expiresAt : ℕ} {client : ClientInfo} {r : Except Err Unit}
    (h : (createSession sessionId userId claims authMethod expiresAt client).Exec w r w') :
    (r = .error .integrity ∧ w'.base = w.base ∧
      ∃ s ∈ w.cur.sessions, s.id = w.next ∨ s.sessionId = sessionId) ∨
    (r = .ok () ∧ w'.base = w.base ∧ ∃ s : UserSession, w'.cur = w.cur.insertSession s ∧
      s.id = w.next ∧ s.sessionId = sessionId ∧ s.userId = userId ∧ s.status = .active ∧
      s.createdAt = w'.now ∧ s.lastActivityAt = w'.now ∧ w.now ≤ w'.now ∧
      w'.next = w.next + 1 ∧ w'.log = w.log) := by
  simp only [createSession, bind_eq, exec_time_bind, exec_draw_bind] at h
  obtain ⟨t, ht, h⟩ := h
  rw [execute, exec_returning] at h
  obtain ⟨eff, heff, rfl, rfl⟩ | ⟨x, hx, rfl, rfl⟩ := h
  · simp only [denote] at heff
    split at heff
    · cases heff
    · obtain rfl := Except.ok.inj heff
      exact .inr ⟨rfl, rfl, _, rfl, rfl, rfl, rfl, rfl, rfl, rfl, ht, rfl, rfl⟩
  · simp only [denote] at hx
    split at hx
    · rename_i htaken
      obtain rfl := Except.error.inj hx
      exact .inl ⟨rfl, rfl, htaken⟩
    · cases hx

theorem createAccessToken_exec {data : Claims} {expires : Option ℕ} {r : Except Err E.Token}
    (h : (createAccessToken E data expires).Exec w r w') :
    (∃ token, r = .ok token) ∧
      ∃ t, w.now ≤ t ∧ w' = { w with now := t, next := w.next + 1 } := by
  simp only [createAccessToken, bind_eq, exec_time_bind, exec_draw_bind] at h
  obtain ⟨t, ht, rfl, rfl⟩ := h
  exact ⟨⟨_, rfl⟩, t, ht, rfl⟩

/-- A refresh token carries the `jti` drawn for it. -/
theorem createRefreshToken_exec {data : Claims} {r : Except Err E.Token}
    (h : (createRefreshToken E data).Exec w r w') :
    (∃ token, r = .ok token ∧ ∃ claims, claims.jti = some w.next ∧ token = sign E claims) ∧
      ∃ t, w.now ≤ t ∧ w' = { w with now := t, next := w.next + 1 } := by
  simp only [createRefreshToken, bind_eq, exec_time_bind, exec_draw_bind] at h
  obtain ⟨t, ht, rfl, rfl⟩ := h
  exact ⟨⟨_, rfl, _, rfl, rfl⟩, t, ht, rfl⟩

/-- An insert is let through when its id and its hash are new. -/
theorem exec_insertRefreshToken_bind {row : RefreshToken} {α : Type} {f : Unit → Op α}
    {r : Except Err α} (h : ((execute (S := AuthSig) (.insertRefreshToken row)).bind f).Exec w r w') :
    ((r = .error .integrity ∧ w' = w) ∧
      ∃ r ∈ w.cur.refreshTokens, r.id = row.id ∨ r.tokenHash = row.tokenHash) ∨
    ((∀ r ∈ w.cur.refreshTokens, r.id ≠ row.id ∧ r.tokenHash ≠ row.tokenHash) ∧
      (f ()).Exec { w with cur := w.cur.insertToken row } r w') := by
  by_cases htaken : ∃ r ∈ w.cur.refreshTokens, r.id = row.id ∨ r.tokenHash = row.tokenHash
  · have hden : denote (.insertRefreshToken row) w.cur = .error .integrity := if_pos htaken
    rw [execute, exec_returning_bind_error hden] at h
    exact .inl ⟨h, htaken⟩
  · have hden : denote (.insertRefreshToken row) w.cur =
        .ok ⟨[.refreshToken row.id, .tokenHash row.tokenHash], Database.insertToken row⟩ :=
      if_neg htaken
    rw [execute, exec_returning_bind_ok hden] at h
    push Not at htaken
    exact .inr ⟨htaken, h⟩

/-- The row a login or a rotation inserts: live, and new to the table in its
primary key and its hash. -/
structure NewToken (db : Database) (n n' : ℕ) (userId family : ℕ) (row : RefreshToken) :
    Prop where
  userId_eq : row.userId = userId
  familyId_eq : row.familyId = some family
  revoked_eq : row.revoked = false
  rotatedAt_eq : row.rotatedAt = none
  id_lower : n ≤ row.id
  id_upper : row.id < n'
  unique : ∀ r ∈ db.refreshTokens, r.id ≠ row.id ∧ r.tokenHash ≠ row.tokenHash

/-- **What a login leaves behind.** Its token row goes in first, then
eviction revokes, then its session row goes in and everything is committed. -/
structure LoginEffect (userId : ℕ) (w w' : World) where
  family : ℕ
  row : RefreshToken
  session : UserSession
  update : User → User
  evicted : Database
  family_lower : w.next ≤ family
  family_upper : family < w'.next
  newRow : NewToken w.cur w.next w'.next userId family row
  evicts : ((w.cur.updateUser userId update).insertToken row).Decays evicted
  sessionId_eq : session.sessionId = family
  session_id_lower : w.next ≤ session.id
  session_id_upper : session.id < w'.next
  session_userId : session.userId = userId
  session_status : session.status = .active
  session_activity : session.lastActivityAt = session.createdAt
  session_after : w.now ≤ session.createdAt
  session_before : session.createdAt ≤ w'.now
  cur_eq : w'.cur = evicted.insertSession session
  base_eq : w'.base = w'.cur

/-- Ids and family ids in the database are below `n`. -/
structure Database.Below (db : Database) (n : ℕ) : Prop where
  token : ∀ r ∈ db.refreshTokens, r.id < n ∧ ∀ f, r.familyId = some f → f < n
  session : ∀ s ∈ db.sessions, s.id < n ∧ s.sessionId < n

theorem Database.Below.mono {db : Database} {n n' : ℕ} (hb : db.Below n) (h : n ≤ n') :
    db.Below n' := by
  refine ⟨fun r hr => ⟨?_, fun f hf => ?_⟩, fun s hs => ?_⟩
  · have := (hb.token r hr).1
    omega
  · have := (hb.token r hr).2 f hf
    omega
  · have := hb.session s hs
    omega

/-- The hash of a token with this `jti` is taken. -/
def Database.HashTaken (db : Database) (E : Env) (jti : ℕ) : Prop :=
  ∃ r ∈ db.refreshTokens, ∃ claims : Claims,
    claims.jti = some jti ∧ r.tokenHash = E.sha256 (sign E claims)

theorem generateTokens_exec {user : User} {authMethod : AuthMethod} {idpOrgId : Option ℕ}
    {client : ClientInfo} {r : Except Err (E.Token × E.Token)} (hbelow : w.cur.Below w.next)
    (h : (generateTokens E user authMethod idpOrgId client).Exec w r w') :
    (∃ x, r = .error x ∧ w'.base = w.base ∧ w.cur.HashTaken E (w.next + 1)) ∨
    (∃ tokens, r = .ok tokens ∧ ∃ L : LoginEffect user.id w w',
      L.row.tokenHash = E.sha256 tokens.2) := by
  simp only [generateTokens, bind_eq, exec_time_bind, exec_query_bind] at h
  obtain ⟨t₀, ht₀, h⟩ := h
  obtain ⟨access, w₁, h₁, h⟩ := exec_bind_inv h (fun _ _ h => (createAccessToken_exec h).1)
  obtain ⟨_, t₁, ht₁, rfl⟩ := createAccessToken_exec h₁
  obtain ⟨refresh, w₂, h₂, h⟩ := exec_bind_inv h
    (fun _ _ h => (createRefreshToken_exec h).1.imp fun _ h => h.1)
  obtain ⟨⟨_, hrefresh, claims, hjti, hsign⟩, t₂, ht₂, rfl⟩ := createRefreshToken_exec h₂
  obtain rfl := Except.ok.inj hrefresh
  simp only [exec_draw_bind, exec_time_bind, execute] at h
  obtain ⟨t₃, ht₃, h⟩ := h
  rw [exec_returning_bind_ok (e := ⟨_, _⟩) rfl] at h
  obtain ⟨⟨rfl, rfl⟩, row, hrow, htaken⟩ | ⟨hunique, h⟩ := exec_insertRefreshToken_bind h
  · have hold := (hbelow.token row hrow).1
    rcases htaken with hid | hhash
    · simp only at hid
      omega
    · exact .inl ⟨_, rfl, rfl, row, hrow, claims, hjti, hsign ▸ hhash⟩
  obtain ⟨_, w₃, h₃, h⟩ := exec_bind_inv h
    (fun _ _ h => ⟨_, (evictOldestSessionsOverLimit_exec h).1⟩)
  obtain ⟨_, hevict⟩ := evictOldestSessionsOverLimit_exec h₃
  obtain ⟨hnow₃, hnext₃, _⟩ := h₃.mono
  simp only at hunique hevict hnow₃ hnext₃ ht₁ ht₂ ht₃
  rw [exec_bind] at h
  obtain ⟨_, w₄, h₄, rfl, rfl⟩ | ⟨x, h₄, rfl⟩ := h
  · rcases createSession_exec h₄ with ⟨hx, _⟩ | ⟨_, hbase, s, hcur, hid, hsid, huid, hst, hcr, hla,
      hnow₄, hnext₄, _⟩
    · cases hx
    refine .inr ⟨_, rfl, {
      family := w.next + 1 + 1
      row :=
        { id := w.next + 1 + 1 + 1
          userId := user.id
          tokenHash := E.sha256 refresh
          revoked := false
          expiresAt := t₃ + days 7
          familyId := some (w.next + 1 + 1)
          rotatedAt := none }
      session := s
      update := _
      evicted := w₃.cur
      family_lower := by omega
      family_upper := by simp only; omega
      newRow := ⟨rfl, rfl, rfl, rfl, by simp only; omega, by simp only; omega, hunique⟩
      evicts := hevict
      sessionId_eq := hsid
      session_id_lower := by omega
      session_id_upper := by simp only; omega
      session_userId := huid
      session_status := hst
      session_activity := by rw [hla, hcr]
      session_after := by omega
      session_before := by simp only; omega
      cur_eq := hcur
      base_eq := rfl }, rfl⟩
  · -- the family is new, so its session cannot be there
    rcases createSession_exec h₄ with ⟨_, _, s', hs', hs⟩ | ⟨hx, _⟩
    · obtain ⟨s, hmem, hd⟩ := hevict.session_before hs'
      have := hbelow.session s hmem
      rw [hd.id, hd.sessionId] at hs
      omega
    · cases hx

/-! ## Rotation -/

/-- **What a rotation leaves behind.** The presented row was live and its
session, if there is one, within policy; the row is marked, a new row goes in
in its family, and the session is touched, or created where it was missing. -/
structure RotationEffect (presented : RefreshToken) (w w' : World) where
  family : ℕ
  row : RefreshToken
  backfill : Option ℕ
  rotatedAt : ℕ
  family_eq : presented.familyId = some family ∨
    presented.familyId = none ∧ w.next ≤ family ∧ family < w'.next
  backfill_eq : backfill = if presented.familyId = none then some family else none
  newRow : NewToken w.cur w.next w'.next presented.userId family row
  base_eq : w'.base = w'.cur
  sessions : (∃ s t e, w.cur.getByFamilyId presented.familyId = some s ∧ s.status ≠ .revoked ∧
      w.now ≤ t ∧ t ≤ w'.now ∧
      w'.cur = ((w.cur.updateTokens [presented.id] (RefreshToken.rotate rotatedAt backfill)).insertToken
        row).updateSession s.id (UserSession.touch t e)) ∨
    (∃ s : UserSession, w.cur.getByFamilyId presented.familyId = none ∧
      s.sessionId = family ∧ s.userId = presented.userId ∧ w.next ≤ s.id ∧ s.id < w'.next ∧
      w'.cur = ((w.cur.updateTokens [presented.id] (RefreshToken.rotate rotatedAt backfill)).insertToken
        row).insertSession s)

theorem familyOrFresh_exec {familyId : Option ℕ} {r : Except Err ℕ}
    (h : (familyOrFresh familyId).Exec w r w') :
    ∃ f n, r = .ok f ∧ w' = { w with next := n } ∧ w.next ≤ n ∧
      (familyId = some f ∨ familyId = none ∧ w.next ≤ f ∧ f < n) := by
  cases familyId with
  | some f =>
    obtain ⟨rfl, rfl⟩ := h
    exact ⟨f, _, rfl, rfl, Nat.le_refl _, .inl rfl⟩
  | none =>
    obtain ⟨rfl, rfl⟩ := h
    exact ⟨_, _, rfl, rfl, Nat.le_succ _, .inr ⟨rfl, Nat.le_refl _, Nat.lt_succ_self _⟩⟩

/-- `touch` finds the session `rotate_refresh_token` found, since nothing was
written in between. -/
theorem touchIfPresent_exec {family : ℕ} {session : Option UserSession}
    {r : Except Err (Option (ℕ × ℕ))} (h : (touchIfPresent family session).Exec w r w')
    (hsession : ∀ s, session = some s → w.cur.getByFamilyId (some family) = some s)
    (husable : ∀ s, session = some s → s.status ≠ .revoked) :
    ∃ t, w.now ≤ t ∧ w' = { w with now := t } ∧ r = .ok (session.map fun s => (s.id, t)) := by
  cases session with
  | none =>
    obtain ⟨rfl, rfl⟩ := h
    exact ⟨_, Nat.le_refl _, rfl, rfl⟩
  | some s =>
    simp only [touchIfPresent, touch, bind_eq, exec_query_bind, hsession s rfl,
      if_neg (husable s rfl), exec_time_bind] at h
    obtain ⟨t, ht, rfl, rfl⟩ := h
    exact ⟨t, ht, rfl, rfl⟩

/-- The same rotation, counted from an earlier moment with the same tables. -/
def RotationEffect.start {presented : RefreshToken} {w₁ : World}
    (R : RotationEffect presented w₁ w') (hcur : w₁.cur = w.cur) (hnext : w₁.next = w.next)
    (hnow : w.now ≤ w₁.now) : RotationEffect presented w w' where
  family := R.family
  row := R.row
  backfill := R.backfill
  rotatedAt := R.rotatedAt
  family_eq := hnext ▸ R.family_eq
  backfill_eq := R.backfill_eq
  newRow := hcur ▸ hnext ▸ R.newRow
  base_eq := R.base_eq
  sessions := by
    have h := R.sessions
    rw [hcur, hnext] at h
    rcases h with ⟨s, t, e, h₁, h₂, h₃, h₄⟩ | h
    · exact .inl ⟨s, t, e, h₁, h₂, Nat.le_trans hnow h₃, h₄⟩
    · exact .inr h

theorem exchange_exec {token : E.Token} {teamId : Option (Option ℕ)} {dbToken : RefreshToken}
    {session : Option UserSession} {user : User} {r : Except Err (E.Token × E.Token)}
    (hsession : w.cur.getByFamilyId dbToken.familyId = session)
    (husable : ∀ s, session = some s → s.status ≠ .revoked) (huser : user.id = dbToken.userId)
    (h : (exchange E token teamId dbToken session user).Exec w r w') :
    (∃ x, r = .error x ∧ w'.base = w.base) ∨
    ∃ tokens, r = .ok tokens ∧ w'.log = w.log ∧ ∃ R : RotationEffect dbToken w w',
      R.row.tokenHash = E.sha256 tokens.2 := by
  simp only [exchange, bind_eq, exec_time_bind, exec_query_bind] at h
  obtain ⟨t₀, ht₀, h⟩ := h
  obtain ⟨access, w₁, h₁, h⟩ := exec_bind_inv h (fun _ _ h => (createAccessToken_exec h).1)
  obtain ⟨_, t₁, ht₁, rfl⟩ := createAccessToken_exec h₁
  obtain ⟨refresh, w₂, h₂, h⟩ := exec_bind_inv h
    (fun _ _ h => (createRefreshToken_exec h).1.imp fun _ h => h.1)
  obtain ⟨_, t₂, ht₂, rfl⟩ := createRefreshToken_exec h₂
  simp only [exec_time_bind] at h
  obtain ⟨rotatedAt, ht₃, h⟩ := h
  obtain ⟨family, w₃, h₃, h⟩ := exec_bind_inv h
    (fun _ _ h => by
      obtain ⟨f, _, h, -⟩ := familyOrFresh_exec h
      exact ⟨f, h⟩)
  obtain ⟨_, n, hr₃, rfl, hn, hfamily⟩ := familyOrFresh_exec h₃
  obtain rfl := Except.ok.inj hr₃
  simp only [exec_time_bind] at h
  obtain ⟨t₄, ht₄, h⟩ := h
  have hfound : ∀ s, session = some s → w.cur.getByFamilyId (some family) = some s := by
    rintro s rfl
    rcases hfamily with hf | ⟨hf, _⟩
    · rwa [hf] at hsession
    · rw [hf] at hsession
      cases hsession
  obtain ⟨touched, w₅, h₅, h⟩ := exec_bind_inv h
    (fun _ _ h => by
      obtain ⟨_, _, _, h⟩ := touchIfPresent_exec h hfound husable
      exact ⟨_, h⟩)
  obtain ⟨t₅, ht₅, rfl, hr₅⟩ := touchIfPresent_exec h₅ hfound husable
  obtain rfl := Except.ok.inj hr₅
  simp only [exec_draw_bind] at h
  rw [execute, exec_returning_bind_ok (e := ⟨_, _⟩) rfl] at h
  obtain ⟨⟨rfl, rfl⟩, -⟩ | ⟨hunique, h⟩ := exec_insertRefreshToken_bind h
  · exact .inl ⟨_, rfl, rfl⟩
  have hold : ∀ r ∈ w.cur.refreshTokens, r.id ≠ n ∧ r.tokenHash ≠ E.sha256 refresh := by
    intro r hr
    have := hunique _ (List.mem_map_of_mem hr)
    by_cases hid : r.id ∈ [dbToken.id]
    · simpa only [if_pos hid, RefreshToken.rotate] using this
    · simpa only [if_neg hid] using this
  have hnew : ∀ n', n < n' → NewToken w.cur w.next n' dbToken.userId family
      { id := n, userId := user.id, tokenHash := E.sha256 refresh, revoked := false,
        expiresAt := t₄ + days 7, familyId := some family, rotatedAt := none } :=
    fun n' hn' => ⟨huser, rfl, rfl, rfl, by simp only at hn ⊢; omega, hn', hold⟩
  simp only at ht₁ ht₂ ht₃ ht₄ ht₅ hn hfamily
  rw [exec_bind] at h
  obtain ⟨_, w₆, h₆, rfl, rfl⟩ | ⟨x, h₆, rfl⟩ := h
  · cases session with
    | some s =>
      simp only [writeSession, Option.map_some] at h₆
      rw [execute, exec_returning] at h₆
      obtain ⟨eff, heff, _, rfl⟩ | ⟨x, hx, _⟩ := h₆
      · obtain rfl := Except.ok.inj heff
        refine .inr ⟨_, rfl, rfl, {
          family := family
          row := _
          backfill := _
          rotatedAt := rotatedAt
          family_eq := hfamily.imp_right fun h => ⟨h.1, by omega, by simp only; omega⟩
          backfill_eq := rfl
          newRow := hnew _ (Nat.lt_succ_self n)
          base_eq := rfl
          sessions := .inl ⟨s, t₅, _, hsession, husable s rfl, by omega, Nat.le_refl _, rfl⟩ }, rfl⟩
      · cases hx
    | none =>
      simp only [writeSession] at h₆
      rcases createSession_exec h₆ with ⟨hx, _⟩ | ⟨_, hbase, s, hcur, hid, hsid, huid, hst, hcr, hla,
        hnow₄, hnext₄, hlog⟩
      · cases hx
      simp only at hid hnow₄ hnext₄
      refine .inr ⟨_, rfl, hlog, {
        family := family
        row := _
        backfill := _
        rotatedAt := rotatedAt
        family_eq := hfamily.imp_right fun h => ⟨h.1, by omega, by simp only; omega⟩
        backfill_eq := rfl
        newRow := hnew w₆.next (by omega)
        base_eq := rfl
        sessions := .inr ⟨s, hsession, hsid, huid.trans huser, by omega, by simp only; omega, hcur⟩ },
        rfl⟩
  · refine .inl ⟨x, rfl, ?_⟩
    cases session with
    | some s =>
      simp only [writeSession, Option.map_some] at h₆
      rw [execute, exec_returning] at h₆
      obtain ⟨_, _, hx, _⟩ | ⟨_, hx, _⟩ := h₆ <;> cases hx
    | none =>
      simp only [writeSession] at h₆
      rcases createSession_exec h₆ with ⟨_, hbase, _⟩ | ⟨hx, _⟩
      · exact hbase
      · cases hx

theorem isUsable_exec {session : Option UserSession} {r : Except Err Bool}
    (h : (isUsable session).Exec w r w') :
    ∃ usable t, r = .ok usable ∧ w.now ≤ t ∧ w' = { w with now := t } ∧
      (usable = true → ∀ s, session = some s → s.status ≠ .revoked) := by
  cases session with
  | none =>
    obtain ⟨rfl, rfl⟩ := h
    exact ⟨true, _, rfl, Nat.le_refl _, rfl, by simp⟩
  | some s =>
    simp only [isUsable] at h
    split at h
    · obtain ⟨rfl, rfl⟩ := h
      exact ⟨false, _, rfl, Nat.le_refl _, rfl, by simp⟩
    · rename_i hs
      simp only [bind_eq, exec_time_bind] at h
      obtain ⟨t, ht, rfl, rfl⟩ := h
      refine ⟨_, t, rfl, ht, rfl, ?_⟩
      rintro _ _ ⟨⟩
      exact hs

/-- The presented row and its session passed the checks
`rotate_refresh_token` makes of them. -/
structure Admitted (w : World) (row : RefreshToken) : Prop where
  not_rotated : row.rotatedAt = none
  not_revoked : row.revoked = false
  session : ∀ s, w.cur.getByFamilyId row.familyId = some s → s.status ≠ .revoked

/-- The timeout policy was evaluated once, at `t`, and found nothing. -/
def WithinPolicy (E : Env) (w w' : World) (s : UserSession) : Prop :=
  ∃ t, w.now ≤ t ∧ t ≤ w'.now ∧ timeoutReason E s t = none ∧
    w'.log = w.log ++ [.policyEvaluated s.sessionId t]

/-- **The four ways a rotation ends**: refused with nothing written, refused
and the family ended, failed with nothing committed, or exchanged. -/
inductive RotateOutcome (E : Env) (token : E.Token) (w : World) :
    Except Err (Option (E.Token × E.Token)) → World → Prop
  | refused {w' : World} (cur_eq : w'.cur = w.cur) (base_eq : w'.base = w.base)
      (not_rotated : ∀ row, w.cur.tokenByHash (E.sha256 token) = some row → row.rotatedAt = none) :
      RotateOutcome E token w (.ok none) w'
  | ended {w' : World} (row : RefreshToken) (found : w.cur.tokenByHash (E.sha256 token) = some row)
      (base_eq : w'.base = w'.cur) (decays : w.cur.Decays w'.cur)
      (dead : ∀ f, row.familyId = some f → w'.cur.FamilyRevoked f ∧ w'.cur.SessionRevoked f) :
      RotateOutcome E token w (.ok none) w'
  | failed {w' : World} (x : Err) (row : RefreshToken)
      (found : w.cur.tokenByHash (E.sha256 token) = some row)
      (admitted : Admitted w row) (base_eq : w'.base = w.base) :
      RotateOutcome E token w (.error x) w'
  | exchanged {w' : World} (tokens : E.Token × E.Token) (row : RefreshToken)
      (found : w.cur.tokenByHash (E.sha256 token) = some row)
      (admitted : Admitted w row)
      (policy : ∀ s, w.cur.getByFamilyId row.familyId = some s → WithinPolicy E w w' s)
      (R : RotationEffect row w w') (hash_eq : R.row.tokenHash = E.sha256 tokens.2) :
      RotateOutcome E token w (.ok (some tokens)) w'

theorem rotateRefreshToken_exec {token : E.Token} {teamId : Option (Option ℕ)}
    {r : Except Err (Option (E.Token × E.Token))}
    (h : (rotateRefreshToken E token teamId).Exec w r w') : RotateOutcome E token w r w' := by
  simp only [rotateRefreshToken, bind_eq, exec_query_bind] at h
  split at h
  · rename_i hnone
    obtain ⟨rfl, rfl⟩ := h
    exact .refused rfl rfl (by rw [hnone]; simp)
  rename_i row hfound
  split at h
  · -- reuse: the family is ended
    simp only [exec_note_bind] at h
    obtain ⟨_, w₁, h₁, rfl, rfl⟩ := exec_bind_inv h (fun _ _ h => ⟨_, (endSession_exec h).1⟩)
    obtain ⟨_, _, hd, hdead⟩ := endSession_exec h₁
    exact .ended row hfound rfl hd hdead
  rename_i hrotated
  have hrotated : row.rotatedAt = none := by simpa using hrotated
  have hrow : ∀ row', w.cur.tokenByHash (E.sha256 token) = some row' → row'.rotatedAt = none := by
    rintro row' hrow'
    obtain rfl : row = row' := Option.some.inj (hfound.symm.trans hrow')
    exact hrotated
  split at h
  · obtain ⟨rfl, rfl⟩ := h
    exact .refused rfl rfl hrow
  rename_i hrevoked
  simp only [exec_time_bind] at h
  obtain ⟨t₁, ht₁, h⟩ := h
  split at h
  · obtain ⟨rfl, rfl⟩ := h
    exact .refused rfl rfl hrow
  simp only [exec_query_bind] at h
  obtain ⟨usable, w₂, h₂, h⟩ := exec_bind_inv h
    (fun _ _ h => by
      obtain ⟨_, _, h, -⟩ := isUsable_exec h
      exact ⟨_, h⟩)
  obtain ⟨_, t₂, hr₂, ht₂, rfl, husable⟩ := isUsable_exec h₂
  obtain rfl := Except.ok.inj hr₂
  split at h
  · obtain ⟨rfl, rfl⟩ := h
    exact .refused rfl rfl hrow
  rename_i hyes
  have husable := husable (by simpa using hyes)
  obtain ⟨violated, w₃, h₃, h⟩ := exec_bind_inv h
    (fun _ _ h => (checkTimeoutPolicy_exec h).imp fun _ h => h.1)
  obtain ⟨_, hr₃, hcur₃, hbase₃, hnext₃, hnow₃, hpolicy⟩ := checkTimeoutPolicy_exec h₃
  obtain rfl := Except.ok.inj hr₃
  simp only at hcur₃ hbase₃ hnext₃ hnow₃ ht₂ hpolicy
  split at h
  · -- past a limit: the family is ended
    obtain ⟨_, w₄, h₄, rfl, rfl⟩ := exec_bind_inv h (fun _ _ h => ⟨_, (endSession_exec h).1⟩)
    obtain ⟨_, _, hd, hdead⟩ := endSession_exec h₄
    rw [hcur₃] at hd
    exact .ended row hfound rfl hd hdead
  simp only [exec_query_bind] at h
  split at h
  · obtain ⟨rfl, rfl⟩ := h
    exact .refused hcur₃ hbase₃ hrow
  rename_i user huser
  split at h
  · obtain ⟨rfl, rfl⟩ := h
    exact .refused hcur₃ hbase₃ hrow
  have hid : user.id = row.userId := by
    have := List.find?_some huser
    simpa using this
  have hadmitted : Admitted w row := ⟨hrotated, by simpa using hrevoked, husable⟩
  rw [exec_bind] at h
  obtain ⟨tokens, w₄, h₄, rfl, rfl⟩ | ⟨x, h₄, rfl⟩ := h
  · obtain ⟨hnow₄, _, _⟩ := h₄.mono
    rcases exchange_exec (by rw [hcur₃]) husable hid h₄ with
      ⟨_, hx, _⟩ | ⟨_, htokens, hlog₄, R, hhash⟩
    · cases hx
    obtain rfl := Except.ok.inj htokens
    refine .exchanged tokens row hfound hadmitted (fun s hs => ?_)
      (R.start hcur₃ hnext₃ (by omega)) hhash
    obtain ⟨hnone, hlog₃⟩ := hpolicy s hs
    exact ⟨w₃.now, by omega, hnow₄, hnone.symm, hlog₄.trans hlog₃⟩
  · rcases exchange_exec (by rw [hcur₃]) husable hid h₄ with ⟨_, hx, hb⟩ | ⟨_, hx, _⟩
    · exact .failed x row hfound hadmitted (hb.trans hbase₃)
    · cases hx

end OmniAuth
