import OmniAuth.Model.Sql

/-!
# Decay

Most of what the session services write is revocation, in two tables, by
seven paths, in transactions of their own. `Decays` is what revocations,
however many and in whatever order, can do to a database. It is a preorder,
so a call that revokes in several commits is still one decay, and it keeps
every fact this development states about revoked rows.
-/

namespace OmniAuth

/-- The same row, possibly revoked since. -/
def RefreshToken.Decays (r r' : RefreshToken) : Prop := r' = r ∨ r' = r.revoke

/-- The same row, possibly revoked since. -/
def UserSession.Decays (s s' : UserSession) : Prop := s' = s ∨ ∃ t reason, s' = s.revoke t reason

namespace RefreshToken

variable {a b c : RefreshToken}

theorem Decays.trans (h₁ : a.Decays b) (h₂ : b.Decays c) : a.Decays c := by
  rcases h₁ with rfl | rfl
  · exact h₂
  · rcases h₂ with rfl | rfl <;> exact .inr rfl

theorem Decays.id (h : a.Decays b) : b.id = a.id := by rcases h with rfl | rfl <;> rfl

theorem Decays.userId (h : a.Decays b) : b.userId = a.userId := by rcases h with rfl | rfl <;> rfl

theorem Decays.tokenHash (h : a.Decays b) : b.tokenHash = a.tokenHash := by
  rcases h with rfl | rfl <;> rfl

theorem Decays.familyId (h : a.Decays b) : b.familyId = a.familyId := by
  rcases h with rfl | rfl <;> rfl

theorem Decays.rotatedAt (h : a.Decays b) : b.rotatedAt = a.rotatedAt := by
  rcases h with rfl | rfl <;> rfl

theorem Decays.revoked (h : a.Decays b) (ha : a.revoked = true) : b.revoked = true := by
  rcases h with rfl | rfl
  · exact ha
  · rfl

end RefreshToken

namespace UserSession

variable {a b c : UserSession}

theorem Decays.trans (h₁ : a.Decays b) (h₂ : b.Decays c) : a.Decays c := by
  rcases h₁ with rfl | ⟨t, reason, rfl⟩
  · exact h₂
  · rcases h₂ with rfl | ⟨t', reason', rfl⟩
    · exact .inr ⟨t, reason, rfl⟩
    · exact .inr ⟨t', reason', rfl⟩

theorem Decays.id (h : a.Decays b) : b.id = a.id := by rcases h with rfl | ⟨_, _, rfl⟩ <;> rfl

theorem Decays.sessionId (h : a.Decays b) : b.sessionId = a.sessionId := by
  rcases h with rfl | ⟨_, _, rfl⟩ <;> rfl

theorem Decays.createdAt (h : a.Decays b) : b.createdAt = a.createdAt := by
  rcases h with rfl | ⟨_, _, rfl⟩ <;> rfl

theorem Decays.lastActivityAt (h : a.Decays b) : b.lastActivityAt = a.lastActivityAt := by
  rcases h with rfl | ⟨_, _, rfl⟩ <;> rfl

theorem Decays.revoked (h : a.Decays b) (ha : a.status = .revoked) : b.status = .revoked := by
  rcases h with rfl | ⟨_, _, rfl⟩
  · exact ha
  · rfl

end UserSession

namespace Database

/-- **Revocations only.** Rows of the two tables may have been revoked, and
audit rows added; nothing else moved. -/
structure Decays (db db' : Database) : Prop where
  tokens : ∃ g : RefreshToken → RefreshToken,
    (∀ r : RefreshToken, r.Decays (g r)) ∧ db'.refreshTokens = db.refreshTokens.map g
  sessions : ∃ g : UserSession → UserSession,
    (∀ s : UserSession, s.Decays (g s)) ∧ db'.sessions = db.sessions.map g
  rest : db' = { db with
    refreshTokens := db'.refreshTokens
    sessions := db'.sessions
    auditEvents := db'.auditEvents }

variable {db db' a b c : Database}

theorem Decays.refl (db : Database) : db.Decays db :=
  ⟨⟨id, fun _ => .inl rfl, by simp⟩, ⟨id, fun _ => .inl rfl, by simp⟩, rfl⟩

theorem Decays.trans (h₁ : a.Decays b) (h₂ : b.Decays c) : a.Decays c := by
  obtain ⟨g₁, hg₁, ht₁⟩ := h₁.tokens
  obtain ⟨g₂, hg₂, ht₂⟩ := h₂.tokens
  obtain ⟨k₁, hk₁, hs₁⟩ := h₁.sessions
  obtain ⟨k₂, hk₂, hs₂⟩ := h₂.sessions
  refine ⟨⟨g₂ ∘ g₁, fun r => (hg₁ r).trans (hg₂ _), by rw [ht₂, ht₁, List.map_map]⟩,
    ⟨k₂ ∘ k₁, fun s => (hk₁ s).trans (hk₂ _), by rw [hs₂, hs₁, List.map_map]⟩, ?_⟩
  rw [h₂.rest, h₁.rest]

/-! ## The statements that decay -/

theorem decays_revokeTokens (db : Database) (ids : List ℕ) :
    db.Decays (db.updateTokens ids RefreshToken.revoke) := by
  refine ⟨⟨fun r => if r.id ∈ ids then r.revoke else r, fun r => ?_, rfl⟩,
    ⟨id, fun _ => .inl rfl, by simp [updateTokens]⟩, rfl⟩
  by_cases hr : r.id ∈ ids
  · exact .inr (by simp [hr])
  · exact .inl (by simp [hr])

theorem decays_revokeSession (db : Database) (id' : ℕ) (t : ℕ) (reason : RevokedReason) :
    db.Decays (db.updateSession id' (UserSession.revoke t reason)) := by
  refine ⟨⟨id, fun _ => .inl rfl, by simp [updateSession]⟩,
    ⟨fun s => if s.id = id' then s.revoke t reason else s, fun s => ?_, rfl⟩, rfl⟩
  by_cases hs : s.id = id'
  · exact .inr ⟨t, reason, by simp [hs]⟩
  · exact .inl (by simp [hs])

theorem decays_insertAudit (db : Database) (e : AuditEvent) : db.Decays (db.insertAudit e) :=
  ⟨⟨id, fun _ => .inl rfl, by simp [insertAudit]⟩, ⟨id, fun _ => .inl rfl, by simp [insertAudit]⟩,
    rfl⟩

/-! ## Rows before and after -/

theorem Decays.token_before (h : db.Decays db') {r' : RefreshToken}
    (hr : r' ∈ db'.refreshTokens) : ∃ r ∈ db.refreshTokens, r.Decays r' := by
  obtain ⟨g, hg, ht⟩ := h.tokens
  rw [ht] at hr
  obtain ⟨r, hmem, rfl⟩ := List.mem_map.mp hr
  exact ⟨r, hmem, hg r⟩

theorem Decays.session_before (h : db.Decays db') {s' : UserSession}
    (hs : s' ∈ db'.sessions) : ∃ s ∈ db.sessions, s.Decays s' := by
  obtain ⟨g, hg, ht⟩ := h.sessions
  rw [ht] at hs
  obtain ⟨s, hmem, rfl⟩ := List.mem_map.mp hs
  exact ⟨s, hmem, hg s⟩

theorem Decays.session_after (h : db.Decays db') {s : UserSession}
    (hs : s ∈ db.sessions) : ∃ s' ∈ db'.sessions, s.Decays s' := by
  obtain ⟨g, hg, ht⟩ := h.sessions
  exact ⟨g s, ht ▸ List.mem_map_of_mem hs, hg s⟩

/-- The session of a family is found before and after, or neither. -/
theorem Decays.getByFamilyId (h : db.Decays db') (f : Option ℕ) :
    (db.getByFamilyId f = none ∧ db'.getByFamilyId f = none) ∨
    ∃ s s', db.getByFamilyId f = some s ∧ db'.getByFamilyId f = some s' ∧ s.Decays s' := by
  obtain ⟨g, hg, ht⟩ := h.sessions
  cases f with
  | none => exact .inl ⟨rfl, rfl⟩
  | some f =>
    have hcomp : (fun s : UserSession => decide (s.sessionId = f)) ∘ g =
        fun s => decide (s.sessionId = f) := by
      funext s
      simp [(hg s).sessionId]
    have hfind : db'.getByFamilyId (some f) = (db.getByFamilyId (some f)).map g := by
      simp only [Database.getByFamilyId, Option.bind_some, ht, List.find?_map, hcomp]
    cases hs : db.getByFamilyId (some f) with
    | none => exact .inl ⟨rfl, by rw [hfind, hs]; rfl⟩
    | some s => exact .inr ⟨s, g s, rfl, by rw [hfind, hs]; rfl, hg s⟩

theorem Decays.tokenByHash (h : db.Decays db') (hash : ℕ) :
    (db.tokenByHash hash = none ∧ db'.tokenByHash hash = none) ∨
    ∃ r r', db.tokenByHash hash = some r ∧ db'.tokenByHash hash = some r' ∧ r.Decays r' := by
  obtain ⟨g, hg, ht⟩ := h.tokens
  have hcomp : (fun r : RefreshToken => decide (r.tokenHash = hash)) ∘ g =
      fun r => decide (r.tokenHash = hash) := by
    funext r
    simp [(hg r).tokenHash]
  have hfind : db'.tokenByHash hash = (db.tokenByHash hash).map g := by
    simp only [Database.tokenByHash, ht, List.find?_map, hcomp]
  cases hr : db.tokenByHash hash with
  | none => exact .inl ⟨rfl, by rw [hfind, hr]; rfl⟩
  | some r => exact .inr ⟨r, g r, rfl, by rw [hfind, hr]; rfl, hg r⟩

/-- A session of a new family is left alone by what decayed before it came. -/
theorem Decays.insertSession (h : db.Decays db') {s : UserSession}
    (hnew : ∀ s' ∈ db.sessions, s'.sessionId ≠ s.sessionId) :
    (db.insertSession s).Decays (db'.insertSession s) := by
  obtain ⟨k, hk, hs⟩ := h.sessions
  refine ⟨h.tokens,
    ⟨fun s' => if s'.sessionId = s.sessionId then s' else k s', fun s' => ?_, ?_⟩, ?_⟩
  · by_cases hid : s'.sessionId = s.sessionId
    · exact .inl (if_pos hid)
    · simpa only [if_neg hid] using hk s'
  · have hold : db.sessions.map k =
        db.sessions.map fun s' => if s'.sessionId = s.sessionId then s' else k s' :=
      List.map_congr_left fun s' hs' => (if_neg (hnew s' hs')).symm
    simp [Database.insertSession, hs, hold]
  · rw [h.rest]
    rfl

/-! ## Dead families -/

/-- Every row of the family is revoked. -/
def FamilyRevoked (db : Database) (f : ℕ) : Prop :=
  ∀ r ∈ db.refreshTokens, r.familyId = some f → r.revoked = true

/-- The session of the family, if there is one, is revoked. -/
def SessionRevoked (db : Database) (f : ℕ) : Prop :=
  ∀ s, db.getByFamilyId (some f) = some s → s.status = .revoked

theorem FamilyRevoked.decays {f : ℕ} (hf : db.FamilyRevoked f) (h : db.Decays db') :
    db'.FamilyRevoked f := by
  intro r' hr' hfam
  obtain ⟨r, hr, hd⟩ := h.token_before hr'
  exact hd.revoked (hf r hr (hd.familyId ▸ hfam))

theorem SessionRevoked.decays {f : ℕ} (hf : db.SessionRevoked f) (h : db.Decays db') :
    db'.SessionRevoked f := by
  intro s' hs'
  rcases h.getByFamilyId (some f) with ⟨_, hn⟩ | ⟨s, s₁, hs, hs₁, hd⟩
  · rw [hn] at hs'
    cases hs'
  · obtain rfl : s₁ = s' := Option.some.inj (hs₁.symm.trans hs')
    exact hd.revoked (hf s hs)

/-- `UPDATE refresh_tokens SET revoked WHERE family_id = f` revokes the family. -/
theorem familyRevoked_revokeTokens (db : Database) (f : ℕ) :
    (db.updateTokens (db.familyIds f) RefreshToken.revoke).FamilyRevoked f := by
  intro r' hr' hfam
  obtain ⟨r, hr, rfl⟩ := List.mem_map.mp hr'
  by_cases hin : r.id ∈ db.familyIds f
  · simp [hin, RefreshToken.revoke]
  · -- a row of the family is matched by its own statement
    simp only [hin, if_false] at hfam
    refine absurd ?_ hin
    exact List.mem_map.mpr ⟨r, List.mem_filter.mpr ⟨hr, by simpa using hfam⟩, rfl⟩

theorem sessionRevoked_revokeSession {s : UserSession} {f : ℕ}
    (hs : db.getByFamilyId (some f) = some s) (t : ℕ) (reason : RevokedReason) :
    (db.updateSession s.id (UserSession.revoke t reason)).SessionRevoked f := by
  intro s' hs'
  have hcomp : (fun s' : UserSession => decide (s'.sessionId = f)) ∘
      (fun s' => if s'.id = s.id then s'.revoke t reason else s') =
      fun s' => decide (s'.sessionId = f) := by
    funext s'
    by_cases h : s'.id = s.id <;> simp [h, UserSession.revoke]
  simp only [Database.getByFamilyId, Option.bind_some] at hs
  simp only [Database.getByFamilyId, Option.bind_some, updateSession, List.find?_map, hcomp,
    hs, Option.map_some, if_true] at hs'
  obtain rfl := Option.some.inj hs'
  rfl

end Database

end OmniAuth
