import OmniAuth.Txn.Evolution
import OmniAuth.Session.Decay

/-!
# What the tables never take back

Rows of the two tables are never deleted, a row keeps its key and its user,
and neither a revoked token nor a revoked session is ever live again. The
one column that moves is the family of a token, and only on a row that is
revoked by the same statement.
-/

namespace OmniAuth

open Txn

/-- What any statement leaves of a token row. -/
structure RefreshToken.Evolves (r r' : RefreshToken) : Prop where
  id : r'.id = r.id
  userId : r'.userId = r.userId
  tokenHash : r'.tokenHash = r.tokenHash
  revoked : r.revoked = true → r'.revoked = true
  familyId : r'.familyId = r.familyId ∨ r'.revoked = true

/-- What any statement leaves of a session row. -/
structure UserSession.Evolves (s s' : UserSession) : Prop where
  id : s'.id = s.id
  sessionId : s'.sessionId = s.sessionId
  userId : s'.userId = s.userId
  revoked : s.status = .revoked → s'.status = .revoked

theorem RefreshToken.Evolves.refl (r : RefreshToken) : r.Evolves r :=
  ⟨rfl, rfl, rfl, fun h => h, .inl rfl⟩

theorem RefreshToken.Evolves.trans {a b c : RefreshToken} (h₁ : a.Evolves b) (h₂ : b.Evolves c) :
    a.Evolves c where
  id := h₂.id.trans h₁.id
  userId := h₂.userId.trans h₁.userId
  tokenHash := h₂.tokenHash.trans h₁.tokenHash
  revoked h := h₂.revoked (h₁.revoked h)
  familyId := by
    rcases h₂.familyId with h | h
    · rcases h₁.familyId with h' | h'
      · exact .inl (h.trans h')
      · exact .inr (h₂.revoked h')
    · exact .inr h

theorem UserSession.Evolves.refl (s : UserSession) : s.Evolves s := ⟨rfl, rfl, rfl, fun h => h⟩

theorem UserSession.Evolves.trans {a b c : UserSession} (h₁ : a.Evolves b) (h₂ : b.Evolves c) :
    a.Evolves c :=
  ⟨h₂.id.trans h₁.id, h₂.sessionId.trans h₁.sessionId, h₂.userId.trans h₁.userId,
    fun h => h₂.revoked (h₁.revoked h)⟩

theorem RefreshToken.Decays.evolves {r r' : RefreshToken} (h : r.Decays r') : r.Evolves r' :=
  ⟨h.id, h.userId, h.tokenHash, h.revoked, .inl h.familyId⟩

theorem RefreshToken.evolves_rotate (r : RefreshToken) (t : ℕ) (b : Option ℕ) :
    r.Evolves (r.rotate t b) :=
  ⟨rfl, rfl, rfl, fun _ => rfl, .inr rfl⟩

namespace Database

/-- Rows were changed in place or added at the end. -/
structure Evolves (db db' : Database) : Prop where
  tokens : ∃ (g : RefreshToken → RefreshToken) (l : List RefreshToken),
    (∀ r : RefreshToken, r.Evolves (g r)) ∧ db'.refreshTokens = db.refreshTokens.map g ++ l
  sessions : ∃ (g : UserSession → UserSession) (l : List UserSession),
    (∀ s : UserSession, s.Evolves (g s)) ∧ db'.sessions = db.sessions.map g ++ l

variable {db db' a b c : Database}

theorem Evolves.refl (db : Database) : db.Evolves db :=
  ⟨⟨id, [], .refl, by simp⟩, ⟨id, [], .refl, by simp⟩⟩

theorem Evolves.trans (h₁ : a.Evolves b) (h₂ : b.Evolves c) : a.Evolves c := by
  obtain ⟨g₁, l₁, hg₁, ht₁⟩ := h₁.tokens
  obtain ⟨g₂, l₂, hg₂, ht₂⟩ := h₂.tokens
  obtain ⟨k₁, m₁, hk₁, hs₁⟩ := h₁.sessions
  obtain ⟨k₂, m₂, hk₂, hs₂⟩ := h₂.sessions
  exact ⟨⟨g₂ ∘ g₁, l₁.map g₂ ++ l₂, fun r => (hg₁ r).trans (hg₂ _), by simp [ht₂, ht₁]⟩,
    ⟨k₂ ∘ k₁, m₁.map k₂ ++ m₂, fun s => (hk₁ s).trans (hk₂ _), by simp [hs₂, hs₁]⟩⟩

theorem evolves_updateTokens (ids : List ℕ) {f : RefreshToken → RefreshToken}
    (hf : ∀ r : RefreshToken, r.Evolves (f r)) (db : Database) :
    db.Evolves (db.updateTokens ids f) := by
  refine ⟨⟨fun r => if r.id ∈ ids then f r else r, [], fun r => ?_, by simp [updateTokens]⟩,
    ⟨id, [], .refl, by simp [updateTokens]⟩⟩
  by_cases h : r.id ∈ ids
  · simpa only [if_pos h] using hf r
  · simpa only [if_neg h] using RefreshToken.Evolves.refl r

theorem evolves_updateSession (i : ℕ) (f : UserSession → UserSession)
    (hf : ∀ s : UserSession, s.Evolves (f s)) (db : Database) :
    db.Evolves (db.updateSession i f) := by
  refine ⟨⟨id, [], .refl, by simp [updateSession]⟩,
    ⟨fun s => if s.id = i then f s else s, [], fun s => ?_, by simp [updateSession]⟩⟩
  by_cases h : s.id = i
  · simpa only [if_pos h] using hf s
  · simpa only [if_neg h] using UserSession.Evolves.refl s

/-- A change that leaves both tables alone. -/
theorem evolves_of_eq (ht : db'.refreshTokens = db.refreshTokens)
    (hs : db'.sessions = db.sessions) : db.Evolves db' :=
  ⟨⟨id, [], .refl, by simp [ht]⟩, ⟨id, [], .refl, by simp [hs]⟩⟩

/-- The statements on second factors leave both tables alone. -/
theorem evolves_mfa {stmt : MfaStmt} {seen : Database} {eff : Effect Database RowKey}
    (h : stmt.denote seen = .ok eff) (db : Database) : db.Evolves (eff.delta db) := by
  cases stmt <;> simp only [MfaStmt.denote] at h <;> (try split at h) <;> cases h <;>
    exact evolves_of_eq rfl rfl

/-- **Every statement respects the order.** -/
theorem evolves_denote {stmt : Stmt} {seen : Database} {eff : Effect Database RowKey}
    (h : denote stmt seen = .ok eff) (db : Database) : db.Evolves (eff.delta db) := by
  cases stmt with
  | insertRefreshToken row =>
    simp only [denote] at h
    split at h
    · cases h
    · obtain rfl := Except.ok.inj h
      exact ⟨⟨id, [row], .refl, by simp [insertToken]⟩, ⟨id, [], .refl, by simp [insertToken]⟩⟩
  | insertSession row =>
    simp only [denote] at h
    split at h
    · cases h
    · obtain rfl := Except.ok.inj h
      exact ⟨⟨id, [], .refl, by simp [insertSession]⟩,
        ⟨id, [row], .refl, by simp [insertSession]⟩⟩
  | revokeRefreshToken i =>
    obtain rfl := Except.ok.inj h
    exact evolves_updateTokens _ (fun r => RefreshToken.Decays.evolves (.inr rfl)) db
  | rotateRefreshToken i t b =>
    obtain rfl := Except.ok.inj h
    exact evolves_updateTokens _ (fun r => r.evolves_rotate t b) db
  | revokeFamily f =>
    obtain rfl := Except.ok.inj h
    exact evolves_updateTokens _ (fun r => RefreshToken.Decays.evolves (.inr rfl)) db
  | touchSession i t e =>
    obtain rfl := Except.ok.inj h
    exact evolves_updateSession i (UserSession.touch t e)
      (fun s => ⟨rfl, rfl, rfl, fun h => h⟩) db
  | revokeSession i t reason =>
    obtain rfl := Except.ok.inj h
    exact evolves_updateSession i (UserSession.revoke t reason)
      (fun s => ⟨rfl, rfl, rfl, fun _ => rfl⟩) db
  | lockActiveSessions userId =>
    obtain rfl := Except.ok.inj h
    exact .refl db
  | touchLogin userId t method =>
    obtain rfl := Except.ok.inj h
    exact evolves_of_eq rfl rfl
  | setStatus userId status t reason actor =>
    obtain rfl := Except.ok.inj h
    exact evolves_of_eq rfl rfl
  | insertAuditEvent event =>
    obtain rfl := Except.ok.inj h
    exact evolves_of_eq rfl rfl
  | credential stmt =>
    have ht := congrArg Database.refreshTokens (CredentialStmt.frame h db)
    have hs := congrArg Database.sessions (CredentialStmt.frame h db)
    exact evolves_of_eq ht hs
  | mfa stmt => exact evolves_mfa h db
  | account stmt =>
    have ht := congrArg Database.refreshTokens (AccountStmt.frame h db)
    have hs := congrArg Database.sessions (AccountStmt.frame h db)
    exact evolves_of_eq ht hs
  | org stmt =>
    have ht := congrArg Database.refreshTokens (OrgStmt.frame h db)
    have hs := congrArg Database.sessions (OrgStmt.frame h db)
    exact evolves_of_eq ht hs

/-- The order of the committed states. -/
def evolution : Evolution AuthSig where
  le := Evolves
  refl := .refl
  trans := .trans
  stmt := evolves_denote

/-! ## What is found later -/

/-- A token that was found is found again, and evolved. -/
theorem Evolves.tokenByHash (h : db.Evolves db') {hash : ℕ} {r : RefreshToken}
    (hr : db.tokenByHash hash = some r) : ∃ r', db'.tokenByHash hash = some r' ∧ r.Evolves r' := by
  obtain ⟨g, l, hg, ht⟩ := h.tokens
  have hcomp : (fun r : RefreshToken => decide (r.tokenHash = hash)) ∘ g =
      fun r => decide (r.tokenHash = hash) := by
    funext r
    simp [(hg r).tokenHash]
  simp only [Database.tokenByHash] at hr
  refine ⟨g r, ?_, hg r⟩
  simp only [Database.tokenByHash, ht, List.find?_append, List.find?_map, hcomp, hr]
  rfl

/-- A session that was found is found again, and evolved. -/
theorem Evolves.getByFamilyId (h : db.Evolves db') {f : Option ℕ} {s : UserSession}
    (hs : db.getByFamilyId f = some s) :
    ∃ s', db'.getByFamilyId f = some s' ∧ s.Evolves s' := by
  obtain ⟨g, l, hg, ht⟩ := h.sessions
  cases f with
  | none => cases hs
  | some f =>
    have hcomp : (fun s : UserSession => decide (s.sessionId = f)) ∘ g =
        fun s => decide (s.sessionId = f) := by
      funext s
      simp [(hg s).sessionId]
    simp only [Database.getByFamilyId, Option.bind_some] at hs
    refine ⟨g s, ?_, hg s⟩
    simp only [Database.getByFamilyId, Option.bind_some, ht, List.find?_append, List.find?_map,
      hcomp, hs]
    rfl

end Database

end OmniAuth
