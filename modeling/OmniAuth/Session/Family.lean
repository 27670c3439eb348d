import OmniAuth.Session.Outcome
import Mathlib.Data.List.Pairwise

/-!
# The family invariant

Calls that run one after the other, from empty tables. Every refresh token
belongs to a family with a session, a family has at most one live token, and
a family whose session is revoked never yields another token.

Revocation is written to two tables, and not always to both: `revoke_token`
marks one row only. The session is the row that decides. It is revoked by
every path that ends a family, no path brings it back, and a rotation looks
at it before anything else but the presented row.
-/

namespace OmniAuth

open Txn Prog

/-! ## Calls and runs -/

/-- A call of the session services. -/
inductive Call (E : Env)
  | generateTokens (user : User) (authMethod : AuthMethod) (idpOrgId : Option ℕ)
      (client : ClientInfo)
  | rotateRefreshToken (presentedToken : E.Token) (teamId : Option (Option ℕ))
  | revokeToken (token : E.Token)
  | revokeSession (sessionId : ℕ)
  | revokeAllSessionsForUser (userId : ℕ) (reason : RevokedReason) (actorUserId : Option ℕ)

/-- What a call returns. -/
inductive Reply (E : Env)
  | tokens (access refresh : E.Token)
  | none
  | done
  | found (b : Bool)
  | count (n : ℕ)

namespace Call

variable {E : Env}

def op : Call E → Op (Reply E)
  | generateTokens user authMethod idpOrgId client =>
      (OmniAuth.generateTokens E user authMethod idpOrgId client).bind
        fun t => ret (.tokens t.1 t.2)
  | rotateRefreshToken token teamId =>
      (OmniAuth.rotateRefreshToken E token teamId).bind fun
        | some t => ret (.tokens t.1 t.2)
        | none => ret .none
  | revokeToken token => (OmniAuth.revokeToken E token).bind fun _ => ret .done
  | revokeSession sessionId =>
      (OmniAuth.revokeSession sessionId).bind fun b => ret (.found b)
  | revokeAllSessionsForUser userId reason actor =>
      (OmniAuth.revokeAllSessionsForUser userId reason actor).bind fun n => ret (.count n)

/-- The call runs to completion, on a session of its own. -/
def Step (c : Call E) (w : World) (r : Except Err (Reply E)) (w' : World) : Prop :=
  c.op.close.Exec w r w'

/-- Calls one after the other. -/
inductive Run (E : Env) (w : World) : World → Prop
  | refl : Run E w w
  | tail {w₁ w₂ : World} {c : Call E} {r} : Run E w w₁ → c.Step w₁ r w₂ → Run E w w₂

/-- One particular run of these calls. -/
def runAll : List (Call E) → World → World
  | [], w => w
  | c :: cs, w => runAll cs (c.op.close.run w).2

theorem run_runAll (cs : List (Call E)) {w w₁ : World} (h : Run E w w₁) :
    Run E w (runAll cs w₁) := by
  induction cs generalizing w₁ with
  | nil => exact h
  | cons c cs ih => exact ih (h.tail (exec_run _ _))

end Call

variable {E : Env} {w w' : World}

/-! ## The invariant -/

/-- **The family invariant**, with every id below the next fresh one. -/
structure FamilyInv (db : Database) (n : ℕ) : Prop where
  below : db.Below n
  tokenIds : db.refreshTokens.Pairwise fun r r' => r.id ≠ r'.id
  sessionKeys : db.sessions.Pairwise fun s s' => s.id ≠ s'.id
  sessionIds : db.sessions.Pairwise fun s s' => s.sessionId ≠ s'.sessionId
  live : db.refreshTokens.Pairwise fun r r' =>
    r.familyId = r'.familyId → r.revoked = true ∨ r'.revoked = true
  rotated : ∀ r ∈ db.refreshTokens, r.rotatedAt.isSome → r.revoked = true
  owned : ∀ r ∈ db.refreshTokens, ∃ f, r.familyId = some f ∧ ∃ s ∈ db.sessions, s.sessionId = f

/-- The family's session is there and is revoked. -/
def Dead (db : Database) (f : ℕ) : Prop :=
  ∃ s ∈ db.sessions, s.sessionId = f ∧ s.status = .revoked

namespace FamilyInv

variable {db db' : Database} {n n' : ℕ}

/-- `get_by_family_id` finds the one session of the family. -/
theorem getByFamilyId (hi : FamilyInv db n) {s : UserSession} (hs : s ∈ db.sessions) :
    db.getByFamilyId (some s.sessionId) = some s := by
  have hsymm : Std.Symm fun s s' : UserSession => s.sessionId ≠ s'.sessionId :=
    ⟨fun _ _ h => h.symm⟩
  refine find?_of_unique hs (by simp) fun s' hs' hid => ?_
  by_contra hne
  exact hi.sessionIds.forall hs' hs hne (by simpa using hid)

/-- Two rows of one family: one of them is revoked. -/
theorem live_of_ne (hi : FamilyInv db n) {r r' : RefreshToken} (hr : r ∈ db.refreshTokens)
    (hr' : r' ∈ db.refreshTokens) (hne : r ≠ r') (hf : r.familyId = r'.familyId) :
    r.revoked = true ∨ r'.revoked = true := by
  have hsymm : Std.Symm fun r r' : RefreshToken =>
      r.familyId = r'.familyId → r.revoked = true ∨ r'.revoked = true :=
    ⟨fun _ _ h hf => (h hf.symm).symm⟩
  exact hi.live.forall hr hr' hne hf

/-- A family has at most one live row. -/
theorem live_length (hi : FamilyInv db n) (f : ℕ) :
    (db.refreshTokens.filter fun r => r.familyId = some f ∧ r.revoked = false).length ≤ 1 := by
  have hpair := hi.live.filter fun r => decide (r.familyId = some f ∧ r.revoked = false)
  have hmem : ∀ r ∈ db.refreshTokens.filter fun r => r.familyId = some f ∧ r.revoked = false,
      r.familyId = some f ∧ r.revoked = false := fun r hr => by
    simpa using (List.mem_filter.mp hr).2
  generalize (db.refreshTokens.filter fun r => r.familyId = some f ∧ r.revoked = false) = l
    at hpair hmem ⊢
  match l, hpair, hmem with
  | [], _, _ => exact Nat.zero_le _
  | [_], _, _ => exact Nat.le_refl _
  | a :: b :: _, hpair, hmem =>
    obtain ⟨ha, ha'⟩ := hmem a (by simp)
    obtain ⟨hb, hb'⟩ := hmem b (by simp)
    have := (List.pairwise_cons.mp hpair).1 b (by simp) (ha.trans hb.symm)
    simp [ha', hb'] at this

theorem session_eq_of_id (hi : FamilyInv db n) {s s' : UserSession} (hs : s ∈ db.sessions)
    (hs' : s' ∈ db.sessions) (hid : s.id = s'.id) : s = s' := by
  by_contra hne
  have hsymm : Std.Symm fun s s' : UserSession => s.id ≠ s'.id := ⟨fun _ _ h => h.symm⟩
  exact hi.sessionKeys.forall hs hs' hne hid

theorem mono (hi : FamilyInv db n) (h : n ≤ n') : FamilyInv db n' :=
  { hi with below := hi.below.mono h }

theorem empty : FamilyInv { db with refreshTokens := [], sessions := [] } n :=
  ⟨⟨by simp, by simp⟩, .nil, .nil, .nil, .nil, by simp, by simp⟩

/-- Updates that keep ids and families, revive nothing, and stamp only what
they revoke, keep the invariant. -/
theorem update (hi : FamilyInv db n) (g : RefreshToken → RefreshToken)
    (k : UserSession → UserSession) (ht : db'.refreshTokens = db.refreshTokens.map g)
    (hs : db'.sessions = db.sessions.map k)
    (hid : ∀ r, (g r).id = r.id) (hfam : ∀ r, (g r).familyId = r.familyId)
    (hrev : ∀ r, r.revoked = true → (g r).revoked = true)
    (hrot : ∀ r, (g r).rotatedAt.isSome → r.rotatedAt.isSome ∨ (g r).revoked = true)
    (hsid : ∀ s, (k s).id = s.id ∧ (k s).sessionId = s.sessionId) : FamilyInv db' n := by
  refine ⟨⟨?_, ?_⟩, ?_, ?_, ?_, ?_, ?_, ?_⟩
  · rw [ht, List.forall_mem_map]
    intro r hr
    rw [hid, hfam]
    exact hi.below.token r hr
  · rw [hs, List.forall_mem_map]
    intro s hmem
    rw [(hsid s).1, (hsid s).2]
    exact hi.below.session s hmem
  · rw [ht, List.pairwise_map]
    exact hi.tokenIds.imp fun {a b} hne => by rwa [hid, hid]
  · rw [hs, List.pairwise_map]
    exact hi.sessionKeys.imp fun {a b} hne => by rwa [(hsid a).1, (hsid b).1]
  · rw [hs, List.pairwise_map]
    exact hi.sessionIds.imp fun {a b} hne => by rwa [(hsid a).2, (hsid b).2]
  · rw [ht, List.pairwise_map]
    refine hi.live.imp fun {a b} hlive hf => ?_
    rw [hfam, hfam] at hf
    exact (hlive hf).imp (hrev a) (hrev b)
  · rw [ht, List.forall_mem_map]
    intro r hr h
    rcases hrot r h with h | h
    · exact hrev r (hi.rotated r hr h)
    · exact h
  · rw [ht, List.forall_mem_map]
    intro r hr
    obtain ⟨f, hf, s, hmem, hsf⟩ := hi.owned r hr
    refine ⟨f, (hfam r).trans hf, k s, ?_, (hsid s).2.trans hsf⟩
    rw [hs]
    exact List.mem_map_of_mem hmem

/-- Revocations keep the invariant. -/
theorem decays (hi : FamilyInv db n) (h : db.Decays db') : FamilyInv db' n := by
  obtain ⟨g, hg, ht⟩ := h.tokens
  obtain ⟨k, hk, hs⟩ := h.sessions
  refine hi.update g k ht hs (fun r => (hg r).id) (fun r => (hg r).familyId)
    (fun r => (hg r).revoked) (fun r h => ?_) (fun s => ⟨(hk s).id, (hk s).sessionId⟩)
  rw [(hg r).rotatedAt] at h
  exact .inl h

/-- So does the presented row's own update: it revokes what it stamps. -/
theorem rotateToken (hi : FamilyInv db n) (id' t : ℕ) :
    FamilyInv (db.updateTokens [id'] (RefreshToken.rotate t none)) n := by
  refine hi.update (fun r => if r.id ∈ [id'] then r.rotate t none else r) id rfl
    (by simp [Database.updateTokens]) ?_ ?_ ?_ ?_ (fun _ => ⟨rfl, rfl⟩)
  all_goals
    intro r
    by_cases h : r.id ∈ [id']
  · simp only [if_pos h]; rfl
  · simp only [if_neg h]
  · simp only [if_pos h]; rfl
  · simp only [if_neg h]
  · simp only [if_pos h, RefreshToken.rotate, implies_true]
  · simp only [if_neg h]; exact fun h => h
  · simp only [if_pos h]; exact fun _ => .inr rfl
  · simp only [if_neg h]; exact .inl

/-- And touching a session. -/
theorem touchSession (hi : FamilyInv db n) (id' t e : ℕ) :
    FamilyInv (db.updateSession id' (UserSession.touch t e)) n := by
  refine hi.update id (fun s => if s.id = id' then s.touch t e else s)
    (by simp [Database.updateSession]) rfl (fun _ => rfl) (fun _ => rfl) (fun _ h => h)
    (fun _ h => .inl h) fun s => ?_
  by_cases h : s.id = id' <;> simp [h, UserSession.touch]

theorem updateUser (hi : FamilyInv db n) (id' : ℕ) (f : User → User) :
    FamilyInv (db.updateUser id' f) n :=
  hi.update id id (by simp [Database.updateUser]) (by simp [Database.updateUser])
    (fun _ => rfl) (fun _ => rfl) (fun _ h => h) (fun _ h => .inl h) fun _ => ⟨rfl, rfl⟩

/-- A new live row may join when every other row of its family is revoked
and its family has a session. -/
theorem insertToken (hi : FamilyInv db n) {row : RefreshToken} {f : ℕ}
    (hid : ∀ r ∈ db.refreshTokens, r.id ≠ row.id) (hlt : row.id < n) (hf : row.familyId = some f)
    (hfn : f < n) (hrot : row.rotatedAt = none)
    (hdead : ∀ r ∈ db.refreshTokens, r.familyId = some f → r.revoked = true)
    (hown : ∃ s ∈ db.sessions, s.sessionId = f) : FamilyInv (db.insertToken row) n := by
  refine ⟨⟨?_, hi.below.session⟩, ?_, hi.sessionKeys, hi.sessionIds, ?_, ?_, ?_⟩
  · simp only [Database.insertToken, List.mem_append, List.mem_singleton]
    rintro r (hr | rfl)
    · exact hi.below.token r hr
    · refine ⟨hlt, fun f' hf' => ?_⟩
      rw [hf] at hf'
      obtain rfl := Option.some.inj hf'
      exact hfn
  · refine List.pairwise_append.mpr ⟨hi.tokenIds, List.pairwise_singleton _ _, ?_⟩
    simpa using hid
  · refine List.pairwise_append.mpr ⟨hi.live, List.pairwise_singleton _ _, ?_⟩
    simp only [List.mem_singleton]
    rintro r hr _ rfl hfam
    exact .inl (hdead r hr (hfam.trans hf))
  · simp only [Database.insertToken, List.mem_append, List.mem_singleton]
    rintro r (hr | rfl) h
    · exact hi.rotated r hr h
    · rw [hrot] at h
      cases h
  · simp only [Database.insertToken, List.mem_append, List.mem_singleton]
    rintro r (hr | rfl)
    · exact hi.owned r hr
    · exact ⟨f, hf, hown⟩

/-- A session may join when its family is new. -/
theorem insertSession (hi : FamilyInv db n) {s : UserSession} (hid : s.id < n)
    (hsid : s.sessionId < n) (hkey : ∀ s' ∈ db.sessions, s'.id ≠ s.id)
    (hnew : ∀ s' ∈ db.sessions, s'.sessionId ≠ s.sessionId) :
    FamilyInv (db.insertSession s) n := by
  refine ⟨⟨hi.below.token, ?_⟩, hi.tokenIds, ?_, ?_, hi.live, hi.rotated, ?_⟩
  · simp only [Database.insertSession, List.mem_append, List.mem_singleton]
    rintro s' (hs' | rfl)
    · exact hi.below.session s' hs'
    · exact ⟨hid, hsid⟩
  · refine List.pairwise_append.mpr ⟨hi.sessionKeys, List.pairwise_singleton _ _, ?_⟩
    simpa using hkey
  · refine List.pairwise_append.mpr ⟨hi.sessionIds, List.pairwise_singleton _ _, ?_⟩
    simpa using hnew
  · intro r hr
    obtain ⟨f, hf, s', hs', hsf⟩ := hi.owned r hr
    exact ⟨f, hf, s', List.mem_append_left _ hs', hsf⟩

/-- **A login keeps the invariant.** Its family is new, so its row and its
session could have gone in together before the evictions. -/
theorem login {userId : ℕ} (hi : FamilyInv w.cur w.next) (L : LoginEffect userId w w') :
    FamilyInv w'.cur w'.next := by
  have hnext : w.next ≤ w'.next := Nat.le_of_lt (Nat.lt_of_le_of_lt L.family_lower L.family_upper)
  have hold : ∀ s ∈ w.cur.sessions, s.sessionId ≠ L.session.sessionId := by
    intro s hs
    have := (hi.below.session s hs).2
    have := L.family_lower
    rw [L.sessionId_eq]
    omega
  have h₁ := ((hi.updateUser userId L.update).mono hnext).insertSession L.session_id_upper
    (L.sessionId_eq ▸ L.family_upper) (fun s hs => by
      have := (hi.below.session s hs).1
      have := L.session_id_lower
      omega) hold
  have h₂ := h₁.insertToken (fun r hr => (L.newRow.unique r hr).1) L.newRow.id_upper
    L.newRow.familyId_eq L.family_upper L.newRow.rotatedAt_eq
    (fun r hr hf => by
      have := (hi.below.token r hr).2 _ hf
      have := L.family_lower
      omega)
    ⟨L.session, by simp [Database.insertSession], L.sessionId_eq⟩
  rw [L.cur_eq]
  exact h₂.decays (L.evicts.insertSession hold)

/-- The family a rotation works in is the presented row's. -/
theorem rotation_family {row : RefreshToken} (hi : FamilyInv w.cur w.next)
    (hrow : row ∈ w.cur.refreshTokens) (R : RotationEffect row w w') :
    row.familyId = some R.family ∧ R.backfill = none := by
  obtain ⟨f, hf, _⟩ := hi.owned row hrow
  rcases R.family_eq with h | ⟨h, _⟩
  · exact ⟨h, by rw [R.backfill_eq, h]; rfl⟩
  · rw [hf] at h
    cases h

/-- **A rotation keeps the invariant.** The presented row was the family's
only live one. -/
theorem rotation {row : RefreshToken} (hi : FamilyInv w.cur w.next)
    (hrow : row ∈ w.cur.refreshTokens) (hlive : row.revoked = false)
    (R : RotationEffect row w w') : FamilyInv w'.cur w'.next := by
  obtain ⟨hf, hback⟩ := hi.rotation_family hrow R
  obtain ⟨f, hf', s₀, hs₀, hsf⟩ := hi.owned row hrow
  obtain rfl : R.family = f := Option.some.inj (hf.symm.trans hf')
  have hnext : w.next ≤ w'.next :=
    Nat.le_of_lt (Nat.lt_of_le_of_lt R.newRow.id_lower R.newRow.id_upper)
  have h₁ := (hi.rotateToken row.id R.rotatedAt).mono hnext
  have h₂ : FamilyInv ((w.cur.updateTokens [row.id] (RefreshToken.rotate R.rotatedAt none)).insertToken
      R.row) w'.next := by
    refine h₁.insertToken ?_ R.newRow.id_upper R.newRow.familyId_eq ?_ R.newRow.rotatedAt_eq ?_ ?_
    · refine Database.forall_updateTokens.mpr fun r hr => ?_
      exact ⟨fun _ => (R.newRow.unique r hr).1, fun _ => (R.newRow.unique r hr).1⟩
    · have := (hi.below.token row hrow).2 _ hf
      omega
    · -- a row of the family is the presented one, or was revoked already
      refine Database.forall_updateTokens.mpr fun r hr => ⟨fun _ _ => rfl, fun h hfam => ?_⟩
      have hne : r ≠ row := by
        rintro rfl
        exact h (by simp)
      rcases hi.live_of_ne hr hrow hne (hfam.trans hf.symm) with h | h
      · exact h
      · rw [hlive] at h
        cases h
    · exact ⟨s₀, hs₀, hsf⟩
  rcases R.sessions with ⟨s, t, e, _, _, _, _, hcur⟩ | ⟨s, hnone, _⟩
  · rw [hcur, hback]
    exact h₂.touchSession s.id t e
  · rw [hf, ← hsf, hi.getByFamilyId hs₀] at hnone
    cases hnone

end FamilyInv

/-! ## One call -/

/-- What a call can do to the committed tables. -/
inductive Change (E : Env) (c : Call E) (w : World) (r : Except Err (Reply E)) (w' : World) : Prop
  | nothing (reply : ∀ a t, r ≠ .ok (.tokens a t)) (base_eq : w'.base = w.base)
  | revocations (reply : ∀ a t, r ≠ .ok (.tokens a t)) (decays : w.cur.Decays w'.base)
  | login (call : ∃ user authMethod idpOrgId client,
        c = .generateTokens user authMethod idpOrgId client)
      (tokens : E.Token × E.Token) (reply : r = .ok (.tokens tokens.1 tokens.2))
      (userId : ℕ) (L : LoginEffect userId w w') (hash : L.row.tokenHash = E.sha256 tokens.2)
  | rotation (call : ∃ token teamId, c = .rotateRefreshToken token teamId)
      (tokens : E.Token × E.Token) (reply : r = .ok (.tokens tokens.1 tokens.2))
      (row : RefreshToken) (mem : row ∈ w.cur.refreshTokens) (admitted : Admitted w row)
      (policy : ∀ s, w.cur.getByFamilyId row.familyId = some s → WithinPolicy E w w' s)
      (R : RotationEffect row w w') (hash : R.row.tokenHash = E.sha256 tokens.2)

theorem tokenByHash_mem {db : Database} {hash : ℕ} {row : RefreshToken}
    (h : db.tokenByHash hash = some row) : row ∈ db.refreshTokens :=
  List.mem_of_find?_eq_some h

/-- A rotation call ends in one of the four ways, with the matching reply. -/
theorem Call.rotate_outcome {token : E.Token} {teamId : Option (Option ℕ)}
    {r : Except Err (Reply E)} (h : (Call.rotateRefreshToken token teamId).op.Exec w r w') :
    ∃ r₀, RotateOutcome E token w r₀ w' ∧
      (r₀ = .ok none → r = .ok .none) ∧
      (∀ t, r₀ = .ok (some t) → r = .ok (.tokens t.1 t.2)) ∧
      (∀ x, r₀ = .error x → r = .error x) := by
  obtain ⟨t, w₁, h₁, h₂⟩ | ⟨x, h₁, rfl⟩ := exec_bind.mp h
  · cases t with
    | none =>
      obtain ⟨rfl, rfl⟩ := h₂
      exact ⟨_, rotateRefreshToken_exec h₁, fun _ => rfl, by simp, by simp⟩
    | some t =>
      obtain ⟨rfl, rfl⟩ := h₂
      refine ⟨_, rotateRefreshToken_exec h₁, by simp, ?_, by simp⟩
      rintro _ ⟨⟩
      rfl
  · refine ⟨_, rotateRefreshToken_exec h₁, by simp, by simp, ?_⟩
    rintro _ ⟨⟩
    rfl

theorem Call.change {c : Call E} {r : Except Err (Reply E)} (hclean : w.cur = w.base)
    (hbelow : w.cur.Below w.next) (h : c.op.Exec w r w') : Change E c w r w' := by
  cases c with
  | generateTokens user authMethod idpOrgId client =>
    obtain ⟨t, w₁, h₁, rfl, rfl⟩ | ⟨x, h₁, rfl⟩ := exec_bind.mp h
    · rcases generateTokens_exec hbelow h₁ with ⟨_, hx, _⟩ | ⟨_, hr, L, hhash⟩
      · cases hx
      · obtain rfl := Except.ok.inj hr
        exact .login ⟨_, _, _, _, rfl⟩ _ rfl _ L hhash
    · rcases generateTokens_exec hbelow h₁ with ⟨_, _, hb, _⟩ | ⟨_, hx, _⟩
      · exact .nothing (by simp) hb
      · cases hx
  | rotateRefreshToken token teamId =>
    obtain ⟨r₀, houtcome, hnone, hsome, herr⟩ := Call.rotate_outcome h
    cases houtcome with
    | refused cur_eq base_eq => exact .nothing (by simp [hnone rfl]) base_eq
    | ended row found base_eq decays dead =>
      exact .revocations (by simp [hnone rfl]) (base_eq ▸ decays)
    | failed x row found admitted base_eq => exact .nothing (by simp [herr x rfl]) base_eq
    | exchanged tokens row found admitted policy R hash =>
      exact .rotation ⟨_, _, rfl⟩ tokens (hsome _ rfl) row (tokenByHash_mem found) admitted policy R hash
  | revokeToken token =>
    obtain ⟨_, w₁, h₁, rfl, rfl⟩ := exec_bind_inv h (fun _ _ h => ⟨_, (revokeToken_exec h).1⟩)
    obtain ⟨_, hd, ⟨_, rfl⟩ | ⟨_, _, hb, _⟩⟩ := revokeToken_exec h₁
    · exact .nothing (by simp) rfl
    · exact .revocations (by simp) (hb ▸ hd)
  | revokeSession sessionId =>
    obtain ⟨b, w₁, h₁, rfl, rfl⟩ | ⟨x, h₁, rfl⟩ := exec_bind.mp h
    · obtain ⟨hd, ⟨_, _, rfl⟩ | ⟨_, _, hb, _⟩⟩ := revokeSession_exec h₁
      · exact .nothing (by simp) rfl
      · exact .revocations (by simp) (hb ▸ hd)
    · obtain ⟨_, ⟨_, hx, _⟩ | ⟨_, hx, _⟩⟩ := revokeSession_exec h₁
      · cases hx
      · cases hx
  | revokeAllSessionsForUser userId reason actor =>
    obtain ⟨_, w₁, h₁, rfl, rfl⟩ := exec_bind_inv h
      (fun _ _ h => (revokeAllSessionsForUser_exec h).1)
    obtain ⟨_, hd, hb, _⟩ := revokeAllSessionsForUser_exec h₁
    exact .revocations (by simp) (hb ▸ hd)

variable {c : Call E} {r : Except Err (Reply E)}

theorem Change.familyInv (hi : FamilyInv w.cur w.next) (hclean : w.cur = w.base)
    (hnext : w.next ≤ w'.next) (h : Change E c w r w') : FamilyInv w'.base w'.next := by
  cases h with
  | nothing reply base_eq => exact base_eq ▸ hclean ▸ hi.mono hnext
  | revocations reply decays => exact (hi.mono hnext).decays decays
  | login call tokens reply userId L => exact L.base_eq ▸ hi.login L
  | rotation call tokens reply row mem admitted policy R =>
    exact R.base_eq ▸ hi.rotation mem admitted.not_revoked R

/-- **Nothing revives a session.** -/
theorem Change.dead {f : ℕ} (hclean : w.cur = w.base) (hd : Dead w.base f)
    (h : Change E c w r w') : Dead w'.base f := by
  rw [← hclean] at hd
  obtain ⟨s, hs, hid, hst⟩ := hd
  cases h with
  | nothing reply base_eq =>
    rw [base_eq, ← hclean]
    exact ⟨s, hs, hid, hst⟩
  | revocations reply decays =>
    obtain ⟨s', hs', hd⟩ := decays.session_after hs
    exact ⟨s', hs', hd.sessionId.trans hid, hd.revoked hst⟩
  | login call tokens reply userId L =>
    obtain ⟨s', hs', hd⟩ := L.evicts.session_after hs
    rw [L.base_eq, L.cur_eq]
    exact ⟨s', List.mem_append_left _ hs', hd.sessionId.trans hid, hd.revoked hst⟩
  | rotation call tokens reply row mem admitted policy R =>
    rw [R.base_eq]
    rcases R.sessions with ⟨s₁, t, e, _, _, _, _, hcur⟩ | ⟨s₁, _, _, _, _, _, hcur⟩
    · rw [hcur]
      refine ⟨_, List.mem_map_of_mem hs, ?_⟩
      by_cases h : s.id = s₁.id <;> simp [h, UserSession.touch, hid, hst]
    · rw [hcur]
      exact ⟨s, List.mem_append_left _ hs, hid, hst⟩

/-- A dead family's tokens are refused. -/
theorem FamilyInv.not_admitted {f : ℕ} {row : RefreshToken} (hi : FamilyInv w.cur w.next)
    (hd : Dead w.cur f) (hf : row.familyId = some f) : ¬ Admitted w row := by
  intro hadm
  obtain ⟨s, hs, rfl, hst⟩ := hd
  exact hadm.session s (hf ▸ hi.getByFamilyId hs) hst

/-! ## Runs -/

/-- Between two calls: nothing is pending, and the invariant holds. -/
structure Quiet (w : World) : Prop where
  clean : w.cur = w.base
  inv : FamilyInv w.cur w.next

theorem Call.Step.change (hq : Quiet w) (h : c.Step w r w') :
    ∃ w₁, c.op.Exec w r w₁ ∧ w' = { w₁ with cur := w₁.base } ∧ Change E c w r w₁ := by
  obtain ⟨w₁, h₁, rfl⟩ := exec_close.mp h
  exact ⟨w₁, h₁, rfl, Call.change hq.clean hq.inv.below h₁⟩

theorem Quiet.step (hq : Quiet w) (h : c.Step w r w') : Quiet w' := by
  obtain ⟨w₁, h₁, rfl, hc⟩ := h.change hq
  exact ⟨rfl, hc.familyInv hq.inv hq.clean h₁.mono.2.1⟩

theorem Quiet.run (hq : Quiet w) (h : Call.Run E w w') : Quiet w' := by
  induction h with
  | refl => exact hq
  | tail _ hstep ih => exact ih.step hstep

theorem Dead.run {f : ℕ} (hq : Quiet w) (hd : Dead w.base f) (h : Call.Run E w w') :
    Dead w'.base f := by
  induction h with
  | refl => exact hd
  | tail hrun hstep ih =>
    obtain ⟨w₁, _, rfl, hc⟩ := hstep.change (hq.run hrun)
    have := hc.dead (hq.run hrun).clean ih
    exact this

/-- The database before anybody logged in. -/
structure Fresh (w : World) : Prop where
  clean : w.cur = w.base
  tokens : w.base.refreshTokens = []
  sessions : w.base.sessions = []

theorem Fresh.quiet (h : Fresh w) : Quiet w := by
  refine ⟨h.clean, ?_⟩
  rw [h.clean]
  have hempty : w.base = { w.base with refreshTokens := [], sessions := [] } := by
    rw [← h.tokens, ← h.sessions]
  rw [hempty]
  exact FamilyInv.empty

/-- The call `c` ends the family `f`: it presents a token of the family that
was rotated already, it is a logout with any token of the family, or the
family's session is active before it and revoked after it. -/
inductive Ends (c : Call E) (w w' : World) (f : ℕ) : Prop
  | reuse {token : E.Token} {teamId : Option (Option ℕ)} {row : RefreshToken}
      (call : c = .rotateRefreshToken token teamId)
      (found : w.base.tokenByHash (E.sha256 token) = some row)
      (rotated : row.rotatedAt.isSome) (family : row.familyId = some f)
  | logout {token : E.Token} {row : RefreshToken} (call : c = .revokeToken token)
      (found : w.base.tokenByHash (E.sha256 token) = some row) (family : row.familyId = some f)
  | revoked {s s' : UserSession} (before : s ∈ w.base.sessions) (was : s.sessionId = f)
      (active : s.status = .active) (after : s' ∈ w'.base.sessions) (is : s'.sessionId = f)
      (revoked : s'.status = .revoked)

theorem FamilyInv.dead_of_session {db db' : Database} {n : ℕ} {s : UserSession}
    (hi : FamilyInv db n) (hd : db.Decays db') (hmem : s ∈ db.sessions)
    (hs : db'.SessionRevoked s.sessionId) : Dead db' s.sessionId := by
  obtain ⟨s', hs', hd'⟩ := hd.session_after hmem
  have hfound := (hi.decays hd).getByFamilyId hs'
  rw [hd'.sessionId] at hfound
  exact ⟨s', hs', hd'.sessionId, hs s' hfound⟩

theorem FamilyInv.dead_of_sessionRevoked {db db' : Database} {n : ℕ} {f : ℕ}
    {row : RefreshToken} (hi : FamilyInv db n) (hd : db.Decays db') (hrow : row ∈ db.refreshTokens)
    (hf : row.familyId = some f) (hs : db'.SessionRevoked f) : Dead db' f := by
  obtain ⟨f', hf', s, hmem, hsid⟩ := hi.owned row hrow
  obtain rfl : f = f' := Option.some.inj (hf.symm.trans hf')
  subst hsid
  exact hi.dead_of_session hd hmem hs

/-- **`revoke_session` revokes what it finds**, and says whether it found it. -/
theorem Call.revokeSession_dead {f : ℕ} (hq : Quiet w)
    (h : (Call.revokeSession f : Call E).Step w r w') :
    (r = .ok (.found false) ∧ ∀ s ∈ w.base.sessions, s.sessionId ≠ f) ∨
      (r = .ok (.found true) ∧ Dead w'.base f) := by
  obtain ⟨w₁, h₁, rfl⟩ := exec_close.mp h
  rw [← hq.clean]
  obtain ⟨b, w₂, h₂, rfl, rfl⟩ | ⟨x, h₂, rfl⟩ := exec_bind.mp h₁
  · obtain ⟨hd, ⟨hnone, hb, _⟩ | ⟨hsome, hb, hbase, _, hrevoked⟩⟩ := revokeSession_exec h₂
    · obtain rfl := Except.ok.inj hb
      refine .inl ⟨rfl, fun s hs hid => ?_⟩
      rw [← hid, hq.inv.getByFamilyId hs] at hnone
      cases hnone
    · obtain rfl := Except.ok.inj hb
      obtain ⟨s, hs⟩ := Option.isSome_iff_exists.mp hsome
      have hid : s.sessionId = f := by simpa using List.find?_some hs
      subst hid
      have hdead := hq.inv.dead_of_session hd (List.mem_of_find?_eq_some hs) hrevoked
      exact .inr ⟨rfl, hbase.symm ▸ hdead⟩
  · obtain ⟨_, ⟨_, hx, _⟩ | ⟨_, hx, _⟩⟩ := revokeSession_exec h₂
    · cases hx
    · cases hx

/-- **`revoke_all_sessions_for_user` revokes every session of the user**; the
ones it passes over were revoked. -/
theorem Call.revokeAllSessionsForUser_dead {userId : ℕ} {reason : RevokedReason}
    {actorUserId : Option ℕ} (hq : Quiet w)
    (h : (Call.revokeAllSessionsForUser userId reason actorUserId : Call E).Step w r w') :
    ∀ s ∈ w.base.sessions, s.userId = userId → Dead w'.base s.sessionId := by
  obtain ⟨w₁, h₁, rfl, hchange⟩ := h.change hq
  intro s hs huser
  by_cases hrevoked : s.status = .revoked
  · have hdead : Dead w₁.base s.sessionId := hchange.dead hq.clean ⟨s, hs, rfl, hrevoked⟩
    exact hdead
  · obtain ⟨_, w₂, h₂, _, rfl⟩ := exec_bind_inv h₁
      (fun _ _ h => (revokeAllSessionsForUser_exec h).1)
    obtain ⟨_, hd, hb, hend⟩ := revokeAllSessionsForUser_exec h₂
    rw [← hq.clean] at hs
    exact hb.symm ▸ hq.inv.dead_of_session hd hs (hend s hs huser hrevoked).2

theorem Ends.of_dead {s : UserSession} (hs : s ∈ w.base.sessions) (hactive : s.status = .active)
    (hd : Dead w'.base s.sessionId) : Ends c w w' s.sessionId := by
  obtain ⟨s', hs', hid, hrevoked⟩ := hd
  exact .revoked hs rfl hactive hs' hid hrevoked

/-- So either call ends the family of a session that it finds active. -/
theorem Ends.revokeSession {s : UserSession} (hq : Quiet w) (hs : s ∈ w.base.sessions)
    (hactive : s.status = .active) (h : (Call.revokeSession s.sessionId : Call E).Step w r w') :
    Ends (Call.revokeSession s.sessionId : Call E) w w' s.sessionId := by
  obtain ⟨_, hnone⟩ | ⟨_, hdead⟩ := Call.revokeSession_dead hq h
  · exact absurd rfl (hnone s hs)
  · exact .of_dead hs hactive hdead

theorem Ends.revokeAllSessionsForUser {s : UserSession} {reason : RevokedReason}
    {actorUserId : Option ℕ} (hq : Quiet w) (hs : s ∈ w.base.sessions)
    (hactive : s.status = .active)
    (h : (Call.revokeAllSessionsForUser s.userId reason actorUserId : Call E).Step w r w') :
    Ends (Call.revokeAllSessionsForUser s.userId reason actorUserId : Call E) w w' s.sessionId :=
  .of_dead hs hactive (Call.revokeAllSessionsForUser_dead hq h s hs rfl)

/-- **Every ending leaves the session revoked**, whichever of the two tables
its path writes first. -/
theorem Ends.dead {f : ℕ} (hq : Quiet w)
    (h : c.Step w r w') (he : Ends c w w' f) : Dead w'.base f := by
  obtain ⟨w₁, h₁, rfl⟩ := exec_close.mp h
  cases he with
  | @reuse token teamId row call found rotated family =>
    subst call
    rw [← hq.clean] at found
    obtain ⟨r', houtcome, -⟩ := Call.rotate_outcome h₁
    have hrot : ∀ row', w.cur.tokenByHash (E.sha256 token) = some row' →
        row'.rotatedAt ≠ none := by
      intro row' h' hnone
      obtain rfl : row = row' := Option.some.inj (found.symm.trans h')
      rw [hnone] at rotated
      cases rotated
    cases houtcome with
    | refused cur_eq base_eq not_rotated => exact absurd (not_rotated row found) (hrot row found)
    | failed x row' found' admitted => exact absurd admitted.not_rotated (hrot row' found')
    | exchanged tokens row' found' admitted => exact absurd admitted.not_rotated (hrot row' found')
    | ended row' found' base_eq decays dead =>
      obtain rfl : row = row' := Option.some.inj (found.symm.trans found')
      exact base_eq ▸ hq.inv.dead_of_sessionRevoked decays (tokenByHash_mem found) family
        (dead f family).2
  | @logout token row call found family =>
    subst call
    rw [← hq.clean] at found
    obtain ⟨_, w₂, h₂, _, rfl⟩ := exec_bind_inv h₁ (fun _ _ h => ⟨_, (revokeToken_exec h).1⟩)
    obtain ⟨_, hd, ⟨hnone, _⟩ | ⟨row', hrow', hb, hs⟩⟩ := revokeToken_exec h₂
    · rw [hnone] at found
      cases found
    · obtain rfl : row = row' := Option.some.inj (found.symm.trans hrow')
      exact hb ▸ hq.inv.dead_of_sessionRevoked hd (tokenByHash_mem found) family (hs f family)
  | @revoked s s' before was active after is revoked => exact ⟨s', after, is, revoked⟩

/-- Once a family is dead, presenting any of its tokens returns nothing. -/
theorem Dead.rotate {f : ℕ} {token : E.Token} {teamId : Option (Option ℕ)} {row : RefreshToken}
    (hq : Quiet w) (hd : Dead w.base f)
    (found : w.base.tokenByHash (E.sha256 token) = some row) (family : row.familyId = some f)
    (h : (Call.rotateRefreshToken token teamId).Step w r w') : r = .ok .none := by
  rw [← hq.clean] at hd found
  obtain ⟨w₁, h₁, rfl⟩ := exec_close.mp h
  obtain ⟨r₀, houtcome, hnone, -⟩ := Call.rotate_outcome h₁
  have hadm : ∀ row', w.cur.tokenByHash (E.sha256 token) = some row' →
      ¬ Admitted w row' := by
    intro row' found'
    obtain rfl : row = row' := Option.some.inj (found.symm.trans found')
    exact hq.inv.not_admitted hd family
  cases houtcome with
  | refused => exact hnone rfl
  | ended => exact hnone rfl
  | failed x row' found' admitted => exact absurd admitted (hadm row' found')
  | exchanged tokens row' found' admitted => exact absurd admitted (hadm row' found')

/-- **The refresh-token family invariant.** Along every run of the session
services from empty token and session tables: a family has at most one live
row; a rotated row is revoked and has a family; and after a call that ended a
family, every later rotation of any of its tokens returns `None`. -/
theorem refresh_family_invariant (E : Env) (w₀ w : World) (hfresh : Fresh w₀)
    (hrun : Call.Run E w₀ w) :
    (∀ f, (w.base.refreshTokens.filter
      fun r => r.familyId = some f ∧ r.revoked = false).length ≤ 1) ∧
    (∀ r ∈ w.base.refreshTokens, r.rotatedAt.isSome →
      r.revoked = true ∧ r.familyId.isSome) ∧
    (∀ (c : Call E) (r : Except Err (Reply E)) (f : ℕ) (w₁ w₂ : World), c.Step w r w₁ →
      Ends c w w₁ f → Call.Run E w₁ w₂ →
      ∀ token teamId row r' w₃, w₂.base.tokenByHash (E.sha256 token) = some row →
        row.familyId = some f → (Call.rotateRefreshToken token teamId).Step w₂ r' w₃ →
        r' = .ok .none) := by
  have hq := hfresh.quiet.run hrun
  refine ⟨fun f => hq.clean ▸ hq.inv.live_length f, fun r hr hrot => ?_, ?_⟩
  · rw [← hq.clean] at hr
    obtain ⟨f, hf, _⟩ := hq.inv.owned r hr
    exact ⟨hq.inv.rotated r hr hrot, by rw [hf]; rfl⟩
  · intro c r f w₁ w₂ hstep hends hrun₂ token teamId row r' w₃ found family hrotate
    have hq₁ := hq.step hstep
    have hdead := Dead.run hq₁ (hends.dead hq hstep) hrun₂
    exact Dead.rotate (hq₁.run hrun₂) hdead found family hrotate

/-- The invariant at work: after a login, a rotation and a replay of the first
token, neither of the family's two rows is live. -/
theorem refresh_family_invariant_replay :
    let E := Env.symbolic
    let user : User := { id := 7, status := .active }
    let db : Database := { Database.empty with users := [user] }
    let first : E.Token := (.hs256, { jti := some 2 })
    let w := Call.runAll [.generateTokens user .password none {},
      .rotateRefreshToken first none, .rotateRefreshToken first none] ⟨db, db, 0, 1, []⟩
    (∀ f, (w.base.refreshTokens.filter
      fun r => r.familyId = some f ∧ r.revoked = false).length ≤ 1) ∧
    w.base.refreshTokens.map (·.revoked) = [true, true] :=
  ⟨(refresh_family_invariant Env.symbolic _ _ ⟨rfl, rfl, rfl⟩ (Call.run_runAll _ .refl)).1,
    by decide⟩

end OmniAuth
