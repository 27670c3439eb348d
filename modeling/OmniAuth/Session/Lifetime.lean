import OmniAuth.Session.Family

/-!
# How long a session lives

`expires_at` slides on every rotation, so the bound on a session's life is
the timeout policy, and it holds only because of what the session row
remembers: its creation time is the login's and is never written again, its
activity time is that of the last rotation. Both are carried here along runs
of any length.
-/

namespace OmniAuth

open Txn Prog

variable {E : Env} {w w' : World} {c : Call E} {r : Except Err (Reply E)}

/-- The family of the refresh token a call returned. -/
def issuedFamily (E : Env) (r : Except Err (Reply E)) (db : Database) : Option ℕ :=
  match r with
  | .ok (.tokens _ refresh) => (db.tokenByHash (E.sha256 refresh)).bind (·.familyId)
  | _ => none

/-- The call returned tokens of the family `f`. -/
def Issues (E : Env) (r : Except Err (Reply E)) (db : Database) (f : ℕ) : Prop :=
  issuedFamily E r db = some f

theorem issues_iff {db : Database} {f : ℕ} :
    Issues E r db f ↔ ∃ access refresh row, r = .ok (.tokens access refresh) ∧
      db.tokenByHash (E.sha256 refresh) = some row ∧ row.familyId = some f := by
  constructor
  · intro h
    unfold Issues issuedFamily at h
    split at h
    · obtain ⟨row, hrow, hf⟩ := Option.bind_eq_some_iff.mp h
      exact ⟨_, _, row, rfl, hrow, hf⟩
    · cases h
  · rintro ⟨access, refresh, row, rfl, hrow, hf⟩
    exact Option.bind_eq_some_iff.mpr ⟨row, hrow, hf⟩

/-- Calls none of which returned tokens of the family `f`. -/
inductive RunWithout (E : Env) (f : ℕ) (w : World) : World → Prop
  | refl : RunWithout E f w w
  | tail {w₁ w₂ : World} {c : Call E} {r} : RunWithout E f w w₁ → c.Step w₁ r w₂ →
      ¬ Issues E r w₂.base f → RunWithout E f w w₂

theorem RunWithout.run {f : ℕ} (h : RunWithout E f w w') : Call.Run E w w' := by
  induction h with
  | refl => exact .refl
  | tail _ hstep _ ih => exact ih.tail hstep

theorem Call.Run.trans {w₁ : World} (h : Call.Run E w w₁) (h' : Call.Run E w₁ w') :
    Call.Run E w w' := by
  induction h' with
  | refl => exact h
  | tail _ hstep ih => exact ih.tail hstep

theorem find?_append_last {α : Type} {l : List α} {p : α → Bool} {a : α}
    (hl : ∀ b ∈ l, p b = false) (ha : p a = true) : (l ++ [a]).find? p = some a := by
  rw [List.find?_append, List.find?_eq_none.mpr fun b hb => by simp [hl b hb]]
  simp [ha]

/-- The tokens a login returned are of the family it made. -/
theorem LoginEffect.issues {userId : ℕ} {tokens : E.Token × E.Token} (L : LoginEffect userId w w')
    (reply : r = .ok (.tokens tokens.1 tokens.2)) (hash : L.row.tokenHash = E.sha256 tokens.2) :
    Issues E r w'.base L.family := by
  have hlast : ((w.cur.updateUser userId L.update).insertToken L.row).tokenByHash
      (E.sha256 tokens.2) = some L.row :=
    find?_append_last (fun r hr => by simpa [← hash] using (L.newRow.unique r hr).2) (by simp [hash])
  rcases L.evicts.tokenByHash (E.sha256 tokens.2) with ⟨hnone, _⟩ | ⟨r₁, r₂, h₁, h₂, hd⟩
  · rw [hnone] at hlast
    cases hlast
  · obtain rfl := Option.some.inj (hlast.symm.trans h₁)
    refine issues_iff.mpr ⟨_, _, r₂, reply, ?_, hd.familyId.trans L.newRow.familyId_eq⟩
    rw [L.base_eq, L.cur_eq]
    exact h₂

/-- The tokens a rotation returned are of the family it worked in. -/
theorem RotationEffect.issues {row : RefreshToken} {tokens : E.Token × E.Token}
    (R : RotationEffect row w w') (reply : r = .ok (.tokens tokens.1 tokens.2))
    (hash : R.row.tokenHash = E.sha256 tokens.2) : Issues E r w'.base R.family := by
  refine issues_iff.mpr ⟨_, _, R.row, reply, ?_, R.newRow.familyId_eq⟩
  have hold : ∀ r ∈ (w.cur.updateTokens [row.id]
      (RefreshToken.rotate R.rotatedAt R.backfill)).refreshTokens,
      decide (r.tokenHash = E.sha256 tokens.2) = false := by
    refine Database.forall_updateTokens.mpr fun r hr => ?_
    have hne : decide (r.tokenHash = E.sha256 tokens.2) = false := by
      simpa [← hash] using (R.newRow.unique r hr).2
    exact ⟨fun _ => hne, fun _ => hne⟩
  have hlast : ((w.cur.updateTokens [row.id]
      (RefreshToken.rotate R.rotatedAt R.backfill)).insertToken R.row).tokenByHash
      (E.sha256 tokens.2) = some R.row := find?_append_last hold (by simp [hash])
  rw [R.base_eq]
  rcases R.sessions with ⟨_, _, _, _, _, _, _, hcur⟩ | ⟨_, _, _, _, _, _, hcur⟩
  · rw [hcur]
    exact hlast
  · rw [hcur]
    exact hlast

theorem Issues.unique {db : Database} {f f' : ℕ} (h : Issues E r db f) (h' : Issues E r db f') :
    f = f' :=
  Option.some.inj (h.symm.trans h')

/-! ## What one call does to the session rows -/

/-- **Session rows persist.** A call leaves every session's creation time
alone, and its activity time too unless it issued for that family. -/
theorem Change.session_after (hq : Quiet w) (h : Change E c w r w') {s : UserSession}
    (hs : s ∈ w.base.sessions) :
    ∃ s' ∈ w'.base.sessions, s'.sessionId = s.sessionId ∧ s'.createdAt = s.createdAt ∧
      (s'.lastActivityAt = s.lastActivityAt ∨ Issues E r w'.base s.sessionId) := by
  rw [← hq.clean] at hs
  cases h with
  | nothing reply base_eq => exact ⟨s, by rwa [base_eq, ← hq.clean], rfl, rfl, .inl rfl⟩
  | revocations reply decays =>
    obtain ⟨s', hs', hd⟩ := decays.session_after hs
    exact ⟨s', hs', hd.sessionId, hd.createdAt, .inl hd.lastActivityAt⟩
  | login call tokens reply userId L =>
    obtain ⟨s', hs', hd⟩ := L.evicts.session_after hs
    rw [L.base_eq, L.cur_eq]
    exact ⟨s', List.mem_append_left _ hs', hd.sessionId, hd.createdAt, .inl hd.lastActivityAt⟩
  | rotation call tokens reply row mem admitted policy R hash =>
    have hissues := R.issues reply hash
    rw [R.base_eq] at hissues ⊢
    obtain ⟨hfam, _⟩ := hq.inv.rotation_family mem R
    rcases R.sessions with ⟨s₁, t, e, hs₁, _, _, _, hcur⟩ | ⟨s₁, _, _, _, _, _, hcur⟩
    · rw [hcur] at hissues ⊢
      refine ⟨_, List.mem_map_of_mem hs, ?_⟩
      by_cases hid : s.id = s₁.id
      · -- the touched session is the one of the family the rotation issued for
        have hmem : s₁ ∈ w.cur.sessions := by
          rw [hfam] at hs₁
          exact List.mem_of_find?_eq_some hs₁
        obtain rfl := hq.inv.session_eq_of_id hs hmem hid
        have hsf : s.sessionId = R.family := by
          rw [hfam] at hs₁
          simpa using List.find?_some hs₁
        rw [if_pos rfl]
        exact ⟨rfl, rfl, .inr (hsf ▸ hissues)⟩
      · rw [if_neg hid]
        exact ⟨rfl, rfl, .inl rfl⟩
    · rw [hcur]
      exact ⟨s, List.mem_append_left _ hs, rfl, rfl, .inl rfl⟩

/-- A call that issued was a login that made the family, or a rotation in it. -/
theorem Change.session_issued (hq : Quiet w) (h : Change E c w r w') {f : ℕ}
    (hissues : Issues E r w'.base f) :
    ∃ s ∈ w'.base.sessions, s.sessionId = f ∧
      w.now ≤ s.lastActivityAt ∧ s.lastActivityAt ≤ w'.now := by
  cases h with
  | nothing reply =>
    obtain ⟨a, t, _, hr, _⟩ := issues_iff.mp hissues
    exact absurd hr (reply a t)
  | revocations reply =>
    obtain ⟨a, t, _, hr, _⟩ := issues_iff.mp hissues
    exact absurd hr (reply a t)
  | login call tokens reply userId L hash =>
    obtain rfl := hissues.unique (L.issues reply hash)
    refine ⟨L.session, ?_, L.sessionId_eq, ?_, ?_⟩
    · rw [L.base_eq, L.cur_eq]
      simp [Database.insertSession]
    · exact L.session_activity ▸ L.session_after
    · exact L.session_activity ▸ L.session_before
  | rotation call tokens reply row mem admitted policy R hash =>
    obtain rfl := hissues.unique (R.issues reply hash)
    obtain ⟨hfam, _⟩ := hq.inv.rotation_family mem R
    obtain ⟨f, hf, s₀, hs₀, hsf⟩ := hq.inv.owned row mem
    obtain rfl : R.family = f := Option.some.inj (hfam.symm.trans hf)
    rw [R.base_eq]
    rcases R.sessions with ⟨s, t, e, hs, _, hlo, hhi, hcur⟩ | ⟨s, hnone, _⟩
    · rw [hfam] at hs
      have hsf' : s.sessionId = R.family := by simpa using List.find?_some hs
      refine ⟨s.touch t e, ?_, hsf', hlo, hhi⟩
      rw [hcur]
      refine List.mem_map.mpr ⟨s, List.mem_of_find?_eq_some hs, if_pos rfl⟩
    · rw [hfam, ← hsf, hq.inv.getByFamilyId hs₀] at hnone
      cases hnone

/-- Every session row was there before the call, or the call was the login that
made it. -/
theorem Change.session_before (hq : Quiet w) (h : Change E c w r w') {s' : UserSession}
    (hs' : s' ∈ w'.base.sessions) :
    (∃ s ∈ w.base.sessions, s.sessionId = s'.sessionId) ∨
    (Issues E r w'.base s'.sessionId ∧ ∃ user authMethod idpOrgId client,
      c = .generateTokens user authMethod idpOrgId client) := by
  rw [← hq.clean]
  cases h with
  | nothing reply base_eq => exact .inl ⟨s', hq.clean ▸ base_eq ▸ hs', rfl⟩
  | revocations reply decays =>
    obtain ⟨s, hs, hd⟩ := decays.session_before hs'
    exact .inl ⟨s, hs, hd.sessionId.symm⟩
  | login call tokens reply userId L hash =>
    have hissues := L.issues reply hash
    rw [L.base_eq, L.cur_eq] at hs'
    rcases List.mem_append.mp hs' with hs' | hs'
    · obtain ⟨s, hs, hd⟩ := L.evicts.session_before hs'
      exact .inl ⟨s, hs, hd.sessionId.symm⟩
    · obtain rfl := List.mem_singleton.mp hs'
      exact .inr ⟨L.sessionId_eq ▸ hissues, call⟩
  | rotation call tokens reply row mem admitted policy R hash =>
    obtain ⟨hfam, _⟩ := hq.inv.rotation_family mem R
    obtain ⟨f, hf, s₀, hs₀, hsf⟩ := hq.inv.owned row mem
    rw [R.base_eq] at hs'
    rcases R.sessions with ⟨s, t, e, hs, _, hlo, hhi, hcur⟩ | ⟨s, hnone, _⟩
    · rw [hcur] at hs'
      obtain ⟨s₂, hs₂, rfl⟩ := List.mem_map.mp hs'
      refine .inl ⟨s₂, hs₂, ?_⟩
      by_cases h : s₂.id = s.id <;> simp [h, UserSession.touch]
    · rw [hf, ← hsf, hq.inv.getByFamilyId hs₀] at hnone
      cases hnone

/-- A login writes the session of the family it issued for, and stamps it with
the clock it read. -/
theorem Change.session_login (h : Change E c w r w') {f : ℕ} (hissues : Issues E r w'.base f)
    (hcall : ∃ user authMethod idpOrgId client,
      c = .generateTokens user authMethod idpOrgId client) :
    ∃ s ∈ w'.base.sessions, s.sessionId = f ∧ w.now ≤ s.createdAt ∧ s.createdAt ≤ w'.now := by
  cases h with
  | nothing reply =>
    obtain ⟨a, t, _, hr, _⟩ := issues_iff.mp hissues
    exact absurd hr (reply a t)
  | revocations reply =>
    obtain ⟨a, t, _, hr, _⟩ := issues_iff.mp hissues
    exact absurd hr (reply a t)
  | login call tokens reply userId L hash =>
    obtain rfl := hissues.unique (L.issues reply hash)
    refine ⟨L.session, ?_, L.sessionId_eq, L.session_after, L.session_before⟩
    rw [L.base_eq, L.cur_eq]
    simp [Database.insertSession]
  | rotation call =>
    obtain ⟨_, _, rfl⟩ := call
    obtain ⟨_, _, _, _, hcall⟩ := hcall
    cases hcall

/-! ## Along runs -/

/-- A session row as an earlier state left it, seen from `s`. -/
structure SameSession (s s' : UserSession) : Prop where
  sessionId : s'.sessionId = s.sessionId
  createdAt : s'.createdAt = s.createdAt

/-- No run rewrites the creation time of a session. -/
theorem Call.Run.session_after (hq : Quiet w) (h : Call.Run E w w') {s : UserSession}
    (hs : s ∈ w.base.sessions) : ∃ s' ∈ w'.base.sessions, SameSession s s' := by
  induction h with
  | refl => exact ⟨s, hs, rfl, rfl⟩
  | tail hrun hstep ih =>
    obtain ⟨s₁, hs₁, hsame⟩ := ih
    obtain ⟨_, _, rfl, hc⟩ := hstep.change (hq.run hrun)
    obtain ⟨s₂, hs₂, hid, hcr, _⟩ := hc.session_after (hq.run hrun) hs₁
    exact ⟨s₂, hs₂, hid.trans hsame.sessionId, hcr.trans hsame.createdAt⟩

/-- A run that issues nothing for a family leaves its activity time alone. -/
theorem RunWithout.session_after {f : ℕ} (hq : Quiet w) (h : RunWithout E f w w')
    {s : UserSession} (hs : s ∈ w.base.sessions) (hf : s.sessionId = f) :
    ∃ s' ∈ w'.base.sessions, SameSession s s' ∧ s'.lastActivityAt = s.lastActivityAt := by
  induction h with
  | refl => exact ⟨s, hs, ⟨rfl, rfl⟩, rfl⟩
  | tail hrun hstep hnot ih =>
    obtain ⟨s₁, hs₁, hsame, hact⟩ := ih
    have hq₁ := hq.run hrun.run
    obtain ⟨_, _, rfl, hc⟩ := hstep.change hq₁
    obtain ⟨s₂, hs₂, hid, hcr, hact₂ | hissues⟩ := hc.session_after hq₁ hs₁
    · exact ⟨s₂, hs₂, ⟨hid.trans hsame.sessionId, hcr.trans hsame.createdAt⟩, hact₂.trans hact⟩
    · rw [hsame.sessionId, hf] at hissues
      exact absurd hissues hnot

/-- In a run to `w`, the login between `wl` and `wl'` made the family `f`. -/
structure LoginOf (E : Env) (f : ℕ) (w₀ wl wl' w : World) : Prop where
  before : Call.Run E w₀ wl
  login : ∃ user authMethod idpOrgId client r,
    (Call.generateTokens user authMethod idpOrgId client).Step wl r wl' ∧ Issues E r wl'.base f
  after : Call.Run E wl' w

/-- In a run to `w`, the call between `wi` and `wi'` was the last that returned
tokens of the family `f`. -/
structure LastIssue (E : Env) (f : ℕ) (w₀ wi wi' w : World) : Prop where
  before : Call.Run E w₀ wi
  issue : ∃ (c : Call E) (r : Except Err (Reply E)), c.Step wi r wi' ∧ Issues E r wi'.base f
  after : RunWithout E f wi' w

/-- Every session comes from a login. -/
theorem Fresh.login {w₀ : World} (hfresh : Fresh w₀) (h : Call.Run E w₀ w) {s : UserSession}
    (hs : s ∈ w.base.sessions) : ∃ wl wl', LoginOf E s.sessionId w₀ wl wl' w := by
  induction h generalizing s with
  | refl =>
    rw [hfresh.sessions] at hs
    cases hs
  | @tail w₁ w₂ c r hrun hstep ih =>
    have hq₁ := hfresh.quiet.run hrun
    obtain ⟨w₃, _, rfl, hc⟩ := hstep.change hq₁
    rcases hc.session_before hq₁ hs with ⟨s₁, hs₁, hid⟩ | ⟨hissues, _, _, _, _, rfl⟩
    · obtain ⟨wl, wl', hl⟩ := ih hs₁
      rw [hid] at hl
      exact ⟨wl, wl', hl.before, hl.login, hl.after.tail hstep⟩
    · exact ⟨w₁, _, hrun, ⟨_, _, _, _, r, hstep, hissues⟩, .refl⟩

/-- A family that was issued for has a last time it was issued for. -/
theorem LoginOf.last {f : ℕ} {w₀ wl wl' : World} (h : LoginOf E f w₀ wl wl' w) :
    ∃ wi wi', LastIssue E f w₀ wi wi' w := by
  obtain ⟨hbefore, ⟨_, _, _, _, rl, hstepl, hissues⟩, hafter⟩ := h
  induction hafter with
  | refl => exact ⟨wl, wl', hbefore, ⟨_, rl, hstepl, hissues⟩, .refl⟩
  | @tail w₁ w₂ c r hrun hstep ih =>
    by_cases hthis : Issues E r w₂.base f
    · exact ⟨w₁, w₂, (hbefore.tail hstepl).trans hrun, ⟨c, r, hstep, hthis⟩, .refl⟩
    · obtain ⟨wi, wi', hi⟩ := ih
      exact ⟨wi, wi', hi.before, hi.issue, hi.after.tail hstep hthis⟩

/-- A session within policy at `t` is inside both limits. -/
theorem timeoutReason_none {s : UserSession} {t : ℕ} (h : timeoutReason E s t = none) :
    t ≤ s.createdAt + seconds E.sessionAbsoluteTimeoutSeconds ∧
    t ≤ s.lastActivityAt + seconds E.sessionIdleTimeoutSeconds := by
  unfold timeoutReason at h
  split at h
  · cases h
  split at h
  · cases h
  omega

/-- A rotation that returns tokens evaluated the policy of the family's
session, once. -/
theorem Change.within (hq : Quiet w) (h : Change E c w r w') {f : ℕ}
    (hissues : Issues E r w'.base f) (hcall : ∃ token teamId, c = .rotateRefreshToken token teamId) :
    ∃ s ∈ w.base.sessions, s.sessionId = f ∧ WithinPolicy E w w' s := by
  cases h with
  | nothing reply =>
    obtain ⟨a, t, _, hr, _⟩ := issues_iff.mp hissues
    exact absurd hr (reply a t)
  | revocations reply =>
    obtain ⟨a, t, _, hr, _⟩ := issues_iff.mp hissues
    exact absurd hr (reply a t)
  | login call =>
    obtain ⟨_, _, _, _, rfl⟩ := call
    obtain ⟨_, _, hcall⟩ := hcall
    cases hcall
  | rotation call tokens reply row mem admitted policy R hash =>
    obtain rfl := hissues.unique (R.issues reply hash)
    obtain ⟨hfam, _⟩ := hq.inv.rotation_family mem R
    obtain ⟨f, hf, s, hs, hsf⟩ := hq.inv.owned row mem
    have hown : R.family = f := Option.some.inj (hfam.symm.trans hf)
    have hget : w.cur.getByFamilyId row.familyId = some s := by
      rw [hf, ← hsf]
      exact hq.inv.getByFamilyId hs
    exact ⟨s, hq.clean ▸ hs, hsf.trans hown.symm, policy s hget⟩

theorem FamilyInv.session_unique {db : Database} {n : ℕ} (hi : FamilyInv db n)
    {s s' : UserSession} (hs : s ∈ db.sessions) (hs' : s' ∈ db.sessions)
    (h : s.sessionId = s'.sessionId) : s = s' := by
  have hfound := hi.getByFamilyId hs
  rw [h, hi.getByFamilyId hs'] at hfound
  exact (Option.some.inj hfound).symm

/-- **The session lifetime bound.** When a rotation returns tokens for the
family `f`, it evaluated the timeout policy once, at `t`, and `t` is within
the absolute limit of the creation time the family's login recorded, and
within the idle limit of the time the last login or rotation of the family
recorded; there are such a login and such a last call. -/
theorem session_lifetime_bound (E : Env) (w₀ w w' : World) (token : E.Token)
    (teamId : Option (Option ℕ)) (r : Except Err (Reply E)) (f : ℕ) (hfresh : Fresh w₀)
    (hrun : Call.Run E w₀ w) (hstep : (Call.rotateRefreshToken token teamId).Step w r w')
    (hissues : Issues E r w'.base f) :
    ∃ t, w.now ≤ t ∧ t ≤ w'.now ∧ w'.log = w.log ++ [.policyEvaluated f t] ∧
      (∃ wl wl', LoginOf E f w₀ wl wl' w) ∧
      (∀ wl wl', LoginOf E f w₀ wl wl' w → ∃ s ∈ wl'.base.sessions, s.sessionId = f ∧
        wl.now ≤ s.createdAt ∧ s.createdAt ≤ wl'.now ∧
        t ≤ s.createdAt + seconds E.sessionAbsoluteTimeoutSeconds) ∧
      (∃ wi wi', LastIssue E f w₀ wi wi' w) ∧
      (∀ wi wi', LastIssue E f w₀ wi wi' w → ∃ s ∈ wi'.base.sessions, s.sessionId = f ∧
        wi.now ≤ s.lastActivityAt ∧ s.lastActivityAt ≤ wi'.now ∧
        t ≤ s.lastActivityAt + seconds E.sessionIdleTimeoutSeconds) := by
  have hq := hfresh.quiet.run hrun
  obtain ⟨w₁, _, rfl, hc⟩ := hstep.change hq
  obtain ⟨s, hs, hsf, t, hlo, hhi, hpolicy, hlog⟩ := hc.within hq hissues ⟨_, _, rfl⟩
  obtain ⟨habs, hidle⟩ := timeoutReason_none hpolicy
  have hlogin : ∃ wl wl', LoginOf E f w₀ wl wl' w := hsf ▸ hfresh.login hrun hs
  obtain ⟨wl₀, wl₀', hl₀⟩ := hlogin
  refine ⟨t, hlo, hhi, hsf ▸ hlog, ⟨wl₀, wl₀', hl₀⟩, ?_, hl₀.last, ?_⟩
  · rintro wl wl' ⟨hbefore, ⟨_, _, _, _, rl, hlstep, hlissues⟩, hafter⟩
    have hql := hfresh.quiet.run hbefore
    have hql' := hql.step hlstep
    obtain ⟨_, _, rfl, hlc⟩ := hlstep.change hql
    obtain ⟨s₁, hs₁, hf₁, hlo₁, hhi₁⟩ := hlc.session_login hlissues ⟨_, _, _, _, rfl⟩
    obtain ⟨s₂, hs₂, hsame⟩ := hafter.session_after hql' hs₁
    -- the row the rotation read is the one the login wrote
    obtain rfl : s = s₂ := hq.inv.session_unique (hq.clean ▸ hs) (hq.clean ▸ hs₂)
      (by rw [hsf, hsame.sessionId, hf₁])
    have hcreated := hsame.createdAt
    exact ⟨s₁, hs₁, hf₁, hlo₁, hhi₁, by omega⟩
  · rintro wi wi' ⟨hbefore, ⟨_, ri, histep, hiissues⟩, hafter⟩
    have hqi := hfresh.quiet.run hbefore
    have hqi' := hqi.step histep
    obtain ⟨_, _, rfl, hic⟩ := histep.change hqi
    obtain ⟨s₁, hs₁, hf₁, hlo₁, hhi₁⟩ := hic.session_issued hqi hiissues
    obtain ⟨s₂, hs₂, hsame, hact⟩ := hafter.session_after hqi' hs₁ hf₁
    obtain rfl : s = s₂ := hq.inv.session_unique (hq.clean ▸ hs) (hq.clean ▸ hs₂)
      (by rw [hsf, hsame.sessionId, hf₁])
    exact ⟨s₁, hs₁, hf₁, hlo₁, hhi₁, by omega⟩

/-- One user, nobody logged in. -/
def oneUser : World :=
  let db : Database := { Database.empty with users := [{ id := 7, status := .active }] }
  ⟨db, db, 5, 1, []⟩

/-- Of that, after a login and one rotation. -/
def afterRotation : World :=
  Call.runAll (E := Env.symbolic) [.generateTokens { id := 7, status := .active } .password none {},
    .rotateRefreshToken (.hs256, { jti := some 2 }) none] oneUser

/-- The rotation of the token the first one returned. -/
def secondRotation : Except Err (Reply Env.symbolic) × World :=
  (Call.rotateRefreshToken (.hs256, { jti := some 7 }) none).op.close.run afterRotation

/-- The bound at work, on a login and two rotations. -/
theorem session_lifetime_bound_rotated :
    Issues Env.symbolic secondRotation.1 secondRotation.2.base 3 ∧
    ∃ t, afterRotation.now ≤ t ∧ t ≤ secondRotation.2.now ∧
      secondRotation.2.log = afterRotation.log ++ [.policyEvaluated 3 t] ∧
      ∃ wl wl', LoginOf Env.symbolic 3 oneUser wl wl' afterRotation := by
  have hissues : Issues Env.symbolic secondRotation.1 secondRotation.2.base 3 := by
    unfold Issues
    decide
  have hrun : Call.Run Env.symbolic oneUser afterRotation := Call.run_runAll _ .refl
  have hstep : (Call.rotateRefreshToken (E := Env.symbolic) (.hs256, { jti := some 7 }) none).Step
      afterRotation secondRotation.1 secondRotation.2 := exec_run _ afterRotation
  obtain ⟨t, hlo, hhi, hlog, hlogin, _⟩ := session_lifetime_bound Env.symbolic oneUser
    afterRotation secondRotation.2 (.hs256, { jti := some 7 }) none secondRotation.1 3
    ⟨rfl, rfl, rfl⟩ hrun hstep hissues
  exact ⟨hissues, t, hlo, hhi, hlog, hlogin⟩

end OmniAuth
