import OmniAuth.Txn.Discipline
import OmniAuth.Session.Steps
import OmniAuth.Session.Evolution

/-!
# The sweep of a suspension

`revoke_all_sessions_for_user` enumerates the sessions of one user in one
snapshot and ends them one after the other, each with two commits. Whatever
happens in between, when it returns every family whose session the first
snapshot showed as the user's has a revoked session.
-/

namespace OmniAuth

open Txn Prog

/-- The family has a session, and it is revoked. -/
def Ended (db : Database) (f : ℕ) : Prop :=
  ∃ s, db.getByFamilyId (some f) = some s ∧ s.status = .revoked

/-- The family has a session. -/
def Known (db : Database) (f : ℕ) : Prop := ∃ s, db.getByFamilyId (some f) = some s

namespace Database

variable {db db' v : Database} {f : ℕ}

/-- The family has a session of the user. -/
def owned (db : Database) (userId : ℕ) (f : Option ℕ) : Bool :=
  onSome (db.getByFamilyId f) fun s => s.userId = userId

theorem owned_iff {userId : ℕ} {f : Option ℕ} :
    db.owned userId f = true ↔ ∃ s, db.getByFamilyId f = some s ∧ s.userId = userId := by
  unfold owned
  cases db.getByFamilyId f with
  | none => simp [onSome]
  | some s => simp [onSome]

/-- Sessions found in `v` are found in `db`, evolved. -/
def Finds (v db : Database) : Prop :=
  ∀ f s, v.getByFamilyId f = some s → ∃ s', db.getByFamilyId f = some s' ∧ s.Evolves s'

theorem Evolves.finds (h : db.Evolves db') : db.Finds db' := fun _ _ hs => h.getByFamilyId hs

theorem Finds.trans (h₁ : v.Finds db) (h₂ : db.Finds db') : v.Finds db' := by
  intro f s hs
  obtain ⟨s₁, hs₁, hev₁⟩ := h₁ f s hs
  obtain ⟨s₂, hs₂, hev₂⟩ := h₂ f s₁ hs₁
  exact ⟨s₂, hs₂, hev₁.trans hev₂⟩

theorem getByFamilyId_congr (h : db.sessions = db'.sessions) (f : Option ℕ) :
    db.getByFamilyId f = db'.getByFamilyId f := by
  cases f with
  | none => rfl
  | some f => simp only [getByFamilyId, Option.bind_some, h]

theorem finds_of_eq (h : db.sessions = db'.sessions) : db.Finds db' := by
  intro f s hs
  rw [getByFamilyId_congr h] at hs
  exact ⟨s, hs, .refl s⟩

/-- What is over stays over. -/
theorem Finds.ended (h : db.Finds db') (hf : Ended db f) : Ended db' f := by
  obtain ⟨s, hs, hrev⟩ := hf
  obtain ⟨s', hs', hev⟩ := h _ _ hs
  exact ⟨s', hs', hev.revoked hrev⟩

theorem Finds.known (h : db.Finds db') (hf : Known db f) : Known db' f := by
  obtain ⟨s, hs⟩ := hf
  obtain ⟨s', hs', _⟩ := h _ _ hs
  exact ⟨s', hs'⟩

/-- Revoking the session that was found ends the family. -/
theorem ended_updateSession {s : UserSession} (hs : db.getByFamilyId (some f) = some s) (t : ℕ)
    (reason : RevokedReason) : Ended (db.updateSession s.id (UserSession.revoke t reason)) f := by
  have hcomp : ((fun s : UserSession => decide (s.sessionId = f)) ∘ fun s' : UserSession =>
      if s'.id = s.id then s'.revoke t reason else s') = fun s => decide (s.sessionId = f) := by
    funext s'
    by_cases h : s'.id = s.id <;> simp [h, UserSession.revoke]
  simp only [getByFamilyId, Option.bind_some] at hs
  refine ⟨s.revoke t reason, ?_, rfl⟩
  simp only [getByFamilyId, Option.bind_some, updateSession, List.find?_map, hcomp, hs]
  simp

end Database

/-! ## The automaton -/

/-- How far a sweep has come: the families known to be over in the committed
state, the ones that will be when the transaction commits, the last view, and
whether the transaction has left the sessions alone so far. -/
structure Sweep where
  ended : ℕ → Prop
  marked : ℕ → Prop
  view : Option Database
  clean : Prop

namespace Sweep

def onRead (v : Database) (q : Sweep) : Sweep :=
  { q with ended := fun f => q.ended f ∨ q.clean ∧ Ended v f, view := some v }

/-- The families whose session the last view showed under this id. -/
def shown (q : Sweep) (id f : ℕ) : Prop :=
  ∃ v s, q.view = some v ∧ v.getByFamilyId (some f) = some s ∧ s.id = id

def onWrite : Stmt → Sweep → Sweep
  | .revokeSession id _ _, q =>
      { q with marked := fun f => q.marked f ∨ q.clean ∧ q.shown id f, clean := False }
  | _, q => q

def onCommit (q : Sweep) : Sweep :=
  ⟨fun f => q.ended f ∨ q.marked f, fun _ => False, none, True⟩

def onRollback (q : Sweep) : Sweep := ⟨q.ended, fun _ => False, none, True⟩

end Sweep

/-- Statements of a status change. -/
def Stmt.Sweeps : Stmt → Prop
  | setStatus _ _ _ _ _ => True
  | stmt => stmt.Revokes

/-- A sweep that saw `v` first; of the other processes (`none`) nothing is
asked. -/
def sweeping (v : Database) : Discipline AuthSig (Option Sweep) where
  next q
    | .read v' => q.map (·.onRead v')
    | .wrote stmt _ _ => q.map (·.onWrite stmt)
    | .committed => q.map Sweep.onCommit
    | .rolledBack => q.map Sweep.onRollback
    | _ => q
  sees q
    | .read v' => q.isSome → v.Evolves v'
    | _ => True
  may q
    | .wrote stmt _ _ => q.isSome → stmt.Sweeps
    | _ => True

variable {v : Database}

/-- The sessions are written by `revokeSession` only. -/
theorem Stmt.Sweeps.sessions {stmt : Stmt} {seen : Database} {eff : Effect Database RowKey}
    (h : stmt.Sweeps) (hstmt : ∀ id t reason, stmt ≠ .revokeSession id t reason)
    (hden : denote stmt seen = .ok eff) (db : Database) :
    (eff.delta db).sessions = db.sessions := by
  cases stmt with
  | revokeSession id t reason => exact absurd rfl (hstmt id t reason)
  | setStatus userId status t reason actor =>
    obtain rfl := Except.ok.inj hden
    rfl
  | revokeFamily f =>
    obtain rfl := Except.ok.inj hden
    rfl
  | insertAuditEvent event =>
    obtain rfl := Except.ok.inj hden
    rfl
  | _ => exact h.elim

/-! ## What a sweep knows -/

section

variable {ι α : Type} [DecidableEq ι]

/-- What a process at state `q` of its sweep knows is so. -/
structure Sweep.Knows (q : Sweep) (db : Database) (c : Conn AuthSig) : Prop where
  ended : ∀ f, q.ended f → Ended db f
  marked : ∀ f, q.marked f → ∀ st, db.Evolves st → Ended (c.pend st) f
  clean : q.clean → ∀ st, (c.pend st).sessions = st.sessions
  view : q.clean → ∀ v, q.view = some v → v.Finds db

/-- **The sweep invariant.** -/
structure Sweeping (v : Database) (s : Sys AuthSig ι α) (g : ι → Option Sweep) : Prop where
  moves : Database.evolution.Pending s
  snapshots : Database.evolution.Snapshots s
  base : v.Evolves s.db
  first : ∀ i, (g i).isSome → ∀ v', (s.conn i).snap = some v' → v.Evolves v'
  knows : ∀ i q, g i = some q → q.Knows s.db (s.conn i)

/-- Others only add to what is known. -/
theorem Sweep.Knows.evolve {q : Sweep} {db db' : Database} {c : Conn AuthSig}
    (h : q.Knows db c) (hle : db.Evolves db') : q.Knows db' c where
  ended f hf := hle.finds.ended (h.ended f hf)
  marked f hf st hst := h.marked f hf st (hle.trans hst)
  clean := h.clean
  view hc v hv := (h.view hc v hv).trans hle.finds

variable {s : Sys AuthSig ι α} {g : ι → Option Sweep} {i : ι} {q : Sweep}

omit [DecidableEq ι] in
/-- What a clean transaction reads is committed. -/
theorem Sweeping.view_finds (h : Sweeping v s g) (hq : g i = some q) (hclean : q.clean) :
    (s.view i).Finds s.db := by
  have hsnap : ((s.conn i).snap.getD s.db).Evolves s.db := by
    cases hs : (s.conn i).snap with
    | none => exact .refl _
    | some v' => exact h.snapshots i v' hs
  have hkept : (s.view i).sessions = ((s.conn i).snap.getD s.db).sessions :=
    (h.knows i q hq).clean hclean _
  exact (Database.finds_of_eq hkept).trans hsnap.finds

omit [DecidableEq ι] in
theorem Sweeping.knows_after (h : Sweeping v s g) {ℓ : Label AuthSig} (hen : s.Enabled i ℓ)
    (hmay : (sweeping v).Vouched (g i) ℓ) (hok : ¬ ℓ.Failure) (hq : g i = some q) :
    ∃ q', (sweeping v).next (g i) ℓ = some q' ∧ q'.Knows (s.dbAfter i ℓ) (s.connAfter i ℓ) := by
  have hk := h.knows i q hq
  rw [hq]
  cases ℓ with
  | read v' =>
    obtain rfl : v' = s.view i := hen
    refine ⟨_, rfl, fun f hf => ?_, hk.marked, hk.clean, fun hc v' hv' => ?_⟩
    · rcases hf with hf | ⟨hc, hf⟩
      · exact hk.ended f hf
      · exact (h.view_finds hq hc).ended hf
    · obtain rfl := Option.some.inj hv'
      exact h.view_finds hq hc
  | wrote stmt seen eff =>
    obtain ⟨-, hden, -⟩ := hen
    have hsweeps : stmt.Sweeps := hmay (by rw [hq]; rfl)
    have hstep : ∀ st, (((s.conn i).pend st).Finds (eff.delta ((s.conn i).pend st))) := fun st =>
      (Database.evolves_denote hden _).finds
    by_cases hstmt : ∃ id t reason, stmt = .revokeSession id t reason
    · obtain ⟨id, t, reason, rfl⟩ := hstmt
      refine ⟨_, rfl, hk.ended, fun f hf st hst => ?_, False.elim, False.elim⟩
      rcases hf with hf | ⟨hc, v', s₀, hview, hs₀, rfl⟩
      · exact (hstep st).ended (hk.marked f hf st hst)
      · -- the row the view showed is the row that is found where the statement is executed
        obtain ⟨s₁, hs₁, hev⟩ := ((hk.view hc v' hview).trans hst.finds) _ _ hs₀
        rw [← Database.getByFamilyId_congr (hk.clean hc st)] at hs₁
        obtain rfl := Except.ok.inj hden
        rw [← hev.id]
        exact Database.ended_updateSession hs₁ t reason
    · have hsame : q.onWrite stmt = q := by
        cases stmt with
        | revokeSession id t reason => exact absurd ⟨id, t, reason, rfl⟩ hstmt
        | _ => rfl
      have hsessions := hsweeps.sessions (fun id t reason he => hstmt ⟨id, t, reason, he⟩) hden
      refine ⟨q, congrArg some hsame, hk.ended, fun f hf st hst => ?_, fun hc st => ?_, hk.view⟩
      · exact (hstep st).ended (hk.marked f hf st hst)
      · exact (hsessions _).trans (hk.clean hc st)
  | committed =>
    have hle : s.db.Evolves (s.latest i) := h.moves i s.db
    refine ⟨_, rfl, fun f hf => ?_, fun f hf => hf.elim, fun _ st => rfl, nofun⟩
    rcases hf with hf | hf
    · exact hle.finds.ended (hk.ended f hf)
    · exact hk.marked f hf s.db (.refl _)
  | rolledBack =>
    exact ⟨_, rfl, hk.ended, fun f hf => hf.elim, fun _ st => rfl, nofun⟩
  | commitFailed x => exact absurd trivial hok
  | commitLost x => exact absurd trivial hok
  | crashed x => exact absurd trivial hok
  | _ => exact ⟨q, rfl, hk⟩

/-- **Every step keeps the sweep invariant.** -/
theorem sweeping_keeps (v : Database) (post : ι → Except Err α → Option Sweep → Prop) :
    (sweeping v).Keeps (fun (_ : Sys AuthSig ι α) _ ℓ => True ∧ ¬ ℓ.Failure) post
      (Sweeping v) where
  sees := by
    intro s g i ℓ _ h hen _
    cases ℓ with
    | read v' =>
      intro hsome
      obtain rfl : v' = s.view i := hen
      refine Database.Evolves.trans ?_ (h.moves i _)
      cases hs : (s.conn i).snap with
      | none => exact h.base
      | some v' => exact h.first i hsome v' hs
    | _ => trivial
  after := by
    intro s g i ℓ p _ h hen hok _ hmay
    have hle := Database.evolution.after h.moves i ℓ p
    refine ⟨h.moves.after _ hen p, h.snapshots.after _ h.moves p, h.base.trans hle,
      fun j hj v' hv' => ?_, fun j q hj => ?_⟩
    · by_cases hji : j = i
      · subst hji
        rw [Function.update_self] at hj
        rw [Sys.after_conn_self] at hv'
        have hsome : (g j).isSome := by
          cases hg : g j with
          | none =>
            rw [hg] at hj
            cases ℓ <;> exact hj
          | some q => rfl
        cases ℓ with
        | read v'' =>
          obtain rfl := Option.some.inj hv'
          cases hs : (s.conn j).snap with
          | none => exact h.base
          | some v' => exact h.first j hsome v' hs
        | committed => cases hv'
        | rolledBack => cases hv'
        | commitFailed x => cases hv'
        | commitLost x => cases hv'
        | crashed x => cases hv'
        | _ => exact h.first j hsome v' hv'
      · rw [Function.update_of_ne hji] at hj
        rw [Sys.after_conn_of_ne _ _ _ hji] at hv'
        exact h.first j hj v' hv'
    · by_cases hji : j = i
      · subst hji
        rw [Function.update_self] at hj
        rw [Sys.after_conn_self]
        cases hg : g j with
        | none =>
          rw [hg] at hj
          cases ℓ <;> cases hj
        | some q₀ =>
          obtain ⟨q', hq', hknows⟩ := h.knows_after hen hmay hok.2 hg
          obtain rfl := Option.some.inj (hj.symm.trans hq')
          exact hknows
      · rw [Function.update_of_ne hji] at hj
        rw [Sys.after_conn_of_ne _ _ _ hji]
        exact (h.knows j q hj).evolve hle

end

/-! ## The program follows it -/

section

variable {α β : Type} {post : Except Err β → Option Sweep → Prop} {e : ℕ → Prop} {f : ℕ}

/-- Between two transactions: the families in `e` are over. -/
def Calm (e : ℕ → Prop) (q : Option Sweep) : Prop :=
  ∃ q', q = some q' ∧ q'.clean ∧ ∀ f, e f → q'.ended f

/-- In a transaction at whose end the family `f` is over as well. -/
def Closing (e : ℕ → Prop) (f : ℕ) (q : Option Sweep) : Prop :=
  ∃ q', q = some q' ∧ (∀ f, e f → q'.ended f) ∧ (q'.ended f ∨ q'.marked f)

theorem Calm.mono {e e' : ℕ → Prop} {q : Option Sweep} (h : Calm e q) (he : ∀ f, e' f → e f) :
    Calm e' q := by
  obtain ⟨q', hq, hc, hf⟩ := h
  exact ⟨q', hq, hc, fun f hf' => hf f (he f hf')⟩

theorem Calm.read {q : Option Sweep} {v' : Database} (h : Calm e q) :
    Calm (fun f => e f ∨ Ended v' f) ((sweeping v).next q (.read v')) := by
  obtain ⟨q', rfl, hc, hf⟩ := h
  refine ⟨_, rfl, hc, fun f hf' => ?_⟩
  exact hf'.imp (hf f) fun hf' => ⟨hc, hf'⟩

theorem Calm.committed {q : Option Sweep} (h : Calm e q) :
    Calm e ((sweeping v).next q .committed) := by
  obtain ⟨q', rfl, hc, hf⟩ := h
  exact ⟨_, rfl, trivial, fun f hf' => .inl (hf f hf')⟩

theorem Calm.rolledBack {q : Option Sweep} (h : Calm e q) :
    Calm e ((sweeping v).next q .rolledBack) := by
  obtain ⟨q', rfl, hc, hf⟩ := h
  exact ⟨_, rfl, trivial, hf⟩

theorem Closing.committed {q : Option Sweep} (h : Closing e f q) :
    Calm (fun f' => e f' ∨ f' = f) ((sweeping v).next q .committed) := by
  obtain ⟨q', rfl, hf, hthis⟩ := h
  refine ⟨_, rfl, trivial, fun f' hf' => ?_⟩
  rcases hf' with hf' | rfl
  · exact .inl (hf f' hf')
  · exact hthis

/-- Statements other than the revocation of a session change nothing here. -/
theorem sweeping_execute {T : Option Sweep → Prop} {stmt : Stmt} {k : Unit → Op β}
    {q : Option Sweep} (hstmt : stmt.Sweeps) (hsame : ∀ q : Sweep, q.onWrite stmt = q) (hq : T q)
    (hk : ∀ q, T q → (k ()).Follows (sweeping v) False post q) (hx : ∀ x q, post (.error x) q) :
    ((execute stmt : Op Unit).bind k).Follows (sweeping v) False post q := by
  have hnext : ∀ seen eff, (sweeping v).next q (.wrote stmt seen eff) = q := by
    intro seen eff
    cases q with
    | none => rfl
    | some q => exact congrArg some (hsame q)
  refine ⟨fun seen eff _ _ => ⟨fun _ => hstmt, ?_⟩, fun _ x _ _ => ⟨trivial, hx x _⟩, False.elim⟩
  rw [hnext]
  exact hk q hq

/-- `log_event`, when it commits, ends the transaction it is called in. -/
theorem logEvent_sweeping {T T' : Option Sweep → Prop} {event : AuditEvent} {k : Unit → Op β}
    {q : Option Sweep} (hT : ∀ q, T q → T' ((sweeping v).next q .committed)) (hq : T q)
    (hk : ∀ q, T' q → (k ()).Follows (sweeping v) False post q) (hx : ∀ x q, post (.error x) q) :
    ((logEvent event true).bind k).Follows (sweeping v) False post q := by
  simp only [logEvent, bind_eq, bind_bind]
  intro t _
  refine sweeping_execute (T := T) trivial (fun _ => rfl) hq (fun q hq => ?_) hx
  exact ⟨fun _ => ⟨trivial, hk _ (hT q hq)⟩, False.elim⟩

/-- **One session is ended**, where `v` knew its family. -/
theorem endSession_sweeping {userId : ℕ} {reason : RevokedReason} {actor : Option ℕ}
    {k : Unit → Op β} {q : Option Sweep} (hq : Calm e q)
    (hk : ∀ q, Calm (fun f' => e f' ∨ f' = f ∧ Known v f) q →
      (k ()).Follows (sweeping v) False post q)
    (hx : ∀ x q, post (.error x) q) :
    ((endSession userId (some f) reason actor).bind k).Follows (sweeping v) False post q := by
  simp only [endSession, revokeFamily, OmniAuth.revoke, bind_eq, bind_bind]
  refine sweeping_execute (T := Calm e) trivial (fun _ => rfl) hq (fun q hq => ?_) hx
  refine ⟨fun _ => ⟨trivial, ?_⟩, False.elim⟩
  -- the family is revoked and committed; the session is read in a new snapshot
  have hq' := hq.committed (v := v)
  generalize (sweeping v).next q .committed = q₁ at hq' ⊢
  refine ⟨fun v' hv' => ⟨trivial, ?_⟩, False.elim⟩
  have hread : Calm (fun f => e f ∨ Ended v' f) ((sweeping v).next q₁ (.read v')) := hq'.read
  obtain ⟨q', rfl, hclean, hended⟩ := hq'
  have hle : v.Evolves v' := hv' rfl
  have hclosing : ∀ q, Closing e f q → ((logSessionRevoked userId (some f) reason actor).bind
      k).Follows (sweeping v) False post q := fun q hq =>
    logEvent_sweeping (fun q hq => Closing.committed hq) hq
      (fun q hq => hk q (hq.mono fun f' hf' => hf'.imp_right And.left)) hx
  cases hs : v'.getByFamilyId (some f) with
  | none =>
    -- then `v` did not know the family
    have hunknown : ¬ Known v f := by
      intro hknown
      obtain ⟨s, hs'⟩ := hle.finds.known hknown
      rw [hs] at hs'
      cases hs'
    simp only [handle, hs]
    refine logEvent_sweeping (fun q hq => Calm.committed hq) hread (fun q hq => ?_) hx
    refine hk q (hq.mono fun f' hf' => ?_)
    exact hf'.elim .inl fun hf' => absurd hf'.2 hunknown
  | some session =>
    simp only [handle, hs]
    split
    · rename_i hrevoked
      obtain ⟨q₁, hq₁, _, hended₁⟩ := hread
      exact hclosing _ ⟨q₁, hq₁, fun f' hf' => hended₁ f' (.inl hf'),
        .inl (hended₁ f (.inr ⟨session, hs, hrevoked⟩))⟩
    · intro now _
      refine ⟨fun seen eff _ _ => ⟨fun _ => trivial, hclosing _ ?_⟩,
        fun _ x _ _ => ⟨trivial, hx x _⟩, False.elim⟩
      refine ⟨_, rfl, fun f' hf' => .inl (hended f' hf'), .inr (.inr ⟨hclean, ?_⟩)⟩
      exact ⟨v', session, rfl, hs, rfl⟩

theorem endSessions_sweeping {userId : ℕ} {reason : RevokedReason} {actor : Option ℕ}
    {k : Unit → Op β} (sessions : List UserSession) {e : ℕ → Prop} {q : Option Sweep}
    (hq : Calm e q)
    (hk : ∀ q, Calm (fun f => e f ∨ Known v f ∧ ∃ s ∈ sessions, s.sessionId = f) q →
      (k ()).Follows (sweeping v) False post q)
    (hx : ∀ x q, post (.error x) q) :
    ((endSessions userId reason actor sessions).bind k).Follows (sweeping v) False post q := by
  induction sessions generalizing e q with
  | nil =>
    refine hk q (hq.mono fun f hf => ?_)
    rcases hf with hf | ⟨_, s, hs, _⟩
    · exact hf
    · cases hs
  | cons s rest ih =>
    have hassoc : (endSessions userId reason actor (s :: rest)).bind k =
        (endSession userId (some s.sessionId) reason actor).bind fun _ =>
          (endSessions userId reason actor rest).bind k := bind_bind _ _ _
    rw [hassoc]
    refine endSession_sweeping hq (fun q hq => ?_) hx
    refine ih hq fun q hq => hk q (hq.mono fun f hf => ?_)
    rcases hf with hf | ⟨hknown, s', hs', rfl⟩
    · exact .inl (.inl hf)
    · rcases List.mem_cons.mp hs' with rfl | hs'
      · exact .inl (.inr ⟨rfl, hknown⟩)
      · exact .inr ⟨hknown, s', hs', rfl⟩

/-- **The sweep** of a user ends every family whose session `v` showed as
theirs. -/
theorem revokeAllSessionsForUser_sweeping {userId : ℕ} {reason : RevokedReason}
    {actor : Option ℕ} {k : ℕ → Op β} {q : Option Sweep} (hq : Calm (fun _ => False) q)
    (hk : ∀ n q, Calm (fun f => v.owned userId (some f) = true) q →
      (k n).Follows (sweeping v) False post q)
    (hx : ∀ x q, post (.error x) q) :
    ((revokeAllSessionsForUser userId reason actor).bind k).Follows (sweeping v) False post q := by
  simp only [revokeAllSessionsForUser, bind_eq, bind_bind]
  refine ⟨fun v' hv' => ⟨trivial, ?_⟩, False.elim⟩
  have hsome : v.Evolves v' := by
    obtain ⟨q', rfl, _⟩ := hq
    exact hv' rfl
  refine endSessions_sweeping _ hq.read (fun q hq => ?_) hx
  refine ⟨fun _ => ⟨trivial, hk _ _ (hq.committed.mono fun f hf => ?_)⟩, False.elim⟩
  obtain ⟨s, hs, huser⟩ := Database.owned_iff.mp hf
  obtain ⟨s', hs', hev⟩ := hsome.finds _ _ hs
  by_cases hrevoked : s'.status = .revoked
  · exact .inl (.inr ⟨s', hs', hrevoked⟩)
  · refine .inr ⟨⟨s, hs⟩, s', List.mem_filter.mpr ⟨?_, ?_⟩, ?_⟩
    · exact List.mem_of_find?_eq_some hs'
    · exact decide_eq_true ⟨hev.userId.trans huser, hrevoked⟩
    · have hfound : v'.sessions.find? (fun s => s.sessionId = f) = some s' := hs'
      simpa using List.find?_some hfound

end

end OmniAuth
