import OmniAuth.Session.Lifetime
import OmniAuth.Session.Steps
import OmniAuth.Txn.Rows

/-!
# The two rows of a login

`generate_tokens` writes the refresh token of a login, makes room for its session, writes
the session and commits. Making room commits too: `_revoke_family` ends the transaction of
the login while only the token is in it. From then to the last commit the token is stored
and its session is not, and a login that fails there leaves the one without the other.
-/

namespace OmniAuth

open Txn Prog

/-- The families of the refresh tokens and of the sessions, row by row. -/
def Database.families (db : Database) : List (Option ℕ) × List ℕ :=
  (db.refreshTokens.map (·.familyId), db.sessions.map (·.sessionId))

/-- Of each family named from `first` on, a token is stored if and only if its session
is. -/
def Paired (first : ℕ) (db : Database) : Prop :=
  ∀ f, first ≤ f →
    ((∃ r ∈ db.refreshTokens, r.familyId = some f) ↔ ∃ s ∈ db.sessions, s.sessionId = f)

/-- No row names a family from `next` on. -/
structure FamiliesBelow (next : ℕ) (db : Database) : Prop where
  tokens : ∀ r ∈ db.refreshTokens, ∀ f, r.familyId = some f → f < next
  sessions : ∀ s ∈ db.sessions, s.sessionId < next

theorem mem_families_tokens {db : Database} {f : ℕ} :
    some f ∈ db.families.1 ↔ ∃ r ∈ db.refreshTokens, r.familyId = some f := by
  simp [Database.families]

theorem mem_families_sessions {db : Database} {f : ℕ} :
    f ∈ db.families.2 ↔ ∃ s ∈ db.sessions, s.sessionId = f := by
  simp [Database.families]

/-! ## The automaton -/

/-- The rows of a login: which of the two are in its open transaction, and which are
committed. -/
inductive LoginRows
  | none
  | token (familyId : ℕ)
  | both (familyId : ℕ)
  | orphan (familyId : ℕ)
  | late (familyId : ℕ)
  | done (familyId : ℕ)

namespace LoginRows

def onCommit : LoginRows → LoginRows
  | token f => orphan f
  | both f | late f => done f
  | q => q

def onRollback : LoginRows → LoginRows
  | token _ | both _ => none
  | late f => orphan f
  | q => q

def onWrite : Stmt → LoginRows → LoginRows
  | .insertRefreshToken row, q => row.familyId.elim q token
  | .insertSession _, token f => both f
  | .insertSession _, orphan f => late f
  | _, q => q

/-- What the open transaction adds to the two lists of families. -/
def added : LoginRows → List (Option ℕ) × List ℕ
  | token f => ([some f], [])
  | both f => ([some f], [f])
  | late f => ([], [f])
  | none | orphan _ | done _ => ([], [])

/-- The family of the login, once it has a row. -/
def family : LoginRows → Option ℕ
  | none => Option.none
  | token f | both f | orphan f | late f | done f => some f

/-- Its token is committed. -/
def TokenStored (q : LoginRows) (f : ℕ) : Prop := q = orphan f ∨ q = late f ∨ q = done f

/-- Its session is committed. -/
def SessionStored (q : LoginRows) (f : ℕ) : Prop := q = done f

/-- Its token is committed and its session is not. -/
def Alone (q : LoginRows) (f : ℕ) : Prop := q = orphan f ∨ q = late f

theorem alone_iff {q : LoginRows} {f : ℕ} : q.Alone f ↔ q.TokenStored f ∧ ¬ q.SessionStored f := by
  cases q <;> simp [Alone, TokenStored, SessionStored]

end LoginRows

/-- How far a login has come: the identifiers it has drawn, whether it has revoked a
family, and its rows. -/
structure LoginProgress where
  drawn : ℕ → Prop
  evicts : Prop
  rows : LoginRows

namespace LoginProgress

def start : LoginProgress := ⟨fun _ => False, False, .none⟩

def onWrite (stmt : Stmt) (q : LoginProgress) : LoginProgress :=
  { q with evicts := q.evicts ∨ ∃ f, stmt = .revokeFamily f, rows := q.rows.onWrite stmt }

/-- The statements of a login, and when each is issued. -/
def Issues (q : LoginProgress) : Stmt → Prop
  | .insertRefreshToken row => q.rows = .none ∧ ∃ f, row.familyId = some f ∧ q.drawn f
  | .insertSession row => q.rows = .token row.sessionId ∨ q.rows = .orphan row.sessionId
  | .revokeFamily _ => ∃ f, q.rows = .token f ∨ q.rows = .orphan f
  | .touchLogin .. | .lockActiveSessions _ | .revokeSession .. | .insertAuditEvent _ => True
  | _ => False

/-- The rows are these, and the login has drawn the name of their family. -/
def At (rows : LoginRows) (f : ℕ) (q : LoginProgress) : Prop := q.rows = rows ∧ q.drawn f

end LoginProgress

/-- The step revokes a family. -/
def Evicting (ℓ : Label AuthSig) : Prop := ∃ f seen eff, ℓ = .wrote (.revokeFamily f) seen eff

/-- A login; with `R` it never has to revoke a family. -/
def pairing (R : Prop) : Discipline AuthSig LoginProgress where
  next q
    | .drew n => { q with drawn := fun x => q.drawn x ∨ x = n }
    | .wrote stmt _ _ => q.onWrite stmt
    | .committed | .commitLost _ => { q with rows := q.rows.onCommit }
    | .rolledBack | .commitFailed _ | .crashed _ => { q with rows := q.rows.onRollback }
    | _ => q
  sees _ ℓ := R → ¬ Evicting ℓ
  may q
    | .wrote stmt _ _ => q.Issues stmt
    | .committed => ∀ f, q.rows = .token f → q.evicts
    | _ => True

/-! ## A login keeps to it -/

section

variable {E : Env} {R : Prop} {α : Type} {rows : LoginRows} {f : ℕ} {q : LoginProgress}

/-- Reading keeps the rows. -/
theorem pairing_reading {o : Op α} (h : o.Within True (Reading True)) {T : LoginProgress → Prop}
    (hdrew : ∀ q n, T q → T { q with drawn := fun x => q.drawn x ∨ x = n }) (hq : T q) :
    o.Follows (pairing R) True (Leads fun _ => T) q := by
  refine (h.follows (T := T) (fun q ℓ _ hℓ => ?_) (fun q ℓ hq hℓ => ?_) hq).mono fun r q hq => ?_
  · cases ℓ with
    | wrote => exact hℓ.elim
    | committed => exact hℓ.elim
    | _ => trivial
  · cases ℓ with
    | drew n => exact hdrew q n hq
    | read | ticked | emitted | faulted => exact hq
    | _ => exact hℓ.elim
  · cases r with
    | ok a => exact hq
    | error x => trivial

theorem pairing_reading_at {o : Op α} (h : o.Within True (Reading True)) (hq : q.At rows f) :
    o.Follows (pairing R) True (Leads fun _ => (·.At rows f)) q :=
  pairing_reading h (fun _ _ hq => ⟨hq.1, .inl hq.2⟩) hq

/-- A statement that leaves the rows as they are. -/
theorem pairing_execute {stmt : Stmt} (hissues : ∀ q : LoginProgress, q.Issues stmt)
    (hrows : ∀ rows : LoginRows, rows.onWrite stmt = rows) (hq : q.At rows f) :
    (execute stmt : Op Unit).Follows (pairing R) True (Leads fun _ => (·.At rows f)) q :=
  ⟨fun _ _ _ _ => ⟨hissues q, (hrows q.rows).trans hq.1, hq.2⟩, fun _ _ _ _ => ⟨trivial, trivial⟩,
    fun _ _ => trivial⟩

/-- Once the token is committed, revoking and logging keep it the only row. -/
theorem pairing_revoking {o : Op α} (h : o.Within True (Writing True Stmt.Revokes))
    (hq : q.At (.orphan f) f) :
    o.Follows (pairing R) True (Leads fun _ => (·.At (.orphan f) f)) q := by
  refine (h.follows (T := (·.At (.orphan f) f)) (fun q ℓ hq hℓ => ?_) (fun q ℓ hq hℓ => ?_)
    hq).mono fun r q hq => ?_
  · cases ℓ with
    | wrote stmt seen eff =>
      cases stmt with
      | revokeFamily f' => exact ⟨f, .inr hq.1⟩
      | revokeSession | insertAuditEvent => trivial
      | _ => exact hℓ.elim
    | committed =>
      intro f' hf'
      rw [hq.1] at hf'
      cases hf'
    | _ => trivial
  · have hcommit : q.rows.onCommit = .orphan f := by rw [hq.1]; rfl
    have hrollback : q.rows.onRollback = .orphan f := by rw [hq.1]; rfl
    cases ℓ with
    | drew n => exact ⟨hq.1, .inl hq.2⟩
    | wrote stmt seen eff =>
      cases stmt with
      | revokeFamily | revokeSession | insertAuditEvent => exact ⟨hq.1, hq.2⟩
      | _ => exact hℓ.elim
    | committed | commitLost => exact ⟨hcommit, hq.2⟩
    | rolledBack | commitFailed => exact ⟨hrollback, hq.2⟩
    | crashed => exact hℓ.elim
    | _ => exact hq
  · cases r with
    | ok a => exact hq
    | error x => trivial

/-- Where a login writes its session: after its token, committed or not. -/
def BeforeSession (f : ℕ) (q : LoginProgress) : Prop := q.At (.token f) f ∨ q.At (.orphan f) f

/-- **Making room** commits the token, as soon as there is a session to end. -/
theorem endSessions_pairing (userId : ℕ) (reason : RevokedReason) (actorUserId : Option ℕ)
    (sessions : List UserSession) (hq : q.At (.token f) f) :
    (endSessions userId reason actorUserId sessions).Follows (pairing R) True
      (Leads fun _ => BeforeSession f) q := by
  cases sessions with
  | nil => exact .inl hq
  | cons s rest =>
    refine Leads.bind (M := fun _ => (·.At (.orphan f) f)) ?_ fun _ q' hq' => ?_
    · refine Leads.bind (M := fun _ => (·.At (.orphan f) f)) ?_ fun _ q' hq' => ?_
      · -- the first family is revoked in the transaction of the token
        have hcommit : (q.rows.onWrite (.revokeFamily s.sessionId)).onCommit = .orphan f := by
          show q.rows.onCommit = .orphan f
          rw [hq.1]
          rfl
        refine ⟨fun seen eff _ _ => ⟨⟨f, .inl hq.1⟩, fun _ => ?_, fun _ x => ?_⟩,
          fun _ _ _ _ => ⟨trivial, trivial⟩, fun _ _ => trivial⟩
        · exact ⟨fun _ _ => .inr ⟨_, rfl⟩, hcommit, hq.2⟩
        · exact ⟨trivial, fun _ _ => .inr ⟨_, rfl⟩, trivial⟩
      · refine pairing_revoking ?_ hq'
        exact (revoke_within _ _).bind fun _ => logEvent_within _ _
    · exact (pairing_revoking (endSessions_within userId reason actorUserId rest) hq').mono
        fun r q hr => by cases r with
        | ok a => exact .inr hr
        | error x => trivial

theorem evictOldestSessionsOverLimit_pairing (userId : ℕ) (hq : q.At (.token f) f) :
    (evictOldestSessionsOverLimit E userId).Follows (pairing R) True
      (Leads fun _ => BeforeSession f) q := by
  refine Leads.bind (M := fun _ => (·.At (.token f) f)) ?_ fun candidates q hq => ?_
  · exact ⟨fun _ _ _ _ => ⟨trivial, hq.1, hq.2⟩, fun _ _ _ _ => ⟨trivial, trivial⟩,
      fun _ _ => trivial⟩
  refine Leads.bind (pairing_reading_at (effectivelyActive_within _) hq) fun active q hq => ?_
  exact endSessions_pairing _ _ _ _ hq

/-- The session completes the login. -/
def Complete (f : ℕ) (q : LoginProgress) : Prop := q.rows = .both f ∨ q.rows = .late f

theorem createSession_pairing (userId : ℕ) (claims : Claims) (authMethod : AuthMethod)
    (expiresAt : ℕ) (client : ClientInfo) (hq : BeforeSession f q) :
    (createSession f userId claims authMethod expiresAt client).Follows (pairing R) True
      (Leads fun _ => Complete f) q := by
  have hdrew : ∀ (q : LoginProgress) n, BeforeSession f q →
      BeforeSession f { q with drawn := fun x => q.drawn x ∨ x = n } := by
    rintro q n (h | h)
    · exact .inl ⟨h.1, .inl h.2⟩
    · exact .inr ⟨h.1, .inl h.2⟩
  refine Leads.bind (pairing_reading time_within hdrew hq) fun now q hq => ?_
  refine Leads.bind (pairing_reading draw_within hdrew hq) fun id q hq => ?_
  refine ⟨fun seen eff _ _ => ⟨hq.imp (·.1) (·.1), ?_⟩, fun _ _ _ _ => ⟨trivial, trivial⟩,
    fun _ _ => trivial⟩
  rcases hq with hq | hq
  · refine .inl ?_
    show q.rows.onWrite _ = .both f
    rw [hq.1]
    rfl
  · refine .inr ?_
    show q.rows.onWrite _ = .late f
    rw [hq.1]
    rfl

/-- **A login keeps to the automaton.** -/
theorem generateTokens_pairing (user : User) (authMethod : AuthMethod) (idpOrgId : Option ℕ)
    (client : ClientInfo) (hq : q.rows = .none) :
    (generateTokens E user authMethod idpOrgId client).Follows (pairing R) True
      (Leads fun _ _ => True) q := by
  have hnone : ∀ {α : Type} {o : Op α} {q : LoginProgress}, o.Within True (Reading True) →
      q.rows = .none → o.Follows (pairing R) True (Leads fun _ q => q.rows = .none) q :=
    fun h hq => pairing_reading h (fun _ _ hq => hq) hq
  refine Leads.bind (hnone time_within hq) fun lastLoginAt q hq => ?_
  refine Leads.bind (hnone (query_within _) hq) fun payload q hq => ?_
  refine Leads.bind (hnone (createAccessToken_within _ _) hq) fun access q hq => ?_
  refine Leads.bind (hnone (createRefreshToken_within _) hq) fun refresh q hq => ?_
  refine Leads.bind (M := fun f => (·.At .none f)) ?_ fun f q hq => ?_
  · exact fun f _ => And.intro hq (.inr rfl)
  refine Leads.bind (pairing_reading_at time_within hq) fun now q hq => ?_
  refine Leads.bind (pairing_reading_at draw_within hq) fun id q hq => ?_
  refine Leads.bind (pairing_execute (fun _ => trivial) (fun _ => rfl) hq) fun _ q hq => ?_
  refine Leads.bind (M := fun _ => (·.At (.token f) f)) ?_ fun _ q hq => ?_
  · exact ⟨fun _ _ _ _ => ⟨⟨hq.1, f, rfl, hq.2⟩, rfl, hq.2⟩, fun _ _ _ _ => ⟨trivial, trivial⟩,
      fun _ _ => trivial⟩
  refine Leads.bind (evictOldestSessionsOverLimit_pairing user.id hq) fun _ q hq => ?_
  refine Leads.bind (createSession_pairing _ _ _ _ _ hq) fun _ q hq => ?_
  have hcommit : ∀ f', q.rows = .token f' → q.evicts := by
    intro f' hf'
    rcases hq with hq | hq <;> rw [hq] at hf' <;> cases hf'
  exact ⟨fun _ => ⟨hcommit, trivial⟩, fun _ _ => ⟨trivial, hcommit, trivial⟩⟩

end

/-! ## The store under many logins -/

section

variable {ι α : Type} {R : Prop} {first : ℕ} {s : Sys AuthSig ι α} {g : ι → LoginProgress}

/-- What is stored and pending of the logins. Each names its family itself, so no two name
the same. -/
structure Pairings (R : Prop) (first : ℕ) (s : Sys AuthSig ι α) (g : ι → LoginProgress) :
    Prop where
  drawn : ∀ i x, (g i).drawn x → first ≤ x ∧ x < s.next
  own : ∀ i j x, (g i).drawn x → (g j).drawn x → i = j
  family : ∀ i f, (g i).rows.family = some f → (g i).drawn f
  next : first ≤ s.next
  pending : ∀ i db, ((s.conn i).pend db).families =
    (db.families.1 ++ (g i).rows.added.1, db.families.2 ++ (g i).rows.added.2)
  tokens : ∀ f, first ≤ f → (some f ∈ s.db.families.1 ↔ ∃ i, (g i).rows.TokenStored f)
  sessions : ∀ f, first ≤ f → (f ∈ s.db.families.2 ↔ ∃ i, (g i).rows.SessionStored f)
  evicts : ∀ i f, (g i).rows.Alone f → (g i).evicts
  R : R → ∀ i, ¬ (g i).evicts

/-- **What is stored of a login's rows** tells the pairs from the rest. -/
theorem Pairings.paired_iff (h : Pairings R first s g) :
    Paired first s.db ↔ ∀ i f, ¬ (g i).rows.Alone f := by
  have hiff : Paired first s.db ↔ ∀ f, first ≤ f →
      ((∃ i, (g i).rows.TokenStored f) ↔ ∃ i, (g i).rows.SessionStored f) := by
    unfold Paired
    refine forall₂_congr fun f hf => ?_
    rw [← mem_families_tokens, ← mem_families_sessions, h.tokens f hf, h.sessions f hf]
  rw [hiff]
  constructor
  · intro hpaired i f halone
    obtain ⟨htoken, hno⟩ := LoginRows.alone_iff.mp halone
    have hdrawn : (g i).drawn f :=
      h.family i f (by rcases halone with hi | hi <;> rw [hi] <;> rfl)
    -- a session stored for the family of `i` is stored by `i`
    obtain ⟨j, hj⟩ := (hpaired f (h.drawn i f hdrawn).1).mp ⟨i, htoken⟩
    obtain rfl := h.own i j f hdrawn (h.family j f (by rw [hj]; rfl))
    exact hno hj
  · intro hno f _
    refine exists_congr fun i => ⟨fun htoken => ?_, fun hi => .inr (.inr hi)⟩
    by_contra hsession
    exact hno i f (LoginRows.alone_iff.mpr ⟨htoken, hsession⟩)

/-! What a step does to the rows of its login. -/

namespace LoginRows

variable {q : LoginRows} {f : ℕ}

theorem onCommit_tokenStored : q.onCommit.TokenStored f ↔ q.TokenStored f ∨ some f ∈ q.added.1 := by
  cases q <;> simp [TokenStored, onCommit, added, eq_comm]

theorem onCommit_sessionStored :
    q.onCommit.SessionStored f ↔ q.SessionStored f ∨ f ∈ q.added.2 := by
  cases q <;> simp [SessionStored, onCommit, added, eq_comm]

theorem onRollback_tokenStored : q.onRollback.TokenStored f ↔ q.TokenStored f := by
  cases q <;> simp [TokenStored, onRollback]

theorem onRollback_sessionStored : q.onRollback.SessionStored f ↔ q.SessionStored f := by
  cases q <;> simp [SessionStored, onRollback]

theorem onCommit_added : q.onCommit.added = ([], []) := by cases q <;> rfl

theorem onRollback_added : q.onRollback.added = ([], []) := by cases q <;> rfl

theorem onCommit_family : q.onCommit.family = q.family := by cases q <;> rfl

theorem onRollback_family (h : q.onRollback.family = some f) : q.family = some f := by
  cases q <;> first | exact h | cases h

end LoginRows

/-- What a change adds to the tables, the rows of the login show as pending; nothing of
them is committed by it. -/
structure LoginProgress.Adds (q : LoginProgress) (rows : LoginRows) (delta : Database → Database) :
    Prop where
  added : ∃ new : List (Option ℕ) × List ℕ,
    (∀ db, (delta db).families = (db.families.1 ++ new.1, db.families.2 ++ new.2)) ∧
    rows.added = (q.rows.added.1 ++ new.1, q.rows.added.2 ++ new.2)
  tokens : ∀ f, rows.TokenStored f ↔ q.rows.TokenStored f
  sessions : ∀ f, rows.SessionStored f ↔ q.rows.SessionStored f
  family : ∀ f, rows.family = some f → q.rows.family = some f ∨ q.drawn f

theorem LoginProgress.Adds.quiet {q : LoginProgress} {delta : Database → Database}
    (h : ∀ db, (delta db).families = db.families) : q.Adds q.rows delta where
  added := ⟨([], []), fun db => by simp [h], by simp⟩
  tokens _ := Iff.rfl
  sessions _ := Iff.rfl
  family _ hf := .inl hf

/-- **What a statement of a login adds.** -/
theorem LoginProgress.Issues.adds {q : LoginProgress} {stmt : Stmt} {seen : Database}
    {eff : Effect Database RowKey} (h : q.Issues stmt) (hden : denote stmt seen = .ok eff) :
    q.Adds (q.rows.onWrite stmt) eff.delta := by
  cases stmt with
  | insertRefreshToken row =>
    obtain ⟨hnone, f, hf, hdrawn⟩ := h
    simp only [denote] at hden
    split at hden
    · cases hden
    obtain rfl := Except.ok.inj hden
    have hrows : q.rows.onWrite (.insertRefreshToken row) = .token f := by
      simp [LoginRows.onWrite, hf]
    rw [hrows]
    refine ⟨⟨([some f], []), fun db => ?_, ?_⟩, fun f' => ?_, fun f' => ?_, fun f' hf' => ?_⟩
    · simp [Database.families, Database.insertToken, hf]
    · rw [hnone]
      rfl
    · simp [LoginRows.TokenStored, hnone]
    · simp [LoginRows.SessionStored, hnone]
    · obtain rfl := Option.some.inj hf'
      exact .inr hdrawn
  | insertSession row =>
    simp only [denote] at hden
    split at hden
    · cases hden
    obtain rfl := Except.ok.inj hden
    have hfamilies : ∀ db : Database, (db.insertSession row).families =
        (db.families.1 ++ [], db.families.2 ++ [row.sessionId]) := by
      simp [Database.families, Database.insertSession]
    rcases h with h | h
    · refine ⟨⟨([], [row.sessionId]), hfamilies, ?_⟩, ?_, ?_, ?_⟩ <;> rw [h]
      · rfl
      · simp [LoginRows.onWrite, LoginRows.TokenStored]
      · simp [LoginRows.onWrite, LoginRows.SessionStored]
      · exact fun f' hf' => .inl hf'
    · refine ⟨⟨([], [row.sessionId]), hfamilies, ?_⟩, ?_, ?_, ?_⟩ <;> rw [h]
      · rfl
      · simp [LoginRows.onWrite, LoginRows.TokenStored]
      · simp [LoginRows.onWrite, LoginRows.SessionStored]
      · exact fun f' hf' => .inl hf'
  | touchLogin | lockActiveSessions | insertAuditEvent =>
    obtain rfl := Except.ok.inj hden
    exact .quiet fun _ => rfl
  | revokeFamily f =>
    obtain rfl := Except.ok.inj hden
    refine .quiet fun db => ?_
    simp only [Database.families, Database.updateTokens, List.map_map, Prod.mk.injEq, and_true]
    refine List.map_congr_left fun r _ => ?_
    simp only [Function.comp]
    split <;> rfl
  | revokeSession id t reason =>
    obtain rfl := Except.ok.inj hden
    refine .quiet fun db => ?_
    simp only [Database.families, Database.updateSession, List.map_map, Prod.mk.injEq, true_and]
    refine List.map_congr_left fun r _ => ?_
    simp only [Function.comp]
    split <;> rfl
  | _ => exact h.elim

/-- One login moves on: what it adds to the store, its state shows. -/
theorem Pairings.move [DecidableEq ι] (h : Pairings R first s g) {s' : Sys AuthSig ι α} {i : ι}
    {q : LoginProgress} (new : List (Option ℕ) × List ℕ)
    (hdrawn : ∀ x, q.drawn x → (g i).drawn x ∨ x = s.next ∧ s.next < s'.next)
    (hfamily : ∀ f, q.rows.family = some f → q.drawn f) (hnext : s.next ≤ s'.next)
    (hself : ∀ db, ((s'.conn i).pend db).families =
      (db.families.1 ++ q.rows.added.1, db.families.2 ++ q.rows.added.2))
    (hother : ∀ j, j ≠ i → s'.conn j = s.conn j)
    (hdb : s'.db.families = (s.db.families.1 ++ new.1, s.db.families.2 ++ new.2))
    (htokens : ∀ f, q.rows.TokenStored f ↔ (g i).rows.TokenStored f ∨ some f ∈ new.1)
    (hsessions : ∀ f, q.rows.SessionStored f ↔ (g i).rows.SessionStored f ∨ f ∈ new.2)
    (hevicts : ∀ f, q.rows.Alone f → q.evicts)
    (hroom : R → ¬ q.evicts) : Pairings R first s' (Function.update g i q) := by
  -- something true of a login now was true of one before, or is true of this one
  have hexists : ∀ (P : LoginRows → Prop) (X : Prop), (P q.rows ↔ P (g i).rows ∨ X) →
      ((∃ j, P (Function.update g i q j).rows) ↔ (∃ j, P (g j).rows) ∨ X) := by
    intro P X hP
    constructor
    · rintro ⟨j, hj⟩
      by_cases hji : j = i
      · subst hji
        rw [Function.update_self] at hj
        exact (hP.mp hj).imp (fun h => ⟨j, h⟩) id
      · rw [Function.update_of_ne hji] at hj
        exact .inl ⟨j, hj⟩
    · rintro (⟨j, hj⟩ | hX)
      · by_cases hji : j = i
        · subst hji
          exact ⟨j, by rw [Function.update_self]; exact hP.mpr (.inl hj)⟩
        · exact ⟨j, by rwa [Function.update_of_ne hji]⟩
      · exact ⟨i, by rw [Function.update_self]; exact hP.mpr (.inr hX)⟩
  have hforall : ∀ {P : ι → LoginProgress → Prop}, P i q → (∀ j, j ≠ i → P j (g j)) →
      ∀ j, P j (Function.update g i q j) := by
    intro P hq hg j
    by_cases hji : j = i
    · subst hji
      rwa [Function.update_self]
    · rw [Function.update_of_ne hji]
      exact hg j hji
  have hold : ∀ j x, (Function.update g i q j).drawn x →
      (g j).drawn x ∨ j = i ∧ x = s.next ∧ s.next < s'.next := by
    refine hforall (P := fun j q => ∀ x, q.drawn x →
      (g j).drawn x ∨ j = i ∧ x = s.next ∧ s.next < s'.next) ?_ fun j _ x hx => .inl hx
    exact fun x hx => (hdrawn x hx).imp id fun hx => ⟨rfl, hx⟩
  refine ⟨fun j x hx => ?_, fun j k x hj hk => ?_, ?_, le_trans h.next hnext, ?_, fun f hf => ?_,
    fun f hf => ?_, ?_, fun hr => ?_⟩
  · rcases hold j x hx with hx | ⟨-, hx, hlt⟩
    · obtain ⟨hlow, hhigh⟩ := h.drawn j x hx
      exact ⟨hlow, by omega⟩
    · exact ⟨hx ▸ h.next, by omega⟩
  · rcases hold j x hj with hj | ⟨hji, hx, -⟩
    · rcases hold k x hk with hk | ⟨-, hx, -⟩
      · exact h.own j k x hj hk
      · have hlt := (h.drawn j x hj).2
        omega
    · rcases hold k x hk with hk | ⟨hki, -, -⟩
      · have hlt := (h.drawn k x hk).2
        omega
      · rw [hji, hki]
  · exact hforall (P := fun _ q => ∀ f, q.rows.family = some f → q.drawn f) hfamily
      fun j _ => h.family j
  · refine hforall (P := fun j q => ∀ db, ((s'.conn j).pend db).families =
      (db.families.1 ++ q.rows.added.1, db.families.2 ++ q.rows.added.2)) hself fun j hj db => ?_
    rw [hother j hj]
    exact h.pending j db
  · rw [hexists (·.TokenStored f) _ (htokens f), ← h.tokens f hf, hdb, List.mem_append]
  · rw [hexists (·.SessionStored f) _ (hsessions f), ← h.sessions f hf, hdb, List.mem_append]
  · exact hforall (P := fun _ q => ∀ f, q.rows.Alone f → q.evicts) hevicts fun j _ => h.evicts j
  · exact hforall (P := fun _ q => ¬ q.evicts) (hroom hr) fun j _ => h.R hr j

/-- A transaction that ends with nothing stored. -/
theorem Pairings.forgets [DecidableEq ι] (h : Pairings R first s g) {s' : Sys AuthSig ι α} {i : ι}
    (hself : s'.conn i = Conn.idle AuthSig) (hother : ∀ j, j ≠ i → s'.conn j = s.conn j)
    (hdb : s'.db = s.db) (hnext : s'.next = s.next) :
    Pairings R first s'
      (Function.update g i { g i with rows := (g i).rows.onRollback }) := by
  refine h.move ([], []) (fun x hx => .inl hx) ?_ hnext.ge ?_ hother ?_ ?_ ?_ ?_
    fun hr => h.R hr i
  · exact fun f hf => h.family i f (LoginRows.onRollback_family hf)
  · intro db
    rw [hself, LoginRows.onRollback_added]
    simp [Conn.idle]
  · simp [hdb]
  · simp [LoginRows.onRollback_tokenStored]
  · simp [LoginRows.onRollback_sessionStored]
  · intro f hf
    rw [LoginRows.alone_iff, LoginRows.onRollback_tokenStored,
      LoginRows.onRollback_sessionStored] at hf
    exact h.evicts i f (LoginRows.alone_iff.mpr hf)

/-- A transaction that ends with all stored that was pending. -/
theorem Pairings.stores [DecidableEq ι] (h : Pairings R first s g) {s' : Sys AuthSig ι α} {i : ι}
    (hmay : ∀ f, (g i).rows = .token f → (g i).evicts)
    (hself : s'.conn i = Conn.idle AuthSig) (hother : ∀ j, j ≠ i → s'.conn j = s.conn j)
    (hdb : s'.db = s.latest i) (hnext : s'.next = s.next) :
    Pairings R first s'
      (Function.update g i { g i with rows := (g i).rows.onCommit }) := by
  refine h.move (g i).rows.added (fun x hx => .inl hx) ?_ hnext.ge ?_ hother ?_ ?_ ?_ ?_
    fun hr => h.R hr i
  · exact fun f hf => h.family i f (LoginRows.onCommit_family ▸ hf)
  · intro db
    rw [hself, LoginRows.onCommit_added]
    simp [Conn.idle]
  · rw [hdb]
    exact h.pending i s.db
  · exact fun f => LoginRows.onCommit_tokenStored
  · exact fun f => LoginRows.onCommit_sessionStored
  · intro f hf
    cases hrows : (g i).rows with
    | token f' => exact hmay f' hrows
    | orphan f' => exact h.evicts i f' (.inl hrows)
    | _ =>
      rw [hrows] at hf
      simp [LoginRows.onCommit, LoginRows.Alone] at hf

/-- A statement. -/
theorem Pairings.wrote [DecidableEq ι] (h : Pairings R first s g) {s' : Sys AuthSig ι α} {i : ι}
    {stmt : Stmt} {seen : Database} {eff : Effect Database RowKey} (hissues : (g i).Issues stmt)
    (hden : denote stmt seen = .ok eff) (hroom : R → ∀ f, stmt ≠ .revokeFamily f)
    (hself : (s'.conn i).pend = eff.delta ∘ (s.conn i).pend)
    (hother : ∀ j, j ≠ i → s'.conn j = s.conn j) (hdb : s'.db = s.db) (hnext : s'.next = s.next) :
    Pairings R first s' (Function.update g i ((g i).onWrite stmt)) := by
  obtain ⟨⟨new, hfamilies, hadded⟩, htokens, hsessions, hfamily⟩ := hissues.adds hden
  refine h.move ([], []) (fun x hx => .inl hx) ?_ hnext.ge ?_ hother ?_ ?_ ?_ ?_ ?_
  · exact fun f hf => (hfamily f hf).elim (h.family i f) id
  · intro db
    have hpend := h.pending i db
    simp only [hself, Function.comp, hfamilies, hpend, LoginProgress.onWrite, hadded,
      List.append_assoc]
  · simp [hdb]
  · exact fun f => (htokens f).trans (by simp)
  · exact fun f => (hsessions f).trans (by simp)
  · intro f hf
    refine .inl (h.evicts i f ?_)
    rw [LoginRows.alone_iff] at hf ⊢
    exact ⟨(htokens f).mp hf.1, fun hdone => hf.2 ((hsessions f).mpr hdone)⟩
  · rintro hr (hevicts | ⟨f, hf⟩)
    · exact h.R hr i hevicts
    · exact hroom hr f hf

/-- A step that writes nothing, whatever it draws. -/
theorem Pairings.stays [DecidableEq ι] (h : Pairings R first s g) {s' : Sys AuthSig ι α} {i : ι}
    {drawn : ℕ → Prop} (hkept : ∀ x, (g i).drawn x → drawn x)
    (hdrawn : ∀ x, drawn x → (g i).drawn x ∨ x = s.next ∧ s.next < s'.next)
    (hself : (s'.conn i).pend = (s.conn i).pend) (hother : ∀ j, j ≠ i → s'.conn j = s.conn j)
    (hdb : s'.db = s.db) (hnext : s.next ≤ s'.next) :
    Pairings R first s' (Function.update g i { g i with drawn := drawn }) := by
  refine h.move ([], []) hdrawn ?_ hnext ?_ hother ?_ ?_ ?_ (h.evicts i) fun hr => h.R hr i
  · exact fun f hf => hkept f (h.family i f hf)
  · intro db
    rw [hself]
    exact h.pending i db
  · simp [hdb]
  · simp
  · simp

/-- **Every step of a login keeps the books.** -/
theorem pairings_keeps [DecidableEq ι] (R : Prop) (first : ℕ) :
    (pairing R).Keeps (fun (_ : Sys AuthSig ι α) _ ℓ => R → ¬ Evicting ℓ)
      (fun _ _ _ => True) (Pairings R first) where
  sees _ _ _ hok := hok
  after := by
    intro s g i ℓ p _ h hen hok _ hvouched
    have hother : ∀ j, j ≠ i → (s.after i ℓ p).conn j = s.conn j :=
      fun j hj => Sys.after_conn_of_ne _ _ _ hj
    have hself := Sys.after_conn_self s i ℓ p
    cases ℓ with
    | wrote stmt seen eff =>
      refine h.wrote hvouched hen.2.1 (fun hr f hf => ?_) (by rw [hself]; rfl) hother rfl rfl
      exact hok hr ⟨f, seen, eff, by rw [hf]⟩
    | committed => exact h.stores hvouched hself hother rfl rfl
    | commitLost x => exact h.stores hvouched hself hother rfl rfl
    | rolledBack => exact h.forgets hself hother rfl rfl
    | commitFailed x => exact h.forgets hself hother rfl rfl
    | crashed x => exact h.forgets hself hother rfl rfl
    | drew n =>
      obtain rfl : n = s.next := hen
      refine h.stays (fun x hx => .inl hx) ?_ (by rw [hself]; rfl) hother rfl (Nat.le_succ _)
      exact fun x hx => hx.imp id fun hx => ⟨hx, Nat.lt_succ_self _⟩
    | _ =>
      exact h.stays (fun x hx => hx) (fun x hx => .inl hx) (by rw [hself]; rfl) hother rfl
        (le_refl _)

end

/-! ## Logins -/

/-- What `generate_tokens` is called with. -/
structure LoginAttempt where
  user : User
  authMethod : AuthMethod := .password
  idpOrgId : Option ℕ := none
  client : ClientInfo := {}

def LoginAttempt.op (E : Env) (c : LoginAttempt) : Op (E.Token × E.Token) :=
  generateTokens E c.user c.authMethod c.idpOrgId c.client

variable {ι : Type} [DecidableEq ι] {E : Env}

/-- Logins about to start, each on a connection of its own. -/
def loggingIn (E : Env) (calls : ι → LoginAttempt) (db : Database) (now next : ℕ) :
    Sys AuthSig ι (E.Token × E.Token) :=
  Sys.start db now next fun i => ((calls i).op E).close

omit [DecidableEq ι] in
theorem pairings_start {R : Prop} {calls : ι → LoginAttempt} {db : Database} {now next : ℕ}
    (hbelow : FamiliesBelow next db) :
    Pairings R next (loggingIn E calls db now next) (fun _ => LoginProgress.start) where
  drawn := nofun
  own := nofun
  family := nofun
  next := le_refl _
  pending := fun _ db => by simp [loggingIn, Sys.start, Conn.idle, LoginProgress.start,
    LoginRows.added]
  tokens := by
    intro f hf
    rw [mem_families_tokens]
    constructor
    · rintro ⟨r, hr, hfam⟩
      have hlt := hbelow.tokens r hr f hfam
      omega
    · rintro ⟨i, hi | hi | hi⟩ <;> cases hi
  sessions := by
    intro f hf
    rw [mem_families_sessions]
    constructor
    · rintro ⟨r, hr, rfl⟩
      have hlt := hbelow.sessions r hr
      omega
    · rintro ⟨i, hi⟩
      cases hi
  evicts := by
    rintro i f (hi | hi) <;> cases hi
  R := fun _ _ h => h

/-- The books of a run. -/
theorem pairings_run {R : Prop} {calls : ι → LoginAttempt} {db : Database} {now next : ℕ}
    (hbelow : FamiliesBelow next db) {s : Sys AuthSig ι (E.Token × E.Token)}
    (hrun : Sys.Run True (fun _ _ ℓ => R → ¬ Evicting ℓ) (loggingIn E calls db now next) s) :
    s.Exclusive ∧ ∃ g, Pairings R next s g ∧
      ∀ i, (s.proc i).Follows (pairing R) True (fun _ _ => True) (g i) := by
  refine Follows.run (pairings_keeps R next) (fun _ _ _ _ => trivial) (Sys.exclusive_start _ _ _ _)
    (pairings_start hbelow) (fun i => ?_) hrun
  exact Follows.close ((generateTokens_pairing _ _ _ _ rfl).mono fun _ _ _ => trivial)

/-- The books after one step more. -/
theorem pairings_step {first : ℕ} {s s' : Sys AuthSig ι (E.Token × E.Token)}
    {g : ι → LoginProgress} {i : ι} {ℓ : Label AuthSig} (hx : s.Exclusive)
    (h : Pairings False first s g)
    (hfollows : ∀ i, (s.proc i).Follows (pairing False) True (fun _ _ => True) (g i))
    (hstep : s.Step True i ℓ s') :
    s'.Exclusive ∧ ∃ g', Pairings False first s' g' ∧
      (∀ i, (s'.proc i).Follows (pairing False) True (fun _ _ => True) (g' i)) ∧
      g' i = (pairing False).next (g i) ℓ := by
  have hsees : (pairing False).sees (g i) ℓ := fun hroom => hroom.elim
  have hvouched := (hfollows i).vouched_step hstep hsees
  obtain ⟨p, hact, hen, rfl⟩ := hstep
  refine ⟨hx.after hen p, _, (pairings_keeps False first).after p hx h hen hsees
    (fun _ _ _ => trivial) hvouched, fun j => ?_, Function.update_self ..⟩
  by_cases hj : j = i
  · subst hj
    rw [Sys.after_proc_self, Function.update_self]
    refine (hfollows j).act hact ?_ ?_ hsees fun _ _ => trivial
    · rintro stmt seen eff rfl
      exact hen.2.1
    · rintro stmt seen x rfl
      exact hen.2
  · rw [Sys.after_proc_of_ne _ _ _ hj, Function.update_of_ne hj]
    exact hfollows j

/-- **Token and session are stored together**, while no login has to revoke a family: in
every state, whatever fails and whoever dies. And the commit that ends such a revocation
leaves a token without its session. -/
theorem login_rows_together (E : Env) (calls : ι → LoginAttempt) (db : Database) (now next : ℕ)
    (hbelow : FamiliesBelow next db) :
    (∀ s, Sys.Run True (fun _ _ ℓ => ¬ Evicting ℓ) (loggingIn E calls db now next) s →
      Paired next s.db) ∧
    ∀ s s₁ s₂ i ℓ ℓ', Sys.Run True (fun _ _ _ => True) (loggingIn E calls db now next) s →
      s.Step True i ℓ s₁ → Evicting ℓ → s₁.Step True i ℓ' s₂ → Rows.Commits ℓ' →
      ¬ Paired next s₂.db := by
  refine ⟨fun s hrun => ?_, fun s s₁ s₂ i ℓ ℓ' hrun hstep hevicting hstep' hcommits => ?_⟩
  · obtain ⟨-, g, h, -⟩ := pairings_run (R := True) hbelow (hrun.mono fun _ _ _ h _ => h)
    exact h.paired_iff.mpr fun i f hi => h.R trivial i (h.evicts i f hi)
  · have hfree : Sys.Run True (fun _ _ ℓ => False → ¬ Evicting ℓ) (loggingIn E calls db now next)
        s := hrun.mono fun _ _ _ _ h => h.elim
    obtain ⟨hx, g, h, hfollows⟩ := pairings_run hbelow hfree
    obtain ⟨f', seen, eff, rfl⟩ := hevicting
    have hissues : ∃ f, (g i).rows = .token f ∨ (g i).rows = .orphan f :=
      (hfollows i).vouched_step hstep fun hroom => hroom.elim
    obtain ⟨hx₁, g₁, h₁, hfollows₁, hrows₁⟩ := pairings_step hx h hfollows hstep
    obtain ⟨-, g₂, h₂, -, hrows₂⟩ := pairings_step hx₁ h₁ hfollows₁ hstep'
    obtain ⟨f, hf⟩ := hissues
    refine fun hpaired => h₂.paired_iff.mp hpaired i f (.inl ?_)
    have hcommit : (g₂ i).rows = (g i).rows.onCommit := by
      cases ℓ' with
      | committed => rw [hrows₂, hrows₁]; rfl
      | commitLost x => rw [hrows₂, hrows₁]; rfl
      | _ => exact hcommits.elim
    rcases hf with hf | hf <;> rw [hcommit, hf] <;> rfl

/-! ## A sixth login -/

/-- One user, logged in five times. -/
def fiveSessions : World :=
  Call.runAll (E := Env.symbolic)
    (List.replicate 5 (.generateTokens { id := 7, status := .active } .password none {})) oneUser

def sixthLogin : Sys AuthSig Unit (Env.symbolic.Token × Env.symbolic.Token) :=
  loggingIn Env.symbolic (fun _ => { user := { id := 7, status := .active } }) fiveSessions.base
    fiveSessions.now fiveSessions.next

/-- **The sixth login ends the oldest session**, and with the family of that one it commits
its own token. -/
theorem login_rows_apart :
    ¬ ∀ s, Sys.Run True (fun _ _ _ => True) sixthLogin s → Paired fiveSessions.next s.db := by
  intro hall
  have hplays : (sixthLogin.follow (fun _ _ _ => True) (List.replicate 29 ())).any (fun s =>
      decide (∃ r ∈ s.db.refreshTokens, r.familyId = some 28) &&
        decide (¬ ∃ r ∈ s.db.sessions, r.sessionId = 28)) = true := by decide
  obtain ⟨s, hs, hrows⟩ := (Option.any_eq_true _ _).mp hplays
  obtain ⟨htoken, hsession⟩ := (Bool.and_eq_true _ _).mp hrows
  have hpaired := hall s (Sys.run_of_follow _ hs).mayFail 28 (by decide)
  exact of_decide_eq_true hsession (hpaired.mp (of_decide_eq_true htoken))

/-- Whether a step revokes a family. -/
def revokesFamily : Label AuthSig → Bool
  | .wrote (.revokeFamily _) _ _ => true
  | _ => false

theorem revokesFamily_iff (ℓ : Label AuthSig) : revokesFamily ℓ = true ↔ Evicting ℓ := by
  constructor
  · intro h
    unfold revokesFamily at h
    split at h
    · exact ⟨_, _, _, rfl⟩
    · cases h
  · rintro ⟨f, seen, eff, rfl⟩
    rfl

instance : DecidablePred Evicting := fun ℓ => decidable_of_iff _ (revokesFamily_iff ℓ)

def firstLogin : Sys AuthSig Unit (Env.symbolic.Token × Env.symbolic.Token) :=
  loggingIn Env.symbolic (fun _ => { user := { id := 7, status := .active } }) oneUser.base
    oneUser.now oneUser.next

/-- The first login has nothing to evict, and stores both its rows. -/
theorem login_rows_together_alone :
    ∃ s, Sys.Run True (fun _ _ ℓ => ¬ Evicting ℓ) firstLogin s ∧
      (∃ r ∈ s.db.refreshTokens, r.familyId = some 3) ∧ Paired oneUser.next s.db := by
  have hplays : (firstLogin.follow (fun _ _ ℓ => ¬ Evicting ℓ) (List.replicate 17 ())).any
      (fun s => decide (∃ r ∈ s.db.refreshTokens, r.familyId = some 3)) = true := by decide
  obtain ⟨s, hs, htoken⟩ := (Option.any_eq_true _ _).mp hplays
  have hrun : Sys.Run True (fun _ _ ℓ => ¬ Evicting ℓ) firstLogin s :=
    (Sys.run_of_follow _ hs).mayFail
  refine ⟨s, hrun, of_decide_eq_true htoken, ?_⟩
  exact (login_rows_together Env.symbolic _ oneUser.base oneUser.now oneUser.next
    ⟨by simp [oneUser, Database.empty], by simp [oneUser, Database.empty]⟩).1 s hrun

end OmniAuth
