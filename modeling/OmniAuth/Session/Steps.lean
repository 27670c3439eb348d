import OmniAuth.Txn.Triple
import OmniAuth.Session.Service

/-!
# The steps of the services

Which statements each function of the services can issue. Two classes cover
most of them: functions that only read, and functions that read, revoke and
log. What is left, the writes of a login, of a rotation and of a status
change, is what the arguments about interleavings look at one by one.
-/

namespace OmniAuth

open Txn Prog

/-- Steps of a program that only reads. -/
def Reading (F : Prop) : Label AuthSig → Prop
  | .read _ | .ticked _ | .drew _ => True
  | .emitted e => ∃ f t, e = .policyEvaluated f t
  | .faulted _ => F
  | _ => False

/-- Steps of a program that reads, commits, and executes statements in `P`. -/
def Writing (F : Prop) (P : Stmt → Prop) : Label AuthSig → Prop
  | .wrote stmt _ _ | .refused stmt _ _ => P stmt
  | .read _ | .ticked _ | .drew _ | .committed => True
  | .emitted e => ∃ f t, e = .policyEvaluated f t
  | .faulted _ | .commitFailed _ | .commitLost _ | .rolledBack => F
  | .crashed _ => False

/-- Steps of a program that may do anything but execute a statement outside
`P`. -/
def Executing (P : Stmt → Prop) : Label AuthSig → Prop
  | .wrote stmt _ _ | .refused stmt _ _ => P stmt
  | _ => True

/-- Steps inside a transaction that executes statements in `P`. -/
def Inside (P : Stmt → Prop) : Label AuthSig → Prop
  | .wrote stmt _ _ | .refused stmt _ _ => P stmt
  | .committed | .commitFailed _ | .commitLost _ | .rolledBack | .crashed _ => False
  | _ => True

/-- Statements that revoke or log. -/
def Stmt.Revokes : Stmt → Prop
  | revokeFamily _ | revokeSession _ _ _ | insertAuditEvent _ => True
  | _ => False

/-- Statements of the session part of a login or a rotation. -/
def Stmt.OfSessions : Stmt → Prop
  | revokeFamily _ | revokeSession _ _ _ | insertAuditEvent _ => True
  | lockActiveSessions _ | insertSession _ | touchSession _ _ _ => True
  | _ => False

/-- Statements of a login: its refresh token, its session, its mark on the user. -/
def Stmt.OfLogin (stmt : Stmt) : Prop :=
  stmt.OfSessions ∨ match stmt with
    | touchLogin _ _ _ | insertRefreshToken _ => True
    | _ => False

/-- Statements that make a refresh token. -/
def Stmt.Mints : Stmt → Prop
  | insertRefreshToken _ => True
  | _ => False

variable {F : Prop} {P P' : Stmt → Prop} {E : Env} {α : Type}

theorem Reading.writing {ℓ : Label AuthSig} (h : Reading F ℓ) : Writing F P ℓ := by
  cases ℓ <;> first | exact h | trivial

theorem Writing.mono {ℓ : Label AuthSig} (h : Writing F P ℓ) (hP : ∀ stmt, P stmt → P' stmt) :
    Writing F P' ℓ := by
  cases ℓ <;> first | exact hP _ h | exact h

theorem Stmt.Revokes.ofSessions {stmt : Stmt} (h : stmt.Revokes) : stmt.OfSessions := by
  cases stmt <;> first | exact h.elim | trivial

theorem Stmt.OfSessions.not_mints {stmt : Stmt} (h : stmt.OfSessions) : ¬ stmt.Mints := by
  cases stmt <;> first | exact h.elim | exact id

/-! ## Reading -/

theorem query_within (f : Database → α) : (query f : Op α).Within F (Reading F) :=
  within_query (fun _ => trivial) fun hF _ => hF

theorem time_within : (time : Op ℕ).Within F (Reading F) := within_time fun _ => trivial

theorem draw_within : (draw : Op ℕ).Within F (Reading F) := within_draw fun _ => trivial

theorem createAccessToken_within (data : Claims) (expiresSeconds : Option ℕ) :
    (createAccessToken E data expiresSeconds).Within F (Reading F) :=
  time_within.bind fun _ => draw_within.bind fun _ => trivial

theorem createRefreshToken_within (data : Claims) :
    (createRefreshToken E data).Within F (Reading F) :=
  time_within.bind fun _ => draw_within.bind fun _ => trivial

theorem isUsable_within (session : Option UserSession) :
    (isUsable session).Within F (Reading F) := by
  cases session with
  | none => trivial
  | some session =>
    simp only [isUsable]
    split
    · trivial
    · refine time_within.bind fun _ => ?_
      trivial

theorem checkTimeoutPolicy_within (session : Option UserSession) :
    (checkTimeoutPolicy E session).Within F (Reading F) := by
  cases session with
  | none => trivial
  | some session =>
    exact time_within.bind fun t => (within_note ⟨_, t, rfl⟩).bind fun _ => trivial

theorem effectiveStatus_within (session : UserSession) :
    (effectiveStatus E session).Within F (Reading F) := by
  unfold effectiveStatus
  split
  · trivial
  refine (checkTimeoutPolicy_within _).bind fun reason => ?_
  split
  · trivial
  · trivial
  · refine time_within.bind fun t => ?_
    split <;> trivial

theorem effectivelyActive_within (sessions : List UserSession) :
    (effectivelyActive E sessions).Within F (Reading F) := by
  induction sessions with
  | nil => trivial
  | cons s rest ih =>
    exact (effectiveStatus_within s).bind fun _ => ih.bind fun _ => trivial

theorem touch_within (familyId : ℕ) : (touch familyId).Within F (Reading F) := by
  refine (query_within _).bind fun session => ?_
  split
  · trivial
  · split
    · trivial
    · exact time_within.bind fun _ => trivial

theorem touchIfPresent_within (familyId : ℕ) (session : Option UserSession) :
    (touchIfPresent familyId session).Within F (Reading F) := by
  cases session with
  | none => trivial
  | some s => exact touch_within familyId

/-! ## Writing -/

theorem within_of_reading {o : Op α} (h : o.Within F (Reading F)) : o.Within F (Writing F P) :=
  h.mono fun _ => Reading.writing

theorem within_weaken {o : Op α} (h : o.Within F (Writing F P)) (hP : ∀ stmt, P stmt → P' stmt) :
    o.Within F (Writing F P') :=
  h.mono fun _ hℓ => hℓ.mono hP

theorem Writing.executing {ℓ : Label AuthSig} (h : Writing F P ℓ) : Executing P ℓ := by
  cases ℓ <;> first | exact h | trivial

theorem Executing.mono {ℓ : Label AuthSig} (h : Executing P ℓ) (hP : ∀ stmt, P stmt → P' stmt) :
    Executing P' ℓ := by
  cases ℓ <;> first | exact hP _ h | exact h

/-- A program of either class executes what its statements allow. -/
theorem executing_of_within {o : Op α} (h : o.Within F (Writing F P))
    (hP : ∀ stmt, P stmt → P' stmt) : o.Within F (Executing P') :=
  h.mono fun _ hℓ => hℓ.executing.mono hP

theorem executing_of_reading {o : Op α} (h : o.Within F (Reading F)) :
    o.Within F (Executing P) :=
  h.mono fun ℓ hℓ => (Reading.writing hℓ : Writing F P ℓ).executing

theorem executing_mono {o : Op α} (h : o.Within F (Executing P)) (hP : ∀ stmt, P stmt → P' stmt) :
    o.Within F (Executing P') :=
  h.mono fun _ hℓ => hℓ.mono hP

theorem execute_executing {stmt : Stmt} (h : P stmt) :
    (execute stmt : Op Unit).Within F (Executing P) :=
  within_returning (fun _ _ => h) (fun _ _ => h) fun _ _ => trivial

theorem commitNow_executing : (commitNow : Op Unit).Within F (Executing P) :=
  within_commitNow trivial (fun _ _ => trivial) fun _ _ => trivial

theorem inside_of_reading {o : Op α} (h : o.Within F (Reading F)) : o.Within F (Inside P) :=
  h.mono fun ℓ hℓ => by cases ℓ <;> trivial

theorem execute_inside {stmt : Stmt} (h : P stmt) :
    (execute stmt : Op Unit).Within F (Inside P) :=
  within_returning (fun _ _ => h) (fun _ _ => h) fun _ _ => trivial

theorem logEvent_inside (event : AuditEvent) (hP : ∀ event, P (.insertAuditEvent event)) :
    (logEvent event false).Within F (Inside P) :=
  (inside_of_reading time_within).bind fun _ => Within.bind (execute_inside (hP _)) fun _ => trivial

/-- Statements that leave a part of the store alone. -/
def Stmt.Leaves {β : Type} (part : Database → β) (stmt : Stmt) : Prop :=
  ∀ seen eff, denote stmt seen = .ok eff → ∀ db, part (eff.delta db) = part db

/-- **A part of the store that is left alone**, by a program that runs alone and neither
commits nor rolls back. -/
theorem ends_leaving {β : Type} {part : Database → β} {w : World} {o : Op α}
    (h : o.Within False (Inside (Stmt.Leaves part))) :
    o.Ends w fun _ w' => w'.base = w.base ∧ part w'.cur = part w.cur ∧ w.now ≤ w'.now :=
  h.ends (R := fun s s' : Database => part s' = part s) (fun _ => rfl)
    (fun hab hbc => hbc.trans hab) (fun hleaves hden => hleaves _ _ hden _) id id

/-- A program that leaves it alone, and what comes after. -/
theorem ends_leaving_bind {β γ : Type} {part : Database → β} {w : World} {o : Op α}
    {f : α → Op γ} {post : Except Err γ → World → Prop}
    (h : o.Within False (Inside (Stmt.Leaves part)))
    (hf : ∀ a w', w'.base = w.base → part w'.cur = part w.cur → w.now ≤ w'.now →
      (f a).Ends w' post)
    (hx : ∀ x w', w'.base = w.base → w.now ≤ w'.now → post (.error x) w') :
    (Prog.bind o f).Ends w post := by
  refine ends_handle.mpr ((ends_leaving h).mono ?_)
  rintro r w' ⟨hbase, hpart, hnow⟩
  cases r with
  | ok a => exact hf a w' hbase hpart hnow
  | error x => exact ends_raise.mpr (hx x w' hbase hnow)

/-- `db` is committed, nothing is pending, and it is `t` or later. -/
structure Rests (db : Database) (t : ℕ) (w : World) : Prop where
  base : w.base = db
  cur : w.cur = db
  now : t ≤ w.now

theorem ends_reading {db : Database} {t : ℕ} {w : World} {o : Op α}
    (h : o.Within False (Reading False)) (hw : Rests db t w) :
    o.Ends w fun _ w' => Rests db t w' := by
  have hleaves : o.Within False (Inside (Stmt.Leaves fun db => db)) := inside_of_reading h
  refine (ends_leaving hleaves).mono ?_
  rintro r w' ⟨hbase, hcur, hnow⟩
  exact ⟨hbase.trans hw.base, hcur.trans hw.cur, le_trans hw.now hnow⟩

/-- A program that only reads, and what comes after. -/
theorem ends_reading_bind {β : Type} {db : Database} {t : ℕ} {w : World} {o : Op α}
    {f : α → Op β} {post : Except Err β → World → Prop} (h : o.Within False (Reading False))
    (hw : Rests db t w) (hf : ∀ a w', Rests db t w' → (f a).Ends w' post)
    (hx : ∀ x w', Rests db t w' → post (.error x) w') : (Prog.bind o f).Ends w post := by
  refine ends_handle.mpr ((ends_reading h hw).mono fun r w' hw' => ?_)
  cases r with
  | ok a => exact hf a w' hw'
  | error x => exact ends_raise.mpr (hx x w' hw')

theorem execute_within {stmt : Stmt} (h : P stmt) :
    (execute stmt : Op Unit).Within F (Writing F P) :=
  within_returning (fun _ _ => h) (fun _ _ => h) fun hF _ => hF

theorem commitNow_within : (commitNow : Op Unit).Within F (Writing F P) :=
  within_commitNow trivial (fun hF _ => hF) fun hF _ => hF

/-- A rollback happens only where a commit has failed. -/
theorem logEvent_within (event : AuditEvent) (commit : Bool) :
    (logEvent event commit).Within F (Writing F Stmt.Revokes) := by
  refine (within_of_reading time_within).bind fun t => ?_
  refine Within.bind (execute_within trivial) fun _ => ?_
  cases commit with
  | false => trivial
  | true => exact ⟨trivial, trivial, fun hF _ => ⟨hF, hF, hF, trivial⟩⟩

theorem revokeFamily_within (familyId : Option ℕ) :
    (revokeFamily familyId).Within F (Writing F Stmt.Revokes) := by
  cases familyId with
  | none => trivial
  | some f => exact Within.bind (execute_within trivial) fun _ => commitNow_within

theorem revoke_within (familyId : Option ℕ) (reason : RevokedReason) :
    (revoke familyId reason).Within F (Writing F Stmt.Revokes) := by
  refine (within_of_reading (query_within _)).bind fun session => ?_
  split
  · trivial
  · split
    · trivial
    · exact (within_of_reading time_within).bind fun t => execute_within trivial

theorem endSession_within (userId : ℕ) (familyId : Option ℕ) (reason : RevokedReason)
    (actorUserId : Option ℕ) :
    (endSession userId familyId reason actorUserId).Within F (Writing F Stmt.Revokes) :=
  (revokeFamily_within familyId).bind fun _ =>
    (revoke_within familyId reason).bind fun _ => logEvent_within _ _

theorem endSessions_within (userId : ℕ) (reason : RevokedReason) (actorUserId : Option ℕ)
    (sessions : List UserSession) :
    (endSessions userId reason actorUserId sessions).Within F (Writing F Stmt.Revokes) := by
  induction sessions with
  | nil => trivial
  | cons s rest ih => exact (endSession_within _ _ _ _).bind fun _ => ih

theorem revokeAllSessionsForUser_within (userId : ℕ) (reason : RevokedReason)
    (actorUserId : Option ℕ) :
    (revokeAllSessionsForUser userId reason actorUserId).Within F (Writing F Stmt.Revokes) :=
  (within_of_reading (query_within _)).bind fun _ =>
    (endSessions_within _ _ _ _).bind fun _ => commitNow_within.bind fun _ => trivial

theorem evictOldestSessionsOverLimit_within (userId : ℕ) :
    (evictOldestSessionsOverLimit E userId).Within F (Writing F Stmt.OfSessions) := by
  refine Within.bind (within_returning (fun _ _ => trivial) (fun _ _ => trivial) fun hF _ => hF)
    fun candidates => ?_
  refine (within_of_reading (effectivelyActive_within _)).bind fun active => ?_
  exact within_weaken (endSessions_within _ _ _ _) fun stmt h => h.ofSessions

theorem createSession_within (sessionId userId : ℕ) (claims : Claims) (authMethod : AuthMethod)
    (expiresAt : ℕ) (client : ClientInfo) :
    (createSession sessionId userId claims authMethod expiresAt client).Within F
      (Writing F Stmt.OfSessions) :=
  (within_of_reading time_within).bind fun _ => (within_of_reading draw_within).bind fun _ =>
    execute_within trivial

theorem generateTokens_within (user : User) (authMethod : AuthMethod) (idpOrgId : Option ℕ)
    (client : ClientInfo) :
    (generateTokens E user authMethod idpOrgId client).Within F (Writing F Stmt.OfLogin) := by
  unfold generateTokens
  refine (within_of_reading time_within).bind fun _ => ?_
  refine (within_of_reading (query_within _)).bind fun payload => ?_
  refine (within_of_reading (createAccessToken_within _ _)).bind fun access => ?_
  refine (within_of_reading (createRefreshToken_within _)).bind fun refresh => ?_
  refine (within_of_reading draw_within).bind fun familyId => ?_
  refine (within_of_reading time_within).bind fun now => ?_
  refine (within_of_reading draw_within).bind fun id => ?_
  refine (execute_within (.inr trivial)).bind fun _ => ?_
  refine (execute_within (.inr trivial)).bind fun _ => ?_
  refine (within_weaken (evictOldestSessionsOverLimit_within _) fun _ => .inl).bind fun _ => ?_
  refine (within_weaken (createSession_within _ _ _ _ _ _) fun _ => .inl).bind fun _ => ?_
  exact commitNow_within.bind fun _ => trivial

theorem writeSession_within (familyId userId : ℕ) (claims : Claims) (authMethod : AuthMethod)
    (expiresAt : ℕ) (session : Option UserSession) (touched : Option (ℕ × ℕ)) :
    (writeSession familyId userId claims authMethod expiresAt session touched).Within F
      (Writing F Stmt.OfSessions) := by
  match session, touched with
  | some _, some (id, t) => exact execute_within trivial
  | some _, none => trivial
  | none, _ => exact createSession_within _ _ _ _ _ _

end OmniAuth
