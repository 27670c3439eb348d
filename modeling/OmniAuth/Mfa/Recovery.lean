import OmniAuth.Mfa.SingleUse

/-!
# Batches of recovery codes

`generate_recovery_codes` and `regenerate_recovery_codes` of `app/services/mfa_service.py`.
Both invalidate what is unused in one transaction and issue a batch in the next; no lock
spans the two.
-/

namespace OmniAuth

open Txn Prog

/-! ## The code -/

/-- The codes of a user that were not used. -/
def Database.unusedRecoveryCodes (db : Database) (userId : ℕ) : List MFARecoveryCode :=
  db.mfaRecoveryCodes.filter fun c => c.userId = userId ∧ c.usedAt = none

/-- `recovery_codes_remaining` -/
def Database.recoveryCodesRemaining (db : Database) (userId : ℕ) : ℕ :=
  (db.unusedRecoveryCodes userId).length

def invalidateRecoveryCodes (userId : ℕ) : Op ℕ := do
  let now ← time
  let unused ← query (·.unusedRecoveryCodes userId)
  if unused = [] then return 0
  else do
    execute (.mfa (.markRecoveryCodes (unused.map (·.id)) now))
    commitNow
    return unused.length

/-- `_RECOVERY_CODE_COUNT` -/
def recoveryCodeCount : ℕ := 10

variable (A : AppEnv)

/-- `_generate_one_recovery_code`, so many times. -/
def generateCodes : ℕ → Op (List String)
  | 0 => return []
  | n + 1 => do
      let drawn ← draw
      let rest ← generateCodes n
      return A.recoveryCode drawn :: rest

/-- The rows of a batch. -/
def addRecoveryCodes (userId createdAt : ℕ) : List String → Op Unit
  | [] => return ()
  | code :: rest => do
      let id ← draw
      execute (.mfa (.insertRecoveryCode
        { id := id, userId := userId, codeHash := A.hashRecoveryCode code, createdAt := createdAt }))
      addRecoveryCodes userId createdAt rest

/-- `_issue_recovery_codes` -/
def issueRecoveryCodes (userId : ℕ) (eventType : AuditEventType) : Op (List String) := do
  let invalidated ← invalidateRecoveryCodes userId
  let plaintextCodes ← generateCodes A recoveryCodeCount
  let now ← time
  addRecoveryCodes A userId now plaintextCodes
  logEvent
    { eventType := eventType
      actorUserId := some userId
      targetUserId := some userId
      resourceType := some "user"
      resourceId := some userId
      metadata := [("codes_issued", toString plaintextCodes.length),
        ("codes_invalidated", toString invalidated)] }
    false
  commitNow
  return plaintextCodes

def generateRecoveryCodes (userId : ℕ) : Op (List String) :=
  issueRecoveryCodes A userId .mfaRecoveryCodesGenerated

def regenerateRecoveryCodes (userId : ℕ) : Op (List String) :=
  issueRecoveryCodes A userId .mfaRecoveryCodesRegenerated

/-- A call of one of the two. In a request it comes after the reads of `get_current_user`,
of the token `jti`, in the same session. -/
structure RecoveryCall where
  authenticated : Option ℕ
  regenerate : Bool

/-- What `get_current_user` reads of the database. -/
def readIdentity (userId : ℕ) : Option ℕ → Op Unit
  | none => return ()
  | some jti => do
      let revoked ← query fun db => decide (∃ t ∈ db.revokedTokens, t.tokenJti = jti)
      if revoked then raise (.http 401 "Token has been revoked")
      else do
        let user ← query (·.userById userId)
        match user with
        | none => return ()
        | some user =>
            if user.status ≠ .active then raise (.http 401 "User is not active") else return ()

def RecoveryCall.op (userId : ℕ) (call : RecoveryCall) : Op (List String) := do
  readIdentity userId call.authenticated
  if call.regenerate then regenerateRecoveryCodes A userId else generateRecoveryCodes A userId

/-! ## The discipline -/

/-- Where a call stands: what it read last and that it has written nothing, the codes it has
marked, the rows it has added since the codes were invalidated, or its end. -/
inductive RecoveryStage
  | found (unused : Option (List ℕ))
  | marked (ids : List ℕ)
  | adding (n : ℕ)
  | ended

namespace RecoveryStage

/-- The stage after a read. -/
def saw (stage : RecoveryStage) (userId : ℕ) (v : Database) : RecoveryStage :=
  match stage with
  | found _ => found (some ((v.unusedRecoveryCodes userId).map (·.id)))
  | _ => stage

/-- The stage after a statement. -/
def wrote (stage : RecoveryStage) : Stmt → RecoveryStage
  | .mfa (.markRecoveryCodes ids _) => marked ids
  | .mfa (.insertRecoveryCode _) =>
      match stage with
      | adding n => adding (n + 1)
      | _ => adding 1
  | _ => stage

/-- The stage after a commit. -/
def committed : RecoveryStage → RecoveryStage
  | marked _ => adding 0
  | _ => ended

/-- Nothing is left to invalidate, and `n` rows are added. -/
def Cleared (stage : RecoveryStage) (n : ℕ) : Prop :=
  stage = adding n ∨ (n = 0 ∧ stage = found (some []))

/-- The statements of a stage. -/
def Allows (userId : ℕ) (stage : RecoveryStage) : Stmt → Prop
  | .mfa (.markRecoveryCodes ids _) => stage = found (some ids)
  | .mfa (.insertRecoveryCode row) => row.userId = userId ∧ row.usedAt = none ∧
      ∃ n < recoveryCodeCount, stage.Cleared n
  | .insertAuditEvent _ => stage = adding recoveryCodeCount
  | _ => False

end RecoveryStage

/-- **The discipline of batches.** -/
def batches (userId : ℕ) : Discipline AuthSig RecoveryStage where
  next q
    | .read v => q.saw userId v
    | .wrote stmt _ _ => q.wrote stmt
    | .committed | .commitLost _ => q.committed
    | .rolledBack | .commitFailed _ | .crashed _ => .ended
    | _ => q
  sees _ _ := True
  may q
    | .wrote stmt _ _ => q.Allows userId stmt
    | .committed => (∃ ids, q = .marked ids) ∨ q = .adding recoveryCodeCount
    | _ => True

variable {A} {userId : ℕ} {F : Prop}

theorem readIdentity_follows (jti : Option ℕ) {q : RecoveryStage} (hq : ∃ u, q = .found u) :
    (readIdentity userId jti).Follows (batches userId) F
      (Leads fun _ q => ∃ u, q = .found u) q := by
  obtain ⟨u, rfl⟩ := hq
  cases jti with
  | none => exact ⟨u, rfl⟩
  | some jti =>
    refine follows_query_bind.mpr ⟨fun v _ => ⟨trivial, ?_⟩, fun _ _ => trivial⟩
    split
    · trivial
    refine follows_query_bind.mpr ⟨fun v' _ => ⟨trivial, ?_⟩, fun _ _ => trivial⟩
    split
    · exact ⟨_, rfl⟩
    split
    · trivial
    · exact ⟨_, rfl⟩

theorem invalidateRecoveryCodes_follows {q : RecoveryStage} (hq : ∃ u, q = .found u) :
    (invalidateRecoveryCodes userId).Follows (batches userId) F
      (Leads fun _ q => q.Cleared 0) q := by
  obtain ⟨u, rfl⟩ := hq
  refine follows_time_bind.mpr fun now _ => ?_
  refine follows_query_bind.mpr ⟨fun v _ => ⟨trivial, ?_⟩, fun _ _ => trivial⟩
  split
  · rename_i hnone
    refine .inr ⟨rfl, ?_⟩
    show RecoveryStage.found (some ((v.unusedRecoveryCodes userId).map (·.id))) = .found (some [])
    rw [hnone]
    rfl
  · rw [bind_eq, execute]
    refine follows_returning_bind.mpr ⟨fun seen eff _ _ => ⟨rfl, ?_⟩,
      fun _ _ hden => (nomatch hden), fun _ _ => trivial⟩
    refine follows_commitNow_bind.mpr ⟨fun _ => ⟨.inl ⟨_, rfl⟩, .inl rfl⟩, fun _ x => ?_⟩
    exact ⟨trivial, .inl ⟨_, rfl⟩, trivial⟩

theorem generateCodes_follows (n : ℕ) (q : RecoveryStage) :
    (generateCodes A n).Follows (batches userId) F
      (Leads fun codes q' => codes.length = n ∧ q' = q) q := by
  induction n with
  | zero => exact ⟨rfl, rfl⟩
  | succ n ih =>
    refine follows_draw_bind.mpr fun drawn _ => ?_
    refine Leads.bind ih ?_
    rintro codes q' ⟨hlen, hq⟩
    refine ⟨?_, hq⟩
    rw [List.length_cons, hlen]

theorem addRecoveryCodes_follows (createdAt : ℕ) (codes : List String) {n : ℕ} {q : RecoveryStage}
    (hq : q.Cleared n) (hn : n + codes.length = recoveryCodeCount) :
    (addRecoveryCodes A userId createdAt codes).Follows (batches userId) F
      (Leads fun _ q => q.Cleared recoveryCodeCount) q := by
  induction codes generalizing n q with
  | nil =>
    rw [List.length_nil, Nat.add_zero] at hn
    rw [← hn]
    exact hq
  | cons code rest ih =>
    rw [List.length_cons] at hn
    refine follows_draw_bind.mpr fun id _ => ?_
    rw [bind_eq, execute]
    refine follows_returning_bind.mpr ⟨fun seen eff _ _ => ⟨⟨rfl, rfl, n, by omega, hq⟩, ?_⟩,
      fun _ _ _ _ => ⟨trivial, trivial⟩, fun _ _ => trivial⟩
    refine ih (n := n + 1) (.inl ?_) (by omega)
    rcases hq with rfl | ⟨rfl, rfl⟩
    · rfl
    · rfl

theorem logEvent_follows_batch (event : AuditEvent) {q : RecoveryStage}
    (hq : q = .adding recoveryCodeCount) :
    (logEvent event false).Follows (batches userId) F
      (Leads fun _ q => q = .adding recoveryCodeCount) q := by
  refine follows_time_bind.mpr fun now _ => ?_
  rw [execute]
  exact follows_returning_bind.mpr ⟨fun _ _ _ _ => ⟨hq, hq⟩, fun _ _ _ _ => ⟨trivial, trivial⟩,
    fun _ _ => trivial⟩

theorem issueRecoveryCodes_follows (eventType : AuditEventType) {q : RecoveryStage}
    (hq : ∃ u, q = .found u) :
    (issueRecoveryCodes A userId eventType).Follows (batches userId) F
      (Leads fun _ _ => True) q := by
  refine Leads.bind (invalidateRecoveryCodes_follows hq) ?_
  intro invalidated q₁ hcleared
  refine Leads.bind (generateCodes_follows recoveryCodeCount q₁) ?_
  rintro codes _ ⟨hlen, rfl⟩
  refine follows_time_bind.mpr fun now _ => ?_
  refine Leads.bind (addRecoveryCodes_follows now codes hcleared (by omega)) ?_
  intro _ q₂ hadded
  have hq₂ : q₂ = .adding recoveryCodeCount := by
    rcases hadded with h | ⟨h, -⟩
    · exact h
    · cases h
  refine Leads.bind (logEvent_follows_batch _ hq₂) ?_
  rintro _ _ rfl
  exact follows_commitNow_bind.mpr ⟨fun _ => ⟨.inr rfl, trivial⟩, fun _ _ =>
    ⟨trivial, .inr rfl, trivial⟩⟩

/-- **A call follows the discipline.** -/
theorem RecoveryCall.follows (call : RecoveryCall) :
    (call.op A userId).close.Follows (batches userId) F (fun _ _ => True) (.found none) := by
  have hleads : (call.op A userId).Follows (batches userId) F (Leads fun _ _ => True)
      (.found none) := by
    refine Leads.bind (readIdentity_follows call.authenticated ⟨none, rfl⟩) ?_
    intro _ q hq
    split
    · exact issueRecoveryCodes_follows _ hq
    · exact issueRecoveryCodes_follows _ hq
  exact Follows.close (hleads.mono fun _ _ _ => trivial)

end OmniAuth
