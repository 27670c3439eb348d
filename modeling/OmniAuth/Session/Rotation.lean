import OmniAuth.Session.Steps
import OmniAuth.Session.Family

/-!
# Rotations of one token, interleaved

Any number of `rotate_refresh_token` calls present the same token, and their
statements interleave. The check that the token was not rotated yet and the
`UPDATE` that rotates it are two statements, with no lock between them. What
goes wrong is therefore one step: the `UPDATE` of a row that is revoked
already. Where no call makes it, at most one call returns tokens, and reuse
that was detected reaches what it returned.
-/

namespace OmniAuth

open Txn Prog

/-! ## The automaton -/

/-- How far a rotation of the presented token has come. -/
inductive Progress
  | start
  | passed
  | rotating (familyId : Option ℕ)
  | issuing (row : RefreshToken)
  | issued (row : RefreshToken)
  | detected (familyId : Option ℕ)
  | wiping (family : ℕ)
  | wiped (family : ℕ)
  | quiet

namespace Progress

/-- The call found the token unrotated. -/
def Exchanging : Progress → Prop
  | passed | rotating _ | issuing _ | issued _ => True
  | _ => False

/-- The family in which the call detected reuse. -/
def reuse : Progress → Option (Option ℕ)
  | detected f => some f
  | wiping f | wiped f => some (some f)
  | _ => none

/-- Nothing the call detected is left to do. -/
def Settled : Progress → Prop
  | detected (some _) | wiping _ => False
  | _ => True

/-- A call begins by looking the token up. -/
def onRead (hash : ℕ) (v : Database) : Progress → Progress
  | start =>
      match v.tokenByHash hash with
      | none => quiet
      | some row => if row.rotatedAt.isSome then detected row.familyId else passed
  | q => q

def onWrite (familyId : Option ℕ) : Progress → Stmt → Progress
  | passed, .rotateRefreshToken _ _ b => rotating (b.orElse fun _ => familyId)
  | passed, _ => quiet
  | rotating _, .insertRefreshToken row => issuing row
  | detected (some _), .revokeFamily f => wiping f
  | q, _ => q

def onCommit : Progress → Progress
  | issuing row => issued row
  | wiping f => wiped f
  | q => q

def onRollback : Progress → Progress
  | rotating _ | issuing _ => quiet
  | wiping f => detected (some f)
  | q => q

end Progress

section

variable (hash : ℕ) (p : RefreshToken) (first : ℕ)

/-- The family a rotation of `p` backfills: none when `p` has one. -/
def Backfills (b : Option ℕ) : Prop :=
  (p.familyId.isSome ∧ b = none) ∨ (p.familyId = none ∧ ∃ g, b = some g ∧ first ≤ g)

/-- The statements a call that has come so far may execute. -/
def Progress.MayWrite : Progress → Stmt → Prop
  | passed, .rotateRefreshToken i _ b => i = p.id ∧ Backfills p first b
  | rotating f, .insertRefreshToken row => row.familyId = f ∧ f.isSome
  | issuing _, .touchSession _ _ _ | issuing _, .insertSession _ => True
  | detected (some f), stmt => stmt = .revokeFamily f
  | passed, stmt | detected none, stmt | wiped _, stmt | quiet, stmt => stmt.Revokes
  | _, _ => False

/-- What rotations of the token with digest `hash` do, whose row was `p` at
first; `first` is where fresh identifiers started. -/
def rotations : Discipline AuthSig Progress where
  next q
    | .read v => q.onRead hash v
    | .wrote stmt _ _ => q.onWrite p.familyId stmt
    | .committed => q.onCommit
    | .rolledBack => q.onRollback
    | _ => q
  sees q
    | .read v => q = .start → ∀ row, v.tokenByHash hash = some row →
        row.id = p.id ∧ (row.rotatedAt = none → row.familyId = p.familyId)
    | .drew n => first ≤ n
    | _ => True
  may q
    | .wrote stmt _ _ => q.MayWrite p first stmt
    | .committed => ∀ f, q ≠ .rotating f
    | .emitted (.reuseDetected _) => q.reuse.isSome
    | _ => True

/-! ## The program follows it -/

variable {hash p first} {E : Env} {α : Type}

theorem rotations_next_read (q : Progress) (v : Database) :
    (rotations hash p first).next q (.read v) = q.onRead hash v := rfl

/-- Reading moves only a call that has not begun. -/
theorem rotations_reading {q : Progress} {ℓ : Label AuthSig} (hq : q ≠ .start) (h : Reading False ℓ) :
    (rotations hash p first).next q ℓ = q ∧ (rotations hash p first).may q ℓ := by
  cases ℓ with
  | read v => cases q <;> first | exact absurd rfl hq | exact ⟨rfl, trivial⟩
  | emitted e =>
    obtain ⟨f, t, rfl⟩ := h
    exact ⟨rfl, trivial⟩
  | ticked t => exact ⟨rfl, trivial⟩
  | drew n => exact ⟨rfl, trivial⟩
  | faulted x => exact ⟨rfl, trivial⟩
  | _ => exact h.elim

/-- A program that only reads leaves a call that has begun where it is. -/
theorem rotations_of_reading {o : Op α} (h : o.Within False (Reading False)) {q : Progress} (hq : q ≠ .start) :
    o.Follows (rotations hash p first) False (fun _ q' => q' = q) q := by
  refine h.follows (fun q' ℓ hT hA => ?_) (fun q' ℓ hT hA => ?_) rfl
  · obtain rfl := hT
    exact (rotations_reading hq hA).2
  · obtain rfl := hT
    exact (rotations_reading hq hA).1

theorem rotations_reading_bind {β : Type} {o : Op α} {k : α → Op β} {q : Progress}
    {post : Except Err β → Progress → Prop} (h : o.Within False (Reading False)) (hq : q ≠ .start)
    (hk : ∀ a, (k a).Follows (rotations hash p first) False post q) (hx : ∀ x, post (.error x) q) :
    (o.bind k).Follows (rotations hash p first) False post q := by
  refine (rotations_of_reading h hq).handle fun r q' hq' => ?_
  obtain rfl := hq'
  cases r with
  | ok a => exact hk a
  | error x => exact hx x

/-- Calls that may revoke and log. -/
inductive Progress.Ending : Progress → Prop
  | passed : Ending .passed
  | quiet : Ending .quiet
  | wiped (f : ℕ) : Ending (.wiped f)
  | idle : Ending (.detected none)

/-- Revoking and logging ends a call, and it keeps what it has detected. -/
theorem rotations_revoking {q : Progress} {ℓ : Label AuthSig} (hq : q.Ending) (h : Writing False Stmt.Revokes ℓ) :
    ((rotations hash p first).next q ℓ).Ending ∧
      ((rotations hash p first).next q ℓ).reuse = q.reuse ∧ (rotations hash p first).may q ℓ := by
  cases ℓ with
  | wrote stmt seen eff =>
    cases stmt <;> first | exact h.elim | skip
    all_goals
      cases hq <;> exact ⟨by constructor, rfl, trivial⟩
  | emitted e =>
    obtain ⟨f, t, rfl⟩ := h
    exact ⟨hq, rfl, trivial⟩
  | committed => cases hq <;> exact ⟨by constructor, rfl, by rintro _ ⟨⟩⟩
  | read v => cases hq <;> exact ⟨by constructor, rfl, trivial⟩
  | rolledBack => cases hq <;> exact ⟨by constructor, rfl, trivial⟩
  | crashed x => exact h.elim
  | _ => exact ⟨hq, rfl, trivial⟩

theorem rotations_of_revoking {o : Op α} (h : o.Within False (Writing False Stmt.Revokes)) {q : Progress} (hq : q.Ending) :
    o.Follows (rotations hash p first) False (fun _ q' => q'.Ending ∧ q'.reuse = q.reuse) q := by
  refine h.follows (fun q' ℓ hT hA => (rotations_revoking hT.1 hA).2.2) (fun q' ℓ hT hA => ?_)
    ⟨hq, rfl⟩
  obtain ⟨hend, hreuse, -⟩ := @rotations_revoking hash p first _ _ hT.1 hA
  exact ⟨hend, hreuse.trans hT.2⟩

theorem rotations_revoking_bind {β : Type} {o : Op α} {k : α → Op β} {q : Progress}
    {post : Except Err β → Progress → Prop} (h : o.Within False (Writing False Stmt.Revokes)) (hq : q.Ending)
    (hk : ∀ a q', q'.Ending → q'.reuse = q.reuse →
      (k a).Follows (rotations hash p first) False post q')
    (hx : ∀ x q', q'.Ending → post (.error x) q') :
    (o.bind k).Follows (rotations hash p first) False post q := by
  refine (rotations_of_revoking h hq).handle fun r q' hq' => ?_
  cases r with
  | ok a => exact hk a q' hq'.1 hq'.2
  | error x => exact hx x q' hq'.1

theorem rotations_execute_bind {β : Type} {stmt : Stmt} {k : Unit → Op β} {q : Progress}
    {post : Except Err β → Progress → Prop} (hmay : q.MayWrite p first stmt)
    (hk : (k ()).Follows (rotations hash p first) False post (q.onWrite p.familyId stmt))
    (hx : ∀ x, post (.error x) q) :
    ((execute stmt : Op Unit).bind k).Follows (rotations hash p first) False post q :=
  ⟨fun _ _ _ _ => ⟨hmay, hk⟩, fun _ x _ _ => ⟨trivial, hx x⟩, False.elim⟩

theorem rotations_commitNow_bind {β : Type} {k : Unit → Op β} {q : Progress}
    {post : Except Err β → Progress → Prop} (hmay : ∀ f, q ≠ .rotating f)
    (hk : (k ()).Follows (rotations hash p first) False post q.onCommit) :
    ((commitNow : Op Unit).bind k).Follows (rotations hash p first) False post q :=
  ⟨fun _ => ⟨hmay, hk⟩, False.elim⟩

/-- What a call has done when it ends: the tokens it returns are those of the
row it issued, and what it detected it has seen to. -/
def Progress.Done (E : Env) (r : Except Err (Option (E.Token × E.Token))) (q : Progress) : Prop :=
  match r with
  | .ok (some tokens) => ∃ row, q = .issued row ∧ row.tokenHash = E.sha256 tokens.2
  | _ => q.Settled

theorem Progress.Ending.settled {q : Progress} (h : q.Ending) : q.onRollback.Settled := by
  cases h <;> trivial

variable {token : E.Token}

/-- The session is written in the transaction that issues. -/
theorem writeSession_follows {β : Type} {k : Unit → Op β} {post : Except Err β → Progress → Prop}
    (row : RefreshToken) (familyId userId : ℕ) (claims : Claims)
    (authMethod : AuthMethod) (expiresAt : ℕ) (session : Option UserSession)
    (touched : Option (ℕ × ℕ)) (hk : (k ()).Follows (rotations hash p first) False post (.issuing row))
    (hx : ∀ x, post (.error x) (.issuing row)) :
    ((writeSession familyId userId claims authMethod expiresAt session touched).bind k).Follows
      (rotations hash p first) False post (.issuing row) := by
  match session, touched with
  | some _, some (id, t) => exact rotations_execute_bind trivial hk hx
  | some _, none => exact hk
  | none, _ =>
    intro now _ id _
    exact rotations_execute_bind trivial hk hx

/-- **The exchange**, of a call that passed every check. -/
theorem exchange_follows (teamId : Option (Option ℕ)) (row : RefreshToken)
    (session : Option UserSession) (user : User) (hid : row.id = p.id)
    (hfam : row.familyId = p.familyId) :
    (exchange E token teamId row session user).Follows (rotations hash p first) False
      (fun r q => match r with
        | .ok t => ∃ row, q.onRollback = .issued row ∧ row.tokenHash = E.sha256 t.2
        | .error _ => q.onRollback.Settled) .passed := by
  have hstart : Progress.passed ≠ .start := by rintro ⟨⟩
  have hx : ∀ x : Err, Progress.passed.onRollback.Settled := fun _ => trivial
  refine rotations_reading_bind time_within hstart (fun decodedAt => ?_) hx
  refine rotations_reading_bind (query_within _) hstart (fun claims => ?_) hx
  refine rotations_reading_bind (createAccessToken_within _ _) hstart (fun access => ?_) hx
  refine rotations_reading_bind (createRefreshToken_within _) hstart (fun refresh => ?_) hx
  refine rotations_reading_bind time_within hstart (fun rotatedAt => ?_) hx
  -- a family drawn here is fresh
  have hfresh : (familyOrFresh row.familyId).Follows (rotations hash p first) False
      (fun r q => q = .passed ∧ ∃ f, r = .ok f ∧
        (p.familyId = some f ∨ p.familyId = none ∧ first ≤ f)) .passed := by
    rw [hfam]
    cases hp : p.familyId with
    | some f => exact ⟨rfl, f, rfl, .inl rfl⟩
    | none => exact fun n hn => ⟨rfl, n, rfl, .inr ⟨rfl, hn⟩⟩
  refine hfresh.handle fun r q hq => ?_
  obtain ⟨rfl, f, rfl, hf⟩ := hq
  refine rotations_reading_bind time_within hstart (fun now => ?_) hx
  refine rotations_reading_bind (touchIfPresent_within _ _) hstart (fun touched => ?_) hx
  refine rotations_reading_bind draw_within hstart (fun id => ?_) hx
  have hbackfills : Backfills p first (if row.familyId = none then some f else none) := by
    rw [hfam]
    rcases hf with hf | ⟨hf, hge⟩
    · exact .inl ⟨by rw [hf]; rfl, by rw [hf]; rfl⟩
    · exact .inr ⟨hf, f, by rw [hf]; rfl, hge⟩
  -- the row issued is of the family the presented row is in now
  have hnow : ((if row.familyId = none then some f else none).orElse fun _ => p.familyId) =
      some f := by
    rw [hfam]
    rcases hf with hf | ⟨hf, -⟩ <;> rw [hf] <;> rfl
  refine rotations_execute_bind ⟨hid, hbackfills⟩ ?_ hx
  refine rotations_execute_bind ⟨hnow.symm, by rw [hnow]; rfl⟩ ?_ fun _ => trivial
  refine writeSession_follows _ _ _ _ _ _ _ _ ?_ fun _ => trivial
  exact rotations_commitNow_bind (by rintro _ ⟨⟩) ⟨_, rfl, rfl⟩

/-- A call that detected reuse sees to the whole family. -/
theorem endSession_follows {β : Type} {k : Unit → Op β} {post : Except Err β → Progress → Prop}
    (userId : ℕ) (familyId : Option ℕ) (reason : RevokedReason) (actorUserId : Option ℕ)
    (hk : ∀ q, q.Ending → (k ()).Follows (rotations hash p first) False post q)
    (hx : ∀ x q, q.Ending → post (.error x) q) :
    ((endSession userId familyId reason actorUserId).bind k).Follows (rotations hash p first) False
      post (.detected familyId) := by
  cases familyId with
  | none =>
    exact rotations_revoking_bind (endSession_within _ _ _ _) .idle (fun _ q hq _ => hk q hq) hx
  | some f =>
    have hwipe : (revokeFamily (some f)).Follows (rotations hash p first) False
        (fun _ q => q = .wiped f) (.detected (some f)) := by
      refine ⟨fun _ _ _ _ => ⟨rfl, fun _ => ⟨by rintro _ ⟨⟩, rfl⟩, False.elim⟩, ?_, False.elim⟩
      intro _ _ hdenied
      cases hdenied
    have hrest : ((revoke (some f) reason).bind fun _ =>
        logSessionRevoked userId (some f) reason actorUserId).Within False (Writing False Stmt.Revokes) :=
      (revoke_within _ _).bind fun _ => logEvent_within _ _
    have hall : (endSession userId (some f) reason actorUserId).Follows (rotations hash p first)
        False (fun _ q => q.Ending) (.detected (some f)) := by
      refine hwipe.handle fun r q hq => ?_
      subst hq
      cases r with
      | ok a => exact (rotations_of_revoking hrest (.wiped f)).mono fun _ _ h => h.1
      | error x => exact .wiped f
    refine hall.handle fun r q hq => ?_
    cases r with
    | ok a => exact hk q hq
    | error x => exact hx x q hq

/-- **A rotation follows the automaton** from its first read to its last
rollback. -/
theorem rotateRefreshToken_follows (token : E.Token) (teamId : Option (Option ℕ)) :
    (rotateRefreshToken E token teamId).close.Follows (rotations (E.sha256 token) p first) False
      (Progress.Done E) .start := by
  refine Follows.close ?_
  refine ⟨fun v hv => ⟨trivial, ?_⟩, False.elim⟩
  have hsees := hv rfl
  have hend : ∀ q : Progress, q.Ending →
      (commitNow.bind fun _ => ret none : Op (Option (E.Token × E.Token))).Follows
        (rotations (E.sha256 token) p first) False
        (fun r q => Progress.Done E r (q.onRollback)) q := by
    intro q hq
    refine rotations_commitNow_bind (by rintro f rfl; cases hq) ?_
    cases hq <;> trivial
  have hstart : Progress.passed ≠ .start := by rintro ⟨⟩
  cases hfound : v.tokenByHash (E.sha256 token) with
  | none =>
    simp only [handle, hfound, rotations_next_read, Progress.onRead]
    trivial
  | some row =>
    obtain ⟨hid, hfam⟩ := hsees row hfound
    simp only [handle, hfound, rotations_next_read, Progress.onRead]
    split
    · -- reuse
      refine fun _ => ⟨rfl, ?_⟩
      exact endSession_follows _ _ _ _ hend fun _ _ h => h.settled
    rename_i hrotated
    have hfam := hfam (by simpa using hrotated)
    split
    · trivial
    refine rotations_reading_bind time_within hstart (fun now => ?_) fun _ => trivial
    split
    · trivial
    refine rotations_reading_bind (query_within _) hstart (fun session => ?_) fun _ => trivial
    refine rotations_reading_bind (isUsable_within _) hstart (fun usable => ?_) fun _ => trivial
    split
    · trivial
    refine rotations_reading_bind (checkTimeoutPolicy_within _) hstart (fun violated => ?_)
      fun _ => trivial
    split
    · -- past a limit
      exact rotations_revoking_bind (endSession_within _ _ _ _) .passed (fun _ q hq _ => hend q hq)
        fun _ _ h => h.settled
    refine rotations_reading_bind (query_within _) hstart (fun user => ?_) fun _ => trivial
    split
    · trivial
    split
    · trivial
    refine (exchange_follows teamId row session _ hid hfam).handle fun r q hq => ?_
    cases r with
    | ok t => exact hq
    | error x => exact hq

end

end OmniAuth
