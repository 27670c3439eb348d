import OmniAuth.Mfa.EmailSafety

/-!
# How often codes are mailed

`issue_code` counts what a user was sent while it holds the user's row. Its transaction has
read before it waits for the row, so the count is of what was committed by then; a code that
another call commits in between is not in it.
-/

namespace OmniAuth

open Txn Prog

/-! ## Sliding windows -/

/-- No window of this width, its ends included, holds more than `max` of the times. -/
def WithinWindows (max width : ℕ) (times : List ℕ) : Prop :=
  ∀ t, (times.filter fun c => t ≤ c ∧ c ≤ t + width).length ≤ max

/-- **One time more.** It is enough that the window it closes has room. -/
theorem WithinWindows.append {max width now : ℕ} {times : List ℕ} (h : WithinWindows max width times)
    (hroom : (times.filter (now - width ≤ ·)).length < max) :
    WithinWindows max width (times ++ [now]) := by
  intro t
  rw [List.filter_append, List.length_append]
  by_cases hin : t ≤ now ∧ now ≤ t + width
  · -- what is in the window with it is in the one it closes
    have hsub : (times.filter fun c => t ≤ c ∧ c ≤ t + width).length ≤
        (times.filter (now - width ≤ ·)).length := by
      refine (List.monotone_filter_right _ fun c hc => ?_).length_le
      have hc := of_decide_eq_true hc
      exact decide_eq_true (by omega)
    have hone : ([now].filter fun c => t ≤ c ∧ c ≤ t + width).length ≤ 1 := List.length_filter_le _ _
    omega
  · have hnone : ([now].filter fun c => t ≤ c ∧ c ≤ t + width).length = 0 := by simp [hin]
    have := h t
    omega

/-! ## What was sent -/

variable {A : AppEnv} {α β ι : Type}

/-- When codes were sent to a user. -/
def Database.sendTimes (db : Database) (userId : ℕ) : List ℕ :=
  (db.mfaEmailOtps.filter (·.userId = userId)).map (·.createdAt)

/-- What `issue_code` lets through: fewer codes than the limit in the last hour, and for a
resend the cooldown since each. -/
def Admits (A : AppEnv) (resend : Bool) (times : List ℕ) (now : ℕ) : Prop :=
  (times.filter (now - minutes 60 ≤ ·)).length < A.emailMfaMaxSendsPerHour ∧
    (resend = true → ∀ c ∈ times, seconds A.emailMfaResendCooldownSeconds ≤ now - c)

theorem length_sentSince (db : Database) (userId hourAgo : ℕ) :
    (db.sentSince userId hourAgo).length =
      ((db.sendTimes userId).filter (hourAgo ≤ ·)).length := by
  unfold Database.sendTimes Database.sentSince
  rw [List.filter_map, List.length_map, List.filter_filter]
  refine congrArg List.length (List.filter_congr fun o _ => ?_)
  simp [Bool.and_comm]

theorem newestFirst_head {rows : List MFAEmailOTP} {latest o : MFAEmailOTP}
    (h : (newestFirst rows).head? = some latest) (ho : o ∈ rows) :
    o.createdAt ≤ latest.createdAt := by
  let newer (a b : MFAEmailOTP) : Prop :=
    b.createdAt < a.createdAt ∨ (b.createdAt = a.createdAt ∧ b.id ≤ a.id)
  have : Std.Total newer := ⟨fun a b => by simp only [newer]; omega⟩
  have : IsTrans MFAEmailOTP newer := ⟨fun a b c => by simp only [newer]; omega⟩
  have hsorted : (newestFirst rows).Pairwise newer := List.pairwise_insertionSort newer rows
  have hmem : o ∈ newestFirst rows := (List.mem_insertionSort _).mpr ho
  match hrows : newestFirst rows with
  | [] => rw [hrows] at hmem; cases hmem
  | first :: rest =>
    rw [hrows] at h hmem hsorted
    obtain rfl := Option.some.inj h
    rcases List.mem_cons.mp hmem with rfl | hrest
    · exact Nat.le_refl _
    · rcases (List.pairwise_cons.mp hsorted).1 o hrest with hless | ⟨hsame, -⟩
      · omega
      · omega

theorem not_lt_of_onSome {elapsed cooldown : ℕ}
    (h : ¬ (true && onSome (some elapsed) fun e => e < cooldown) = true) : ¬ elapsed < cooldown := by
  simpa [onSome] using h

/-- **The check of `issue_code`.** -/
theorem sendLimit_none {db : Database} {userId now : ℕ} {resend : Bool}
    (h : sendLimit A db userId now resend = none) :
    Admits A resend (db.sendTimes userId) now := by
  unfold sendLimit at h
  dsimp only at h
  split at h
  · cases h
  rename_i hcooldown
  have hroom : ¬ A.emailMfaMaxSendsPerHour ≤ (db.sentSince userId (now - minutes 60)).length := by
    intro hfull
    rw [if_pos hfull] at h
    split at h <;> cases h
  constructor
  · rw [← length_sentSince]
    exact Nat.lt_of_not_le hroom
  · rintro rfl c hc
    obtain ⟨o, ho, rfl⟩ := List.mem_map.mp hc
    cases hlatest : (newestFirst (db.mfaEmailOtps.filter fun o => o.userId = userId)).head? with
    | none =>
      rw [List.head?_eq_none_iff] at hlatest
      have hmem : o ∈ newestFirst (db.mfaEmailOtps.filter fun o => o.userId = userId) :=
        (List.mem_insertionSort _).mpr ho
      rw [hlatest] at hmem
      cases hmem
    | some latest =>
      have hle := newestFirst_head hlatest ho
      rw [hlatest] at hcooldown
      have hwaited : ¬ now - latest.createdAt < seconds A.emailMfaResendCooldownSeconds :=
        not_lt_of_onSome hcooldown
      omega

/-! ## The discipline -/

/-- Where a call stands: before it holds the user's row, since it holds it and read the clock,
since it has counted, with its row written, and beyond. -/
inductive SendStage
  | before
  | holding (userId : ℕ) (now : Option ℕ)
  | counted (userId now : ℕ) (seen : Database)
  | sent (userId now : ℕ)
  | ended

namespace SendStage

def saw (stage : SendStage) (v : Database) : SendStage :=
  match stage with
  | holding userId (some now) => counted userId now v
  | _ => stage

def ticked (stage : SendStage) (t : ℕ) : SendStage :=
  match stage with
  | holding userId _ => holding userId (some t)
  | _ => stage

def wrote (stage : SendStage) : Stmt → SendStage
  | .mfa (.lockUser userId) => holding userId none
  | .mfa (.insertEmailOtp row) => sent row.userId row.createdAt
  | _ => stage

end SendStage

/-- A call, and whether it is a resend. -/
structure SendState where
  resend : Bool
  stage : SendStage

/-- The statements of a call. A row is inserted where the count let it through. -/
def SendState.Allows (A : AppEnv) (q : SendState) : Stmt → Prop
  | .insertAuditEvent _ => True
  | .mfa (.lockUser _) => q.stage = .before
  | .mfa (.insertEmailOtp row) => ∃ seen, q.stage = .counted row.userId row.createdAt seen ∧
      sendLimit A seen row.userId row.createdAt q.resend = none
  | .mfa (.invalidateEmailOtps _ _) | .mfa (.countOtpAttempt _ _) | .mfa (.invalidateEmailOtp _ _)
  | .mfa (.consumeEmailOtp _ _ _ _) => True
  | _ => False

/-- **The discipline of sends.** -/
def sends (A : AppEnv) : Discipline AuthSig SendState where
  next q
    | .read v => { q with stage := q.stage.saw v }
    | .ticked t => { q with stage := q.stage.ticked t }
    | .wrote stmt _ _ => { q with stage := q.stage.wrote stmt }
    | .committed | .commitLost _ | .rolledBack | .commitFailed _ | .crashed _ =>
        { q with stage := .ended }
    | _ => q
  sees _ _ := True
  may q
    | .wrote stmt _ _ => q.Allows A stmt
    | _ => True

/-- Whether a call is a resend. -/
def CodeCall.resends : CodeCall A → Bool
  | .issue _ _ again _ => again
  | .resend _ _ => true
  | .verify _ _ _ _ => false

/-! ## The calls follow it -/

/-- Steps that leave a call where it is. -/
def Stmt.SendsNothing : Stmt → Prop
  | .insertAuditEvent _ => True
  | .mfa (.invalidateEmailOtps _ _) | .mfa (.countOtpAttempt _ _) | .mfa (.invalidateEmailOtp _ _)
  | .mfa (.consumeEmailOtp _ _ _ _) => True
  | _ => False

theorem Stmt.SendsNothing.allows {stmt : Stmt} (h : stmt.SendsNothing) (q : SendState) :
    q.Allows A stmt := by
  cases stmt with
  | insertAuditEvent event => trivial
  | mfa stmt => cases stmt <;> first | exact h.elim | trivial
  | _ => exact h.elim

/-- A stage that reading the store or the clock does not change. -/
def SendStage.Still : SendStage → Prop
  | holding _ _ => False
  | _ => True

theorem Stmt.SendsNothing.wrote {stmt : Stmt} (h : stmt.SendsNothing) (stage : SendStage) :
    stage.wrote stmt = stage := by
  cases stmt with
  | insertAuditEvent event => rfl
  | mfa stmt => cases stmt <;> first | exact h.elim | rfl
  | _ => exact h.elim

variable {resend : Bool} {stage : SendStage} {post : Except Err β → SendState → Prop}

/-- What sends nothing leaves a call at a stage that is still. -/
theorem sends_aside_bind {o : Op α} {k : α → Op β} (h : o.Within True (Inside Stmt.SendsNothing))
    (hstill : stage.Still) (hk : ∀ a, (k a).Follows (sends A) True post ⟨resend, stage⟩)
    (hx : ∀ x q, post (.error x) q) : (o.bind k).Follows (sends A) True post ⟨resend, stage⟩ := by
  refine h.follows_bind (T := fun q => q = ⟨resend, stage⟩) (fun q ℓ _ hℓ => ?_)
    (fun q ℓ hq hℓ => ?_) rfl (fun a q hq => hq ▸ hk a) fun x q _ => hx x q
  · cases ℓ with
    | wrote stmt seen eff => exact Stmt.SendsNothing.allows hℓ q
    | _ => trivial
  · subst hq
    cases ℓ with
    | read v => cases stage <;> first | exact hstill.elim | rfl
    | ticked t => cases stage <;> first | exact hstill.elim | rfl
    | wrote stmt seen eff => exact congrArg (SendState.mk resend) (Stmt.SendsNothing.wrote hℓ stage)
    | committed => exact hℓ.elim
    | rolledBack => exact hℓ.elim
    | commitFailed x => exact hℓ.elim
    | commitLost x => exact hℓ.elim
    | crashed x => exact hℓ.elim
    | _ => rfl

theorem sends_reading_bind {o : Op α} {k : α → Op β} (h : o.Within True (Reading True))
    (hstill : stage.Still) (hk : ∀ a, (k a).Follows (sends A) True post ⟨resend, stage⟩)
    (hx : ∀ x q, post (.error x) q) : (o.bind k).Follows (sends A) True post ⟨resend, stage⟩ :=
  sends_aside_bind (inside_of_reading h) hstill hk hx

/-- A statement that is allowed leads to the next stage. -/
theorem sends_execute_bind {stmt : Stmt} {k : Unit → Op β}
    (hallows : SendState.Allows A ⟨resend, stage⟩ stmt)
    (hk : (k ()).Follows (sends A) True post ⟨resend, stage.wrote stmt⟩)
    (hx : ∀ x q, post (.error x) q) :
    ((execute stmt).bind k).Follows (sends A) True post ⟨resend, stage⟩ :=
  follows_returning_bind.mpr ⟨fun _ _ _ _ => ⟨hallows, hk⟩, fun _ x _ _ => ⟨trivial, hx x _⟩,
    fun _ x => hx x _⟩

theorem sendCode_sends {user : User} {jti now : ℕ} {mailSent : Bool} {seen : Database}
    (hlimit : sendLimit A seen user.id now resend = none) :
    (sendCode A user jti now resend mailSent).Follows (sends A) True (fun _ _ => True)
      ⟨resend, .counted user.id now seen⟩ := by
  refine sends_reading_bind draw_within trivial (fun n => ?_) fun _ _ => trivial
  split
  · trivial
  refine Follows.orElse (M := fun _ _ => True) ?_ fun x q _ => trivial
  refine sends_reading_bind draw_within trivial (fun id => ?_) fun _ _ => trivial
  refine sends_execute_bind ⟨seen, rfl, hlimit⟩ ?_ fun _ _ => trivial
  split
  · trivial
  refine sends_aside_bind (logEvent_inside _ fun _ => trivial) trivial (fun _ => ?_)
    fun _ _ => trivial
  exact ⟨fun _ => ⟨trivial, trivial⟩, fun _ _ => ⟨trivial, trivial, trivial⟩⟩

theorem issueCode_sends {user : User} {challengeToken : A.Token} {mailSent : Bool} :
    (issueCode A user challengeToken resend mailSent).Follows (sends A) True (fun _ _ => True)
      ⟨resend, .before⟩ := by
  unfold issueCode
  split
  · trivial
  refine sends_reading_bind time_within trivial (fun now => ?_) fun _ _ => trivial
  split
  · trivial
  split
  · trivial
  refine sends_reading_bind (query_within _) trivial (fun revoked => ?_) fun _ _ => trivial
  split
  · trivial
  refine sends_execute_bind rfl ?_ fun _ _ => trivial
  -- the clock, and then the count at that time
  refine follows_time_bind.mpr fun now _ => ?_
  refine follows_query_bind.mpr ⟨fun seen _ => ⟨trivial, ?_⟩, fun _ _ => trivial⟩
  split
  · trivial
  rename_i hlimit
  have hstill : SendStage.Still (.counted user.id now seen) := trivial
  refine sends_aside_bind (execute_inside trivial) hstill (fun _ => ?_) fun _ _ => trivial
  exact (sendCode_sends hlimit).handle fun r q _ => by cases r <;> trivial

theorem resendCode_sends {challengeToken : A.Token} {mailSent : Bool} :
    (resendCode A challengeToken mailSent).Follows (sends A) True (fun _ _ => True)
      ⟨true, .before⟩ := by
  refine sends_reading_bind time_within trivial (fun now => ?_) fun _ _ => trivial
  split
  · trivial
  refine sends_reading_bind (query_within _) trivial (fun user => ?_) fun _ _ => trivial
  split
  · trivial
  · exact issueCode_sends

/-- **The calls follow the discipline.** -/
theorem CodeCall.follows_sends (call : CodeCall A) :
    call.op.close.Follows (sends A) True (fun _ _ => True) ⟨call.resends, .before⟩ := by
  refine Follows.close ?_
  cases call with
  | issue user challengeToken again mailSent =>
    exact issueCode_sends.handle fun r q _ => by cases r <;> trivial
  | resend challengeToken mailSent =>
    exact resendCode_sends.handle fun r q _ => by cases r <;> trivial
  | verify userId challengeJti code commitAfter =>
    have hverify : (verifyCode A userId challengeJti code).Within True
        (Executing Stmt.SendsNothing) := by
      refine executing_of_within (verifyCode_within _ _ _) fun stmt h => ?_
      cases stmt with
      | mfa stmt => cases stmt <;> first | exact h.elim | trivial
      | _ => exact h.elim
    have hwithin : (CodeCall.verify userId challengeJti code commitAfter : CodeCall A).op.Within
        True (Executing Stmt.SendsNothing) := by
      refine hverify.bind fun ok => ?_
      split
      · exact commitNow_executing.bind fun _ => trivial
      · trivial
    refine hwithin.follows (T := fun _ => True) (fun q ℓ _ hℓ => ?_) (fun _ _ _ _ => trivial) trivial
    cases ℓ with
    | wrote stmt seen eff => exact Stmt.SendsNothing.allows hℓ q
    | _ => trivial

/-! ## The invariant -/

section

variable {userId : ℕ}

/-- The changes are none to when the user was sent codes. -/
def KeepsTimes (userId : ℕ) (f : Database → Database) : Prop :=
  ∀ db, (f db).sendTimes userId = db.sendTimes userId

theorem keepsTimes_updateOtps (p : MFAEmailOTP → Bool) {f : MFAEmailOTP → MFAEmailOTP}
    (hf : ∀ o, (f o).userId = o.userId ∧ (f o).createdAt = o.createdAt) :
    KeepsTimes userId (Database.updateOtps p f) := by
  intro db
  have hkept : ∀ o : MFAEmailOTP, (if p o then f o else o).userId = o.userId ∧
      (if p o then f o else o).createdAt = o.createdAt := by
    intro o
    split
    · exact hf o
    · exact ⟨rfl, rfl⟩
  have hcomp : ((fun o : MFAEmailOTP => decide (o.userId = userId)) ∘ fun o => if p o then f o else o) =
      fun o => decide (o.userId = userId) := by
    funext o
    simp only [Function.comp_apply, (hkept o).1]
  unfold Database.sendTimes Database.updateOtps
  rw [List.filter_map, List.map_map, hcomp]
  exact List.map_congr_left fun o _ => (hkept o).2

theorem Stmt.SendsNothing.keepsTimes {stmt : Stmt} {seen : Database} {eff : Effect Database RowKey}
    (h : stmt.SendsNothing) (hden : denote stmt seen = .ok eff) : KeepsTimes userId eff.delta := by
  cases stmt with
  | insertAuditEvent event =>
    obtain rfl := Except.ok.inj hden
    exact fun _ => rfl
  | mfa stmt =>
    cases stmt <;> first | exact h.elim | obtain rfl := Except.ok.inj hden
    all_goals exact keepsTimes_updateOtps _ fun _ => ⟨rfl, rfl⟩
  | _ => exact h.elim

theorem sendTimes_insert (row : MFAEmailOTP) (db : Database) :
    ({ db with mfaEmailOtps := db.mfaEmailOtps ++ [row] } : Database).sendTimes userId =
      db.sendTimes userId ++ if row.userId = userId then [row.createdAt] else [] := by
  unfold Database.sendTimes
  rw [List.filter_append, List.map_append]
  by_cases hrow : row.userId = userId <;> simp [hrow]

/-- What the count was of is what is committed, up to the time `t`. -/
def CountsAll (userId : ℕ) (c : Conn AuthSig) (times : List ℕ) (clock t : ℕ) : Prop :=
  .user userId ∈ c.held ∧ t ≤ clock ∧ ∀ b ∈ times, b ≤ t

/-- What holds of a call: of its connection, when the user was sent codes, and the clock. A
call of another user has nothing to do with it. -/
def SendState.Holds (A : AppEnv) (userId : ℕ) (c : Conn AuthSig) (times : List ℕ) (clock : ℕ)
    (q : SendState) : Prop :=
  match q.stage with
  | .before | .ended => KeepsTimes userId c.pend
  | .holding u now => KeepsTimes userId c.pend ∧ (u = userId → .user userId ∈ c.held ∧
      (∀ v, c.snap = some v → v.sendTimes userId = times) ∧
      ∀ t, now = some t → CountsAll userId c times clock t)
  | .counted u t seen => KeepsTimes userId c.pend ∧
      (u = userId → seen.sendTimes userId = times ∧ CountsAll userId c times clock t)
  | .sent u t => (u ≠ userId → KeepsTimes userId c.pend) ∧
      (u = userId → (∀ db, (c.pend db).sendTimes userId = db.sendTimes userId ++ [t]) ∧
        Admits A q.resend times t ∧ CountsAll userId c times clock t)

/-- **The invariant** of the sends to a user; `resends` says which calls are resends. -/
structure Sending (A : AppEnv) (userId : ℕ) (resends : ι → Bool) (s : Sys AuthSig ι α)
    (g : ι → SendState) : Prop where
  resend : ∀ i, (g i).resend = resends i
  holds : ∀ i, (g i).Holds A userId (s.conn i) (s.db.sendTimes userId) s.now
  clock : ∀ b ∈ s.db.sendTimes userId, b ≤ s.now
  windows : WithinWindows A.emailMfaMaxSendsPerHour (minutes 60) (s.db.sendTimes userId)

/-- The user whose row a step locks. -/
def userLocked : Label AuthSig → Option ℕ
  | .wrote (.mfa (.lockUser userId)) _ _ => some userId
  | _ => none

/-- **The row is locked by a call that is up to date**: since its transaction began to read,
no code was committed for the user. -/
def LocksCurrent (userId : ℕ) (s : Sys AuthSig ι α) (i : ι) (ℓ : Label AuthSig) : Prop :=
  userLocked ℓ = some userId → ∀ v ∈ (s.conn i).snap, v.sendTimes userId = s.db.sendTimes userId

instance (userId : ℕ) (s : Sys AuthSig ι α) (i : ι) (ℓ : Label AuthSig) :
    Decidable (LocksCurrent userId s i ℓ) := inferInstanceAs (Decidable (_ → _))

variable {s : Sys AuthSig ι α} {g : ι → SendState} {resends : ι → Bool} {i j : ι}
  {ℓ : Label AuthSig} {c : Conn AuthSig} {times times' : List ℕ} {clock clock' t : ℕ} {q : SendState}

theorem CountsAll.mono (h : CountsAll userId c times clock t) (hclock : clock ≤ clock')
    (htimes : .user userId ∈ c.held → times' = times) : CountsAll userId c times' clock' t := by
  obtain ⟨hheld, hle, hall⟩ := h
  rw [htimes hheld]
  exact ⟨hheld, hle.trans hclock, hall⟩

/-- It goes on holding while time passes, and no code is committed under a lock. -/
theorem SendState.Holds.mono (h : q.Holds A userId c times clock) (hclock : clock ≤ clock')
    (htimes : .user userId ∈ c.held → times' = times) : q.Holds A userId c times' clock' := by
  obtain ⟨resend, stage⟩ := q
  cases stage with
  | before => exact h
  | ended => exact h
  | holding u now =>
    refine ⟨h.1, fun hu => ?_⟩
    obtain ⟨hheld, hsnap, hnow⟩ := h.2 hu
    exact ⟨hheld, fun v hv => (hsnap v hv).trans (htimes hheld).symm,
      fun t ht => (hnow t ht).mono hclock htimes⟩
  | counted u t seen =>
    refine ⟨h.1, fun hu => ?_⟩
    obtain ⟨hseen, hcounts⟩ := h.2 hu
    exact ⟨hseen.trans (htimes hcounts.1).symm, hcounts.mono hclock htimes⟩
  | sent u t =>
    refine ⟨h.1, fun hu => ?_⟩
    obtain ⟨hpend, hadmits, hcounts⟩ := h.2 hu
    exact ⟨hpend, (htimes hcounts.1).symm ▸ hadmits, hcounts.mono hclock htimes⟩

/-- What a call has pending for the user: nothing, or the code it was let through to send. -/
theorem SendState.Holds.pends (h : q.Holds A userId c times clock) :
    KeepsTimes userId c.pend ∨
      ∃ t, (∀ db, (c.pend db).sendTimes userId = db.sendTimes userId ++ [t]) ∧
        Admits A q.resend times t ∧ CountsAll userId c times clock t := by
  obtain ⟨resend, stage⟩ := q
  cases stage with
  | before => exact .inl h
  | ended => exact .inl h
  | holding u now => exact .inl h.1
  | counted u t seen => exact .inl h.1
  | sent u t =>
    by_cases hu : u = userId
    · exact .inr ⟨t, h.2 hu⟩
    · exact .inl (h.1 hu)

/-- **What a step commits** for the user: nothing, or a code that was let through. -/
theorem Sending.committed (h : Sending A userId resends s g) (i : ι) (ℓ : Label AuthSig) :
    (s.dbAfter i ℓ).sendTimes userId = s.db.sendTimes userId ∨
      ∃ t, (s.dbAfter i ℓ).sendTimes userId = s.db.sendTimes userId ++ [t] ∧
        Admits A (resends i) (s.db.sendTimes userId) t ∧
        CountsAll userId (s.conn i) (s.db.sendTimes userId) s.now t := by
  by_cases hcommits : Rows.Commits ℓ
  · rw [hcommits.dbAfter]
    rcases (h.holds i).pends with hkeeps | ⟨t, hpend, hadmits, hcounts⟩
    · exact .inl (hkeeps s.db)
    · rw [h.resend i] at hadmits
      exact .inr ⟨t, hpend s.db, hadmits, hcounts⟩
  · rw [Rows.dbAfter_of_not_commits hcommits]
    exact .inl rfl

/-- A statement that sends nothing leaves a call where it is. -/
theorem SendState.Holds.wrote_aside {stmt : Stmt} {seen : Database} {eff : Effect Database RowKey}
    (h : q.Holds A userId c times clock) (hstmt : stmt.SendsNothing)
    (hden : denote stmt seen = .ok eff) :
    q.Holds A userId
      { c with pend := eff.delta ∘ c.pend, held := eff.locks ++ c.held } times clock := by
  have hdelta : KeepsTimes userId eff.delta := hstmt.keepsTimes hden
  have hkeeps : KeepsTimes userId c.pend → KeepsTimes userId (eff.delta ∘ c.pend) :=
    fun hpend db => (hdelta _).trans (hpend db)
  have hcounts : ∀ {t}, CountsAll userId c times clock t → CountsAll userId
      { c with pend := eff.delta ∘ c.pend, held := eff.locks ++ c.held } times clock t :=
    fun h => ⟨List.mem_append_right _ h.1, h.2⟩
  obtain ⟨resend, stage⟩ := q
  cases stage with
  | before => exact hkeeps h
  | ended => exact hkeeps h
  | holding u now =>
    refine ⟨hkeeps h.1, fun hu => ?_⟩
    obtain ⟨hheld, hsnap, hnow⟩ := h.2 hu
    exact ⟨List.mem_append_right _ hheld, hsnap, fun t ht => hcounts (hnow t ht)⟩
  | counted u t seen =>
    refine ⟨hkeeps h.1, fun hu => ?_⟩
    obtain ⟨hseen, hall⟩ := h.2 hu
    exact ⟨hseen, hcounts hall⟩
  | sent u t =>
    refine ⟨fun hu => hkeeps (h.1 hu), fun hu => ?_⟩
    obtain ⟨hpend, hadmits, hall⟩ := h.2 hu
    exact ⟨fun db => (hdelta _).trans (hpend db), hadmits, hcounts hall⟩

/-- **A statement of its stage.** A code is inserted after a count of all that was sent. -/
theorem SendState.Holds.wrote {stmt : Stmt} {seen : Database} {eff : Effect Database RowKey}
    (h : q.Holds A userId c times clock) (hallows : q.Allows A stmt)
    (hden : denote stmt seen = .ok eff)
    (hcurrent : stmt = .mfa (.lockUser userId) → ∀ v ∈ c.snap, v.sendTimes userId = times) :
    SendState.Holds A userId { c with pend := eff.delta ∘ c.pend, held := eff.locks ++ c.held }
      times clock { q with stage := q.stage.wrote stmt } := by
  by_cases hstmt : stmt.SendsNothing
  · rw [hstmt.wrote]
    exact h.wrote_aside hstmt hden
  cases stmt with
  | mfa stmt =>
    cases stmt with
    | lockUser u =>
      obtain rfl := Except.ok.inj hden
      obtain ⟨resend, stage⟩ := q
      obtain rfl : stage = .before := hallows
      refine ⟨h, ?_⟩
      rintro rfl
      exact ⟨List.mem_cons_self .., fun v hv => hcurrent rfl v hv, fun t ht => nomatch ht⟩
    | insertEmailOtp row =>
      obtain ⟨resend, stage⟩ := q
      obtain ⟨counted, hstage, hlimit⟩ := hallows
      obtain rfl : stage = .counted row.userId row.createdAt counted := hstage
      simp only [denote, MfaStmt.denote] at hden
      split at hden
      · cases hden
      obtain rfl := Except.ok.inj hden
      refine ⟨fun hu db => ?_, fun hu => ⟨fun db => ?_, ?_, ?_⟩⟩
      · show ({ (c.pend db) with mfaEmailOtps := (c.pend db).mfaEmailOtps ++ [row] } :
          Database).sendTimes userId = _
        rw [sendTimes_insert, if_neg hu, List.append_nil]
        exact h.1 db
      · show ({ (c.pend db) with mfaEmailOtps := (c.pend db).mfaEmailOtps ++ [row] } :
          Database).sendTimes userId = _
        rw [sendTimes_insert, if_pos hu, h.1 db]
      · have hadmits := sendLimit_none hlimit
        rw [hu, (h.2 hu).1] at hadmits
        exact hadmits
      · exact ⟨List.mem_append_right _ (h.2 hu).2.1, (h.2 hu).2.2⟩
    | _ => exact absurd hallows hstmt
  | _ => exact absurd hallows hstmt

theorem after_now_le (hen : s.Enabled i ℓ) (p : Prog AuthSig α) [DecidableEq ι] :
    s.now ≤ (s.after i ℓ p).now := by
  cases ℓ with
  | ticked t => exact hen
  | _ => exact Nat.le_refl _

/-- What holds of the call that makes the step. -/
theorem Sending.holds_self [DecidableEq ι] (h : Sending A userId resends s g) (hen : s.Enabled i ℓ)
    (hok : LocksCurrent userId s i ℓ) (hv : (sends A).Vouched (g i) ℓ) (p : Prog AuthSig α) :
    SendState.Holds A userId (s.connAfter i ℓ) ((s.dbAfter i ℓ).sendTimes userId)
      (s.after i ℓ p).now ((sends A).next (g i) ℓ) := by
  have hi := h.holds i
  have hover : s.connAfter i ℓ = Conn.idle AuthSig → SendState.Holds A userId (s.connAfter i ℓ)
      ((s.dbAfter i ℓ).sendTimes userId) (s.after i ℓ p).now ⟨(g i).resend, .ended⟩ := by
    intro hidle
    rw [hidle]
    exact fun _ => rfl
  cases ℓ with
  | read v =>
    obtain rfl : v = s.view i := hen
    generalize g i = q at hi ⊢
    obtain ⟨resend, stage⟩ := q
    cases stage with
    | holding u now =>
      -- the first read takes the snapshot, and any read shows what it has
      have hsnap : u = userId →
          ((s.conn i).snap.getD s.db).sendTimes userId = s.db.sendTimes userId := by
        intro hu
        cases hbegun : (s.conn i).snap with
        | none => rfl
        | some v => exact (hi.2 hu).2.1 v hbegun
      cases now with
      | none =>
        refine ⟨hi.1, fun hu => ⟨(hi.2 hu).1, fun v hv => ?_, fun t ht => nomatch ht⟩⟩
        obtain rfl := Option.some.inj (show some ((s.conn i).snap.getD s.db) = some v from hv)
        exact hsnap hu
      | some t => exact ⟨hi.1, fun hu => ⟨(hi.1 _).trans (hsnap hu), (hi.2 hu).2.2 t rfl⟩⟩
    | _ => exact hi
  | wrote stmt seen eff =>
    obtain ⟨rfl, hden, -⟩ := hen
    exact hi.wrote hv hden fun hlock v hsnap => hok (by rw [hlock]; rfl) v hsnap
  | ticked t =>
    have hclock : s.now ≤ t := hen
    generalize g i = q at hi ⊢
    obtain ⟨resend, stage⟩ := q
    cases stage with
    | holding u now =>
      refine ⟨hi.1, fun hu => ⟨(hi.2 hu).1, (hi.2 hu).2.1, fun t' ht' => ?_⟩⟩
      obtain rfl := Option.some.inj ht'
      exact ⟨(hi.2 hu).1, Nat.le_refl _, fun b hb => (h.clock b hb).trans hclock⟩
    | _ => exact hi.mono hclock fun _ => rfl
  | committed => exact hover rfl
  | commitLost x => exact hover rfl
  | rolledBack => exact hover rfl
  | commitFailed x => exact hover rfl
  | crashed x => exact hover rfl
  | _ => exact hi

/-- **Every step keeps it**, if the row is locked by calls that are up to date. -/
theorem Sending.after [DecidableEq ι] (h : Sending A userId resends s g) (hx : s.Exclusive)
    (hen : s.Enabled i ℓ) (hok : LocksCurrent userId s i ℓ) (hv : (sends A).Vouched (g i) ℓ)
    (p : Prog AuthSig α) :
    Sending A userId resends (s.after i ℓ p) (Function.update g i ((sends A).next (g i) ℓ)) where
  resend j := by
    by_cases hj : j = i
    · subst hj
      rw [Function.update_self, ← h.resend j]
      cases ℓ <;> rfl
    · rw [Function.update_of_ne hj]
      exact h.resend j
  holds := by
    rw [Sys.after_db]
    refine Sys.forall_after (P := fun (c : Conn AuthSig) (q : SendState) =>
      q.Holds A userId c ((s.dbAfter i ℓ).sendTimes userId) (s.after i ℓ p).now)
      (h.holds_self hen hok hv p) fun j hj => ?_
    refine (h.holds j).mono (after_now_le hen p) fun hheld => ?_
    rcases h.committed i ℓ with hsame | ⟨t, -, -, hcounts⟩
    · exact hsame
    · exact absurd hcounts.1 (hx j i hj _ hheld)
  clock b hb := by
    refine le_trans ?_ (after_now_le hen p)
    rw [Sys.after_db] at hb
    rcases h.committed i ℓ with hsame | ⟨t, hsent, -, hcounts⟩
    · rw [hsame] at hb
      exact h.clock b hb
    · rw [hsent] at hb
      rcases List.mem_append.mp hb with hb | hb
      · exact h.clock b hb
      · rw [List.mem_singleton.mp hb]
        exact hcounts.2.1
  windows := by
    rw [Sys.after_db]
    rcases h.committed i ℓ with hsame | ⟨t, hsent, hadmits, -⟩
    · rw [hsame]
      exact h.windows
    · rw [hsent]
      exact h.windows.append hadmits.1

theorem sends_keep [DecidableEq ι] (resends : ι → Bool) :
    (sends A).Keeps (LocksCurrent userId : Sys AuthSig ι α → ι → Label AuthSig → Prop)
      (fun _ _ _ => True) (Sending A userId resends) where
  sees := fun _ _ _ _ => trivial
  after := fun p hx h hen hok _ hv => h.after hx hen hok hv p

/-! ## The result -/

/-- Any number of calls, about to start. -/
def codeStart (calls : ι → CodeCall A) (db : Database) (now next : ℕ) : Sys AuthSig ι CodeReply :=
  Sys.start db now next fun i => (calls i).op.close

/-- **How often codes are mailed**, in every state of every run, whatever fails, in which the
row of the user is locked by calls that are up to date: in no hour more often than the limit,
and what a resend commits is the cooldown after everything before it. -/
theorem email_sends_limited [DecidableEq ι] (calls : ι → CodeCall A) {db : Database} {now next : ℕ}
    (hclock : ∀ b ∈ db.sendTimes userId, b ≤ now)
    (hwindows : WithinWindows A.emailMfaMaxSendsPerHour (minutes 60) (db.sendTimes userId))
    {t : Sys AuthSig ι CodeReply}
    (hrun : Sys.Run True (LocksCurrent userId) (codeStart calls db now next) t) :
    WithinWindows A.emailMfaMaxSendsPerHour (minutes 60) (t.db.sendTimes userId) ∧
      ∀ i ℓ t', t.Step True i ℓ t' → t'.db.sendTimes userId = t.db.sendTimes userId ∨
        ∃ c, t'.db.sendTimes userId = t.db.sendTimes userId ++ [c] ∧
          (∀ b ∈ t.db.sendTimes userId, b ≤ c) ∧
          ((calls i).resends = true → ∀ b ∈ t.db.sendTimes userId,
            b + seconds A.emailMfaResendCooldownSeconds ≤ c) := by
  have hstart : Sending A userId (fun i => (calls i).resends) (codeStart calls db now next)
      fun i => ⟨(calls i).resends, .before⟩ :=
    ⟨fun _ => rfl, fun _ _ => rfl, hclock, hwindows⟩
  obtain ⟨-, g, hsending, -⟩ := Prog.Follows.run (sends_keep _) (fun _ _ _ _ => trivial)
    (Sys.exclusive_start db now next _) hstart (fun i => (calls i).follows_sends) hrun
  refine ⟨hsending.windows, ?_⟩
  rintro i ℓ t' ⟨p, -, -, rfl⟩
  rw [Sys.after_db]
  refine (hsending.committed i ℓ).imp_right ?_
  rintro ⟨c, hsent, hadmits, hcounts⟩
  refine ⟨c, hsent, hcounts.2.2, fun hresend b hb => ?_⟩
  have hwaited := hadmits.2 hresend b hb
  have hbefore := hcounts.2.2 b hb
  omega

end

/-! ## Two resends -/

/-- A user who was mailed four codes ten minutes ago. -/
def mailedFour : Database := { Database.empty with
  users := [{ id := 7, email := some "ann@lab.org", status := .active }]
  mfaEmailOtps := [1, 2, 3, 4].map fun id =>
    { id := id, userId := 7, challengeJti := 3, codeHash := 0, attempts := 0, createdAt := 0,
      expiresAt := minutes 5 } }

/-- They ask for another in two tabs. -/
def twoResends : Sys AuthSig Bool CodeReply :=
  codeStart (fun _ => .resend (A := .symbolic) (.hs256,
    { type := some .mfaChallenge, userId := some 7, authMethod := some .password, jti := some 3 })
    true) mailedFour (minutes 10) 5

/-- One after the other, the second has to wait. -/
theorem resends_in_turn : ∃ s,
    twoResends.follow (LocksCurrent 7) (List.replicate 15 false ++ List.replicate 8 true) = some s ∧
      (s.proc true).reply? = some (.error (.emailMfaResendLimited 60)) ∧
      (s.db.sendTimes 7).length = 5 ∧ WithinWindows 5 (minutes 60) (s.db.sendTimes 7) := by
  have hplays : (twoResends.follow (LocksCurrent 7)
      (List.replicate 15 false ++ List.replicate 8 true)).isSome := by decide +kernel
  have hends : (twoResends.follow (LocksCurrent 7)
      (List.replicate 15 false ++ List.replicate 8 true)).all (fun s => decide
        ((s.proc true).reply? = some (.error (.emailMfaResendLimited 60)) ∧
          (s.db.sendTimes 7).length = 5)) = true := by decide +kernel
  obtain ⟨s, hs⟩ := Option.isSome_iff_exists.mp hplays
  rw [hs] at hends
  obtain ⟨hreply, hlength⟩ := of_decide_eq_true hends
  have hwindows : WithinWindows AppEnv.symbolic.emailMfaMaxSendsPerHour (minutes 60)
      (mailedFour.sendTimes 7) :=
    fun t => (List.length_filter_le _ _).trans (by decide)
  exact ⟨s, hs, hreply, hlength, (email_sends_limited _ (by decide) hwindows
    (Sys.run_of_follow _ hs).mayFail).1⟩

/-- **Six codes in an hour**, two of them resends at the same time, when both calls have read
before either holds the row. -/
theorem resends_cross : ∃ s, Sys.Run True (fun _ _ _ => True) twoResends s ∧
    (s.proc false).reply? = some (.ok (.sent 60)) ∧ (s.proc true).reply? = some (.ok (.sent 60)) ∧
    s.db.sendTimes 7 = [0, 0, 0, 0, minutes 10, minutes 10] ∧
    ¬ WithinWindows AppEnv.symbolic.emailMfaMaxSendsPerHour (minutes 60) (s.db.sendTimes 7) := by
  have hplays : (twoResends.follow (fun _ _ _ => True) (List.replicate 4 true ++
      List.replicate 15 false ++ List.replicate 11 true)).isSome := by decide +kernel
  have hends : (twoResends.follow (fun _ _ _ => True) (List.replicate 4 true ++
      List.replicate 15 false ++ List.replicate 11 true)).all (fun s => decide
        ((s.proc false).reply? = some (.ok (.sent 60)) ∧
          (s.proc true).reply? = some (.ok (.sent 60)) ∧
          s.db.sendTimes 7 = [0, 0, 0, 0, minutes 10, minutes 10])) = true := by decide +kernel
  obtain ⟨s, hs⟩ := Option.isSome_iff_exists.mp hplays
  rw [hs] at hends
  obtain ⟨hfirst, hsecond, htimes⟩ := of_decide_eq_true hends
  refine ⟨s, (Sys.run_of_follow _ hs).mayFail, hfirst, hsecond, htimes, fun hwindows => ?_⟩
  have hfull := hwindows 0
  rw [htimes] at hfull
  revert hfull
  decide

end OmniAuth
