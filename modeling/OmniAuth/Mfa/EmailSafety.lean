import OmniAuth.Txn.Failing
import OmniAuth.Mfa.EmailRace

/-!
# What mailed codes promise

The calls keep to the discipline of `Mfa.EmailCodes`, whatever they read. A verification
that succeeds has consumed one row, its own; an issuance that fails has changed nothing.
-/

namespace OmniAuth

open Txn Prog

variable {A : AppEnv} {α β : Type}

/-- A call: to `issue_code`, to `resend_code`, or to `verify_code` and the commit of its
caller, if it makes one. -/
inductive CodeCall (A : AppEnv)
  | issue (user : User) (challengeToken : A.Token) (resend mailSent : Bool)
  | resend (challengeToken : A.Token) (mailSent : Bool)
  | verify (userId : ℕ) (challengeJti : Option ℕ) (code : String) (commitAfter : Bool)

inductive CodeReply
  | sent (cooldownSeconds : ℕ)
  | verified (ok : Bool)
  deriving DecidableEq

def CodeCall.op : CodeCall A → Op CodeReply
  | issue user challengeToken again mailSent => do
      let cooldown ← issueCode A user challengeToken again mailSent
      return .sent cooldown
  | resend challengeToken mailSent => do
      let cooldown ← resendCode A challengeToken mailSent
      return .sent cooldown
  | verify userId challengeJti code commitAfter => do
      let ok ← verifyCode A userId challengeJti code
      if commitAfter then do
        commitNow
        return .verified ok
      else return .verified ok

/-- The call sends a code. -/
def CodeCall.Sends : CodeCall A → Prop
  | verify _ _ _ _ => False
  | _ => True

/-! ## The calls keep to the discipline -/

variable {maxAttempts : ℕ}

/-- Reading leaves a call at its stage. -/
theorem codes_reading_bind {o : Op α} {k : α → Op β} {stage : CodeStage} {q : CodeState}
    {post : Except Err β → CodeState → Prop} (h : o.Within True (Reading True))
    (hq : q.stage = stage)
    (hk : ∀ a q, q.stage = stage → (k a).Follows (codes maxAttempts) True post q)
    (hx : ∀ x q, post (.error x) q) : (o.bind k).Follows (codes maxAttempts) True post q := by
  refine h.follows_bind (T := fun q => q.stage = stage) (fun q ℓ _ hℓ => ?_) (fun q ℓ hst hℓ => ?_)
    hq hk fun x q _ => hx x q
  · cases ℓ <;> trivial
  · cases ℓ <;> first | exact hst | exact hℓ.elim

/-- A statement its stage allows leads to the next. -/
theorem codes_execute_bind {stmt : Stmt} {k : Unit → Op β} {stage next : CodeStage} {q : CodeState}
    {post : Except Err β → CodeState → Prop} (hq : q.stage = stage)
    (hallows : stage.Allows maxAttempts stmt) (hnext : ∀ seen, stage.wrote stmt seen = next)
    (hk : ∀ q, q.stage = next → (k ()).Follows (codes maxAttempts) True post q)
    (hx : ∀ x q, post (.error x) q) :
    ((execute stmt).bind k).Follows (codes maxAttempts) True post q := by
  refine follows_returning_bind.mpr ⟨fun seen eff _ _ => ⟨?_, hk _ ?_⟩,
    fun seen x _ _ => ⟨trivial, hx _ _⟩, fun _ x => hx _ _⟩
  · show q.stage.Allows maxAttempts stmt
    rw [hq]
    exact hallows
  · show q.stage.wrote stmt seen = next
    rw [hq]
    exact hnext seen

/-- An uncommitted audit row may be written at any stage. -/
theorem codes_logEvent_bind {event : AuditEvent} {k : Unit → Op β} {stage : CodeStage}
    {q : CodeState} {post : Except Err β → CodeState → Prop} (hq : q.stage = stage)
    (hk : ∀ q, q.stage = stage → (k ()).Follows (codes maxAttempts) True post q)
    (hx : ∀ x q, post (.error x) q) :
    ((logEvent event false).bind k).Follows (codes maxAttempts) True post q := by
  refine Follows.bind (M := fun _ q => q.stage = stage) ?_ fun _ q hq => hk q hq
  refine codes_reading_bind time_within hq (fun t q hq => ?_) fun x q => hx x q
  refine codes_execute_bind hq trivial (fun _ => rfl) (fun q hq => ?_) fun x q => hx x q
  exact hq

theorem sendCode_codes {user : User} {jti now : ℕ} {resend mailSent : Bool} {q : CodeState}
    (hq : q.stage = .cleared user.id) :
    (sendCode A user jti now resend mailSent).Follows (codes maxAttempts) True
      (fun _ _ => True) q := by
  refine codes_reading_bind draw_within hq (fun n q hq => ?_) fun x q => trivial
  split
  · trivial
  refine Follows.orElse (M := fun _ _ => True) ?_ fun x q _ => trivial
  refine codes_reading_bind draw_within hq (fun id q hq => ?_) fun x q => trivial
  refine codes_execute_bind hq ⟨rfl, rfl, rfl⟩ (fun _ => rfl) (fun q hq => ?_) fun x q => trivial
  split
  · trivial
  refine codes_logEvent_bind hq (fun q _ => ?_) fun x q => trivial
  exact ⟨fun _ => ⟨trivial, trivial⟩, fun _ x => ⟨trivial, trivial, trivial⟩⟩

theorem issueCode_codes {user : User} {challengeToken : A.Token} {resend mailSent : Bool}
    {q : CodeState} (hq : q.stage = .idle) :
    (issueCode A user challengeToken resend mailSent).Follows (codes maxAttempts) True
      (fun _ _ => True) q := by
  unfold issueCode
  split
  · trivial
  refine codes_reading_bind time_within hq (fun now q hq => ?_) fun x q => trivial
  split
  · trivial
  split
  · trivial
  refine codes_reading_bind (query_within _) hq (fun revoked q hq => ?_) fun x q => trivial
  split
  · trivial
  refine codes_execute_bind hq rfl (fun _ => rfl) (fun q hq => ?_) fun x q => trivial
  refine codes_reading_bind time_within hq (fun now q hq => ?_) fun x q => trivial
  refine codes_reading_bind (query_within _) hq (fun limit q hq => ?_) fun x q => trivial
  split
  · trivial
  refine codes_execute_bind hq rfl (fun _ => rfl) (fun q hq => ?_) fun x q => trivial
  exact (sendCode_codes hq).handle fun r q _ => by cases r <;> trivial

theorem resendCode_codes {challengeToken : A.Token} {mailSent : Bool} {q : CodeState}
    (hq : q.stage = .idle) :
    (resendCode A challengeToken mailSent).Follows (codes maxAttempts) True
      (fun _ _ => True) q := by
  refine codes_reading_bind time_within hq (fun now q hq => ?_) fun x q => trivial
  split
  · trivial
  refine codes_reading_bind (query_within _) hq (fun user q hq => ?_) fun x q => trivial
  split
  · trivial
  · exact issueCode_codes hq

/-- The call has won a row of `v` that is for `userId` and the challenge. -/
def Redeemed (userId : ℕ) (challengeJti : Option ℕ) (q : CodeState) : Prop :=
  ∃ v, q.saw = some v ∧ ∃ o ∈ v.mfaEmailOtps, q.stage = .won o.id ∧ o.userId = userId ∧
    challengeJti = some o.challengeJti

theorem countWrongCode_codes {row : MFAEmailOTP} {now : ℕ} {q : CodeState}
    (hq : q.stage = .idle) :
    (countWrongCode A row now).Follows (codes A.emailMfaMaxAttempts) True
      (fun r _ => r ≠ .ok true) q := by
  refine follows_returning_bind.mpr ⟨fun seen eff _ _ => ⟨⟨hq, rfl⟩, ?_⟩,
    fun seen x _ _ => ⟨trivial, nofun⟩, fun _ x => nofun⟩
  split
  · exact nofun
  rename_i hchanged
  have hcount : ∃ o ∈ seen.mfaEmailOtps, o.Countable row.id A.emailMfaMaxAttempts := by
    by_contra hnone
    exact hchanged (decide_eq_false hnone)
  have hcounted : q.stage.wrote (.mfa (.countOtpAttempt row.id A.emailMfaMaxAttempts)) seen =
      .counted row.id := if_pos hcount
  refine codes_reading_bind (query_within _) hcounted (fun attempts q hq => ?_) fun x q => nofun
  split
  · exact nofun
  exact codes_execute_bind hq rfl (fun _ => rfl) (fun q _ => nofun) fun x q => nofun

/-- **A code that is accepted was consumed by this call.** -/
theorem consumeCode_codes {row : MFAEmailOTP} {candidate now : ℕ} {v : Database} {q : CodeState}
    (hq : q.stage = .idle) (hsaw : q.saw = some v) :
    (consumeCode A row candidate now).Follows (codes A.emailMfaMaxAttempts) True
      (fun r q => r = .ok true → q.saw = some v ∧ q.stage = .won row.id) q := by
  refine follows_returning_bind.mpr ⟨fun seen eff _ _ => ⟨⟨hq, rfl⟩, ?_⟩,
    fun seen x _ _ => ⟨trivial, nofun⟩, fun _ x => nofun⟩
  split
  · exact nofun
  rename_i hclaimed
  have hpos : 0 < seen.consumableOtps row.id candidate now A.emailMfaMaxAttempts := by
    omega
  obtain ⟨o, ho⟩ := List.length_pos_iff_exists_mem.mp hpos
  obtain ⟨hmem, hconsume⟩ := List.mem_filter.mp ho
  have hstage : q.stage.wrote (.mfa (.consumeEmailOtp row.id candidate now A.emailMfaMaxAttempts))
      seen = .claimed row.id := if_pos ⟨o, hmem, of_decide_eq_true hconsume⟩
  refine follows_commitNow_bind.mpr ⟨fun _ => ⟨trivial, fun _ => ⟨hsaw, ?_⟩⟩,
    fun _ x => ⟨nofun, trivial, nofun⟩⟩
  exact congrArg CodeStage.committed hstage

theorem Database.openOtp_spec {db : Database} {userId : ℕ} {jti : Option ℕ} {row : MFAEmailOTP}
    (h : db.openOtp userId jti = some row) :
    row ∈ db.mfaEmailOtps ∧ row.userId = userId ∧ jti = some row.challengeJti := by
  obtain ⟨jti, rfl, h⟩ := Option.bind_eq_some_iff.mp h
  have hmem := List.mem_of_mem_head? h
  unfold newestFirst at hmem
  obtain ⟨hmem, hrow⟩ := List.mem_filter.mp (List.mem_insertionSort _ |>.mp hmem)
  obtain ⟨huser, hjti, -⟩ := of_decide_eq_true hrow
  exact ⟨hmem, huser, congrArg some hjti.symm⟩

theorem verifyCode_codes {userId : ℕ} {jti : Option ℕ} {code : String} :
    (verifyCode A userId jti code).Follows (codes A.emailMfaMaxAttempts) True
      (fun r q => r = .ok true → Redeemed userId jti q) ⟨.idle, none, true⟩ := by
  refine follows_query_bind.mpr ⟨fun v _ => ⟨trivial, ?_⟩, fun _ x => nofun⟩
  refine follows_time_bind.mpr fun now _ => ?_
  have hsaw : ((codes A.emailMfaMaxAttempts).next ((codes A.emailMfaMaxAttempts).next
      ⟨.idle, none, true⟩ (.read v)) (.ticked now)).saw = some v := rfl
  split
  · exact nofun
  rename_i row hrow
  obtain ⟨hmem, huser, hjti⟩ := Database.openOtp_spec hrow
  split
  · exact nofun
  split
  · exact nofun
  split
  · exact nofun
  split
  · exact (countWrongCode_codes rfl).mono fun r q hr h => absurd h hr
  · refine (consumeCode_codes rfl hsaw).mono fun r q hr h => ?_
    obtain ⟨hsaw, hwon⟩ := hr h
    exact ⟨v, hsaw, row, hmem, hwon, huser, hjti⟩

/-- What a call's reply means. -/
def CodeCall.Means (call : CodeCall A) (r : Except Err CodeReply) (q : CodeState) : Prop :=
  match call with
  | verify userId jti _ _ => r = .ok (.verified true) → Redeemed userId jti q
  | _ => r ≠ .ok (.verified true)

theorem CodeCall.follows (call : CodeCall A) :
    call.op.close.Follows (codes A.emailMfaMaxAttempts) True call.Means ⟨.idle, none, true⟩ := by
  refine Follows.close ?_
  cases call with
  | issue user challengeToken again mailSent =>
    refine (issueCode_codes (q := ⟨.idle, none, true⟩) rfl).handle fun r q _ => ?_
    cases r <;> exact nofun
  | resend challengeToken mailSent =>
    refine (resendCode_codes (q := ⟨.idle, none, true⟩) rfl).handle fun r q _ => ?_
    cases r <;> exact nofun
  | verify userId jti code commitAfter =>
    refine verifyCode_codes.handle fun r q hr => ?_
    have hrolled : Redeemed userId jti q →
        Redeemed userId jti ((codes A.emailMfaMaxAttempts).next q .rolledBack) := by
      rintro ⟨v, hsaw, o, ho, hwon, hrow⟩
      exact ⟨v, hsaw, o, ho, congrArg CodeStage.lost hwon, hrow⟩
    cases r with
    | error x => exact nofun
    | ok ok =>
      show (if commitAfter then _ else _ : Op CodeReply).Follows _ _ _ _
      cases commitAfter with
      | false =>
        intro h
        cases h
        exact hrolled (hr rfl)
      | true =>
        refine ⟨fun _ => ⟨trivial, fun h => ?_⟩, fun _ x => ⟨nofun, trivial, nofun⟩⟩
        cases h
        obtain ⟨v, hsaw, o, ho, hwon, hrow⟩ := hr rfl
        exact ⟨v, hsaw, o, ho, congrArg (fun st => st.committed.lost) hwon, hrow⟩

/-! ## A failed issuance -/

theorem quiet_of_reading {o : Op α} (h : o.Within True (Reading True)) :
    o.Within True Label.Quiet :=
  h.mono fun ℓ hℓ => by cases ℓ <;> trivial

theorem execute_quiet (stmt : Stmt) : (execute stmt : Op Unit).Within True Label.Quiet :=
  within_returning (fun _ _ => trivial) (fun _ _ => trivial) fun _ _ => trivial

theorem logEvent_quiet (event : AuditEvent) : (logEvent event false).Within True Label.Quiet :=
  (quiet_of_reading time_within).bind fun _ => (execute_quiet _).bind fun _ => trivial

/-- Delivery, audit and commit are the last things that can fail, and the rollback undoes
the rest. -/
theorem sendCode_failsClean (user : User) (jti now : ℕ) (resend mailSent : Bool) :
    (sendCode A user jti now resend mailSent).FailsClean True := by
  refine (quiet_of_reading draw_within).failsClean_bind fun n => ?_
  split
  · exact Within.failsClean trivial
  refine FailsClean.orElse ?_ fun x => ⟨trivial, trivial⟩
  refine (quiet_of_reading draw_within).failsClean_bind fun id => ?_
  refine (execute_quiet _).failsClean_bind fun _ => ?_
  split
  · exact Within.failsClean trivial
  · exact (logEvent_quiet _).failsClean_bind fun _ => failsClean_commitNow

theorem issueCode_failsClean (user : User) (challengeToken : A.Token) (resend mailSent : Bool) :
    (issueCode A user challengeToken resend mailSent).FailsClean True := by
  unfold issueCode
  split
  · exact Within.failsClean trivial
  refine (quiet_of_reading time_within).failsClean_bind fun now => ?_
  split
  · exact Within.failsClean trivial
  split
  · exact Within.failsClean trivial
  refine (quiet_of_reading (query_within _)).failsClean_bind fun revoked => ?_
  split
  · exact Within.failsClean trivial
  refine (execute_quiet _).failsClean_bind fun _ => ?_
  refine (quiet_of_reading time_within).failsClean_bind fun now => ?_
  refine (quiet_of_reading (query_within _)).failsClean_bind fun limit => ?_
  split
  · exact Within.failsClean trivial
  refine (execute_quiet _).failsClean_bind fun _ => ?_
  exact (sendCode_failsClean user _ now resend mailSent).map _

theorem CodeCall.failsClean {call : CodeCall A} (h : call.Sends) :
    call.op.close.FailsClean True := by
  refine FailsClean.close ?_
  cases call with
  | issue user challengeToken again mailSent => exact (issueCode_failsClean _ _ _ _).map _
  | resend challengeToken mailSent =>
    refine FailsClean.map ?_ _
    refine (quiet_of_reading time_within).failsClean_bind fun now => ?_
    split
    · exact Within.failsClean trivial
    refine (quiet_of_reading (query_within _)).failsClean_bind fun user => ?_
    split
    · exact Within.failsClean trivial
    · exact issueCode_failsClean _ _ _ _
  | verify userId jti code commitAfter => exact h.elim

/-! ## The result -/

/-- Codes as a run may find them. -/
structure Database.CodesInOrder (maxAttempts : ℕ) (db : Database) : Prop where
  unique : (db.mfaEmailOtps.map (·.id)).Nodup
  sound : ∀ o ∈ db.mfaEmailOtps, o.Sound maxAttempts
  oneOpen : db.OneOpenCode

theorem Database.CodesInOrder.otpsSound {db : Database} (h : db.CodesInOrder maxAttempts)
    (l : RowKey) : OtpsSound maxAttempts l (otpRows.row db l) := by
  cases l with
  | emailOtp id =>
    refine ⟨length_filter_le_one ?_, fun o ho => h.sound o (Database.mem_otpsOf.mp ho).1⟩
    refine (List.pairwise_map.mp h.unique).imp fun hne ha hb => hne (ha.trans hb.symm)
  | _ => exact ⟨Nat.zero_le _, nofun⟩

variable {ι : Type}

theorem codeInv_start {db : Database} (h : db.CodesInOrder maxAttempts) (now next : ℕ)
    (proc : ι → Op α) :
    CodeInv db maxAttempts (Sys.start db now next proc) fun _ => ⟨.idle, none, true⟩ where
  guarded := otpRows.guarded_start db now next proc
  pending := codesEvolve.pending_start db now next proc
  snapshots := codesEvolve.snapshots_start db now next proc
  sound := h.otpsSound
  soundLatest _ := h.otpsSound
  oneOpen := h.oneOpen
  opens _ o ho hopen := .inl ⟨o, ho, rfl, rfl, hopen⟩
  stages _ := trivial
  winners _ _ _ _ := nofun
  since := codesEvolve.refl db
  fresh _ _ := nofun
  clean _ _ := rfl
  saw _ _ := nofun

/-- The verification `i` has accepted a code, with the row `id`. -/
structure AcceptedCode (calls : ι → CodeCall A) (db : Database) (s : Sys AuthSig ι CodeReply)
    (i : ι) (o : MFAEmailOTP) : Prop where
  mem : o ∈ s.db.mfaEmailOtps
  consumed : o.consumedAt.isSome = true
  bound : ∀ userId jti code commitAfter, calls i = .verify userId jti code commitAfter →
    o.userId = userId ∧ jti = some o.challengeJti
  unused : ∀ o' ∈ db.mfaEmailOtps, o'.id = o.id → o'.consumedAt = none

/-- **Mailed codes are safe.** In any interleaving of calls, whatever fails: each user has
one open code at most; no code runs past its attempts, and one that is consumed was open,
in time and within its attempts when it was; every verification that succeeds has
consumed a row of its own, which was for its user and its challenge and had not been
consumed before; and an issuance that answers with a failure has not changed the store,
unless the answer to its commit was lost. -/
theorem email_codes_safe [DecidableEq ι] (calls : ι → CodeCall A) {db : Database} {now next : ℕ}
    {s : Sys AuthSig ι CodeReply} (hdb : db.CodesInOrder A.emailMfaMaxAttempts)
    (hrun : Sys.Run True (fun _ _ _ => True)
      (Sys.start db now next fun i => (calls i).op.close) s) :
    s.db.OneOpenCode ∧
      (∀ o ∈ s.db.mfaEmailOtps, o.Sound A.emailMfaMaxAttempts) ∧
      (∃ row : ι → MFAEmailOTP,
        (∀ i, (s.proc i).reply? = some (.ok (.verified true)) →
          AcceptedCode calls db s i (row i)) ∧
        ∀ i j, (s.proc i).reply? = some (.ok (.verified true)) →
          (s.proc j).reply? = some (.ok (.verified true)) → i ≠ j → (row i).id ≠ (row j).id) ∧
      ∀ i x, (calls i).Sends → (s.proc i).reply? = some (.error x) →
        Sys.Run True (fun _ j ℓ => j = i → ¬ ℓ.Unanswered)
          (Sys.start db now next fun i => (calls i).op.close) s →
        Sys.Run True (fun s j ℓ => j = i → s.dbAfter j ℓ = s.db)
          (Sys.start db now next fun i => (calls i).op.close) s := by
  obtain ⟨-, g, hinv, hfol⟩ := Prog.Follows.run
    (codes_keep (fun _ _ _ => True) fun i => (calls i).Means)
    (fun _ i x q => by cases hcall : calls i <;> exact nofun)
    (Sys.exclusive_start db now next _) (codeInv_start hdb now next _)
    (fun i => (calls i).follows) hrun
  have hwon : ∀ i, (s.proc i).reply? = some (.ok (.verified true)) →
      ∃ o, AcceptedCode calls db s i o ∧ (g i).stage = .won o.id := by
    intro i hi
    have hmeans := (hfol i).reply hi
    cases hcall : calls i with
    | issue user challengeToken again mailSent =>
      rw [hcall] at hmeans
      exact absurd rfl hmeans
    | resend challengeToken mailSent =>
      rw [hcall] at hmeans
      exact absurd rfl hmeans
    | verify userId jti code commitAfter =>
      rw [hcall] at hmeans
      obtain ⟨v, hsaw, o, ho, hst, huser, hjti⟩ := hmeans rfl
      -- the row that was read is the one that is consumed now
      obtain ⟨o', ho', hid', huser', hjti', -⟩ := hinv.saw i v hsaw o ho
      have hstage := hinv.stages i
      rw [hst] at hstage
      obtain ⟨c, hc, hused⟩ := hstage
      have hsame : c = o' := (hinv.sound (.emailOtp o.id)).eq_of_mem hc
        (Database.mem_otpsOf.mpr ⟨ho', hid'⟩)
      refine ⟨o', ⟨ho', hsame ▸ hused, ?_, ?_⟩, by rw [hst, hid']⟩
      · intro userId' jti' code' commitAfter' hcall'
        rw [hcall] at hcall'
        cases hcall'
        rw [huser', hjti']
        exact ⟨huser, hjti⟩
      · intro b hb hbid
        refine hinv.fresh i o.id hst b (Database.mem_otpsOf.mpr ⟨hb, ?_⟩)
        rw [hbid, hid']
  refine ⟨hinv.oneOpen, fun o ho => ?_, ?_, fun i x hsends hr hrun => ?_⟩
  · exact (hinv.sound (.emailOtp o.id)).2 o (Database.mem_otpsOf_self ho)
  · have : Nonempty MFAEmailOTP := ⟨⟨0, 0, 0, 0, 0, 0, 0, none, none⟩⟩
    choose! row hrow using hwon
    refine ⟨row, fun i hi => (hrow i hi).1, fun i j hi hj hij heq => ?_⟩
    refine hinv.winners i j (row i).id hij (hrow i hi).2 ?_
    rw [heq]
    exact (hrow j hj).2
  · have huntouched := hrun.untouched (i := i) (fun s ℓ hok => hok rfl)
      (CodeCall.failsClean hsends) hr
    exact huntouched.mono fun s j ℓ hok => hok.2

/-! ## A run -/

/-- One code, mailed to user 7 for the challenge 3. -/
def oneCode : Database := { Database.empty with
  mfaEmailOtps := [{ id := 1, userId := 7, challengeJti := 3, codeHash := textNumber "000002"
                     attempts := 4, createdAt := 0, expiresAt := minutes 5 }] }

theorem oneCode_inOrder : oneCode.CodesInOrder AppEnv.symbolic.emailMfaMaxAttempts where
  unique := by decide
  sound := by
    intro o ho
    obtain rfl := List.mem_singleton.mp ho
    exact ⟨by decide, nofun⟩
  oneOpen := by
    intro o ho o' ho' _ _ _
    rw [List.mem_singleton.mp ho, List.mem_singleton.mp ho']

/-- The right code, twice. -/
def sameMailedCode : Bool → CodeCall AppEnv.symbolic :=
  fun _ => .verify 7 (some 3) "000002" false

def sameMailedCodeStart : Sys AuthSig Bool CodeReply :=
  Sys.start oneCode (minutes 1) 0 fun i => (sameMailedCode i).op.close

/-- Both have read the row before either consumes it. -/
def readTwice : List Bool := [false, false, true, true, false, false, false, true, true, true]

/-- Of the two, the first succeeds and the second does not. -/
theorem email_codes_safe_readTwice :
    ∃ s, sameMailedCodeStart.follow (fun _ _ _ => True) readTwice = some s ∧
      (s.proc false).reply? = some (.ok (.verified true)) ∧
      (s.proc true).reply? = some (.ok (.verified false)) ∧
      (∃ o, AcceptedCode sameMailedCode oneCode s false o) ∧ s.db.OneOpenCode := by
  have hplays : (sameMailedCodeStart.follow (fun _ _ _ => True) readTwice).isSome := by decide
  have hwinner : (sameMailedCodeStart.follow (fun _ _ _ => True) readTwice).all (fun s => decide
      ((s.proc false).reply? = some (.ok (.verified true)))) = true := by decide
  have hloser : (sameMailedCodeStart.follow (fun _ _ _ => True) readTwice).all (fun s => decide
      ((s.proc true).reply? = some (.ok (.verified false)))) = true := by decide
  obtain ⟨s, hs⟩ := Option.isSome_iff_exists.mp hplays
  rw [hs] at hwinner hloser
  have hwon := of_decide_eq_true hwinner
  obtain ⟨hone, -, ⟨row, hrow, -⟩, -⟩ := email_codes_safe sameMailedCode oneCode_inOrder
    (Sys.run_of_follow _ hs).mayFail
  exact ⟨s, hs, hwon, of_decide_eq_true hloser, ⟨row false, hrow false hwon⟩, hone⟩

end OmniAuth
