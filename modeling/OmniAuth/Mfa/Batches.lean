import OmniAuth.Mfa.Recovery
import OmniAuth.Txn.Rows

/-!
# Batches that interleave

Any number of calls for one user, statement by statement, whatever fails. A batch is one too
many when it is committed on top of codes its call has not invalidated; calls that keep to
themselves never do that.
-/

namespace OmniAuth

open Txn Prog

variable {α ι : Type} {A : AppEnv} {userId : ℕ} {s : Sys AuthSig ι α} {g : ι → RecoveryStage}
  {i j : ι} {ℓ : Label AuthSig} {db : Database}

/-! ## What is unused -/

theorem unused_useCodes (ids : List ℕ) (t : ℕ) (db : Database) :
    (Database.useCodes (fun c => c.id ∈ ids) t db).unusedRecoveryCodes userId =
      (db.unusedRecoveryCodes userId).filter (·.id ∉ ids) := by
  unfold Database.unusedRecoveryCodes Database.useCodes
  rw [List.filter_map, List.filter_filter]
  have hkept : ((fun c : MFARecoveryCode => decide (c.userId = userId ∧ c.usedAt = none)) ∘
      fun c => if decide (c.id ∈ ids) = true then { c with usedAt := some t } else c) =
      fun c => decide (c.id ∉ ids) && decide (c.userId = userId ∧ c.usedAt = none) := by
    funext c
    by_cases hc : c.id ∈ ids <;> simp [hc]
  rw [hkept]
  refine (List.map_congr_left fun c hc => ?_).trans (List.map_id _)
  have hfree := (List.mem_filter.mp hc).2
  rw [Bool.and_eq_true] at hfree
  rw [if_neg (by simpa using hfree.1)]
  rfl

theorem unused_append {row : MFARecoveryCode} (huser : row.userId = userId)
    (hunused : row.usedAt = none) (db : Database) :
    ({ db with mfaRecoveryCodes := db.mfaRecoveryCodes ++ [row] } : Database).unusedRecoveryCodes
      userId = db.unusedRecoveryCodes userId ++ [row] := by
  unfold Database.unusedRecoveryCodes
  rw [List.filter_append]
  simp [huser, hunused]

/-! ## What a call has pending -/

/-- The changes of the open transaction: none, the marks, or the rows. -/
def RecoveryStage.Pends (userId : ℕ) (stage : RecoveryStage) (pend : Database → Database) : Prop :=
  match stage with
  | found _ | ended => pend = id
  | marked ids => ∃ t, pend = Database.useCodes (fun c => c.id ∈ ids) t
  | adding n => n ≤ recoveryCodeCount ∧
      ∀ db, (pend db).recoveryCodesRemaining userId = db.recoveryCodesRemaining userId + n

/-- Every call has pending what its stage says. -/
def BatchPending (userId : ℕ) (s : Sys AuthSig ι α) (g : ι → RecoveryStage) : Prop :=
  ∀ i, (g i).Pends userId (s.conn i).pend

theorem RecoveryStage.Pends.wrote {stage : RecoveryStage} {pend : Database → Database} {stmt : Stmt}
    {seen : Database} {eff : Effect Database RowKey} (h : stage.Pends userId pend)
    (hallows : stage.Allows userId stmt) (hden : denote stmt seen = .ok eff) :
    (stage.wrote stmt).Pends userId (eff.delta ∘ pend) := by
  cases stmt with
  | insertAuditEvent event =>
    cases hden
    obtain rfl : stage = .adding recoveryCodeCount := hallows
    exact ⟨h.1, fun db => h.2 db⟩
  | mfa stmt =>
    cases stmt with
    | markRecoveryCodes ids t =>
      cases hden
      obtain rfl : stage = .found (some ids) := hallows
      refine ⟨t, ?_⟩
      rw [show pend = id from h]
      rfl
    | insertRecoveryCode row =>
      obtain ⟨huser, hunused, n, hn, hcleared⟩ := hallows
      simp only [denote, MfaStmt.denote] at hden
      split at hden
      · cases hden
      cases hden
      have hone : ∀ db : Database,
          ({ db with mfaRecoveryCodes := db.mfaRecoveryCodes ++ [row] } : Database).recoveryCodesRemaining
            userId = db.recoveryCodesRemaining userId + 1 := by
        intro db
        unfold Database.recoveryCodesRemaining
        rw [unused_append huser hunused, List.length_append]
        rfl
      rcases hcleared with rfl | ⟨rfl, rfl⟩
      · refine ⟨hn, fun db => ?_⟩
        show ({ (pend db) with mfaRecoveryCodes := (pend db).mfaRecoveryCodes ++ [row] } :
          Database).recoveryCodesRemaining userId = _
        rw [hone, h.2 db]
        omega
      · rw [show pend = id from h]
        exact ⟨hn, hone⟩
    | _ => exact hallows.elim
  | _ => exact hallows.elim

/-- **Every step keeps it.** -/
theorem BatchPending.after [DecidableEq ι] (h : BatchPending userId s g) (hen : s.Enabled i ℓ)
    (hv : (batches userId).Vouched (g i) ℓ) (p : Prog AuthSig α) :
    BatchPending userId (s.after i ℓ p) (Function.update g i ((batches userId).next (g i) ℓ)) := by
  refine Sys.forall_after (P := fun (c : Conn AuthSig) (q : RecoveryStage) =>
    q.Pends userId c.pend) ?_ fun j _ => h j
  have hi := h i
  have hover : (s.connAfter i ℓ) = Conn.idle AuthSig →
      RecoveryStage.ended.Pends userId (s.connAfter i ℓ).pend := by
    intro hidle
    rw [hidle]
    rfl
  have hcommitted : (s.connAfter i ℓ) = Conn.idle AuthSig →
      (g i).committed.Pends userId (s.connAfter i ℓ).pend := by
    intro hidle
    rw [hidle]
    cases hstage : g i with
    | marked ids => exact ⟨Nat.zero_le _, fun db => rfl⟩
    | _ => rfl
  cases ℓ with
  | read v =>
    show ((g i).saw userId v).Pends userId (s.conn i).pend
    cases hstage : g i with
    | found unused =>
      rw [hstage] at hi
      exact hi
    | _ =>
      rw [hstage] at hi
      exact hi
  | wrote stmt seen eff => exact hi.wrote hv hen.2.1
  | committed => exact hcommitted rfl
  | commitLost x => exact hcommitted rfl
  | rolledBack => exact hover rfl
  | commitFailed x => exact hover rfl
  | crashed x => exact hover rfl
  | _ => exact hi

theorem batches_keep [DecidableEq ι] (ok : Sys AuthSig ι α → ι → Label AuthSig → Prop)
    (post : ι → Except Err α → RecoveryStage → Prop) :
    (batches userId).Keeps ok post (BatchPending userId) where
  sees _ _ _ _ := trivial
  after p _ h hen _ _ hv := h.after hen hv p

/-- **What a commit does**: it leaves fewer codes unused, or it adds a whole batch. -/
theorem BatchPending.commits (h : BatchPending userId s g) (hcommits : Rows.Commits ℓ)
    (hv : (batches userId).Vouched (g i) ℓ) :
    (∃ ids, g i = .marked ids ∧ (s.latest i).unusedRecoveryCodes userId =
      (s.db.unusedRecoveryCodes userId).filter (·.id ∉ ids)) ∨
    g i = .adding recoveryCodeCount ∧ (s.latest i).recoveryCodesRemaining userId =
      s.db.recoveryCodesRemaining userId + recoveryCodeCount := by
  have hv : (∃ ids, g i = .marked ids) ∨ g i = .adding recoveryCodeCount := by
    cases ℓ with
    | committed => exact hv
    | commitLost x => exact hv
    | _ => exact hcommits.elim
  have hi := h i
  rcases hv with ⟨ids, hstage⟩ | hstage
  · rw [hstage] at hi
    obtain ⟨t, hpend⟩ := hi
    refine .inl ⟨ids, hstage, ?_⟩
    unfold Sys.latest
    rw [hpend, unused_useCodes]
  · rw [hstage] at hi
    exact .inr ⟨hstage, hi.2 s.db⟩

/-! ## The two conditions -/

/-- The step commits new codes. -/
def AddsCodes (userId : ℕ) (s : Sys AuthSig ι α) (i : ι) (ℓ : Label AuthSig) : Prop :=
  Rows.Commits ℓ ∧ s.db.recoveryCodesRemaining userId < (s.latest i).recoveryCodesRemaining userId

/-- New codes are committed only where no code is left. -/
def ClearWhenAdded (userId : ℕ) (s : Sys AuthSig ι α) (i : ι) (ℓ : Label AuthSig) : Prop :=
  AddsCodes userId s i ℓ → s.db.recoveryCodesRemaining userId = 0

/-- New codes are committed only while no other call is under way. -/
def AloneWhenAdded (userId : ℕ) (s : Sys AuthSig ι α) (i : ι) (ℓ : Label AuthSig) : Prop :=
  AddsCodes userId s i ℓ → ∀ j, j ≠ i → ¬ s.InFlight j

/-- At most one batch is unused. -/
def Database.OneBatch (db : Database) (userId : ℕ) : Prop :=
  db.recoveryCodesRemaining userId ≤ recoveryCodeCount

theorem BatchPending.oneBatch (h : BatchPending userId s g) (hone : s.db.OneBatch userId)
    (hv : (batches userId).Vouched (g i) ℓ) (hok : ClearWhenAdded userId s i ℓ) :
    (s.dbAfter i ℓ).OneBatch userId := by
  by_cases hcommits : Rows.Commits ℓ
  · rw [hcommits.dbAfter]
    rcases h.commits hcommits hv with ⟨ids, -, hunused⟩ | ⟨-, hadds⟩
    · refine le_trans ?_ hone
      unfold Database.recoveryCodesRemaining
      rw [hunused]
      exact List.length_filter_le _ _
    · have hzero := hok ⟨hcommits, by rw [hadds]; simp [recoveryCodeCount]⟩
      unfold Database.OneBatch
      omega
  · rw [Rows.dbAfter_of_not_commits hcommits]
    exact hone

/-! ## Calls that keep to themselves -/

/-- Every unused code is among these. -/
def Covered (userId : ℕ) (db : Database) (ids : List ℕ) : Prop :=
  ∀ c ∈ db.unusedRecoveryCodes userId, c.id ∈ ids

/-- What a call under way knows of the committed codes. -/
def RecoveryStage.Knows (userId : ℕ) (stage : RecoveryStage) (c : Conn AuthSig) (db : Database) :
    Prop :=
  match stage with
  | found unused =>
      (∀ v, c.snap = some v → Covered userId db ((v.unusedRecoveryCodes userId).map (·.id))) ∧
      ∀ ids, unused = some ids → Covered userId db ids
  | marked ids => Covered userId db ids
  | adding _ => Covered userId db []
  | ended => True

/-- What the calls under way know. -/
structure Apart (userId : ℕ) (s : Sys AuthSig ι α) (g : ι → RecoveryStage) : Prop where
  fresh : ∀ i, s.begun i = false → g i = .found none ∧ s.conn i = Conn.idle AuthSig
  knows : ∀ i, s.InFlight i → (g i).Knows userId (s.conn i) s.db

theorem RecoveryStage.Knows.mono {stage : RecoveryStage} {c : Conn AuthSig} {db db' : Database}
    (h : stage.Knows userId c db) (hle : ∀ ids, Covered userId db ids → Covered userId db' ids) :
    stage.Knows userId c db' := by
  cases stage with
  | found unused => exact ⟨fun v hv => hle _ (h.1 v hv), fun ids hids => hle _ (h.2 ids hids)⟩
  | marked ids => exact hle _ h
  | adding n => exact hle _ h
  | ended => trivial

theorem covered_self (db : Database) :
    Covered userId db ((db.unusedRecoveryCodes userId).map (·.id)) :=
  fun _ hc => List.mem_map_of_mem hc

/-- What is committed meanwhile takes codes away. -/
theorem BatchPending.covered (h : BatchPending userId s g) (hv : (batches userId).Vouched (g i) ℓ)
    (hnot : ¬ AddsCodes userId s i ℓ) {ids : List ℕ} (hids : Covered userId s.db ids) :
    Covered userId (s.dbAfter i ℓ) ids := by
  by_cases hcommits : Rows.Commits ℓ
  · rw [hcommits.dbAfter]
    rcases h.commits hcommits hv with ⟨marked, -, hunused⟩ | ⟨-, hadds⟩
    · intro c hc
      rw [hunused] at hc
      exact hids c (List.mem_filter.mp hc).1
    · exact absurd ⟨hcommits, by rw [hadds]; simp [recoveryCodeCount]⟩ hnot
  · rw [Rows.dbAfter_of_not_commits hcommits]
    exact hids

/-- What the call itself knows after its step. -/
theorem RecoveryStage.Knows.after (h : BatchPending userId s g)
    (hknows : (g i).Knows userId (s.conn i) s.db) (hen : s.Enabled i ℓ)
    (hv : (batches userId).Vouched (g i) ℓ) :
    ((batches userId).next (g i) ℓ).Knows userId (s.connAfter i ℓ) (s.dbAfter i ℓ) := by
  have hcommitted : s.dbAfter i ℓ = s.latest i → Rows.Commits ℓ →
      (g i).committed.Knows userId (s.connAfter i ℓ) (s.dbAfter i ℓ) := by
    intro hdb hcommits
    rw [hdb]
    rcases h.commits hcommits hv with ⟨ids, hstage, hunused⟩ | ⟨hstage, -⟩
    · -- what is marked was all there was
      rw [hstage] at hknows ⊢
      intro c hc
      rw [hunused] at hc
      obtain ⟨hc, hnot⟩ := List.mem_filter.mp hc
      exact absurd (hknows c hc) (of_decide_eq_true hnot)
    · rw [hstage]
      trivial
  cases ℓ with
  | read v =>
    obtain rfl : v = s.view i := hen
    show ((g i).saw userId (s.view i)).Knows userId (s.connAfter i (.read (s.view i))) s.db
    cases hstage : g i with
    | found unused =>
      have hpend := h i
      rw [hstage] at hknows hpend
      -- nothing is pending, so the read saw the snapshot, or what is committed
      have hview : Covered userId s.db
          (((s.conn i).snap.getD s.db).unusedRecoveryCodes userId |>.map (·.id)) := by
        cases hsnap : (s.conn i).snap with
        | none => exact covered_self s.db
        | some v => exact hknows.1 v hsnap
      have hsame : s.view i = (s.conn i).snap.getD s.db := by
        unfold Sys.view
        rw [show (s.conn i).pend = id from hpend]
        rfl
      refine ⟨fun v hv => ?_, fun ids hids => ?_⟩
      · obtain rfl := Option.some.inj (show some ((s.conn i).snap.getD s.db) = some v from hv)
        exact hview
      · obtain rfl := Option.some.inj hids
        rw [hsame]
        exact hview
    | _ =>
      rw [hstage] at hknows
      exact hknows
  | wrote stmt seen eff =>
    have hallows : (g i).Allows userId stmt := hv
    show ((g i).wrote stmt).Knows userId _ s.db
    cases stmt with
    | insertAuditEvent event =>
      have hstage : g i = .adding recoveryCodeCount := hallows
      rw [hstage] at hknows ⊢
      exact hknows
    | mfa stmt =>
      cases stmt with
      | markRecoveryCodes ids t =>
        have hstage : g i = .found (some ids) := hallows
        rw [hstage] at hknows
        exact hknows.2 ids rfl
      | insertRecoveryCode row =>
        obtain ⟨-, -, n, -, hstage | ⟨-, hstage⟩⟩ := hallows
        · rw [hstage] at hknows ⊢
          exact hknows
        · rw [hstage] at hknows ⊢
          exact hknows.2 [] rfl
      | _ => exact hallows.elim
    | _ => exact hallows.elim
  | committed => exact hcommitted rfl trivial
  | commitLost x => exact hcommitted rfl trivial
  | rolledBack => trivial
  | commitFailed x => trivial
  | crashed x => trivial
  | _ => exact hknows

variable [DecidableEq ι]

/-- **Calls that keep to themselves go on knowing it.** -/
theorem Apart.step {F : Prop} {p : Prog AuthSig α} (h : Apart userId s g)
    (hpend : BatchPending userId s g) (hok : AloneWhenAdded userId s i ℓ)
    (hv : (batches userId).Vouched (g i) ℓ) (hstep : s.Step F i ℓ (s.after i ℓ p)) :
    Apart userId (s.after i ℓ p) (Function.update g i ((batches userId).next (g i) ℓ)) where
  fresh := by
    intro j hj
    by_cases hji : j = i
    · rw [hji, Sys.after_begun_self] at hj
      cases hj
    · rw [Sys.after_begun_of_ne _ _ _ hji] at hj
      rw [Function.update_of_ne hji, Sys.after_conn_of_ne _ _ _ hji]
      exact h.fresh j hj
  knows := by
    obtain ⟨p', hact, hen, heq⟩ := hstep
    intro j hj
    by_cases hji : j = i
    · subst hji
      rw [Function.update_self, Sys.after_conn_self, Sys.after_db]
      rcases hact.unended with ⟨x, rfl⟩ | hreply
      · trivial
      have hknows : (g j).Knows userId (s.conn j) s.db := by
        cases hbegun : s.begun j with
        | false =>
          obtain ⟨hg, hconn⟩ := h.fresh j hbegun
          rw [hg, hconn]
          exact ⟨fun _ => nofun, fun _ => nofun⟩
        | true => exact h.knows j ⟨hbegun, hreply⟩
      exact RecoveryStage.Knows.after hpend hknows hen hv
    · rw [Function.update_of_ne hji, Sys.after_conn_of_ne _ _ _ hji, Sys.after_db]
      have hflight : s.InFlight j := by
        obtain ⟨hbegun, hreply⟩ := hj
        rw [Sys.after_begun_of_ne _ _ _ hji] at hbegun
        rw [Sys.after_proc_of_ne _ _ _ hji] at hreply
        exact ⟨hbegun, hreply⟩
      have hnot : ¬ AddsCodes userId s i ℓ := fun hadds => hok hadds j hji hflight
      exact (h.knows j hflight).mono fun ids hids => hpend.covered hv hnot hids

/-- A call that adds its batch has left nothing unused. -/
theorem Apart.clear {F : Prop} {s' : Sys AuthSig ι α} (h : Apart userId s g)
    (hpend : BatchPending userId s g) (hv : (batches userId).Vouched (g i) ℓ)
    (hstep : s.Step F i ℓ s') : ClearWhenAdded userId s i ℓ := by
  rintro ⟨hcommits, hless⟩
  obtain ⟨p, hact, hen, rfl⟩ := hstep
  rcases hpend.commits hcommits hv with ⟨ids, -, hunused⟩ | ⟨hstage, -⟩
  · have hle : (s.latest i).recoveryCodesRemaining userId ≤ s.db.recoveryCodesRemaining userId := by
      unfold Database.recoveryCodesRemaining
      rw [hunused]
      exact List.length_filter_le _ _
    omega
  · have hreply : (s.proc i).reply? = none := by
      rcases hact.unended with ⟨x, rfl⟩ | hreply
      · exact hcommits.elim
      · exact hreply
    have hbegun : s.begun i = true := by
      by_contra hnot
      rw [(h.fresh i (by simpa using hnot)).1] at hstage
      cases hstage
    have hknows := h.knows i ⟨hbegun, hreply⟩
    rw [hstage] at hknows
    have hnone : s.db.unusedRecoveryCodes userId = [] :=
      List.eq_nil_iff_forall_not_mem.mpr fun c hc => nomatch hknows c hc
    unfold Database.recoveryCodesRemaining
    rw [hnone]
    rfl

/-! ## The result -/

/-- Any number of calls for the user, about to start. -/
def recoveryStart (A : AppEnv) (userId : ℕ) (calls : ι → RecoveryCall) (db : Database)
    (now next : ℕ) : Sys AuthSig ι (List String) :=
  Sys.start db now next fun i => ((calls i).op A userId).close

variable {calls : ι → RecoveryCall} {now next : ℕ} {t : Sys AuthSig ι (List String)}

/-- Along any run: what is pending, and what else its steps keep. -/
theorem recovery_invariant {ok : Sys AuthSig ι (List String) → ι → Label AuthSig → Prop}
    {H : Sys AuthSig ι (List String) → (ι → RecoveryStage) → Prop}
    (hstart : H (recoveryStart A userId calls db now next) fun _ => .found none)
    (hstep : ∀ {s g i ℓ p}, BatchPending userId s g → H s g → ok s i ℓ →
      (batches userId).Vouched (g i) ℓ → s.Step True i ℓ (s.after i ℓ p) →
      H (s.after i ℓ p) (Function.update g i ((batches userId).next (g i) ℓ)))
    (hrun : Sys.Run True ok (recoveryStart A userId calls db now next) t) :
    ∃ g, BatchPending userId t g ∧ H t g ∧ ∀ {i ℓ t'}, t.Step True i ℓ t' →
      (batches userId).Vouched (g i) ℓ := by
  have hkeeps : (batches userId).Keeps ok (fun _ _ _ => True) (BatchPending userId) :=
    batches_keep ok _
  have hexclusive : (recoveryStart A userId calls db now next).Exclusive :=
    Sys.exclusive_start db now next fun i => ((calls i).op A userId).close
  have hpending : BatchPending userId (recoveryStart A userId calls db now next)
      fun _ => .found none := fun _ => rfl
  obtain ⟨-, g, hpend, hH, hfol⟩ := Prog.Follows.run_with hkeeps (fun _ _ _ _ => trivial)
    (fun _ hinv hH hok hv hs => hstep hinv hH hok hv hs) hexclusive hpending hstart
    (fun i => (calls i).follows) hrun
  exact ⟨g, hpend, hH, fun hs => (hfol _).vouched_step hs trivial⟩

theorem recovery_alone_clear
    (hrun : Sys.Run True (AloneWhenAdded userId) (recoveryStart A userId calls db now next) t) :
    Sys.Run True (ClearWhenAdded userId) (recoveryStart A userId calls db now next) t := by
  induction hrun with
  | refl => exact .refl
  | tail hbefore _ hstep ih =>
    have hfresh : Apart userId (recoveryStart A userId calls db now next) fun _ => .found none :=
      ⟨fun _ _ => ⟨rfl, rfl⟩, fun _ hflight => nomatch hflight.1⟩
    obtain ⟨g, hpend, hapart, hv⟩ := recovery_invariant (H := Apart userId) hfresh
      (fun hpend hapart hok hv hs => hapart.step hpend hok hv hs) hbefore
    exact .tail ih (hapart.clear hpend (hv hstep) hstep) hstep

/-- **One batch of recovery codes at a time**, in every state of every run, whatever fails,
whose calls commit their batch only where no code of the user is left unused. Calls that
commit it while no other is under way do so; and a batch that is committed elsewhere leaves
more than one. -/
theorem recovery_codes_one_batch (calls : ι → RecoveryCall) (hdb : db.OneBatch userId)
    (t : Sys AuthSig ι (List String)) :
    (Sys.Run True (ClearWhenAdded userId) (recoveryStart A userId calls db now next) t →
      t.db.OneBatch userId) ∧
    (Sys.Run True (AloneWhenAdded userId) (recoveryStart A userId calls db now next) t →
      t.db.OneBatch userId) ∧
    (Sys.Run True (fun _ _ _ => True) (recoveryStart A userId calls db now next) t →
      ∀ i ℓ t', t.Step True i ℓ t' → ¬ ClearWhenAdded userId t i ℓ → ¬ t'.db.OneBatch userId) := by
  have hclear : ∀ {t : Sys AuthSig ι (List String)},
      Sys.Run True (ClearWhenAdded userId) (recoveryStart A userId calls db now next) t →
      t.db.OneBatch userId := by
    intro t hrun
    obtain ⟨g, -, hone, -⟩ := recovery_invariant (H := fun s _ => s.db.OneBatch userId) hdb
      (fun hpend hone hok hv _ => hpend.oneBatch hone hv hok) hrun
    exact hone
  refine ⟨hclear, fun hrun => hclear (recovery_alone_clear hrun), ?_⟩
  intro hrun i ℓ t' hstep hnot
  obtain ⟨g, hpend, -, hv⟩ := recovery_invariant (H := fun _ _ => True) trivial
    (fun _ _ _ _ _ => trivial) hrun
  obtain ⟨hadds, hleft⟩ := Classical.not_imp.mp hnot
  have hbatch := hpend.commits hadds.1 (hv hstep)
  obtain ⟨p, -, -, rfl⟩ := hstep
  have hdb' : (t.after i ℓ p).db = t.latest i := hadds.1.dbAfter
  have hless := hadds.2
  unfold Database.OneBatch
  rw [hdb']
  rcases hbatch with ⟨ids, -, hunused⟩ | ⟨-, hmore⟩
  · have hle : (t.latest i).recoveryCodesRemaining userId ≤ t.db.recoveryCodesRemaining userId := by
      unfold Database.recoveryCodesRemaining
      rw [hunused]
      exact List.length_filter_le _ _
    omega
  · omega

/-! ## Two calls -/

instance (userId : ℕ) (s : Sys AuthSig ι α) (i : ι) (ℓ : Label AuthSig) :
    Decidable (ClearWhenAdded userId s i ℓ) :=
  inferInstanceAs (Decidable (_ ∧ _ → _))

/-- A user without codes generates some in two tabs. -/
def twoTabs : Sys AuthSig Bool (List String) :=
  recoveryStart .symbolic 7 (fun _ => ⟨none, false⟩) .empty 0 1

/-- One call after the other. -/
def oneTabFirst : List Bool := List.replicate 37 false ++ List.replicate 39 true

/-- Both look for unused codes first. -/
def bothLookFirst : List Bool :=
  [false, false, true, true] ++ List.replicate 35 false ++ List.replicate 35 true

/-- The second call invalidates the batch of the first. -/
theorem recovery_codes_in_turn : ∃ s, twoTabs.follow (ClearWhenAdded 7) oneTabFirst = some s ∧
    s.db.mfaRecoveryCodes.length = 20 ∧ s.db.OneBatch 7 := by
  have hplays : (twoTabs.follow (ClearWhenAdded 7) oneTabFirst).isSome := by decide +kernel
  have hends : (twoTabs.follow (ClearWhenAdded 7) oneTabFirst).all (fun s => decide
      (s.db.mfaRecoveryCodes.length = 20)) = true := by decide +kernel
  obtain ⟨s, hs⟩ := Option.isSome_iff_exists.mp hplays
  rw [hs] at hends
  have hempty : Database.empty.OneBatch 7 := Nat.zero_le _
  exact ⟨s, hs, of_decide_eq_true hends, (recovery_codes_one_batch (fun _ => ⟨none, false⟩) hempty
    s).1 (Sys.run_of_follow _ hs).mayFail⟩

/-- **Two live batches**, when both calls have answered and no transaction is open. -/
theorem recovery_codes_two_batches :
    ∃ s, Sys.Run True (fun _ _ _ => True) twoTabs s ∧ s.db.recoveryCodesRemaining 7 = 20 ∧
      ∀ i, (s.proc i).reply?.isSome ∧ (s.conn i).snap.isNone ∧ (s.conn i).held = [] := by
  have hplays : (twoTabs.follow (fun _ _ _ => True) bothLookFirst).isSome := by decide +kernel
  have hends : (twoTabs.follow (fun _ _ _ => True) bothLookFirst).all (fun s => decide
      (s.db.recoveryCodesRemaining 7 = 20 ∧ ∀ i, (s.proc i).reply?.isSome ∧
        (s.conn i).snap.isNone ∧ (s.conn i).held = [])) = true := by decide +kernel
  obtain ⟨s, hs⟩ := Option.isSome_iff_exists.mp hplays
  rw [hs] at hends
  exact ⟨s, (Sys.run_of_follow _ hs).mayFail, of_decide_eq_true hends⟩

end OmniAuth
