import OmniAuth.Mfa.EmailCodes

/-!
# Mailed codes, all calls together

The invariant of any number of calls. What one call sees of the codes may run ahead of
what is committed, in the rows it has locked and in them only; a code it sees open that
nobody else does is the one it just sent, and then it holds the row of the user.
-/

namespace OmniAuth

open Txn Prog

variable {α ι : Type} {initial : Database} {maxAttempts : ℕ} {s : Sys AuthSig ι α} {i j : ι} {ℓ : Label AuthSig}

/-- What a stage says of the store. -/
def CodeStage.Holds (s : Sys AuthSig ι α) (j : ι) : CodeStage → Prop
  | idle => True
  | holding userId => .user userId ∈ (s.conn j).held
  | cleared userId => .user userId ∈ (s.conn j).held ∧
      ∀ o ∈ (s.latest j).mfaEmailOtps, o.Open → o.userId ≠ userId
  | sent userId => .user userId ∈ (s.conn j).held ∧
      ∀ o ∈ (s.latest j).mfaEmailOtps, ∀ o' ∈ (s.latest j).mfaEmailOtps, o.Open → o'.Open →
        o.userId = userId → o'.userId = userId → o.id = o'.id
  | counted id => .emailOtp id ∈ (s.conn j).held ∧
      ∀ o ∈ (s.latest j).otpsOf id, o.consumedAt = none
  | claimed id => .emailOtp id ∈ (s.conn j).held ∧
      (∃ o ∈ (s.latest j).otpsOf id, o.consumedAt.isSome = true) ∧
      ∀ o ∈ s.db.otpsOf id, o.consumedAt = none
  | won id => ∃ o ∈ s.db.otpsOf id, o.consumedAt.isSome = true

/-- **The invariant.** What a call sees open is open, or is the code it just sent. -/
structure CodeInv (initial : Database) (maxAttempts : ℕ) (s : Sys AuthSig ι α)
    (g : ι → CodeState) : Prop where
  guarded : otpRows.Guarded s
  pending : codesEvolve.Pending s
  snapshots : codesEvolve.Snapshots s
  sound : ∀ l, OtpsSound maxAttempts l (otpRows.row s.db l)
  soundLatest : ∀ j l, OtpsSound maxAttempts l (otpRows.row (s.latest j) l)
  oneOpen : s.db.OneOpenCode
  opens : ∀ j, ∀ o ∈ (s.latest j).mfaEmailOtps, o.Open →
    (∃ o' ∈ s.db.mfaEmailOtps, o'.id = o.id ∧ o'.userId = o.userId ∧ o'.Open) ∨
      (g j).stage = .sent o.userId
  stages : ∀ j, (g j).stage.Holds s j
  winners : ∀ i j id, i ≠ j → (g i).stage = .won id → (g j).stage ≠ .won id
  since : codesEvolve.le initial s.db
  fresh : ∀ j id, (g j).stage = .won id → ∀ o ∈ initial.otpsOf id, o.consumedAt = none
  clean : ∀ j, (g j).clean = true → (s.conn j).pend = id
  saw : ∀ j v, (g j).saw = some v → codesEvolve.le v s.db

variable {g : ι → CodeState} {id userId : ℕ} {o : MFAEmailOTP}

theorem Database.mem_otpsOf_self {db : Database} (ho : o ∈ db.mfaEmailOtps) : o ∈ db.otpsOf o.id :=
  Database.mem_otpsOf.mpr ⟨ho, rfl⟩

/-- Of a row a call has not locked it sees what is committed. -/
theorem CodeInv.otpsOf_latest (h : CodeInv initial maxAttempts s g) (hl : .emailOtp id ∉ (s.conn j).held) :
    (s.latest j).otpsOf id = s.db.otpsOf id :=
  h.guarded.latest_of_not_held hl

/-- A call that claims a row finds it unconsumed, and so does everybody. -/
theorem CodeInv.unconsumed (h : CodeInv initial maxAttempts s g) (ho : o ∈ (s.latest j).mfaEmailOtps)
    (hfree : o.consumedAt = none) : ∀ o' ∈ s.db.otpsOf o.id, o'.consumedAt = none := by
  intro o' ho'
  obtain ⟨hmem', hid'⟩ := Database.mem_otpsOf.mp ho'
  by_contra hused
  obtain ⟨o'', ho'', hid'', -, -, hused''⟩ := h.pending j s.db o' hmem'
  have hsame : o'' = o :=
    (h.soundLatest j (.emailOtp o.id)).eq_of_mem
      (Database.mem_otpsOf.mpr ⟨ho'', hid''.trans hid'⟩) (Database.mem_otpsOf_self ho)
  have := hused'' (Option.isSome_iff_ne_none.mpr hused)
  rw [hsame, hfree] at this
  cases this

variable [DecidableEq ι]

/-- What a step leaves open in the store was open before, or its call had sent it. -/
theorem CodeInv.open_of_after (h : CodeInv initial maxAttempts s g) (p : Prog AuthSig α)
    (ho : o ∈ (s.after i ℓ p).db.mfaEmailOtps) (hopen : o.Open) :
    (∃ o' ∈ s.db.mfaEmailOtps, o'.id = o.id ∧ o'.userId = o.userId ∧ o'.Open) ∨
      (Rows.Commits ℓ ∧ o ∈ (s.latest i).mfaEmailOtps ∧ (g i).stage = .sent o.userId) := by
  rcases Rows.row_db_after (R := otpRows) (s := s) (i := i) (ℓ := ℓ) p (.emailOtp o.id) with
    ⟨hcommit, hrow⟩ | ⟨-, hdb⟩
  · have hmem : o ∈ (s.latest i).otpsOf o.id := by
      have hin := Database.mem_otpsOf_self ho
      have hrow : (s.after i ℓ p).db.otpsOf o.id = (s.latest i).otpsOf o.id := hrow
      rwa [hrow] at hin
    rcases h.opens i o (Database.mem_otpsOf.mp hmem).1 hopen with hold | hsent
    · exact .inl hold
    · exact .inr ⟨hcommit, (Database.mem_otpsOf.mp hmem).1, hsent⟩
  · rw [hdb] at ho
    exact .inl ⟨o, ho, rfl, rfl, hopen⟩

/-- **One open code of each user**, after every step. -/
theorem CodeInv.oneOpen_after (h : CodeInv initial maxAttempts s g) (p : Prog AuthSig α) :
    (s.after i ℓ p).db.OneOpenCode := by
  intro o ho o' ho' hopen hopen' huser
  by_cases hcommit : Rows.Commits ℓ
  · have hdb : (s.after i ℓ p).db = s.latest i := by
      rw [Sys.after_db]
      cases ℓ <;> first | rfl | exact hcommit.elim
    rw [hdb] at ho ho'
    have hstage := h.stages i
    -- either both were open before, or the call sent a code and saw that it is the only one
    rcases h.opens i o ho hopen with ⟨b, hb, hbid, hbuser, hbopen⟩ | hsent
    · rcases h.opens i o' ho' hopen' with ⟨b', hb', hbid', hbuser', hbopen'⟩ | hsent'
      · rw [← hbid, ← hbid']
        exact h.oneOpen b hb b' hb' hbopen hbopen' (by rw [hbuser, hbuser', huser])
      · rw [hsent'] at hstage
        exact hstage.2 o ho o' ho' hopen hopen' huser rfl
    · rw [hsent] at hstage
      exact hstage.2 o ho o' ho' hopen hopen' rfl huser.symm
  · have hdb : (s.after i ℓ p).db = s.db := by
      rw [Sys.after_db]
      cases ℓ <;> first | rfl | exact absurd trivial hcommit
    rw [hdb] at ho ho'
    exact h.oneOpen o ho o' ho' hopen hopen' huser

/-- The codes of a user whose row a call holds are opened by nobody else. -/
theorem CodeInv.open_before (h : CodeInv initial maxAttempts s g) (hx : s.Exclusive)
    (hen : s.Enabled i ℓ) (hj : j ≠ i) (p : Prog AuthSig α)
    (hheld : .user o.userId ∈ (s.conn j).held)
    (ho : o ∈ ((s.after i ℓ p).latest j).mfaEmailOtps) (hopen : o.Open) :
    ∃ o' ∈ (s.latest j).mfaEmailOtps, o'.id = o.id ∧ o'.userId = o.userId ∧ o'.Open := by
  have hin := Database.mem_otpsOf_self ho
  rcases h.guarded.latest_after_of_ne hx hen hj p (.emailOtp o.id) with ⟨-, hrow, -⟩ | ⟨hl, hrow⟩
  · have hrow : ((s.after i ℓ p).latest j).otpsOf o.id = (s.latest j).otpsOf o.id := hrow
    rw [hrow] at hin
    exact ⟨o, (Database.mem_otpsOf.mp hin).1, rfl, rfl, hopen⟩
  · have hrow : ((s.after i ℓ p).latest j).otpsOf o.id = (s.after i ℓ p).db.otpsOf o.id := hrow
    rw [hrow] at hin
    rcases h.open_of_after p (Database.mem_otpsOf.mp hin).1 hopen with
      ⟨o', ho', hid', huser', hopen'⟩ | ⟨-, -, hsent⟩
    · refine ⟨o', ?_, hid', huser', hopen'⟩
      have hmem : o' ∈ s.db.otpsOf o.id := Database.mem_otpsOf.mpr ⟨ho', hid'⟩
      rw [← h.otpsOf_latest hl] at hmem
      exact (Database.mem_otpsOf.mp hmem).1
    · -- the sender would hold the same user
      have hstage := h.stages i
      rw [hsent] at hstage
      exact absurd hstage.1 (hx j i hj _ hheld)

/-- A code that is consumed stays so. -/
theorem CodeInv.won_after (h : CodeInv initial maxAttempts s g) (p : Prog AuthSig α)
    (hwon : (CodeStage.won id).Holds s j) : (CodeStage.won id).Holds (s.after i ℓ p) j := by
  obtain ⟨o, ho, hused⟩ := hwon
  obtain ⟨hmem, hid⟩ := Database.mem_otpsOf.mp ho
  obtain ⟨o', ho', hid', -, -, hused'⟩ := codesEvolve.after h.pending i ℓ p o hmem
  exact ⟨o', Database.mem_otpsOf.mpr ⟨ho', hid'.trans hid⟩, hused' hused⟩

/-- A stage is not disturbed by the steps of others. -/
theorem CodeInv.holds_of_ne (h : CodeInv initial maxAttempts s g) (hx : s.Exclusive)
    (hen : s.Enabled i ℓ) (hj : j ≠ i) (p : Prog AuthSig α) :
    (g j).stage.Holds (s.after i ℓ p) j := by
  have hstage := h.stages j
  have hheld : ((s.after i ℓ p).conn j).held = (s.conn j).held := by
    rw [Sys.after_conn_of_ne _ _ _ hj]
  cases hst : (g j).stage with
  | idle => trivial
  | holding userId =>
    rw [hst] at hstage
    exact (congrArg _ hheld).mpr hstage
  | cleared userId =>
    rw [hst] at hstage
    refine ⟨(congrArg _ hheld).mpr hstage.1, fun o ho hopen huser => ?_⟩
    obtain ⟨o', ho', -, huser', hopen'⟩ :=
      h.open_before hx hen hj p (by rw [huser]; exact hstage.1) ho hopen
    exact hstage.2 o' ho' hopen' (huser'.trans huser)
  | sent userId =>
    rw [hst] at hstage
    refine ⟨(congrArg _ hheld).mpr hstage.1, fun o ho o' ho' hopen hopen' huser huser' => ?_⟩
    obtain ⟨b, hb, hbid, hbuser, hbopen⟩ :=
      h.open_before hx hen hj p (by rw [huser]; exact hstage.1) ho hopen
    obtain ⟨b', hb', hbid', hbuser', hbopen'⟩ :=
      h.open_before hx hen hj p (by rw [huser']; exact hstage.1) ho' hopen'
    rw [← hbid, ← hbid']
    exact hstage.2 b hb b' hb' hbopen hbopen' (hbuser.trans huser) (hbuser'.trans huser')
  | counted id =>
    rw [hst] at hstage
    have hrow : ((s.after i ℓ p).latest j).otpsOf id = (s.latest j).otpsOf id :=
      h.guarded.latest_after hx hj hstage.1 p
    refine ⟨(congrArg _ hheld).mpr hstage.1, ?_⟩
    rw [hrow]
    exact hstage.2
  | claimed id =>
    rw [hst] at hstage
    have hrow : ((s.after i ℓ p).latest j).otpsOf id = (s.latest j).otpsOf id :=
      h.guarded.latest_after hx hj hstage.1 p
    have hdb : (s.after i ℓ p).db.otpsOf id = s.db.otpsOf id :=
      h.guarded.db_after hx hj hstage.1 p
    refine ⟨(congrArg _ hheld).mpr hstage.1, ?_⟩
    rw [hrow, hdb]
    exact hstage.2
  | won id =>
    rw [hst] at hstage
    exact h.won_after p hstage

omit [DecidableEq ι] in
theorem CodeStage.Holds.of_same {s' : Sys AuthSig ι α} {stage : CodeStage} (h : stage.Holds s j)
    (hheld : ∀ l ∈ (s.conn j).held, l ∈ (s'.conn j).held)
    (hlatest : (s'.latest j).mfaEmailOtps = (s.latest j).mfaEmailOtps)
    (hdb : s'.db.mfaEmailOtps = s.db.mfaEmailOtps) : stage.Holds s' j := by
  have hrows : ∀ id, (s'.latest j).otpsOf id = (s.latest j).otpsOf id := fun id => by
    rw [Database.otpsOf, hlatest, Database.otpsOf]
  have hdbRows : ∀ id, s'.db.otpsOf id = s.db.otpsOf id := fun id => by
    rw [Database.otpsOf, hdb, Database.otpsOf]
  cases stage with
  | idle => trivial
  | holding userId => exact hheld _ h
  | cleared userId =>
    refine ⟨hheld _ h.1, ?_⟩
    rw [hlatest]
    exact h.2
  | sent userId =>
    refine ⟨hheld _ h.1, ?_⟩
    rw [hlatest]
    exact h.2
  | counted id =>
    refine ⟨hheld _ h.1, ?_⟩
    rw [hrows]
    exact h.2
  | claimed id =>
    refine ⟨hheld _ h.1, ?_⟩
    rw [hrows, hdbRows]
    exact h.2
  | won id =>
    show ∃ o ∈ s'.db.otpsOf id, _
    rw [hdbRows]
    exact h

/-- The statement `stmt` of call `i` led from `s` to `s'`. -/
structure Wrote (s s' : Sys AuthSig ι α) (i : ι) (stmt : Stmt) (eff : Effect Database RowKey) :
    Prop where
  denote : OmniAuth.denote stmt (s.latest i) = .ok eff
  held : (s'.conn i).held = eff.locks ++ (s.conn i).held
  latest : s'.latest i = eff.delta (s.latest i)
  db : s'.db = s.db

omit [DecidableEq ι] in
theorem Wrote.held_mono {s' : Sys AuthSig ι α} {stmt : Stmt} {eff : Effect Database RowKey}
    (h : Wrote s s' i stmt eff) : ∀ l ∈ (s.conn i).held, l ∈ (s'.conn i).held := by
  rw [h.held]
  exact fun l hl => List.mem_append_right _ hl

omit [DecidableEq ι] in
/-- **A statement of its stage leads to the next.** -/
theorem CodeInv.holds_wrote (h : CodeInv initial maxAttempts s g) {s' : Sys AuthSig ι α} {stmt : Stmt}
    {eff : Effect Database RowKey} (hallows : (g i).stage.Allows maxAttempts stmt)
    (hw : Wrote s s' i stmt eff) : ((g i).stage.wrote stmt (s.latest i)).Holds s' i := by
  obtain ⟨hden, hheld, hlatest, hdb⟩ := id hw
  have hstage := h.stages i
  cases stmt with
  | insertAuditEvent event =>
    obtain rfl := Except.ok.inj hden
    exact hstage.of_same hw.held_mono (by rw [hlatest]; rfl) (by rw [hdb])
  | mfa stmt =>
    cases stmt with
    | lockUser userId =>
      obtain rfl := Except.ok.inj hden
      show RowKey.user userId ∈ (s'.conn i).held
      rw [hheld]
      exact List.mem_append_left _ (List.mem_singleton.mpr rfl)
    | invalidateEmailOtps userId now =>
      obtain rfl := Except.ok.inj hden
      have hst : (g i).stage = .holding userId := hallows
      rw [hst] at hstage
      refine ⟨hw.held_mono _ hstage, fun o ho hopen huser => ?_⟩
      rw [hlatest] at ho
      obtain ⟨o₀, ho₀, hg⟩ := List.mem_map.mp ho
      by_cases hin : decide (o₀.id ∈ (s.latest i).openOtpIds userId) = true
      · rw [if_pos hin] at hg
        rw [← hg] at hopen
        exact nomatch hopen.2
      · rw [if_neg hin] at hg
        subst hg
        refine hin (decide_eq_true (List.mem_map.mpr ⟨o₀, List.mem_filter.mpr ⟨ho₀, ?_⟩, rfl⟩))
        exact decide_eq_true ⟨huser, hopen⟩
    | insertEmailOtp row =>
      simp only [OmniAuth.denote, MfaStmt.denote] at hden
      split at hden
      · cases hden
      obtain rfl := Except.ok.inj hden
      have hst : (g i).stage = .cleared row.userId := hallows.1
      rw [hst] at hstage
      -- what is open for the user is the new row
      have hnew : ∀ o ∈ (s'.latest i).mfaEmailOtps, o.Open → o.userId = row.userId → o = row := by
        intro o ho hopen huser
        rw [hlatest] at ho
        rcases List.mem_append.mp ho with hold | hrow
        · exact absurd huser (hstage.2 o hold hopen)
        · exact List.mem_singleton.mp hrow
      refine ⟨hw.held_mono _ hstage.1, fun o ho o' ho' hopen hopen' huser huser' => ?_⟩
      rw [hnew o ho hopen huser, hnew o' ho' hopen' huser']
    | countOtpAttempt id m =>
      obtain rfl := Except.ok.inj hden
      have hst : (g i).stage = .idle := hallows.1
      by_cases hcount : ∃ o ∈ (s.latest i).mfaEmailOtps, o.Countable id m
      · have hnext : (g i).stage.wrote (.mfa (.countOtpAttempt id m)) (s.latest i) = .counted id :=
          if_pos hcount
        rw [hnext]
        obtain ⟨o, ho, rfl, hopen, -⟩ := hcount
        refine ⟨?_, fun o' ho' => ?_⟩
        · rw [hheld]
          exact List.mem_append_left _ (List.mem_singleton.mpr rfl)
        · rw [hlatest] at ho'
          have hrows := (s.latest i).otpsOf_updateOtps
            (fun b => decide (b.id = o.id ∧ b.Open ∧ b.attempts < m))
            (f := fun b => { b with attempts := b.attempts + 1 }) (fun _ => by rfl) o.id
          have ho' : o' ∈ _ := hrows ▸ ho'
          obtain ⟨b, hb, rfl⟩ := List.mem_map.mp ho'
          have hsame : b = o :=
            (h.soundLatest i (.emailOtp o.id)).eq_of_mem hb (Database.mem_otpsOf_self ho)
          rw [hsame]
          split <;> exact hopen.1
      · have hnext : (g i).stage.wrote (.mfa (.countOtpAttempt id m)) (s.latest i) = (g i).stage :=
          if_neg hcount
        rw [hnext, hst]
        trivial
    | consumeEmailOtp id codeHash now m =>
      obtain rfl := Except.ok.inj hden
      have hst : (g i).stage = .idle := hallows.1
      by_cases hconsume : ∃ o ∈ (s.latest i).mfaEmailOtps, o.Consumable id codeHash now m
      · have hnext : (g i).stage.wrote (.mfa (.consumeEmailOtp id codeHash now m)) (s.latest i) =
            .claimed id := if_pos hconsume
        rw [hnext]
        obtain ⟨o, ho, rfl, hhash, hopen, hlive, hless⟩ := hconsume
        refine ⟨?_, ⟨{ o with consumedAt := some now }, ?_, rfl⟩, ?_⟩
        · rw [hheld]
          exact List.mem_append_left _ (List.mem_singleton.mpr rfl)
        · rw [hlatest]
          refine Database.mem_otpsOf.mpr ⟨List.mem_map.mpr ⟨o, ho, ?_⟩, rfl⟩
          exact if_pos (decide_eq_true ⟨rfl, hhash, hopen, hlive, hless⟩)
        · rw [hdb]
          exact h.unconsumed ho hopen.1
      · have hnext : (g i).stage.wrote (.mfa (.consumeEmailOtp id codeHash now m)) (s.latest i) =
            (g i).stage := if_neg hconsume
        rw [hnext, hst]
        trivial
    | invalidateEmailOtp id now =>
      obtain rfl := Except.ok.inj hden
      have hst : (g i).stage = .counted id := hallows
      show (g i).stage.Holds s' i
      rw [hst] at hstage ⊢
      refine ⟨hw.held_mono _ hstage.1, fun o ho => ?_⟩
      rw [hlatest] at ho
      obtain ⟨hmem, hid⟩ := Database.mem_otpsOf.mp ho
      obtain ⟨b, hb, rfl⟩ := List.mem_map.mp hmem
      have hfree : ∀ b ∈ (s.latest i).mfaEmailOtps, b.id = id → b.consumedAt = none :=
        fun b hb hbid => hstage.2 b (Database.mem_otpsOf.mpr ⟨hb, hbid⟩)
      by_cases hbid : b.id = id
      · rw [if_pos (decide_eq_true hbid)]
        exact hfree b hb hbid
      · rw [if_neg (by simpa using hbid)] at hid
        exact absurd hid hbid
    | _ => exact hallows.elim
  | _ => exact hallows.elim

omit [DecidableEq ι] in
/-- What a call sees open after its statement was open, or is what it just sent. -/
theorem CodeInv.opens_wrote (h : CodeInv initial maxAttempts s g) {s' : Sys AuthSig ι α} {stmt : Stmt}
    {eff : Effect Database RowKey} (hallows : (g i).stage.Allows maxAttempts stmt)
    (hw : Wrote s s' i stmt eff) (ho : o ∈ (s'.latest i).mfaEmailOtps) (hopen : o.Open) :
    (∃ o' ∈ s'.db.mfaEmailOtps, o'.id = o.id ∧ o'.userId = o.userId ∧ o'.Open) ∨
      (g i).stage.wrote stmt (s.latest i) = .sent o.userId := by
  obtain ⟨f, new, hdelta, hf, -, hnew⟩ := denote_otps hw.denote
  rw [hw.latest, hdelta] at ho
  rw [hw.db]
  rcases List.mem_append.mp ho with hold | hin
  · obtain ⟨b, hb, rfl⟩ := List.mem_map.mp hold
    obtain ⟨hid, huser, -, -, hstill⟩ := hf b
    rcases h.opens i b hb (hstill hopen) with ⟨o', ho', hid', huser', hopen'⟩ | hsent
    · exact .inl ⟨o', ho', hid'.trans hid.symm, huser'.trans huser.symm, hopen'⟩
    · -- a call that has sent its code writes nothing but its audit row
      refine .inr ?_
      rw [hsent] at hallows ⊢
      rw [huser]
      cases stmt with
      | insertAuditEvent event => rfl
      | mfa stmt =>
        cases stmt with
        | insertEmailOtp row => cases hallows.1
        | countOtpAttempt id m => cases hallows.1
        | consumeEmailOtp id codeHash now m => cases hallows.1
        | _ => cases hallows
      | _ => cases hallows
  · refine .inr ?_
    rw [(hnew o hin).2]
    rfl

/-- A call wins a code by committing what it claimed. -/
theorem codes_won {q : CodeState} (h : ((codes maxAttempts).next q ℓ).stage = .won id) :
    q.stage = .won id ∨ q.stage = .claimed id ∧ Rows.Commits ℓ := by
  cases ℓ with
  | wrote stmt seen eff =>
    refine .inl ?_
    have h : q.stage.wrote stmt seen = .won id := h
    unfold CodeStage.wrote at h
    split at h
    case h_4 => split at h <;> first | cases h | exact h
    case h_5 => split at h <;> first | cases h | exact h
    all_goals first | cases h | exact h
  | committed =>
    have h : q.stage.committed = .won id := h
    cases hst : q.stage <;> rw [hst] at h <;> cases h
    · exact .inr ⟨rfl, trivial⟩
    · exact .inl rfl
  | commitLost x =>
    have h : q.stage.committed = .won id := h
    cases hst : q.stage <;> rw [hst] at h <;> cases h
    · exact .inr ⟨rfl, trivial⟩
    · exact .inl rfl
  | rolledBack =>
    have h : q.stage.lost = .won id := h
    cases hst : q.stage <;> rw [hst] at h <;> cases h
    exact .inl rfl
  | commitFailed x =>
    have h : q.stage.lost = .won id := h
    cases hst : q.stage <;> rw [hst] at h <;> cases h
    exact .inl rfl
  | crashed x =>
    have h : q.stage.lost = .won id := h
    cases hst : q.stage <;> rw [hst] at h <;> cases h
    exact .inl rfl
  | _ => exact .inl h

omit [DecidableEq ι] in
/-- A row that is claimed is not consumed, so nobody has won it. -/
theorem CodeInv.not_won (h : CodeInv initial maxAttempts s g) (hi : (g i).stage = .claimed id) :
    (g j).stage ≠ .won id := by
  intro hj
  have hclaimed := h.stages i
  have hwon := h.stages j
  rw [hi] at hclaimed
  rw [hj] at hwon
  obtain ⟨o, ho, hused⟩ := hwon
  rw [hclaimed.2.2 o ho] at hused
  cases hused

theorem CodeInv.winners_after (h : CodeInv initial maxAttempts s g) (i : ι) (ℓ : Label AuthSig)
    (a b : ι) (id : ℕ) (hab : a ≠ b)
    (ha : (Function.update g i ((codes maxAttempts).next (g i) ℓ) a).stage = .won id) :
    (Function.update g i ((codes maxAttempts).next (g i) ℓ) b).stage ≠ .won id := by
  intro hb
  by_cases hai : a = i
  · subst hai
    rw [Function.update_self] at ha
    rw [Function.update_of_ne hab.symm] at hb
    rcases codes_won ha with hwon | ⟨hclaimed, -⟩
    · exact h.winners a b id hab hwon hb
    · exact h.not_won hclaimed hb
  · rw [Function.update_of_ne hai] at ha
    by_cases hbi : b = i
    · subst hbi
      rw [Function.update_self] at hb
      rcases codes_won hb with hwon | ⟨hclaimed, -⟩
      · exact h.winners a b id hab ha hwon
      · exact h.not_won hclaimed ha
    · rw [Function.update_of_ne hbi] at hb
      exact h.winners a b id hab ha hb

theorem CodeInv.holds_self (h : CodeInv initial maxAttempts s g) (hen : s.Enabled i ℓ)
    (hv : (codes maxAttempts).Vouched (g i) ℓ) (p : Prog AuthSig α) :
    ((codes maxAttempts).next (g i) ℓ).stage.Holds (s.after i ℓ p) i := by
  have hstage := h.stages i
  have hlost : (g i).stage.lost.Holds (s.after i ℓ p) i := by
    cases hst : (g i).stage with
    | won id =>
      rw [hst] at hstage
      exact h.won_after p hstage
    | _ => trivial
  have hcommitted : (s.after i ℓ p).db = s.latest i →
      (g i).stage.committed.Holds (s.after i ℓ p) i := by
    intro hdb
    cases hst : (g i).stage with
    | claimed id =>
      rw [hst] at hstage
      show ∃ o ∈ (s.after i ℓ p).db.otpsOf id, _
      rw [hdb]
      exact hstage.2.1
    | won id =>
      rw [hst] at hstage
      exact h.won_after p hstage
    | _ => trivial
  have hquiet (hconn : s.connAfter i ℓ = s.conn i ∨
      ∃ v, s.connAfter i ℓ = { s.conn i with snap := v }) (hdb : s.dbAfter i ℓ = s.db) :
      (g i).stage.Holds (s.after i ℓ p) i := by
    have hpend : (s.connAfter i ℓ).pend = (s.conn i).pend := by
      rcases hconn with hconn | ⟨v, hconn⟩ <;> rw [hconn]
    have hheld : (s.connAfter i ℓ).held = (s.conn i).held := by
      rcases hconn with hconn | ⟨v, hconn⟩ <;> rw [hconn]
    refine hstage.of_same ?_ ?_ ?_
    · rw [Sys.after_conn_self, hheld]
      exact fun _ hl => hl
    · unfold Sys.latest
      rw [Sys.after_conn_self, Sys.after_db, hpend, hdb]
    · rw [Sys.after_db, hdb]
  cases ℓ with
  | wrote stmt seen eff =>
    obtain ⟨rfl, hden, -⟩ := id hen
    refine h.holds_wrote hv ⟨hden, ?_, ?_, rfl⟩
    · rw [Sys.after_conn_self]
      rfl
    · unfold Sys.latest
      rw [Sys.after_conn_self]
      rfl
  | committed => exact hcommitted rfl
  | commitLost x => exact hcommitted rfl
  | rolledBack => exact hlost
  | commitFailed x => exact hlost
  | crashed x => exact hlost
  | read v => exact hquiet (.inr ⟨_, rfl⟩) rfl
  | _ => exact hquiet (.inl rfl) rfl

theorem CodeInv.opens_self (h : CodeInv initial maxAttempts s g) (hen : s.Enabled i ℓ)
    (hv : (codes maxAttempts).Vouched (g i) ℓ) (p : Prog AuthSig α)
    (ho : o ∈ ((s.after i ℓ p).latest i).mfaEmailOtps) (hopen : o.Open) :
    (∃ o' ∈ (s.after i ℓ p).db.mfaEmailOtps, o'.id = o.id ∧ o'.userId = o.userId ∧ o'.Open) ∨
      ((codes maxAttempts).next (g i) ℓ).stage = .sent o.userId := by
  have hended (hconn : s.connAfter i ℓ = Conn.idle AuthSig) :
      ∃ o' ∈ (s.after i ℓ p).db.mfaEmailOtps, o'.id = o.id ∧ o'.userId = o.userId ∧ o'.Open := by
    unfold Sys.latest at ho
    rw [Sys.after_conn_self, hconn] at ho
    exact ⟨o, ho, rfl, rfl, hopen⟩
  have hquiet (hpend : (s.connAfter i ℓ).pend = (s.conn i).pend) (hdb : s.dbAfter i ℓ = s.db) :
      (∃ o' ∈ (s.after i ℓ p).db.mfaEmailOtps, o'.id = o.id ∧ o'.userId = o.userId ∧ o'.Open) ∨
        (g i).stage = .sent o.userId := by
    unfold Sys.latest at ho
    rw [Sys.after_conn_self, Sys.after_db, hpend, hdb] at ho
    rw [Sys.after_db, hdb]
    exact h.opens i o ho hopen
  cases ℓ with
  | wrote stmt seen eff =>
    obtain ⟨rfl, hden, -⟩ := id hen
    refine h.opens_wrote hv ⟨hden, ?_, ?_, rfl⟩ ho hopen
    · rw [Sys.after_conn_self]
      rfl
    · unfold Sys.latest
      rw [Sys.after_conn_self]
      rfl
  | committed => exact .inl (hended rfl)
  | commitLost x => exact .inl (hended rfl)
  | rolledBack => exact .inl (hended rfl)
  | commitFailed x => exact .inl (hended rfl)
  | crashed x => exact .inl (hended rfl)
  | _ => exact hquiet rfl rfl

theorem CodeInv.opens_of_ne (h : CodeInv initial maxAttempts s g) (hx : s.Exclusive)
    (hen : s.Enabled i ℓ) (hj : j ≠ i) (p : Prog AuthSig α)
    (ho : o ∈ ((s.after i ℓ p).latest j).mfaEmailOtps) (hopen : o.Open) :
    (∃ o' ∈ (s.after i ℓ p).db.mfaEmailOtps, o'.id = o.id ∧ o'.userId = o.userId ∧ o'.Open) ∨
      (g j).stage = .sent o.userId := by
  have hin := Database.mem_otpsOf_self ho
  rcases h.guarded.latest_after_of_ne hx hen hj p (.emailOtp o.id) with ⟨-, hrow, hdb⟩ | ⟨-, hrow⟩
  · have hrow : ((s.after i ℓ p).latest j).otpsOf o.id = (s.latest j).otpsOf o.id := hrow
    have hdb : (s.after i ℓ p).db.otpsOf o.id = s.db.otpsOf o.id := hdb
    rw [hrow] at hin
    rcases h.opens j o (Database.mem_otpsOf.mp hin).1 hopen with ⟨o', ho', hid', hold⟩ | hsent
    · have hmem : o' ∈ s.db.otpsOf o.id := Database.mem_otpsOf.mpr ⟨ho', hid'⟩
      rw [← hdb] at hmem
      exact .inl ⟨o', (Database.mem_otpsOf.mp hmem).1, hid', hold⟩
    · exact .inr hsent
  · have hrow : ((s.after i ℓ p).latest j).otpsOf o.id = (s.after i ℓ p).db.otpsOf o.id := hrow
    rw [hrow] at hin
    exact .inl ⟨o, (Database.mem_otpsOf.mp hin).1, rfl, rfl, hopen⟩

theorem CodeInv.fresh_after (h : CodeInv initial maxAttempts s g) (i : ι) (ℓ : Label AuthSig)
    (j : ι) (id : ℕ)
    (hj : (Function.update g i ((codes maxAttempts).next (g i) ℓ) j).stage = .won id) :
    ∀ o ∈ initial.otpsOf id, o.consumedAt = none := by
  by_cases hji : j = i
  · subst hji
    rw [Function.update_self] at hj
    rcases codes_won hj with hwon | ⟨hclaimed, -⟩
    · exact h.fresh j id hwon
    · have hstage := h.stages j
      rw [hclaimed] at hstage
      intro o ho
      obtain ⟨hmem, hid⟩ := Database.mem_otpsOf.mp ho
      obtain ⟨o', ho', hid', -, -, hused⟩ := h.since o hmem
      by_contra hne
      have hset := hused (Option.isSome_iff_ne_none.mpr hne)
      rw [hstage.2.2 o' (Database.mem_otpsOf.mpr ⟨ho', hid'.trans hid⟩)] at hset
      cases hset
  · rw [Function.update_of_ne hji] at hj
    exact h.fresh j id hj

theorem CodeInv.clean_after (h : CodeInv initial maxAttempts s g) (i : ι) (ℓ : Label AuthSig)
    (p : Prog AuthSig α) (j : ι)
    (hj : (Function.update g i ((codes maxAttempts).next (g i) ℓ) j).clean = true) :
    ((s.after i ℓ p).conn j).pend = fun db => db := by
  by_cases hji : j = i
  · subst hji
    rw [Function.update_self] at hj
    rw [Sys.after_conn_self]
    cases ℓ with
    | wrote stmt seen eff => cases hj
    | committed => rfl
    | commitLost x => rfl
    | rolledBack => rfl
    | commitFailed x => rfl
    | crashed x => rfl
    | _ => exact h.clean j hj
  · rw [Function.update_of_ne hji] at hj
    rw [Sys.after_conn_of_ne _ _ _ hji]
    exact h.clean j hj

/-- What a call read before it wrote anything was committed at some time. -/
theorem CodeInv.saw_after (h : CodeInv initial maxAttempts s g) (hen : s.Enabled i ℓ)
    (p : Prog AuthSig α) (j : ι) (v : Database)
    (hv : (Function.update g i ((codes maxAttempts).next (g i) ℓ) j).saw = some v) :
    codesEvolve.le v (s.after i ℓ p).db := by
  refine codesEvolve.trans ?_ (codesEvolve.after h.pending i ℓ p)
  by_cases hji : j = i
  · subst hji
    rw [Function.update_self] at hv
    cases ℓ with
    | read v' =>
      obtain rfl : v' = s.view j := hen
      have hv : (if (g j).clean ∧ (g j).saw = none then some (s.view j) else (g j).saw) = some v := hv
      split at hv
      · rename_i hfirst
        obtain rfl := Option.some.inj hv
        show codesEvolve.le (s.view j) s.db
        unfold Sys.view
        rw [h.clean j hfirst.1]
        cases hsnap : (s.conn j).snap with
        | none => exact codesEvolve.refl _
        | some v => exact h.snapshots j v hsnap
      · exact h.saw j v hv
    | _ => exact h.saw j v hv
  · rw [Function.update_of_ne hji] at hv
    exact h.saw j v hv

/-- **Every step keeps the invariant.** -/
theorem codes_keep (ok : Sys AuthSig ι α → ι → Label AuthSig → Prop)
    (post : ι → Except Err α → CodeState → Prop) :
    (codes maxAttempts).Keeps ok post (CodeInv initial maxAttempts) where
  sees _ _ _ _ := trivial
  after := by
    intro s g i ℓ p hx h hen _ _ hv
    have hwrote : ∀ stmt seen eff, ℓ = .wrote stmt seen eff →
        ∀ l, OtpsSound maxAttempts l (otpRows.row (eff.delta seen) l) := by
      rintro stmt seen eff rfl
      obtain ⟨rfl, hden, -⟩ := id hen
      refine otpsSound_denote hv (h.soundLatest i) (fun id hst => ?_) hden
      have hstage := h.stages i
      rw [hst] at hstage
      exact hstage.2
    obtain ⟨hsound, hlatest⟩ :=
      h.guarded.forall_rows hx h.sound h.soundLatest hen hwrote p
    refine ⟨h.guarded.after hen p, h.pending.after _ hen p, h.snapshots.after _ h.pending p,
      hsound, hlatest, h.oneOpen_after p, fun j o ho hopen => ?_, fun j => ?_,
      h.winners_after i ℓ, codesEvolve.trans h.since (codesEvolve.after h.pending i ℓ p),
      h.fresh_after i ℓ, h.clean_after i ℓ p, h.saw_after hen p⟩
    · by_cases hj : j = i
      · subst hj
        rw [Function.update_self]
        exact h.opens_self hen hv p ho hopen
      · rw [Function.update_of_ne hj]
        exact h.opens_of_ne hx hen hj p ho hopen
    · by_cases hj : j = i
      · subst hj
        rw [Function.update_self]
        exact h.holds_self hen hv p
      · rw [Function.update_of_ne hj]
        exact h.holds_of_ne hx hen hj p

end OmniAuth
