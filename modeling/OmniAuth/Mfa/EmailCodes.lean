import OmniAuth.Txn.Rows
import OmniAuth.Mfa.SingleUse

/-!
# Mailed codes

Any number of `issue_code`, `resend_code` and `verify_code` calls, interleaved statement
by statement, with failures. Issuance holds the row of the user and clears what is open
before it inserts; a verification locks nothing but the row it counts on or consumes.
-/

namespace OmniAuth

open Txn Prog

variable {A : AppEnv} {α β : Type}

/-! ## The rows -/

/-- **What a statement does to the codes**: each row by itself, and rows at the end. It
changes only what it locks, and consumes for good. -/
theorem denote_otps {stmt : Stmt} {seen : Database} {eff : Effect Database RowKey}
    (h : denote stmt seen = .ok eff) :
    ∃ (g : MFAEmailOTP → MFAEmailOTP) (new : List MFAEmailOTP),
      (∀ db, (eff.delta db).mfaEmailOtps = db.mfaEmailOtps.map g ++ new) ∧
      (∀ o, (g o).id = o.id ∧ (g o).userId = o.userId ∧ (g o).challengeJti = o.challengeJti ∧
        (o.consumedAt.isSome = true → (g o).consumedAt.isSome = true) ∧ ((g o).Open → o.Open)) ∧
      (∀ o, .emailOtp o.id ∉ eff.locks → g o = o) ∧
      ∀ o ∈ new, .emailOtp o.id ∈ eff.locks ∧ stmt = .mfa (.insertEmailOtp o) := by
  have hsame (hdb : ∀ db : Database, (eff.delta db).mfaEmailOtps = db.mfaEmailOtps) :
      ∃ (g : MFAEmailOTP → MFAEmailOTP) (new : List MFAEmailOTP),
        (∀ db, (eff.delta db).mfaEmailOtps = db.mfaEmailOtps.map g ++ new) ∧
        (∀ o, (g o).id = o.id ∧ (g o).userId = o.userId ∧ (g o).challengeJti = o.challengeJti ∧
          (o.consumedAt.isSome = true → (g o).consumedAt.isSome = true) ∧
          ((g o).Open → o.Open)) ∧
        (∀ o, .emailOtp o.id ∉ eff.locks → g o = o) ∧
        ∀ o ∈ new, .emailOtp o.id ∈ eff.locks ∧ stmt = .mfa (.insertEmailOtp o) := by
    refine ⟨id, [], fun db => ?_, fun o => ⟨rfl, rfl, rfl, fun ho => ho, fun ho => ho⟩,
      fun _ _ => rfl, fun _ ho => (List.not_mem_nil ho).elim⟩
    rw [hdb, List.map_id, List.append_nil]
  cases stmt with
  | credential stmt =>
    exact hsame fun db => CredentialStmt.keeps Database.mfaEmailOtps (fun _ => rfl) h db
  | account stmt =>
    exact hsame fun db => AccountStmt.keeps Database.mfaEmailOtps (fun _ => rfl) h db
  | org stmt => exact hsame fun db => OrgStmt.keeps Database.mfaEmailOtps (fun _ => rfl) h db
  | mfa stmt =>
    cases stmt with
    | insertEmailOtp row =>
      simp only [denote, MfaStmt.denote] at h
      split at h
      · cases h
      obtain rfl := Except.ok.inj h
      refine ⟨id, [row], fun db => ?_, fun o => ⟨rfl, rfl, rfl, fun ho => ho, fun ho => ho⟩,
        fun _ _ => rfl, ?_⟩
      · rw [List.map_id]
      · intro o ho
        obtain rfl := List.mem_singleton.mp ho
        exact ⟨List.mem_singleton.mpr rfl, rfl⟩
    | invalidateEmailOtps userId now =>
      obtain rfl := Except.ok.inj h
      refine ⟨_, [], fun db => (List.append_nil _).symm, fun o => ?_, fun o ho => ?_,
        fun _ ho => (List.not_mem_nil ho).elim⟩
      · dsimp only
        split
        · exact ⟨rfl, rfl, rfl, fun ho => ho, fun ho => (Option.some_ne_none _ ho.2).elim⟩
        · exact ⟨rfl, rfl, rfl, fun ho => ho, fun ho => ho⟩
      · refine if_neg fun hmem => ho ?_
        have hid := of_decide_eq_true hmem
        obtain ⟨o', ho', hid'⟩ := List.mem_map.mp hid
        exact List.mem_map.mpr ⟨o', ho', congrArg RowKey.emailOtp hid'⟩
    | countOtpAttempt id maxAttempts =>
      obtain rfl := Except.ok.inj h
      refine ⟨_, [], fun db => (List.append_nil _).symm, fun o => ?_, fun o ho => ?_,
        fun _ ho => (List.not_mem_nil ho).elim⟩
      · dsimp only
        split <;> exact ⟨rfl, rfl, rfl, fun ho => ho, fun ho => ho⟩
      · refine if_neg fun hmem => ho ?_
        rw [(of_decide_eq_true hmem).1]
        exact List.mem_singleton.mpr rfl
    | invalidateEmailOtp id now =>
      obtain rfl := Except.ok.inj h
      refine ⟨_, [], fun db => (List.append_nil _).symm, fun o => ?_, fun o ho => ?_,
        fun _ ho => (List.not_mem_nil ho).elim⟩
      · dsimp only
        split
        · exact ⟨rfl, rfl, rfl, fun ho => ho, fun ho => (Option.some_ne_none _ ho.2).elim⟩
        · exact ⟨rfl, rfl, rfl, fun ho => ho, fun ho => ho⟩
      · refine if_neg fun hmem => ho ?_
        rw [of_decide_eq_true hmem]
        exact List.mem_singleton.mpr rfl
    | consumeEmailOtp id codeHash now maxAttempts =>
      obtain rfl := Except.ok.inj h
      refine ⟨_, [], fun db => (List.append_nil _).symm, fun o => ?_, fun o ho => ?_,
        fun _ ho => (List.not_mem_nil ho).elim⟩
      · dsimp only
        split
        · exact ⟨rfl, rfl, rfl, fun _ => rfl, fun ho => (Option.some_ne_none _ ho.1).elim⟩
        · exact ⟨rfl, rfl, rfl, fun ho => ho, fun ho => ho⟩
      · refine if_neg fun hmem => ho ?_
        rw [(of_decide_eq_true hmem).1]
        exact List.mem_singleton.mpr rfl
    | _ =>
      simp only [denote, MfaStmt.denote] at h
      try split at h
      all_goals
        cases h
        try exact hsame fun _ => rfl
  | _ =>
    simp only [denote] at h
    try split at h
    all_goals
      cases h
      try exact hsame fun _ => rfl

/-- The rows under an id, of which there should be one at most. -/
def Database.otpsOf (db : Database) (id : ℕ) : List MFAEmailOTP :=
  db.mfaEmailOtps.filter (·.id = id)

theorem Database.mem_otpsOf {db : Database} {id : ℕ} {o : MFAEmailOTP} :
    o ∈ db.otpsOf id ↔ o ∈ db.mfaEmailOtps ∧ o.id = id := by
  simp [Database.otpsOf]

/-- The rows under an id after a statement. -/
theorem otpsOf_denote {stmt : Stmt} {seen : Database} {eff : Effect Database RowKey}
    (h : denote stmt seen = .ok eff) :
    ∃ (g : MFAEmailOTP → MFAEmailOTP) (new : ℕ → List MFAEmailOTP),
      (∀ db id, (eff.delta db).otpsOf id = (db.otpsOf id).map g ++ new id) ∧
      (∀ o, .emailOtp o.id ∉ eff.locks → g o = o) ∧
      ∀ id, .emailOtp id ∉ eff.locks → new id = [] := by
  obtain ⟨g, new, hdelta, hg, hlocked, hnew⟩ := denote_otps h
  refine ⟨g, fun id => new.filter (·.id = id), fun db id => ?_, hlocked, fun id hid => ?_⟩
  · have hcomp : ((fun o : MFAEmailOTP => decide (o.id = id)) ∘ g) = fun o => decide (o.id = id) := by
      funext o
      simp only [Function.comp_apply, (hg o).1]
    unfold Database.otpsOf
    rw [hdelta, List.filter_append, List.filter_map, hcomp]
  · refine List.filter_eq_nil_iff.mpr fun o ho hoid => hid ?_
    have hlock := (hnew o ho).1
    rwa [of_decide_eq_true hoid] at hlock

/-- **Email codes as rows.** -/
def otpRows : Rows AuthSig (List MFAEmailOTP) where
  row db
    | .emailOtp id => db.otpsOf id
    | _ => []
  frame := by
    intro stmt seen eff h l hl db
    cases l with
    | emailOtp id =>
      obtain ⟨g, new, hdelta, hlocked, hnew⟩ := otpsOf_denote h
      show (eff.delta db).otpsOf id = db.otpsOf id
      rw [hdelta, hnew id hl, List.append_nil]
      calc (db.otpsOf id).map g = (db.otpsOf id).map (fun o => o) := List.map_congr_left fun o ho =>
            hlocked o (by rwa [(Database.mem_otpsOf.mp ho).2])
        _ = db.otpsOf id := List.map_id _
    | _ => rfl
  congr := by
    intro stmt seen eff h l db db' hrow
    cases l with
    | emailOtp id =>
      obtain ⟨g, new, hdelta, -, -⟩ := otpsOf_denote h
      have hrow : db.otpsOf id = db'.otpsOf id := hrow
      show (eff.delta db).otpsOf id = (eff.delta db').otpsOf id
      rw [hdelta, hdelta, hrow]
    | _ => rfl

/-- Codes are not deleted, keep what they are bound to, and are consumed for good. -/
def codesEvolve : Evolution AuthSig where
  le db db' := ∀ o ∈ db.mfaEmailOtps, ∃ o' ∈ db'.mfaEmailOtps, o'.id = o.id ∧
    o'.userId = o.userId ∧ o'.challengeJti = o.challengeJti ∧
    (o.consumedAt.isSome = true → o'.consumedAt.isSome = true)
  refl _ o ho := ⟨o, ho, rfl, rfl, rfl, fun h => h⟩
  trans := by
    intro db₁ db₂ db₃ h₁₂ h₂₃ o ho
    obtain ⟨o', ho', hid', huser', hjti', hused'⟩ := h₁₂ o ho
    obtain ⟨o'', ho'', hid'', huser'', hjti'', hused''⟩ := h₂₃ o' ho'
    exact ⟨o'', ho'', hid''.trans hid', huser''.trans huser', hjti''.trans hjti',
      fun h => hused'' (hused' h)⟩
  stmt := by
    intro stmt seen eff h db o ho
    obtain ⟨g, new, hdelta, hg, -, -⟩ := denote_otps h
    obtain ⟨hid, huser, hjti, hused, -⟩ := hg o
    refine ⟨g o, ?_, hid, huser, hjti, hused⟩
    rw [hdelta]
    exact List.mem_append_left _ (List.mem_map_of_mem ho)

/-! ## What holds of every code -/

/-- A code has not run past its attempts, and if it was consumed it was so while it
could be. -/
def MFAEmailOTP.Sound (maxAttempts : ℕ) (o : MFAEmailOTP) : Prop :=
  o.attempts ≤ maxAttempts ∧ ∀ t, o.consumedAt = some t →
    t < o.expiresAt ∧ o.attempts < maxAttempts ∧ o.invalidatedAt = none

/-- Of the rows under a lock: at most one, and sound. -/
def OtpsSound (maxAttempts : ℕ) (_ : RowKey) (rows : List MFAEmailOTP) : Prop :=
  rows.length ≤ 1 ∧ ∀ o ∈ rows, o.Sound maxAttempts

/-- At most one open code of each user. -/
def Database.OneOpenCode (db : Database) : Prop :=
  ∀ o ∈ db.mfaEmailOtps, ∀ o' ∈ db.mfaEmailOtps, o.Open → o'.Open → o.userId = o'.userId →
    o.id = o'.id

/-- Where a call stands, as far as the codes go. -/
inductive CodeStage
  | idle
  | holding (userId : ℕ)
  | cleared (userId : ℕ)
  | sent (userId : ℕ)
  | counted (id : ℕ)
  | claimed (id : ℕ)
  | won (id : ℕ)
  deriving DecidableEq

/-- A statement may count an attempt on the code. -/
def MFAEmailOTP.Countable (id maxAttempts : ℕ) (o : MFAEmailOTP) : Prop :=
  o.id = id ∧ o.Open ∧ o.attempts < maxAttempts

instance (id maxAttempts : ℕ) (o : MFAEmailOTP) : Decidable (o.Countable id maxAttempts) :=
  inferInstanceAs (Decidable (_ ∧ _))

/-- A statement may consume the code. -/
def MFAEmailOTP.Consumable (id codeHash now maxAttempts : ℕ) (o : MFAEmailOTP) : Prop :=
  o.id = id ∧ o.codeHash = codeHash ∧ o.Open ∧ now < o.expiresAt ∧ o.attempts < maxAttempts

instance (id codeHash now maxAttempts : ℕ) (o : MFAEmailOTP) :
    Decidable (o.Consumable id codeHash now maxAttempts) :=
  inferInstanceAs (Decidable (_ ∧ _))

namespace CodeStage

/-- The stage after a statement. -/
def wrote (stage : CodeStage) (stmt : Stmt) (seen : Database) : CodeStage :=
  match stmt with
  | .mfa (.lockUser userId) => holding userId
  | .mfa (.invalidateEmailOtps userId _) => cleared userId
  | .mfa (.insertEmailOtp row) => sent row.userId
  | .mfa (.countOtpAttempt id maxAttempts) =>
      if ∃ o ∈ seen.mfaEmailOtps, o.Countable id maxAttempts then counted id else stage
  | .mfa (.consumeEmailOtp id codeHash now maxAttempts) =>
      if ∃ o ∈ seen.mfaEmailOtps, o.Consumable id codeHash now maxAttempts then claimed id
      else stage
  | _ => stage

/-- The stage after a commit. -/
def committed : CodeStage → CodeStage
  | claimed id => won id
  | won id => won id
  | _ => idle

/-- The stage after a transaction that is lost. -/
def lost : CodeStage → CodeStage
  | won id => won id
  | _ => idle

/-- The statements of a stage. -/
def Allows (maxAttempts : ℕ) (stage : CodeStage) : Stmt → Prop
  | .insertAuditEvent _ => True
  | .mfa (.lockUser _) => stage = idle
  | .mfa (.invalidateEmailOtps userId _) => stage = holding userId
  | .mfa (.insertEmailOtp row) =>
      stage = cleared row.userId ∧ row.attempts = 0 ∧ row.consumedAt = none
  | .mfa (.countOtpAttempt _ m) => stage = idle ∧ m = maxAttempts
  | .mfa (.consumeEmailOtp _ _ _ m) => stage = idle ∧ m = maxAttempts
  | .mfa (.invalidateEmailOtp id _) => stage = counted id
  | _ => False

end CodeStage

/-- A call between two of its steps: its stage, the first thing it read, and that it has
written nothing since its transaction began. -/
structure CodeState where
  stage : CodeStage
  saw : Option Database
  clean : Bool

/-- **The discipline of mailed codes.** -/
def codes (maxAttempts : ℕ) : Discipline AuthSig CodeState where
  next q
    | .read v => { q with saw := if q.clean ∧ q.saw = none then some v else q.saw }
    | .wrote stmt seen _ => { q with stage := q.stage.wrote stmt seen, clean := false }
    | .committed | .commitLost _ => { q with stage := q.stage.committed, clean := true }
    | .rolledBack | .commitFailed _ | .crashed _ => { q with stage := q.stage.lost, clean := true }
    | _ => q
  sees _ _ := True
  may q
    | .wrote stmt _ _ => q.stage.Allows maxAttempts stmt
    | _ => True

section Steps

variable {ι : Type} {maxAttempts : ℕ} {stmt : Stmt} {seen : Database}
  {eff : Effect Database RowKey} {stage : CodeStage}

theorem OtpsSound.eq_of_mem {l : RowKey} {rows : List MFAEmailOTP} {o o' : MFAEmailOTP}
    (h : OtpsSound maxAttempts l rows) (ho : o ∈ rows) (ho' : o' ∈ rows) : o = o' := by
  match rows, h.1 with
  | [_], _ => rw [List.mem_singleton.mp ho, List.mem_singleton.mp ho']

theorem OtpsSound.insert {maxAttempts : ℕ} {row : MFAEmailOTP} {l : RowKey}
    (hattempts : row.attempts = 0) (hfree : row.consumedAt = none) :
    OtpsSound maxAttempts l [row] := by
  refine ⟨Nat.le_refl _, fun o ho => ?_⟩
  obtain rfl := List.mem_singleton.mp ho
  refine ⟨by omega, fun t ht => ?_⟩
  rw [hfree] at ht
  cases ht

theorem OtpsSound.map {l : RowKey} {rows : List MFAEmailOTP} {g : MFAEmailOTP → MFAEmailOTP}
    (h : OtpsSound maxAttempts l rows)
    (hg : ∀ o ∈ rows, o.Sound maxAttempts → (g o).Sound maxAttempts) :
    OtpsSound maxAttempts l (rows.map g) := by
  refine ⟨by simpa using h.1, fun o ho => ?_⟩
  obtain ⟨o', ho', rfl⟩ := List.mem_map.mp ho
  exact hg o' ho' (h.2 o' ho')

theorem Database.otpsOf_updateOtps (db : Database) (p : MFAEmailOTP → Bool)
    {f : MFAEmailOTP → MFAEmailOTP} (hf : ∀ o, (f o).id = o.id) (id : ℕ) :
    (db.updateOtps p f).otpsOf id = (db.otpsOf id).map fun o => if p o then f o else o := by
  have hcomp : ((fun o : MFAEmailOTP => decide (o.id = id)) ∘ fun o => if p o then f o else o) =
      fun o => decide (o.id = id) := by
    funext o
    by_cases ho : p o = true
    · simp only [Function.comp_apply, if_pos ho, hf o]
    · simp only [Function.comp_apply, if_neg ho]
  unfold Database.otpsOf Database.updateOtps
  rw [List.filter_map, hcomp]

/-- **A statement of its stage keeps the codes sound.** -/
theorem otpsSound_denote (hallows : stage.Allows maxAttempts stmt)
    (hsound : ∀ l, OtpsSound maxAttempts l (otpRows.row seen l))
    (hcounted : ∀ id, stage = .counted id → ∀ o ∈ seen.otpsOf id, o.consumedAt = none)
    (h : denote stmt seen = .ok eff) (l : RowKey) :
    OtpsSound maxAttempts l (otpRows.row (eff.delta seen) l) := by
  cases l with
  | emailOtp id =>
    have hid : OtpsSound maxAttempts (.emailOtp id) (seen.otpsOf id) := hsound (.emailOtp id)
    show OtpsSound maxAttempts _ ((eff.delta seen).otpsOf id)
    cases stmt with
    | insertAuditEvent event =>
      obtain rfl := Except.ok.inj h
      exact hid
    | mfa stmt =>
      cases stmt with
      | lockUser userId =>
        obtain rfl := Except.ok.inj h
        exact hid
      | insertEmailOtp row =>
        simp only [denote, MfaStmt.denote] at h
        split at h
        · cases h
        rename_i hfresh
        obtain rfl := Except.ok.inj h
        show OtpsSound maxAttempts _ ((seen.mfaEmailOtps ++ [row]).filter (·.id = id))
        rw [List.filter_append]
        by_cases hrow : row.id = id
        · have hnone : seen.otpsOf id = [] := by
            refine List.filter_eq_nil_iff.mpr fun o ho hoid => hfresh ⟨o, ho, ?_⟩
            rw [of_decide_eq_true hoid, hrow]
          have hone : [row].filter (fun o => decide (o.id = id)) = [row] := by
            simp [hrow]
          rw [hone, show seen.mfaEmailOtps.filter (·.id = id) = [] from hnone, List.nil_append]
          exact OtpsSound.insert hallows.2.1 hallows.2.2
        · have hother : [row].filter (fun o => decide (o.id = id)) = [] := by
            simp [hrow]
          rw [hother, List.append_nil]
          exact hid
      | invalidateEmailOtps userId now =>
        obtain rfl := Except.ok.inj h
        show OtpsSound maxAttempts _ ((seen.updateOtps _ _).otpsOf id)
        rw [seen.otpsOf_updateOtps _ fun _ => by rfl]
        refine hid.map fun o hmem ho => ?_
        split
        · -- the row is open, as the only one under its id
          rename_i hin
          obtain ⟨o', ho', hid'⟩ := List.mem_map.mp (of_decide_eq_true hin)
          obtain ⟨hmem', hopen⟩ := List.mem_filter.mp ho'
          have hsame : o' = o := hid.eq_of_mem
            (Database.mem_otpsOf.mpr ⟨hmem', hid'.trans (Database.mem_otpsOf.mp hmem).2⟩) hmem
          refine ⟨ho.1, fun t ht => ?_⟩
          have hfree := (of_decide_eq_true hopen).2.1
          rw [hsame] at hfree
          rw [hfree] at ht
          cases ht
        · exact ho
      | countOtpAttempt oid m =>
        obtain rfl := Except.ok.inj h
        show OtpsSound maxAttempts _ ((seen.updateOtps _ _).otpsOf id)
        rw [seen.otpsOf_updateOtps _ fun _ => by rfl]
        refine hid.map fun o _ ho => ?_
        split
        · rename_i hcount
          obtain ⟨-, hopen, hless⟩ := of_decide_eq_true hcount
          obtain ⟨-, rfl⟩ := hallows
          refine ⟨hless, fun t ht => ?_⟩
          rw [hopen.1] at ht
          cases ht
        · exact ho
      | invalidateEmailOtp oid now =>
        obtain rfl := Except.ok.inj h
        show OtpsSound maxAttempts _ ((seen.updateOtps _ _).otpsOf id)
        rw [seen.otpsOf_updateOtps _ fun _ => by rfl]
        refine hid.map fun o hmem ho => ?_
        split
        · -- the attempt was counted on this row, so it is not consumed
          rename_i hoid
          have hoid : o.id = oid := of_decide_eq_true hoid
          have hfree : o.consumedAt = none := by
            refine hcounted oid hallows o (Database.mem_otpsOf.mpr ⟨?_, hoid⟩)
            exact (Database.mem_otpsOf.mp hmem).1
          refine ⟨ho.1, fun t ht => ?_⟩
          rw [hfree] at ht
          cases ht
        · exact ho
      | consumeEmailOtp oid codeHash now m =>
        obtain rfl := Except.ok.inj h
        show OtpsSound maxAttempts _ ((seen.updateOtps _ _).otpsOf id)
        rw [seen.otpsOf_updateOtps _ fun _ => by rfl]
        refine hid.map fun o _ ho => ?_
        split
        · rename_i hconsume
          obtain ⟨-, -, hopen, hlive, hless⟩ := of_decide_eq_true hconsume
          obtain ⟨-, rfl⟩ := hallows
          refine ⟨ho.1, fun t ht => ?_⟩
          obtain rfl := Option.some.inj ht
          exact ⟨hlive, hless, hopen.2⟩
        · exact ho
      | _ => exact hallows.elim
    | _ => exact hallows.elim
  | _ => exact ⟨Nat.zero_le _, fun _ ho => (List.not_mem_nil ho).elim⟩

end Steps

end OmniAuth
