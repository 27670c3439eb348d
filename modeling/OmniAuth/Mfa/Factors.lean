import OmniAuth.Mfa.Enrollment
import OmniAuth.Login.Entries
import OmniAuth.Txn.Preserves

/-!
# The flag and the factors

`users.mfa_enabled` is written where devices are verified, removed and reset, and where an
invitation sets one up. Run one after the other the requests keep it true: it is set exactly
for the users who have a verified device that is not disabled.
-/

namespace OmniAuth

open Txn Prog

variable {α β : Type}

/-! ## Flag and factors -/

/-- `users.mfa_enabled`, of a user who is there. -/
def Database.mfaEnabledOf (db : Database) (userId : ℕ) : Bool :=
  ((db.userById userId).map (·.mfaEnabled)).getD false

/-- The devices that count, by their ids. -/
def Database.factorIds (db : Database) (userId : ℕ) : List ℕ :=
  (db.activeDevices userId).map (·.id)

/-- The flag of a user says whether a device of his counts. -/
def Database.FlagTrue (db : Database) (userId : ℕ) : Prop :=
  db.mfaEnabledOf userId = true ↔ db.factorIds userId ≠ []

/-- **The invariant**, but for some users. -/
structure Database.FactorsAgreeBut (db : Database) (P : ℕ → Prop) : Prop where
  ids : (db.mfaDevices.map (·.id)).Nodup
  flag : ∀ userId, ¬ P userId → db.FlagTrue userId

/-- **The invariant.** -/
def Database.FactorsAgree (db : Database) : Prop := db.FactorsAgreeBut fun _ => False

instance (db : Database) (userId : ℕ) : Decidable (db.FlagTrue userId) :=
  inferInstanceAs (Decidable (_ ↔ _))

section

variable {db : Database} {userId deviceId : ℕ} {P : ℕ → Prop}

theorem Database.FactorsAgree.but (h : db.FactorsAgree) : db.FactorsAgreeBut P :=
  ⟨h.ids, fun userId _ => h.flag userId id⟩

theorem Database.FactorsAgreeBut.agree (h : db.FactorsAgreeBut (· = userId))
    (hflag : db.FlagTrue userId) : db.FactorsAgree := by
  refine ⟨h.ids, fun id _ => ?_⟩
  by_cases hid : id = userId
  · rw [hid]
    exact hflag
  · exact h.flag id hid

theorem Database.mfaEnabledOf_of_userById {user : User} (h : db.userById userId = some user) :
    db.mfaEnabledOf userId = user.mfaEnabled := by
  unfold Database.mfaEnabledOf
  rw [h]
  rfl

/-! ### Users -/

theorem Database.userById_updateUser (db : Database) (id userId : ℕ) {f : User → User}
    (hf : ∀ u, (f u).id = u.id) :
    (db.updateUser id f).userById userId =
      (db.userById userId).map fun u => if u.id = id then f u else u := by
  have hid : ((fun u : User => decide (u.id = userId)) ∘ fun u => if u.id = id then f u else u) =
      fun u => decide (u.id = userId) := by
    funext u
    simp only [Function.comp_apply]
    split
    · rw [hf]
    · rfl
  simp only [Database.userById, Database.updateUser, List.find?_map, hid]

/-- A user whose flag an update leaves alone. -/
theorem Database.mfaEnabledOf_updateUser {id : ℕ} {f : User → User} (hid : ∀ u, (f u).id = u.id)
    (hflag : ∀ u, (f u).mfaEnabled = u.mfaEnabled) :
    (db.updateUser id f).mfaEnabledOf userId = db.mfaEnabledOf userId := by
  unfold Database.mfaEnabledOf
  rw [Database.userById_updateUser db id userId hid, Option.map_map]
  congr 2
  funext u
  simp only [Function.comp_apply]
  split
  · exact hflag u
  · rfl

/-- Another user. -/
theorem Database.mfaEnabledOf_updateUser_of_ne {id : ℕ} {f : User → User}
    (hid : ∀ u, (f u).id = u.id) (hne : userId ≠ id) :
    (db.updateUser id f).mfaEnabledOf userId = db.mfaEnabledOf userId := by
  unfold Database.mfaEnabledOf
  rw [Database.userById_updateUser db id userId hid]
  cases hu : db.userById userId with
  | none => rfl
  | some u =>
    have : u.id ≠ id := fun h => hne ((Database.userById_id hu).symm.trans h)
    simp [this]

theorem Database.mfaEnabledOf_setMfa {user : User} (h : db.userById userId = some user)
    (columns : MfaColumns) :
    (db.updateUser userId (User.setMfa columns)).mfaEnabledOf userId =
      columns.enabled.getD user.mfaEnabled :=
  Database.mfaEnabledOf_of_userById (Database.userById_setMfa columns h)

/-- A new user has no factor, and says so. -/
theorem Database.mfaEnabledOf_insert {row : User} (hrow : row.mfaEnabled = false) :
    Database.mfaEnabledOf { db with users := db.users ++ [row] } userId =
      db.mfaEnabledOf userId := by
  unfold Database.mfaEnabledOf Database.userById
  simp only [List.find?_append]
  cases hu : db.users.find? (fun u => decide (u.id = userId)) with
  | some u => rfl
  | none =>
    by_cases hid : row.id = userId
    · simp [hid, hrow]
    · simp [hid]

/-! ### Devices -/

theorem Database.ids_updateDevices {ids : List ℕ} {f : MFADevice → MFADevice}
    (hid : ∀ d, (f d).id = d.id) :
    (db.updateDevices ids f).mfaDevices.map (·.id) = db.mfaDevices.map (·.id) := by
  show (db.mfaDevices.map fun d => if d.id ∈ ids then f d else d).map _ = _
  rw [List.map_map]
  refine List.map_congr_left fun d _ => ?_
  show (if d.id ∈ ids then f d else d).id = d.id
  split
  · exact hid d
  · rfl

/-- An update of devices that are not the user's, or that leaves whether they count. -/
theorem Database.factorIds_updateDevices {ids : List ℕ} {f : MFADevice → MFADevice}
    (hid : ∀ d, (f d).id = d.id) (howner : ∀ d, (f d).userId = d.userId)
    (hkept : ∀ d ∈ db.mfaDevices, d.id ∈ ids → d.userId = userId → ((f d).Active ↔ d.Active)) :
    (db.updateDevices ids f).factorIds userId = db.factorIds userId := by
  unfold Database.factorIds Database.activeDevices Database.updateDevices
  generalize db.mfaDevices = devices at hkept
  induction devices with
  | nil => rfl
  | cons d rest ih =>
    have ih := ih fun d' hd' => hkept d' (List.mem_cons_of_mem _ hd')
    rw [List.map_cons, List.filter_cons, List.filter_cons]
    by_cases hd : d.id ∈ ids
    · have hsame : ((f d).userId = userId ∧ (f d).Active) ↔ (d.userId = userId ∧ d.Active) := by
        rw [howner]
        exact and_congr_right fun hu => hkept d (List.mem_cons_self ..) hd hu
      simp only [if_pos hd, hsame]
      split
      · simp only [List.map_cons, hid, ih]
      · exact ih
    · simp only [if_neg hd]
      split
      · simp only [List.map_cons, ih]
      · exact ih

theorem Database.factorIds_insert {row : MFADevice} (hrow : row.userId = userId → ¬ row.Active) :
    Database.factorIds { db with mfaDevices := db.mfaDevices ++ [row] } userId =
      db.factorIds userId := by
  unfold Database.factorIds Database.activeDevices
  simp only [List.filter_append]
  have hnone : [row].filter (fun d => decide (d.userId = userId ∧ d.Active)) = [] := by
    rw [List.filter_eq_nil_iff]
    intro d hd hactive
    obtain rfl := List.mem_singleton.mp hd
    obtain ⟨hu, ha⟩ := of_decide_eq_true hactive
    exact hrow hu ha
  rw [hnone, List.append_nil]

/-- A device of the user that is verified and not disabled counts. -/
theorem Database.factorIds_ne_nil {d : MFADevice} (hd : d ∈ db.mfaDevices)
    (howner : d.userId = userId) (hactive : d.Active) : db.factorIds userId ≠ [] := by
  have hmem : d ∈ db.activeDevices userId :=
    List.mem_filter.mpr ⟨hd, decide_eq_true ⟨howner, hactive⟩⟩
  exact List.ne_nil_of_mem (List.mem_map_of_mem hmem)

end

/-! ## Statements -/

/-- Statements that leave every flag and every factor as they are. -/
def Stmt.KeepsFactors : Stmt → Prop
  | .account (.insertUser row) => row.mfaEnabled = false
  | .mfa (.updateMfa _ columns) => columns.enabled = none
  | .mfa (.insertDevice row) => row.verifiedAt = none
  | .mfa (.verifyDevice _ _) | .mfa (.disableDevices _ _) => False
  | _ => True

section

variable {stmt : Stmt} {seen : Database} {eff : Effect Database RowKey} {P : ℕ → Prop}

/-- **They do.** -/
theorem Stmt.KeepsFactors.keeps (hs : stmt.KeepsFactors) (h : denote stmt seen = .ok eff)
    (userId : ℕ) :
    (eff.delta seen).mfaEnabledOf userId = seen.mfaEnabledOf userId ∧
      (eff.delta seen).factorIds userId = seen.factorIds userId := by
  cases stmt with
  | credential stmt =>
    exact ⟨CredentialStmt.keeps (Database.mfaEnabledOf · userId) (fun _ => rfl) h seen,
      CredentialStmt.keeps (Database.factorIds · userId) (fun _ => rfl) h seen⟩
  | org stmt =>
    exact ⟨OrgStmt.keeps (Database.mfaEnabledOf · userId) (fun _ => rfl) h seen,
      OrgStmt.keeps (Database.factorIds · userId) (fun _ => rfl) h seen⟩
  | account stmt =>
    refine ⟨?_, AccountStmt.keeps (Database.factorIds · userId) (fun _ => rfl) h seen⟩
    cases stmt with
    | insertUser row =>
      simp only [denote, AccountStmt.denote] at h
      split at h
      · cases h
      obtain rfl := Except.ok.inj h
      exact Database.mfaEnabledOf_insert hs
    | assignUserRole id roleId =>
      obtain rfl := Except.ok.inj h
      exact Database.mfaEnabledOf_updateUser (fun _ => rfl) fun _ => rfl
    | setPassword id hash =>
      obtain rfl := Except.ok.inj h
      exact Database.mfaEnabledOf_updateUser (fun _ => rfl) fun _ => rfl
    | _ =>
      simp only [denote, AccountStmt.denote] at h
      (try split at h) <;> cases h
      all_goals rfl
  | touchLogin id t method =>
    obtain rfl := Except.ok.inj h
    exact ⟨Database.mfaEnabledOf_updateUser (fun _ => rfl) fun _ => rfl, rfl⟩
  | setStatus id status t reason actor =>
    obtain rfl := Except.ok.inj h
    exact ⟨Database.mfaEnabledOf_updateUser (fun _ => rfl) fun _ => rfl, rfl⟩
  | mfa stmt =>
    cases stmt with
    | touchDevice id t =>
      obtain rfl := Except.ok.inj h
      exact ⟨rfl, Database.factorIds_updateDevices (fun _ => rfl) (fun _ => rfl)
        fun _ _ _ _ => Iff.rfl⟩
    | updateMfa id columns =>
      obtain rfl := Except.ok.inj h
      refine ⟨Database.mfaEnabledOf_updateUser (fun _ => rfl) fun u => ?_, rfl⟩
      show columns.enabled.getD u.mfaEnabled = u.mfaEnabled
      rw [show columns.enabled = none from hs]
      rfl
    | insertDevice row =>
      simp only [denote, MfaStmt.denote] at h
      split at h
      · cases h
      obtain rfl := Except.ok.inj h
      refine ⟨rfl, Database.factorIds_insert fun _ hactive => ?_⟩
      have hverified := hactive.1
      rw [show row.verifiedAt = none from hs] at hverified
      cases hverified
    | verifyDevice id t => exact hs.elim
    | disableDevices ids t => exact hs.elim
    | _ =>
      simp only [denote, MfaStmt.denote] at h
      (try split at h) <;> cases h
      all_goals exact ⟨rfl, rfl⟩
  | _ =>
    simp only [denote] at h
    (try split at h) <;> cases h
    all_goals exact ⟨rfl, rfl⟩

/-- The ids of the devices stay apart, whatever is executed. -/
theorem deviceIds_denote (h : denote stmt seen = .ok eff)
    (hids : (seen.mfaDevices.map (·.id)).Nodup) :
    ((eff.delta seen).mfaDevices.map (·.id)).Nodup := by
  have hkeep : (eff.delta seen).mfaDevices.map (·.id) = seen.mfaDevices.map (·.id) ∨
      ∃ id, (∀ d ∈ seen.mfaDevices, d.id ≠ id) ∧
        (eff.delta seen).mfaDevices.map (·.id) = seen.mfaDevices.map (·.id) ++ [id] := by
    cases stmt with
    | credential stmt =>
      exact .inl (CredentialStmt.keeps (·.mfaDevices.map (·.id)) (fun _ => rfl) h seen)
    | org stmt => exact .inl (OrgStmt.keeps (·.mfaDevices.map (·.id)) (fun _ => rfl) h seen)
    | account stmt =>
      exact .inl (AccountStmt.keeps (·.mfaDevices.map (·.id)) (fun _ => rfl) h seen)
    | mfa stmt =>
      cases stmt with
      | touchDevice id t =>
        obtain rfl := Except.ok.inj h
        exact .inl (Database.ids_updateDevices fun _ => rfl)
      | verifyDevice id t =>
        obtain rfl := Except.ok.inj h
        exact .inl (Database.ids_updateDevices fun _ => rfl)
      | disableDevices ids t =>
        obtain rfl := Except.ok.inj h
        exact .inl (Database.ids_updateDevices fun _ => rfl)
      | insertDevice row =>
        simp only [denote, MfaStmt.denote] at h
        split at h
        · cases h
        rename_i hfree
        obtain rfl := Except.ok.inj h
        exact .inr ⟨row.id, fun d hd hid => hfree ⟨d, hd, hid⟩, by simp⟩
      | _ =>
        simp only [denote, MfaStmt.denote] at h
        (try split at h) <;> cases h
        all_goals exact .inl rfl
    | _ =>
      simp only [denote] at h
      (try split at h) <;> cases h
      all_goals exact .inl rfl
  rcases hkeep with hsame | ⟨id, hfree, hadded⟩
  · rwa [hsame]
  · rw [hadded, List.nodup_append]
    refine ⟨hids, List.nodup_singleton _, fun a ha b hb hab => ?_⟩
    obtain ⟨d, hd, rfl⟩ := List.mem_map.mp ha
    exact hfree d hd (hab.trans (List.mem_singleton.mp hb))

/-- A statement that leaves the flags and the factors of the others alone. -/
theorem Database.FactorsAgreeBut.denote (h : seen.FactorsAgreeBut P)
    (hden : denote stmt seen = .ok eff)
    (hothers : ∀ userId, ¬ P userId →
      (eff.delta seen).mfaEnabledOf userId = seen.mfaEnabledOf userId ∧
        (eff.delta seen).factorIds userId = seen.factorIds userId) :
    (eff.delta seen).FactorsAgreeBut P := by
  refine ⟨deviceIds_denote hden h.ids, fun userId hP => ?_⟩
  obtain ⟨hflag, hfactors⟩ := hothers userId hP
  unfold Database.FlagTrue
  rw [hflag, hfactors]
  exact h.flag userId hP

theorem Stmt.KeepsFactors.agreeBut (hs : stmt.KeepsFactors)
    (hden : OmniAuth.denote stmt seen = .ok eff) (h : seen.FactorsAgreeBut P) : (eff.delta seen).FactorsAgreeBut P :=
  h.denote hden fun userId _ => hs.keeps hden userId

end

/-! ## Programs -/

/-- A request that has replied leaves the invariant, and one that raises has committed
nothing that breaks it. -/
def Agreeing {X : Type} (r : Except X α) (w : World) : Prop :=
  w.base.FactorsAgree ∧ ((∃ a, r = .ok a) → w.cur.FactorsAgree)

section

variable {w : World} {F : Prop}

theorem agreeing_of_both {p : Op α} (h : p.Ends w fun _ => Both Database.FactorsAgree) :
    p.Ends w Agreeing := h.mono fun _ _ hw' => ⟨hw'.1, fun _ => hw'.2⟩

theorem agreeing_bind {p : Op β} {k : β → Op α} (h : p.Ends w Agreeing)
    (hk : ∀ b w', Both Database.FactorsAgree w' → (k b).Ends w' Agreeing) :
    (p.bind k).Ends w Agreeing := by
  refine ends_handle.mpr (h.mono fun r w' hw' => ?_)
  cases r with
  | ok b => exact hk b w' ⟨hw'.1, hw'.2 ⟨b, rfl⟩⟩
  | error x => exact ends_raise.mpr ⟨hw'.1, fun hok => absurd hok (by simp)⟩

/-- An exception that is translated. -/
theorem agreeing_orElse {p : Op α} {h : Err → Op α} (hp : p.Ends w Agreeing)
    (hraise : ∀ x, ∃ y, h x = raise y) : (p.orElse h).Ends w Agreeing := by
  refine ends_handle.mpr (hp.mono fun r w' hw' => ?_)
  cases r with
  | ok a => exact ends_ret.mpr hw'
  | error x =>
    obtain ⟨y, hy⟩ := hraise x
    show (h x).Ends w' Agreeing
    rw [hy]
    exact ends_raise.mpr ⟨hw'.1, fun hok => absurd hok (by simp)⟩

theorem startFails_raises (x : Err) : ∃ y, (startFails x : Op α) = raise y := by
  cases x <;> exact ⟨_, rfl⟩

theorem verifyFails_raises (x : Err) : ∃ y, (verifyFails x : Op α) = raise y := by
  cases x <;> exact ⟨_, rfl⟩

/-- A program whose statements keep the flags and the factors. -/
theorem keeps_preserves {p : Op α} (h : p.Within F (Executing Stmt.KeepsFactors)) :
    p.Preserves Database.FactorsAgree :=
  h.preserves fun hs hden hseen => Stmt.KeepsFactors.agreeBut hs hden hseen

theorem logEvent_keeps (event : AuditEvent) (commit : Bool) :
    (logEvent event commit).Within F (Executing Stmt.KeepsFactors) :=
  logEvent_executing (fun _ => trivial) commit

/-! ### Starting -/

/-- A device with the id of a pending one is the pending one. -/
theorem Database.not_active_of_pending {db : Database} (hids : (db.mfaDevices.map (·.id)).Nodup)
    {userId : ℕ} {d : MFADevice} (hd : d ∈ db.mfaDevices)
    (hpending : d.id ∈ (db.pendingDevices userId).map (·.id)) : ¬ d.Active := by
  obtain ⟨d', hd', hid⟩ := List.mem_map.mp hpending
  obtain ⟨hmem, hkept⟩ := List.mem_filter.mp hd'
  obtain rfl := List.inj_on_of_nodup_map hids hmem hd hid
  obtain ⟨-, -, hunverified, -⟩ := of_decide_eq_true hkept
  intro hactive
  have hverified := hactive.1
  rw [hunverified] at hverified
  cases hverified

theorem not_active_disabled {d : MFADevice} {t : ℕ} :
    ¬ ({ d with disabledAt := some t } : MFADevice).Active := by
  rintro ⟨-, h⟩
  cases h

theorem disablePending_preserves (userId : ℕ) :
    (disablePendingTotpDevices userId).Preserves Database.FactorsAgree := by
  rintro w ⟨hbase, hcur⟩
  refine ends_query_bind.mpr ?_
  split
  · exact ends_ret.mpr ⟨hbase, hcur⟩
  refine ends_time_bind.mpr fun now _ => ends_returning_bind.mpr ⟨fun eff heff => ?_, fun x hx => ?_⟩
  · have hagree : (eff.delta w.cur).FactorsAgree := by
      have heff : OmniAuth.denote (.mfa (.disableDevices _ now)) w.cur = .ok eff := heff
      refine Database.FactorsAgreeBut.denote hcur heff fun id _ => ?_
      obtain rfl := Except.ok.inj heff
      refine ⟨rfl, Database.factorIds_updateDevices (fun _ => rfl) (fun _ => rfl)
        fun d hd hpending _ => ?_⟩
      exact iff_of_false not_active_disabled (Database.not_active_of_pending hcur.ids hd hpending)
    exact ends_commitNow.mpr ⟨hagree, hagree⟩
  · cases hx

variable {A : AppEnv}

theorem startTotpEnrollment_preserves (userId : ℕ) :
    (startTotpEnrollment A userId).Preserves Database.FactorsAgree := by
  refine (disablePending_preserves userId).bind fun _ => keeps_preserves (F := True) ?_
  refine draw_executing.bind fun n => ?_
  split
  · trivial
  refine time_executing.bind fun createdAt => draw_executing.bind fun id => ?_
  refine Within.bind (execute_executing rfl) fun _ => (logEvent_keeps _ _).bind fun _ => ?_
  exact commitNow_executing.bind fun _ => trivial

theorem getMfaEnrollmentUser_reads (redis : Option Redis) (token : A.Token) :
    (getMfaEnrollmentUser A redis token).Within F (Executing Stmt.KeepsFactors) := by
  refine time_executing.bind fun now => ?_
  split
  · trivial
  split
  · refine time_executing.bind fun now => Within.bind ?_ fun user => ?_
    · refine (query_executing _).bind fun answer => ?_
      cases answer <;> trivial
    · split <;> trivial
  · split
    · split
      · trivial
      refine (query_executing _).bind fun user => time_executing.bind fun now => ?_
      refine (query_executing _).bind fun session => ?_
      split
      · trivial
      · split <;> trivial
    · trivial

theorem lockActiveSession_keeps (userId tokenJti : ℕ) :
    (lockActiveSession userId tokenJti).Within F (Executing Stmt.KeepsFactors) :=
  time_executing.bind fun _ =>
    within_returning (fun _ _ => trivial) (fun _ _ => trivial) fun _ _ => trivial

theorem consumeSession_keeps (sessionId : ℕ) :
    (consumeSession sessionId).Within F (Executing Stmt.KeepsFactors) := by
  refine time_executing.bind fun now => Within.bind
    (within_returning (fun _ _ => trivial) (fun _ _ => trivial) fun _ _ => trivial) fun changed => ?_
  split
  · exact commitNow_executing.bind fun _ => trivial
  · exact ⟨trivial, trivial⟩

theorem startEnrollment_agrees (redis : Option Redis) (token : A.Token)
    (hw : Both Database.FactorsAgree w) : (startEnrollment A redis token).Ends w Agreeing := by
  refine agreeing_bind (agreeing_of_both
    (keeps_preserves (getMfaEnrollmentUser_reads (F := True) redis token) w hw)) fun user w hw => ?_
  have hstart : ∀ w, Both Database.FactorsAgree w →
      ((startTotpEnrollment A user.userId).orElse startFails).Ends w Agreeing := fun w hw =>
    agreeing_orElse (agreeing_of_both (startTotpEnrollment_preserves _ w hw)) startFails_raises
  split
  · exact hstart w hw
  · refine agreeing_bind (agreeing_of_both
      (keeps_preserves (lockActiveSession_keeps (F := True) _ _) w hw)) fun session w hw => ?_
    split
    · exact ends_raise.mpr ⟨hw.1, fun hok => absurd hok (by simp)⟩
    · refine agreeing_bind (hstart w hw) fun device w hw => agreeing_of_both ?_
      refine keeps_preserves (F := True) (Within.bind (execute_executing (by trivial)) fun _ => ?_) w hw
      exact commitNow_executing.bind fun _ => trivial

/-! ### Verifying -/

theorem ends_logEvent_bind {event : AuditEvent} {k : Unit → Op α}
    {post : Except Err α → World → Prop}
    (h : ∀ t e, (k ()).Ends { w with now := t, cur := w.cur.insertAudit e } post) :
    ((logEvent event false).bind k).Ends w post := by
  refine ends_handle.mpr fun r w' hexec => ?_
  obtain ⟨rfl, t, e, rfl⟩ := logEvent_exec hexec
  exact h t e

/-- The code is compared without writing. -/
theorem verifyTotpCode_reads (secret code : String) :
    (verifyTotpCode A secret code).Ends w fun _ w' => w'.base = w.base ∧ w'.cur = w.cur := by
  refine ends_handle.mpr ?_
  have hstep : (totpMatchedStep A secret code).Ends w fun _ w' =>
      w'.base = w.base ∧ w'.cur = w.cur := by
    unfold totpMatchedStep
    split
    · exact ends_ret.mpr ⟨rfl, rfl⟩
    · refine ends_time_bind.mpr fun t _ => ?_
      split
      · exact ends_ret.mpr ⟨rfl, rfl⟩
      · exact ends_raise.mpr ⟨rfl, rfl⟩
  refine hstep.mono fun r w' hw' => ?_
  cases r with
  | ok step => exact ends_ret.mpr hw'
  | error x => exact ends_raise.mpr hw'

/-- **A device that counts is one more, and the flag is set.** Between the two the invariant
fails of the user, inside the transaction. -/
theorem enableDevice_agrees {userId : ℕ} {device : MFADevice} (hw : Both Database.FactorsAgree w)
    (hmem : device ∈ w.cur.mfaDevices) (howner : device.userId = userId)
    (henabled : device.disabledAt = none) : (enableDevice userId device).Ends w Agreeing := by
  obtain ⟨hbase, hcur⟩ := hw
  refine ends_time_bind.mpr fun now _ => ends_returning_bind.mpr ⟨fun eff heff => ?_, fun x hx => ?_⟩
  swap
  · cases hx
  have heff : denote (.mfa (.verifyDevice device.id now)) w.cur = .ok eff := heff
  have hbut : (eff.delta w.cur).FactorsAgreeBut (· = userId) := by
    refine hcur.but.denote heff fun id hid => ?_
    obtain rfl := Except.ok.inj heff
    refine ⟨rfl, Database.factorIds_updateDevices (fun _ => rfl) (fun _ => rfl)
      fun d hd hdevice hd' => ?_⟩
    obtain rfl := List.inj_on_of_nodup_map hcur.ids hd hmem (List.mem_singleton.mp hdevice)
    exact absurd (hd'.symm.trans howner) hid
  have hcounts : (eff.delta w.cur).factorIds userId ≠ [] := by
    obtain rfl := Except.ok.inj heff
    refine Database.factorIds_ne_nil (d := { device with verifiedAt := some now })
      (List.mem_map.mpr ⟨device, hmem, if_pos (List.mem_singleton.mpr rfl)⟩) howner ?_
    exact ⟨rfl, henabled⟩
  refine ends_logEvent_bind fun t e => ends_query_bind.mpr ?_
  have hlogged : ((eff.delta w.cur).insertAudit e).FactorsAgreeBut (· = userId) :=
    ⟨hbut.ids, hbut.flag⟩
  split
  · exact ends_raise.mpr ⟨hbase, fun hok => absurd hok (by simp)⟩
  rename_i user huser
  refine ends_returning_bind.mpr ⟨fun eff' heff' => ?_, fun x hx => ?_⟩
  swap
  · cases hx
  have heff' : denote (.mfa (.updateMfa userId (enabledColumns user now)))
    ((eff.delta w.cur).insertAudit e) = .ok eff' := heff'
  have hset : (eff'.delta ((eff.delta w.cur).insertAudit e)).FactorsAgree := by
    refine Database.FactorsAgreeBut.agree (hlogged.denote heff' fun id hid => ?_) ?_
    · obtain rfl := Except.ok.inj heff'
      exact ⟨Database.mfaEnabledOf_updateUser_of_ne (fun _ => rfl) hid, rfl⟩
    · obtain rfl := Except.ok.inj heff'
      refine iff_of_true ((Database.mfaEnabledOf_setMfa huser _).trans ?_) hcounts
      unfold enabledColumns
      cases user.mfaEnabled <;> rfl
  refine agreeing_of_both (keeps_preserves (F := True) ?_ _ ⟨hbase, hset⟩)
  dsimp only
  split
  · exact commitNow_executing.bind fun _ => trivial
  · exact (logEvent_keeps _ _).bind fun _ => commitNow_executing.bind fun _ => trivial

theorem verifyTotpEnrollment_agrees {userId deviceId : ℕ} {code : String}
    (hw : Both Database.FactorsAgree w) :
    (verifyTotpEnrollment A userId deviceId code).Ends w Agreeing := by
  have hraise : ∀ x, (raise x : Op MFADevice).Ends w Agreeing := fun x =>
    ends_raise.mpr ⟨hw.1, fun hok => absurd hok (by simp)⟩
  refine ends_query_bind.mpr ?_
  split
  · exact hraise _
  rename_i device hfound
  split
  · exact hraise _
  split
  · exact hraise _
  split
  · exact hraise _
  rename_i henabled _ _ _ _
  refine ends_handle.mpr ((verifyTotpCode_reads _ code).mono fun r w' hw' => ?_)
  obtain ⟨hbase, hcur⟩ := hw'
  cases r with
  | error x => exact ends_raise.mpr ⟨hbase ▸ hw.1, fun hok => absurd hok (by simp)⟩
  | ok verified =>
    dsimp only
    split
    · have hkept := List.find?_some hfound
      obtain ⟨-, howner⟩ := of_decide_eq_true hkept
      refine enableDevice_agrees ⟨hbase ▸ hw.1, hcur ▸ hw.2⟩ ?_ howner ?_
      · rw [hcur]
        exact List.mem_of_find?_eq_some hfound
      · simpa using henabled
    · exact ends_raise.mpr ⟨hbase ▸ hw.1, fun hok => absurd hok (by simp)⟩

theorem verifyEnrollment_agrees (redis : Option Redis) (token : A.Token) (deviceId : ℕ)
    (code : String) (hw : Both Database.FactorsAgree w) :
    (verifyEnrollment A redis token deviceId code).Ends w Agreeing := by
  refine agreeing_bind (agreeing_of_both
    (keeps_preserves (getMfaEnrollmentUser_reads (F := True) redis token) w hw)) fun user w hw => ?_
  have hverify : ∀ w, Both Database.FactorsAgree w →
      ((verifyTotpEnrollment A user.userId deviceId code).orElse verifyFails).Ends w Agreeing :=
    fun w hw => agreeing_orElse (verifyTotpEnrollment_agrees hw) verifyFails_raises
  split
  · exact hverify w hw
  · refine agreeing_bind (agreeing_of_both
      (keeps_preserves (lockActiveSession_keeps (F := True) _ _) w hw)) fun session w hw => ?_
    split
    · exact ends_raise.mpr ⟨hw.1, fun hok => absurd hok (by simp)⟩
    · refine agreeing_bind (hverify w hw) fun device w hw => agreeing_of_both ?_
      refine keeps_preserves (F := True) ((consumeSession_keeps _).bind fun consumed => ?_) w hw
      split <;> trivial

/-! ### Removing -/

/-- Devices of one user are disabled: the others are left alone. -/
theorem Database.FactorsAgree.disable {db : Database} (h : db.FactorsAgree) {userId now : ℕ}
    {ids : List ℕ} {eff : Effect Database RowKey}
    (hden : denote (.mfa (.disableDevices ids now)) db = .ok eff)
    (howner : ∀ d ∈ db.mfaDevices, d.id ∈ ids → d.userId = userId) :
    (eff.delta db).FactorsAgreeBut (· = userId) := by
  refine h.but.denote hden fun id hid => ?_
  obtain rfl := Except.ok.inj hden
  refine ⟨rfl, Database.factorIds_updateDevices (fun _ => rfl) (fun _ => rfl)
    fun d hd hdisabled hd' => ?_⟩
  exact absurd (hd'.symm.trans (howner d hd hdisabled)) hid

theorem disableMfa_agrees {userId : ℕ} (hbase : w.base.FactorsAgree)
    (hcur : w.cur.FactorsAgreeBut (· = userId)) (hnone : w.cur.factorIds userId = []) :
    (disableMfa userId).Ends w Agreeing := by
  refine ends_query_bind.mpr ?_
  split
  · exact ends_raise.mpr ⟨hbase, fun hok => absurd hok (by simp)⟩
  rename_i user huser
  split
  · refine ends_returning_bind.mpr ⟨fun eff heff => ?_, fun x hx => ?_⟩
    swap
    · cases hx
    have heff : denote (.mfa (.updateMfa userId
        { enabled := some false
          status := if user.mfaStatus = some "disabled" then none else some "disabled" })) w.cur =
      .ok eff := heff
    have hset : (eff.delta w.cur).FactorsAgree := by
      refine Database.FactorsAgreeBut.agree (hcur.denote heff fun id hid => ?_) ?_
      · obtain rfl := Except.ok.inj heff
        exact ⟨Database.mfaEnabledOf_updateUser_of_ne (fun _ => rfl) hid, rfl⟩
      · obtain rfl := Except.ok.inj heff
        refine iff_of_false ?_ (not_not.mpr hnone)
        rw [Database.mfaEnabledOf_setMfa huser]
        simp
    exact agreeing_of_both (keeps_preserves (logEvent_keeps (F := True) _ _) _ ⟨hbase, hset⟩)
  · rename_i hoff
    refine ends_ret.mpr ⟨hbase, fun _ => hcur.agree (iff_of_false ?_ (not_not.mpr hnone))⟩
    rwa [Database.mfaEnabledOf_of_userById huser]

theorem removeDevice_agrees {userId deviceId : ℕ} (hw : Both Database.FactorsAgree w) :
    (removeDevice userId deviceId).Ends w Agreeing := by
  obtain ⟨hbase, hcur⟩ := hw
  refine ends_query_bind.mpr ?_
  split
  · exact ends_raise.mpr ⟨hbase, fun hok => absurd hok (by simp)⟩
  rename_i device hfound
  have hkept := List.find?_some hfound
  obtain ⟨-, howner, -⟩ := of_decide_eq_true hkept
  refine ends_time_bind.mpr fun now _ => ends_returning_bind.mpr ⟨fun eff heff => ?_, fun x hx => ?_⟩
  swap
  · cases hx
  have heff : denote (.mfa (.disableDevices [device.id] now)) w.cur = .ok eff := heff
  have hbut : (eff.delta w.cur).FactorsAgreeBut (· = userId) := by
    refine hcur.disable heff fun d hd hid => ?_
    rw [List.inj_on_of_nodup_map hcur.ids hd (List.mem_of_find?_eq_some hfound)
      (List.mem_singleton.mp hid)]
    exact howner
  refine ends_logEvent_bind fun t e => ends_query_bind.mpr ?_
  have hlogged : ((eff.delta w.cur).insertAudit e).FactorsAgreeBut (· = userId) :=
    ⟨hbut.ids, hbut.flag⟩
  dsimp only
  split
  · rename_i hlast
    refine agreeing_bind (disableMfa_agrees hbase hlogged ?_) fun _ w' hw' =>
      ends_commitNow.mpr ⟨hw'.2, fun _ => hw'.2⟩
    rw [Database.factorIds, List.length_eq_zero_iff.mp hlast]
    rfl
  · rename_i hleft
    have hset : ((eff.delta w.cur).insertAudit e).FactorsAgree := by
      have hactive : ((eff.delta w.cur).insertAudit e).activeDevices userId =
          (w.cur.activeDevices userId).filter fun d => d.id ∉ [device.id] := by
        obtain rfl := Except.ok.inj heff
        exact w.cur.activeDevices_updateDevices userId [device.id] now
      have hbefore : w.cur.factorIds userId ≠ [] := by
        intro hnone
        refine hleft (List.length_eq_zero_iff.mpr ?_)
        rw [hactive, List.map_eq_nil_iff.mp hnone]
        rfl
      refine hlogged.agree (iff_of_true ?_ fun hnone => ?_)
      · obtain rfl := Except.ok.inj heff
        exact (hcur.flag userId id).mpr hbefore
      · exact hleft (List.length_eq_zero_iff.mpr (List.map_eq_nil_iff.mp hnone))
    exact ends_commitNow.mpr ⟨hset, fun _ => hset⟩

/-! ### Resetting -/

theorem invalidateRecoveryCodes_ends (userId : ℕ) :
    (invalidateRecoveryCodes userId).Ends w fun r w' => (∃ n, r = .ok n) ∧
      w'.cur.users = w.cur.users ∧ w'.cur.mfaDevices = w.cur.mfaDevices := by
  refine ends_time_bind.mpr fun now _ => ends_query_bind.mpr ?_
  split
  · exact ends_ret.mpr ⟨⟨_, rfl⟩, rfl, rfl⟩
  · refine ends_returning_bind.mpr ⟨fun eff heff => ?_, fun x hx => ?_⟩
    · obtain rfl := Except.ok.inj heff
      exact ends_commitNow_bind.mpr (ends_ret.mpr ⟨⟨_, rfl⟩, rfl, rfl⟩)
    · cases hx

theorem resetUserMfa_agrees {targetUserId actorUserId : ℕ} (hw : Both Database.FactorsAgree w) :
    (resetUserMfa targetUserId actorUserId).Ends w Agreeing := by
  obtain ⟨hbase, hcur⟩ := hw
  refine ends_query_bind.mpr ?_
  split
  · exact ends_raise.mpr ⟨hbase, fun hok => absurd hok (by simp)⟩
  rename_i user hfound
  refine ends_time_bind.mpr fun now _ => ends_query_bind.mpr ?_
  refine ends_returning_bind.mpr ⟨fun eff heff => ?_, fun x hx => ?_⟩
  swap
  · cases hx
  have heff : denote (.mfa (.disableDevices
    ((w.cur.enabledDevices targetUserId).map (·.id)) now)) w.cur = .ok eff := heff
  have hbut : (eff.delta w.cur).FactorsAgreeBut (· = targetUserId) := by
    refine hcur.disable heff fun d hd hid => ?_
    obtain ⟨d', hd', hsame⟩ := List.mem_map.mp hid
    obtain ⟨hmem, hkept⟩ := List.mem_filter.mp hd'
    obtain rfl := List.inj_on_of_nodup_map hcur.ids hmem hd hsame
    exact (of_decide_eq_true hkept).1
  have hnone : (eff.delta w.cur).factorIds targetUserId = [] := by
    obtain rfl := Except.ok.inj heff
    refine List.map_eq_nil_iff.mpr ((w.cur.activeDevices_updateDevices _ _ now).trans ?_)
    rw [List.filter_eq_nil_iff]
    intro d hd
    obtain ⟨hmem, hkept⟩ := List.mem_filter.mp hd
    obtain ⟨howner, -, henabled⟩ := of_decide_eq_true hkept
    have hmarked : d ∈ w.cur.enabledDevices targetUserId :=
      List.mem_filter.mpr ⟨hmem, decide_eq_true ⟨howner, henabled⟩⟩
    simpa using List.mem_map_of_mem (f := fun d : MFADevice => d.id) hmarked
  have huser : (eff.delta w.cur).userById targetUserId = some user := by
    obtain rfl := Except.ok.inj heff
    exact hfound
  -- the codes are marked, and that is committed before the flag is written
  refine ends_handle.mpr ((invalidateRecoveryCodes_ends targetUserId).mono fun r w' hw' => ?_)
  obtain ⟨⟨n, rfl⟩, husers, hdevices⟩ := hw'
  refine ends_returning_bind.mpr ⟨fun eff' heff' => ?_, fun x hx => ?_⟩
  swap
  · cases hx
  obtain rfl := Except.ok.inj heff'
  have huser' : w'.cur.userById targetUserId = some user := by
    unfold Database.userById
    rw [husers]
    exact huser
  have hbut' : w'.cur.FactorsAgreeBut (· = targetUserId) := by
    refine ⟨by rw [hdevices]; exact hbut.ids, fun id hid => ?_⟩
    have hflag := hbut.flag id hid
    unfold Database.FlagTrue Database.mfaEnabledOf Database.factorIds Database.userById
      Database.activeDevices at hflag ⊢
    rwa [husers, hdevices]
  have hset : (w'.cur.updateUser targetUserId
      (User.setMfa (resetColumns user (decide (0 < n))))).FactorsAgree := by
    have hden : OmniAuth.denote (.mfa (.updateMfa targetUserId
        (resetColumns user (decide (0 < n))))) w'.cur = .ok ⟨[.user targetUserId],
          fun db => db.updateUser targetUserId
            (User.setMfa (resetColumns user (decide (0 < n))))⟩ := rfl
    have hrest : (w'.cur.updateUser targetUserId
        (User.setMfa (resetColumns user (decide (0 < n))))).FactorsAgreeBut (· = targetUserId) :=
      hbut'.denote hden fun id hid =>
        ⟨Database.mfaEnabledOf_updateUser_of_ne (fun _ => rfl) hid, rfl⟩
    refine hrest.agree (iff_of_false ?_ ?_)
    · rw [Database.mfaEnabledOf_setMfa huser']
      unfold resetColumns
      cases decide (0 < n) <;> cases user.mfaEnabled <;> simp
    · rw [not_not]
      show List.map _ (w'.cur.activeDevices targetUserId) = []
      unfold Database.activeDevices
      rw [hdevices]
      exact hnone
  refine ends_logEvent_bind fun t e => ends_commitNow.mpr ?_
  exact ⟨⟨hset.ids, hset.flag⟩, fun _ => ⟨hset.ids, hset.flag⟩⟩

/-! ### Opening an account -/

theorem setExpired_keeps (invitation : OrganizationInvitation) :
    (setExpired invitation).Within F (Executing Stmt.KeepsFactors) :=
  Within.bind (execute_executing (by trivial)) fun _ => logEvent_keeps _ _

theorem pendingInvitation_keeps (token : String) :
    (pendingInvitation A token).Within F (Executing Stmt.KeepsFactors) := by
  unfold pendingInvitation
  split
  · trivial
  refine Within.bind (within_returning (fun _ _ => trivial) (fun _ _ => trivial) fun _ _ => trivial)
    fun invitation => ?_
  split
  · trivial
  split
  · trivial
  refine time_executing.bind fun now => ?_
  split
  · exact (setExpired_keeps _).bind fun _ => commitNow_executing.bind fun _ => trivial
  · refine (query_executing _).bind fun active => ?_
    split <;> trivial

theorem answerAgain_keeps (found : Database → Option Accepted) (x : Err) :
    (answerAgain found x).Within F (Executing Stmt.KeepsFactors) := by
  refine (query_executing _).bind fun before => ?_
  split <;> trivial

theorem pendingOrAgain_keeps (token : String) (found : Database → Option Accepted) :
    (pendingOrAgain A token found).Within F (Executing Stmt.KeepsFactors) := by
  refine Within.orElse ((pendingInvitation_keeps token).bind fun _ => trivial) fun x => ?_
  split
  · exact (answerAgain_keeps _ _).bind fun _ => trivial
  · trivial

theorem countAttempt_keeps (invitation : OrganizationInvitation) (actorUserId : Option ℕ)
    (reason message : String) :
    (countAttempt A invitation actorUserId reason message).Within F
      (Executing Stmt.KeepsFactors) := by
  have hfail : ∀ attempts revokedAt, (execute (.org
      (.failInvitation invitation.id attempts revokedAt)) : Op Unit).Within F
      (Executing Stmt.KeepsFactors) := fun _ _ => execute_executing (by trivial)
  have hraise : ∀ _ : Unit, (invitationError "mfa_invalid" message 400 : Op Unit).Within F
      (Executing Stmt.KeepsFactors) := fun _ => trivial
  refine (hfail _ _).bind fun _ => (logEvent_keeps _ _).bind fun _ => ?_
  split
  · exact time_executing.bind fun now => (hfail _ _).bind fun _ => commitNow_executing.bind hraise
  · exact commitNow_executing.bind hraise

theorem checkSetupCode_keeps (invitation : OrganizationInvitation) (totpCode : Option String) :
    (checkSetupCode A invitation totpCode).Within F (Executing Stmt.KeepsFactors) := by
  unfold checkSetupCode
  split
  · split
    · trivial
    have hcode : ∀ secret code, (verifyTotpCode A secret code).Within F
        (Executing Stmt.KeepsFactors) := fun secret code =>
      (executing_of_reading (totpMatchedStep_within secret code)).bind fun _ => trivial
    refine (hcode _ _).bind fun verified => ?_
    split
    · trivial
    · exact countAttempt_keeps _ _ _ _
  · trivial

theorem resolveRolesForOrg_keeps (organizationId : ℕ) (callerIsPlatformAdmin : Bool)
    (actorUserId targetUserId : Option ℕ) (names : List String) :
    (resolveRolesForOrg A organizationId callerIsPlatformAdmin actorUserId targetUserId
      names).Within F (Executing Stmt.KeepsFactors) := by
  induction names with
  | nil => trivial
  | cons name rest ih =>
    refine (query_executing _).bind fun role => ?_
    split
    · trivial
    · dsimp only
      split
      · exact (logEvent_keeps _ _).bind fun _ => trivial
      · exact ih.bind fun _ => trivial

theorem activateInvitation_keeps (invitation : OrganizationInvitation) (userId now : ℕ) :
    (activateInvitation A invitation userId now).Within F (Executing Stmt.KeepsFactors) := by
  have hmembership : (activateMembership A invitation userId now).Within F
      (Executing Stmt.KeepsFactors) := by
    refine Within.bind (within_returning (fun _ _ => trivial) (fun _ _ => trivial)
      fun _ _ => trivial) fun existing => ?_
    split
    · trivial
    refine (resolveRolesForOrg_keeps _ _ _ _ _).bind fun roles => ?_
    split
    · exact execute_executing (by trivial)
    · exact draw_executing.bind fun id => execute_executing (by trivial)
  refine hmembership.bind fun _ => Within.bind (execute_executing (by trivial)) fun _ => ?_
  exact (logEvent_keeps _ _).bind fun _ => logEvent_keeps _ _

theorem Database.hasAccount_inserted {db : Database} {row : User}
    {eff : Effect Database RowKey} (h : denote (.account (.insertUser row)) db = .ok eff) :
    (eff.delta db).HasAccount row := by
  simp only [denote, AccountStmt.denote] at h
  split at h
  · cases h
  rename_i hfree
  obtain rfl := Except.ok.inj h
  refine ⟨row, ?_, .refl row⟩
  have hnone : db.users.find? (fun u => decide (u.id = row.id)) = none := by
    rw [List.find?_eq_none]
    intro u hu hid
    exact hfree ⟨u, hu, .inl (of_decide_eq_true hid)⟩
  show List.find? _ (db.users ++ [row]) = some row
  rw [List.find?_append, hnone]
  simp

/-- The account a transaction has added is still there once it has a role. -/
theorem assignDefaultRole_agrees {account user : User} (hw : Both Database.FactorsAgree w)
    (huser : w.cur.HasAccount user) :
    (assignDefaultRole account).Ends w fun _ w' =>
      Both Database.FactorsAgree w' ∧ w'.cur.HasAccount user := by
  have hwithin : (assignDefaultRole account).Within True
      (Inside fun stmt => stmt.KeepsFactors ∧ stmt.KeepsAccounts) := by
    refine Within.bind ?_ fun role => ?_
    · refine (inside_of_reading (query_within _)).bind fun role => ?_
      split
      · trivial
      · refine (inside_of_reading draw_within).bind fun id => ?_
        exact Within.bind (execute_inside ⟨trivial, trivial⟩) fun _ => trivial
    · split
      · trivial
      · exact execute_inside ⟨trivial, trivial⟩
  refine (hwithin.ends (R := fun s s' : Database => (s.FactorsAgree → s'.FactorsAgree) ∧
    (s.HasAccount user → s'.HasAccount user)) (fun s => ⟨id, id⟩)
    (fun h h' => ⟨h'.1 ∘ h.1, h'.2 ∘ h.2⟩)
    (fun hs hden => ⟨fun h => hs.1.agreeBut hden h, fun h => hs.2.account hden h⟩)
    id id).mono fun r w' hw' => ?_
  obtain ⟨hbase, hkept, -⟩ := hw'
  exact ⟨⟨hbase ▸ hw.1, hkept.1 hw.2⟩, hkept.2 huser⟩

/-- **The second factor of a new account**: the flag and the device in one transaction. -/
theorem addSetupDevice_agrees {i : OrganizationInvitation} {user : User} {now : ℕ}
    (hw : Both Database.FactorsAgree w) (huser : w.cur.HasAccount user) :
    (addSetupDevice i user.id now).Ends w Agreeing := by
  obtain ⟨hbase, hcur⟩ := hw
  obtain ⟨found, hfound, -⟩ := huser
  refine ends_draw_bind.mpr (ends_returning_bind.mpr ⟨fun eff heff => ?_, fun x hx => ?_⟩)
  swap
  · cases hx
  have heff : denote (.mfa (.updateMfa user.id _)) w.cur = .ok eff := heff
  have hbut : (eff.delta w.cur).FactorsAgreeBut (· = user.id) := by
    refine hcur.but.denote heff fun id hid => ?_
    obtain rfl := Except.ok.inj heff
    exact ⟨Database.mfaEnabledOf_updateUser_of_ne (fun _ => rfl) hid, rfl⟩
  have henabled : (eff.delta w.cur).mfaEnabledOf user.id = true := by
    obtain rfl := Except.ok.inj heff
    exact Database.mfaEnabledOf_setMfa hfound _
  refine ends_returning_bind.mpr ⟨fun eff' heff' => ?_, fun x _ => ?_⟩
  swap
  · exact ⟨hbase, fun hok => absurd hok (by simp)⟩
  have heff' : denote (.mfa (.insertDevice
      { id := w.next
        userId := user.id
        encryptedSecret := i.mfaSecretEncrypted.getD ""
        createdAt := now
        verifiedAt := some now })) (eff.delta w.cur) = .ok eff' := heff'
  have hset : (eff'.delta (eff.delta w.cur)).FactorsAgree := by
    refine Database.FactorsAgreeBut.agree (hbut.denote heff' fun id hid => ?_) ?_
    all_goals
      simp only [denote, MfaStmt.denote] at heff'
      split at heff'
      · cases heff'
      obtain rfl := Except.ok.inj heff'
    · exact ⟨rfl, Database.factorIds_insert fun h => absurd h.symm hid⟩
    · refine iff_of_true henabled (Database.factorIds_ne_nil
        (List.mem_append_right _ (List.mem_singleton.mpr rfl)) rfl ⟨rfl, rfl⟩)
  refine agreeing_of_both (keeps_preserves (F := True) ?_ _ ⟨hbase, hset⟩)
  exact (logEvent_keeps _ _).bind fun _ => logEvent_keeps _ _

theorem agreeing_onClash {p h : Op α} (hp : p.Ends w Agreeing)
    (hh : ∀ w, Both Database.FactorsAgree w → h.Ends w Agreeing) :
    (onClash p h).Ends w Agreeing := by
  refine ends_handle.mpr (hp.mono fun r w' hw' => ?_)
  cases r with
  | ok a => exact ends_ret.mpr hw'
  | error x =>
    dsimp only
    split
    · exact ends_rollbackNow_bind.mpr (hh _ ⟨hw'.1, hw'.1⟩)
    · exact ends_raise.mpr hw'

theorem openAccount_agrees {i : OrganizationInvitation} {password : String} {needsMfa : Bool}
    {again : Database → Option Accepted} (hw : Both Database.FactorsAgree w) :
    (openAccount A i password needsMfa again).Ends w Agreeing := by
  refine ends_time_bind.mpr fun now _ => ends_draw_bind.mpr (ends_draw_bind.mpr ?_)
  generalize hid : (({ w with now := now } : World).next + 1) = id
  have hagain : ∀ w, Both Database.FactorsAgree w → (answerAgain again unavailable).Ends w Agreeing :=
    fun w hw => agreeing_of_both (keeps_preserves (answerAgain_keeps (F := True) _ _) w hw)
  have hactivate : ∀ w, Both Database.FactorsAgree w → (onClash
      ((activateInvitation A i id now).bind fun _ => commitNow.bind fun _ =>
        ret (⟨id, i.organizationId⟩ : Accepted))
      (answerAgain again unavailable)).Ends w Agreeing := fun w hw =>
    agreeing_onClash (agreeing_of_both (keeps_preserves (F := True)
      (Within.bind (activateInvitation_keeps _ _ _) fun _ => commitNow_executing.bind fun _ => by
        trivial) w hw)) hagain
  refine Ends.bind (M := fun clash (w' : World) => Both Database.FactorsAgree w' ∧
    (clash = none → ∃ user : User, user.id = id ∧ w'.cur.HasAccount user)) ?_ fun clash w' hw' => ?_
  · refine ends_handle.mpr (ends_returning_bind.mpr ⟨fun eff heff => ?_, fun x _ => ?_⟩)
    · have heff : denote (.account (.insertUser _)) w.cur = .ok eff := heff
      refine ends_ret.mpr (ends_ret.mpr ⟨⟨hw.1, ?_⟩, fun _ => ?_⟩)
      · refine Stmt.KeepsFactors.agreeBut ?_ heff hw.2
        rfl
      · exact ⟨_, rfl, Database.hasAccount_inserted heff⟩
    · dsimp only
      split
      · refine ends_rollbackNow_bind.mpr (ends_handle.mpr ?_)
        refine Ends.mono (hagain _ ?_) fun r w' hw' => ?_
        · exact ⟨hw.1, hw.1⟩
        cases r with
        | ok answer => exact ends_ret.mpr ⟨⟨hw'.1, hw'.2 ⟨_, rfl⟩⟩, fun h => by cases h⟩
        | error y => exact ends_raise.mpr ⟨hw'.1, fun hok => absurd hok (by simp)⟩
      · exact ends_raise.mpr ⟨hw.1, fun hok => absurd hok (by simp)⟩
  · cases clash with
    | some answer => exact ends_ret.mpr ⟨hw'.1.1, fun _ => hw'.1.2⟩
    | none =>
      obtain ⟨user, rfl, huser⟩ := hw'.2 rfl
      refine ends_handle.mpr ((assignDefaultRole_agrees hw'.1 huser).mono fun r w'' hw'' => ?_)
      obtain ⟨hboth, hthere⟩ := hw''
      cases r with
      | error x => exact ends_raise.mpr ⟨hboth.1, fun hok => absurd hok (by simp)⟩
      | ok _ =>
        dsimp only
        split
        · exact agreeing_bind (addSetupDevice_agrees hboth hthere) fun _ w hw => hactivate w hw
        · exact hactivate _ hboth

theorem acceptNewUser_agrees (token password : String) (totpCode : Option String)
    (hw : Both Database.FactorsAgree w) :
    (acceptNewUser A token password totpCode).Ends w Agreeing := by
  refine ends_query_bind.mpr ?_
  split
  · exact ends_ret.mpr ⟨hw.1, fun _ => hw.2⟩
  refine agreeing_bind (agreeing_of_both
    (keeps_preserves (pendingOrAgain_keeps (F := True) _ _) w hw)) fun found w hw => ?_
  cases found with
  | inr answer => exact ends_ret.mpr ⟨hw.1, fun _ => hw.2⟩
  | inl invitation =>
    have hraise : ∀ x, (raise x : Op Accepted).Ends w Agreeing := fun x =>
      ends_raise.mpr ⟨hw.1, fun hok => absurd hok (by simp)⟩
    refine ends_query_bind.mpr ?_
    split
    · exact hraise _
    split
    · exact hraise _
    refine ends_query_bind.mpr ?_
    dsimp only
    split
    · exact agreeing_bind (agreeing_of_both
        (keeps_preserves (checkSetupCode_keeps (F := True) _ _) w hw)) fun _ w hw =>
          openAccount_agrees hw
    · exact openAccount_agrees hw

end

/-! ## Runs -/

/-- A request. Those that write devices or the flag are named; of any other one only its
statements matter. -/
inductive DeviceCall (A : AppEnv)
  | enroll (redis : Option Redis) (token : A.Token)
  | verify (redis : Option Redis) (token : A.Token) (deviceId : ℕ) (code : String)
  | remove (userId deviceId : ℕ)
  | reset (targetUserId actorUserId : ℕ)
  | acceptInvitation (token password : String) (totpCode : Option String)
  | other (o : Op Unit) (h : o.Within True (Executing Stmt.KeepsFactors))

variable {A : AppEnv}

def DeviceCall.op : DeviceCall A → Op Unit
  | enroll redis token => (startEnrollment A redis token).bind fun _ => ret ()
  | verify redis token deviceId code =>
      (verifyEnrollment A redis token deviceId code).bind fun _ => ret ()
  | remove userId deviceId => removeDevice userId deviceId
  | reset targetUserId actorUserId => resetUserMfa targetUserId actorUserId
  | acceptInvitation token password totpCode =>
      (acceptNewUser A token password totpCode).bind fun _ => ret ()
  | other o _ => o

/-- Requests one after the other, each in a session of its own. -/
inductive DeviceRun (A : AppEnv) (w : World) : World → Prop
  | refl : DeviceRun A w w
  | call {w₁ w₂ : World} {r : Except Err Unit} (call : DeviceCall A) (hrun : DeviceRun A w w₁)
      (hexec : call.op.close.Exec w₁ r w₂) : DeviceRun A w w₂

/-- **One request.** -/
theorem DeviceCall.agrees (call : DeviceCall A) {w : World} (hw : Both Database.FactorsAgree w) :
    call.op.Ends w Agreeing := by
  have hunit : ∀ {β : Type} {p : Op β}, p.Ends w Agreeing →
      (p.bind fun _ => (ret () : Op Unit)).Ends w Agreeing := fun hp =>
    agreeing_bind hp fun _ w' hw' => ends_ret.mpr ⟨hw'.1, fun _ => hw'.2⟩
  cases call with
  | enroll redis token => exact hunit (startEnrollment_agrees redis token hw)
  | verify redis token deviceId code => exact hunit (verifyEnrollment_agrees redis token _ _ hw)
  | remove userId deviceId => exact removeDevice_agrees hw
  | reset targetUserId actorUserId => exact resetUserMfa_agrees hw
  | acceptInvitation token password totpCode => exact hunit (acceptNewUser_agrees _ _ _ hw)
  | other o h => exact agreeing_of_both (keeps_preserves h w hw)

/-- **The flag is the factors.** Whatever requests are made one after the other, a user is
marked as having MFA exactly where a verified device of the user is left. -/
theorem flag_says_factors {w w' : World} (hagree : w.base.FactorsAgree) (hidle : w.cur = w.base)
    (hrun : DeviceRun A w w') : w'.base.FactorsAgree := by
  have hboth : Both Database.FactorsAgree w' := by
    induction hrun with
    | refl => exact ⟨hagree, hidle ▸ hagree⟩
    | call call _ hexec ih =>
      obtain ⟨w₁, hop, rfl⟩ := exec_close.mp hexec
      have hbase := (call.agrees ih _ _ hop).1
      exact ⟨hbase, hbase⟩
  exact hboth.1

/-- One particular run of these requests. -/
def runCalls (calls : List (DeviceCall A)) (w : World) : World :=
  calls.foldl (fun w call => (call.op.close.run w).2) w

theorem deviceRun_runCalls (calls : List (DeviceCall A)) {w w' : World} (h : DeviceRun A w w') :
    DeviceRun A w (runCalls calls w') := by
  induction calls generalizing w' with
  | nil => exact h
  | cons call rest ih => exact ih (.call call h (exec_run _ _))

/-- A user with a device enrolls another one and removes both. -/
def swapping : List (DeviceCall .symbolic) :=
  let token := sign AppEnv.symbolic.toEnv
    { sub := some (.user 1), type := some .access, exp := some 1000000 }
  [.enroll none token, .verify none token 11 "000002", .remove 1 7, .remove 1 11]

theorem enrolledWorld_agrees : enrolledWorld.base.FactorsAgree := by
  refine ⟨by decide, fun userId _ => ?_⟩
  by_cases hid : userId = 1
  · subst hid
    decide
  · have hother : ¬ 1 = userId := fun h => hid h.symm
    simp [Database.FlagTrue, Database.mfaEnabledOf, Database.factorIds, Database.userById,
      Database.activeDevices, enrolledWorld, enrolledOnce, enrolledUser, Database.empty, hother]

/-- The flag is set while one of the two is left. -/
theorem flag_says_factors_swapped :
    (List.range 5).map (fun n => (runCalls (swapping.take n) enrolledWorld).base.mfaEnabledOf 1) =
        [true, true, true, true, false] ∧
      (runCalls (swapping.take 3) enrolledWorld).base.factorIds 1 = [11] ∧
      ∀ n, (runCalls (swapping.take n) enrolledWorld).base.FactorsAgree :=
  ⟨by decide, by decide, fun _ =>
    flag_says_factors enrolledWorld_agrees rfl (deviceRun_runCalls _ .refl)⟩

end OmniAuth
