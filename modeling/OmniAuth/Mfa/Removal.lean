import OmniAuth.Login.Policy
import OmniAuth.Mfa.Recovery
import OmniAuth.Session.Outcome
import OmniAuth.Token.Blacklist
import OmniAuth.Txn.Snapshot
import OmniAuth.Txn.Triple

/-!
# Taking the second factor away

`remove_device` and `reset_user_mfa`, and what becomes of the challenges issued before.

A challenge is checked again where it is answered: a user whose second factor is gone
must not end a login on it. The check passes all the same where a code could be mailed
to the user. What stops the login then is only that no factor is left, and removing the
last device leaves the recovery codes as they are.
-/

namespace OmniAuth

open Txn Prog

/-! ## The code -/

def DeviceType.text : DeviceType → String
  | totp => "totp"
  | other value => value

/-- What `remove_device` does when it has removed the last verified device. -/
def disableMfa (userId : ℕ) : Op Unit := do
  let user ← query (·.userById userId)
  match user with
  | none => raise (.runtime "no such user")
  | some user =>
      if user.mfaEnabled then do
        execute (.mfa (.updateMfa userId
          { enabled := some false
            status := if user.mfaStatus = some "disabled" then none else some "disabled" }))
        logEvent
          { eventType := .mfaDisabled
            actorUserId := some userId
            targetUserId := some userId
            resourceType := some "user"
            resourceId := some userId
            afterState := [("mfa_enabled", "False")] }
          false
      else return ()

/-- `remove_device` -/
def removeDevice (userId deviceId : ℕ) : Op Unit := do
  let device ← query fun db => db.mfaDevices.find? fun d =>
    d.id = deviceId ∧ d.userId = userId ∧ d.disabledAt = none
  match device with
  | none => raise (.lookup "MFA device not found")
  | some device => do
      let now ← time
      execute (.mfa (.disableDevices [device.id] now))
      logEvent
        { eventType := .mfaDeviceRemoved
          actorUserId := some userId
          targetUserId := some userId
          resourceType := some "mfa_device"
          resourceId := some device.id
          beforeState := [("device_type", device.deviceType.text),
            ("verified", if device.verifiedAt.isSome then "True" else "False")]
          metadata := [("device_type", device.deviceType.text)] }
        false
      let remainingVerified ← query fun db => (db.activeDevices userId).length
      if remainingVerified = 0 then disableMfa userId else pure ()
      commitNow

/-- The columns `reset_user_mfa` assigns. A user object that a commit has expired is
written in all of them, another one in those that change. -/
def resetColumns (user : User) (expired : Bool) : MfaColumns where
  enabled := if expired || user.mfaEnabled then some false else none
  status := if expired || user.mfaStatus ≠ some "disabled" then some "disabled" else none
  primaryMethod := if expired || user.mfaPrimaryMethod.isSome then some none else none
  enabledAt := if expired || user.mfaEnabledAt.isSome then some none else none
  lastVerifiedAt := if expired || user.mfaLastVerifiedAt.isSome then some none else none

/-- The devices of a user that are not disabled, verified or not. -/
def Database.enabledDevices (db : Database) (userId : ℕ) : List MFADevice :=
  db.mfaDevices.filter fun d => d.userId = userId ∧ d.disabledAt = none

/-- `reset_user_mfa`. The devices are written before the recovery codes are read. -/
def resetUserMfa (targetUserId actorUserId : ℕ) : Op Unit := do
  let user ← query (·.userById targetUserId)
  match user with
  | none => raise (.lookup "User not found")
  | some user => do
      let now ← time
      let devices ← query (·.enabledDevices targetUserId)
      execute (.mfa (.disableDevices (devices.map (·.id)) now))
      let invalidatedCodes ← invalidateRecoveryCodes targetUserId
      execute (.mfa (.updateMfa targetUserId (resetColumns user (decide (0 < invalidatedCodes)))))
      logEvent
        { eventType := .mfaResetByAdmin
          actorUserId := some actorUserId
          targetUserId := some targetUserId
          resourceType := some "user"
          resourceId := some targetUserId
          afterState := [("mfa_enabled", "False"), ("mfa_status", "disabled")]
          metadata := [("devices_disabled", toString devices.length),
            ("recovery_codes_invalidated", toString invalidatedCodes)] }
        false
      commitNow

/-! ## What they leave -/

/-- The second factor of the user is off. -/
def Database.MfaOff (db : Database) (userId : ℕ) : Prop :=
  ∀ user, db.userById userId = some user → user.mfaEnabled = false

instance (db : Database) (userId : ℕ) : Decidable (db.MfaOff userId) :=
  inferInstanceAs (Decidable (∀ user ∈ db.userById userId, user.mfaEnabled = false))

theorem Database.mfaOff_iff {db : Database} {userId : ℕ} {user : User}
    (h : db.userById userId = some user) : db.MfaOff userId ↔ user.mfaEnabled = false := by
  constructor
  · exact fun hoff => hoff user h
  · intro hoff u hu
    obtain rfl := Option.some.inj (h.symm.trans hu)
    exact hoff

theorem Database.userById_id {db : Database} {userId : ℕ} {user : User}
    (h : db.userById userId = some user) : user.id = userId := by
  simpa using List.find?_some h

theorem Database.userById_setMfa {db : Database} {userId : ℕ} {user : User}
    (columns : MfaColumns) (h : db.userById userId = some user) :
    (db.updateUser userId (User.setMfa columns)).userById userId =
      some (user.setMfa columns) := by
  have hid : ∀ u : User, ((fun u : User => if u.id = userId then u.setMfa columns else u) u).id =
      u.id := by
    intro u
    dsimp only
    split <;> rfl
  simp only [Database.userById, Database.updateUser] at h ⊢
  rw [List.find?_map]
  simp only [Function.comp_def, hid, h, Option.map_some]
  rw [if_pos (by simpa using List.find?_some h)]

/-- Nothing the user could answer the challenge `jti` with: no device, no recovery code,
no mailed code. -/
structure Database.NothingLeft (db : Database) (userId jti : ℕ) : Prop where
  devices : db.activeDevices userId = []
  codes : db.unusedRecoveryCodes userId = []
  mailed : db.openOtp userId (some jti) = none

instance (db : Database) (userId jti : ℕ) : Decidable (db.NothingLeft userId jti) :=
  decidable_of_iff (db.activeDevices userId = [] ∧ db.unusedRecoveryCodes userId = [] ∧
      db.openOtp userId (some jti) = none)
    ⟨fun h => ⟨h.1, h.2.1, h.2.2⟩, fun h => ⟨h.devices, h.codes, h.mailed⟩⟩

theorem disableMfa_exec {userId : ℕ} {w w' : World}
    (h : (disableMfa userId).Exec w (.ok ()) w') :
    w'.cur.MfaOff userId ∧ w'.cur.mfaDevices = w.cur.mfaDevices ∧
      w'.cur.mfaRecoveryCodes = w.cur.mfaRecoveryCodes := by
  simp only [disableMfa, bind_eq, exec_query_bind] at h
  split at h
  · cases h.1
  rename_i user hfound
  split at h
  · rw [execute, exec_returning_bind_ok (e := ⟨[RowKey.user userId], _⟩) rfl] at h
    obtain ⟨-, t, e, rfl⟩ := logEvent_exec h
    refine ⟨?_, rfl, rfl⟩
    exact (Database.mfaOff_iff (Database.userById_setMfa _ hfound)).mpr rfl
  · rename_i hoff
    obtain ⟨-, rfl⟩ := h
    exact ⟨(Database.mfaOff_iff hfound).mpr (by simpa using hoff), rfl, rfl⟩

/-- The devices that are left once some are disabled. -/
theorem Database.activeDevices_updateDevices (db : Database) (userId : ℕ) (ids : List ℕ)
    (t : ℕ) :
    (db.updateDevices ids fun d => { d with disabledAt := some t }).activeDevices userId =
      (db.activeDevices userId).filter fun d => d.id ∉ ids := by
  simp only [Database.activeDevices, Database.updateDevices]
  induction db.mfaDevices with
  | nil => rfl
  | cons d rest ih =>
    rw [List.map_cons, List.filter_cons, ih]
    by_cases hd : d.id ∈ ids
    · simp [hd, MFADevice.Active, List.filter_cons]
      split <;> simp [hd]
    · simp [hd, List.filter_cons]
      split <;> simp [hd]

/-- **Removing the last device** turns the second factor off and leaves the recovery codes
as they are. -/
theorem removeDevice_last {userId deviceId : ℕ} {w w' : World}
    (hlast : ∀ d ∈ w.cur.activeDevices userId, d.id = deviceId)
    (h : (removeDevice userId deviceId).Exec w (.ok ()) w') :
    w'.base.MfaOff userId ∧ w'.base.activeDevices userId = [] ∧
      w'.base.mfaRecoveryCodes = w.cur.mfaRecoveryCodes := by
  simp only [removeDevice, bind_eq, exec_query_bind] at h
  split at h
  · cases h.1
  rename_i device hfound
  have hid : device.id = deviceId := by
    have := List.find?_some hfound
    simp only [decide_eq_true_eq] at this
    exact this.1
  simp only [exec_time_bind] at h
  obtain ⟨now, -, h⟩ := h
  rw [execute, exec_returning_bind_ok (e := ⟨[RowKey.mfaDevice device.id], _⟩) rfl] at h
  obtain ⟨_, w₁, hlog, h⟩ := exec_bind_inv h fun _ _ h => ⟨_, (logEvent_exec h).1⟩
  obtain ⟨-, t, e, rfl⟩ := logEvent_exec hlog
  have hnone : (w.cur.updateDevices [device.id] fun d =>
      { d with disabledAt := some now }).activeDevices userId = [] := by
    rw [Database.activeDevices_updateDevices, List.filter_eq_nil_iff]
    intro d hd
    simp [hlast d hd, hid]
  simp only [exec_query_bind] at h
  split at h
  · rcases exec_bind.mp h with ⟨_, w₂, hdisable, -, rfl⟩ | ⟨x, -, hx⟩
    · obtain ⟨hoff, hdevices, hcodes⟩ := disableMfa_exec hdisable
      refine ⟨hoff, ?_, hcodes⟩
      show w₂.cur.activeDevices userId = []
      rw [Database.activeDevices, hdevices]
      exact hnone
    · cases hx
  · rename_i hsome
    exact absurd (List.length_eq_zero_iff.mpr hnone) hsome

/-- What `invalidate_recovery_codes` leaves. -/
theorem invalidateRecoveryCodes_exec {userId n : ℕ} {w w' : World}
    (h : (invalidateRecoveryCodes userId).Exec w (.ok n) w') :
    w'.cur.unusedRecoveryCodes userId = [] ∧ w'.cur.users = w.cur.users ∧
      w'.cur.mfaDevices = w.cur.mfaDevices ∧ w'.cur.mfaEmailOtps = w.cur.mfaEmailOtps := by
  simp only [invalidateRecoveryCodes, bind_eq, exec_time_bind, exec_query_bind] at h
  obtain ⟨now, -, h⟩ := h
  split at h
  · rename_i hnone
    obtain ⟨-, rfl⟩ := h
    exact ⟨hnone, rfl, rfl, rfl⟩
  · rw [execute, exec_returning_bind_ok (e := ⟨_, _⟩) rfl] at h
    simp only [exec_commitNow_bind] at h
    obtain ⟨-, rfl⟩ := h
    refine ⟨?_, rfl, rfl, rfl⟩
    -- every code that was unused is among those marked
    simp only [Database.unusedRecoveryCodes, Database.useCodes, List.filter_eq_nil_iff,
      List.mem_map]
    rintro _ ⟨c, hc, rfl⟩
    split
    · simp
    · rename_i hmarked
      intro hunused
      refine hmarked (decide_eq_true ⟨c, List.mem_filter.mpr ⟨hc, hunused⟩, rfl⟩)

/-- **A reset leaves no factor** but the codes that are mailed. -/
theorem resetUserMfa_leaves {targetUserId actorUserId : ℕ} {w w' : World}
    (h : (resetUserMfa targetUserId actorUserId).Exec w (.ok ()) w') :
    w'.base.MfaOff targetUserId ∧ w'.base.activeDevices targetUserId = [] ∧
      w'.base.unusedRecoveryCodes targetUserId = [] ∧
      w'.base.mfaEmailOtps = w.cur.mfaEmailOtps := by
  simp only [resetUserMfa, bind_eq, exec_query_bind] at h
  split at h
  · cases h.1
  rename_i user hfound
  simp only [exec_time_bind, exec_query_bind] at h
  obtain ⟨now, -, h⟩ := h
  rw [execute, exec_returning_bind_ok (e := ⟨_, _⟩) rfl] at h
  rcases exec_bind.mp h with ⟨n, w₁, hcodes, h⟩ | ⟨x, -, hx⟩
  · obtain ⟨hunused, husers, hdevices, hmailed⟩ := invalidateRecoveryCodes_exec hcodes
    rw [execute, exec_returning_bind_ok (e := ⟨[RowKey.user targetUserId], _⟩) rfl] at h
    obtain ⟨_, w₂, hlog, -, rfl⟩ := exec_bind_inv h fun _ _ h => ⟨_, (logEvent_exec h).1⟩
    obtain ⟨-, t, e, rfl⟩ := logEvent_exec hlog
    have hfound' : w₁.cur.userById targetUserId = some user := by
      rw [Database.userById, husers]
      exact hfound
    refine ⟨?_, ?_, hunused, hmailed⟩
    · refine (Database.mfaOff_iff (Database.userById_setMfa _ hfound')).mpr ?_
      simp only [User.setMfa, resetColumns]
      split
      · rfl
      · rename_i hkept
        simp_all
    · show w₁.cur.activeDevices targetUserId = []
      rw [Database.activeDevices, hdevices]
      refine (Database.activeDevices_updateDevices _ _ _ _).trans ?_
      rw [List.filter_eq_nil_iff]
      intro d hd
      have henabled : d ∈ w.cur.enabledDevices targetUserId := by
        obtain ⟨hmem, hkept⟩ := List.mem_filter.mp hd
        obtain ⟨howner, -, hdisabled⟩ := of_decide_eq_true hkept
        exact List.mem_filter.mpr ⟨hmem, decide_eq_true ⟨howner, hdisabled⟩⟩
      have hid := List.mem_map_of_mem (f := fun d : MFADevice => d.id) henabled
      simpa using hid
  · cases hx

/-! ## A challenge that has lapsed -/

variable {A : AppEnv} {F : Prop} {α β : Type} {userId jti : ℕ} {stage : Option Stage}

/-- `create_mfa_challenge_token` has returned this token. -/
def ChallengeIssued (A : AppEnv) (userId jti : ℕ) (stage : Option Stage) (token : A.Token) :
    Prop :=
  ∃ (login : LoginContext) (w w' : World), w.next = jti ∧
    (createMfaChallengeToken A.toEnv userId login stage).Exec w (.ok token) w'

/-- The check of a challenge turns it away, or there is nothing left to answer it with. -/
def Database.Lapsed (A : AppEnv) (db : Database) (userId jti : ℕ) (stage : Option Stage) : Prop :=
  stage = some .totp ∨ (∀ user, db.userById userId = some user → isEnabledFor A user = false) ∨
    db.NothingLeft userId jti

instance (db : Database) (userId jti : ℕ) (stage : Option Stage) :
    Decidable (db.Lapsed A userId jti stage) :=
  inferInstanceAs (Decidable (_ ∨ (∀ user ∈ db.userById userId, isEnabledFor A user = false) ∨ _))

theorem ChallengeIssued.decoded {token : A.Token} (hJ : A.jose.Lawful)
    (h : ChallengeIssued A userId jti stage token) {now : ℕ} {payload : Claims}
    (hdecode : decodeToken A.toEnv now token = .ok payload) :
    payload.userId = some userId ∧ payload.jti = some jti ∧ payload.requiredStage = stage := by
  obtain ⟨login, w, w', rfl, h⟩ := h
  simp only [createMfaChallengeToken, bind_eq, exec_time_bind, exec_draw_bind] at h
  obtain ⟨t, -, h, -⟩ := h
  obtain rfl := Except.ok.inj h
  obtain ⟨rfl, -⟩ := decodeToken_sign_ok hJ hdecode
  exact ⟨rfl, rfl, rfl⟩

/-- A program that fails, whatever it has seen. -/
abbrev Fails (P : Database → Prop) (F : Prop) (p : Op α) (q : Sight AuthSig) : Prop :=
  p.Follows (watching P) F (fun r _ => ∃ x, r = .error x) q

section

variable {P : Database → Prop}

/-- What comes before does not matter to a program that fails in the end. -/
theorem fails_bind {p : Op β} {k : β → Op α} {q : Sight AuthSig}
    (hk : ∀ b q, Fails P F (k b) q) : Fails P F (p.bind k) q :=
  (within_any p).follows_bind (T := fun _ => True) (fun _ _ _ _ => trivial)
    (fun _ _ _ _ => trivial) trivial (fun b q' _ => hk b q') fun x _ _ => ⟨x, rfl⟩

theorem refuseCode_fails {payload : Claims} {organizationId : Option ℕ} {r : ChallengeRequest A}
    {q : Sight AuthSig} : Fails P F (refuseCode A payload userId organizationId r) q :=
  fails_bind fun _ _ => fails_bind fun _ _ => ⟨_, rfl⟩

theorem fails_after {M : β → Sight AuthSig → Prop} {p : Op β} {k : β → Op α} {q : Sight AuthSig}
    (h : p.Follows (watching P) F (Leads M) q) (hk : ∀ b q, M b q → Fails P F (k b) q) :
    Fails P F (p.bind k) q := by
  refine h.handle fun r q hr => ?_
  cases r with
  | ok b => exact hk b q hr
  | error x => exact ⟨x, rfl⟩

/-- A read of the one snapshot. -/
theorem snapshot_query_bind {f : Database → β} {k : β → Op α} {v : Database}
    {post : Except Err α → Sight AuthSig → Prop}
    (hk : (k (f v)).Follows (watching P) F post (.snapshot v))
    (hx : ∀ x, post (.error x) (.snapshot v)) :
    ((query f).bind k).Follows (watching P) F post (.snapshot v) := by
  refine follows_query_bind.mpr ⟨?_, fun _ x => hx x⟩
  rintro _ rfl
  exact ⟨trivial, hk⟩

/-- No factor matched, and nothing is changed. -/
def Unmatched (v : Database) (b : Bool) (q : Sight AuthSig) : Prop := b = false ∧ q = .snapshot v

section

variable {payload : Claims} {r : ChallengeRequest A} {v : Database}

theorem tryDevices_nil : tryDevices A payload r [] = ret none := by
  unfold tryDevices
  split <;> rfl

theorem tryRecoveryCode_unmatched (hcodes : v.unusedRecoveryCodes userId = []) :
    (tryRecoveryCode A payload r userId).Follows (watching P) F (Leads (Unmatched v))
      (.snapshot v) := by
  unfold tryRecoveryCode
  split
  · have hnone : v.verifyRecoveryCode A userId r.code = none := by
      unfold Database.verifyRecoveryCode
      split
      · rfl
      · rw [List.find?_eq_none]
        intro c hc hmatch
        obtain ⟨howner, -, hunused⟩ := of_decide_eq_true hmatch
        have hmem : c ∈ v.unusedRecoveryCodes userId :=
          List.mem_filter.mpr ⟨hc, decide_eq_true ⟨howner, hunused⟩⟩
        rw [hcodes] at hmem
        cases hmem
    refine Leads.bind (M := fun found q => found = none ∧ q = Sight.snapshot v) ?_ ?_
    · refine Follows.orElse (M := fun _ q => q = Sight.snapshot v) ?_ ?_
      · refine ⟨?_, fun _ x => rfl⟩
        rintro _ rfl
        exact ⟨trivial, hnone, rfl⟩
      · rintro x q rfl
        exact ⟨rfl, rfl⟩
    · rintro found q ⟨rfl, rfl⟩
      exact ⟨rfl, rfl⟩
  · exact ⟨rfl, rfl⟩

theorem tryEmailCode_unmatched (hmailed : v.openOtp userId payload.jti = none) :
    (tryEmailCode A payload r userId).Follows (watching P) F (Leads (Unmatched v))
      (.snapshot v) := by
  unfold tryEmailCode
  split
  · refine Leads.bind (M := fun _ q => q = Sight.snapshot v) ?_ ?_
    · refine snapshot_query_bind ?_ fun _ => trivial
      split
      · rfl
      · trivial
    · rintro user q rfl
      split
      · refine Follows.orElse (M := fun _ q => q = Sight.snapshot v) ?_ ?_
        · refine snapshot_query_bind ?_ fun _ => rfl
          rw [hmailed]
          exact follows_time_bind.mpr fun _ _ => ⟨rfl, rfl⟩
        · rintro x q rfl
          exact ⟨rfl, rfl⟩
      · exact ⟨rfl, rfl⟩
  · exact ⟨rfl, rfl⟩

/-- **No factor left**, none matches. -/
theorem answerChallenge_fails {user : User} (hjti : payload.jti = some jti)
    (hleft : v.NothingLeft user.id jti) :
    Fails P F (answerChallenge A payload r user) (.snapshot v) := by
  refine snapshot_query_bind ?_ fun x => ⟨x, rfl⟩
  rw [hleft.devices, tryDevices_nil]
  refine snapshot_query_bind ?_ fun x => ⟨x, rfl⟩
  refine fails_after (tryRecoveryCode_unmatched hleft.codes) ?_
  rintro _ _ ⟨rfl, rfl⟩
  refine fails_after (tryEmailCode_unmatched ?_) ?_
  · rw [hjti]
    exact hleft.mailed
  rintro _ _ ⟨rfl, rfl⟩
  exact refuseCode_fails

end

/-- **A lapsed challenge is refused**, whatever it is answered with. -/
theorem verifyMfaChallenge_fails {r : ChallengeRequest A} (hJ : A.jose.Lawful)
    (hissued : ChallengeIssued A userId jti stage r.challengeToken)
    (hP : ∀ v, P v → v.MfaOff userId ∧ v.Lapsed A userId jti stage) :
    Fails P F (verifyMfaChallenge A r) .unread := by
  refine follows_time_bind.mpr fun now _ => ?_
  split
  · exact ⟨_, rfl⟩
  rename_i payload hdecode
  obtain ⟨huser, hjti, hstage⟩ := hissued.decoded hJ hdecode
  split
  · exact ⟨_, rfl⟩
  split
  · exact ⟨_, rfl⟩
  refine follows_query_bind.mpr ⟨fun v hv => ⟨trivial, ?_⟩, fun _ x => ⟨x, rfl⟩⟩
  obtain ⟨hoff, hlapsed⟩ := hP v hv
  refine snapshot_query_bind (P := P) ?_ fun x => ⟨x, rfl⟩
  rw [huser, Option.bind_some]
  split
  · exact ⟨_, rfl⟩
  cases hfound : v.userById userId with
  | none => exact ⟨_, rfl⟩
  | some user =>
    obtain rfl := Database.userById_id hfound
    dsimp only
    split
    · exact ⟨_, rfl⟩
    split
    · exact ⟨_, rfl⟩
    rename_i hpasses
    split
    · exact ⟨_, rfl⟩
    rename_i hstaged
    rcases hlapsed with htotp | hmail | hleft
    · exact absurd ⟨hstage.trans htotp, hoff user hfound⟩ hstaged
    · exact absurd ⟨hoff user hfound, hmail user hfound⟩ hpasses
    · exact answerChallenge_fails hjti hleft

end

/-- A call of the challenge route; what the route makes of the reply is its own affair. -/
def answering (request : ChallengeRequest A) (answer : LoginReply A → α) : Op α :=
  ((verifyMfaChallenge A request).bind fun reply => ret (answer reply)).close

theorem answering_fails {P : Database → Prop} {request : ChallengeRequest A}
    {answer : LoginReply A → α} (hJ : A.jose.Lawful)
    (hissued : ChallengeIssued A userId jti stage request.challengeToken)
    (hP : ∀ v, P v → v.MfaOff userId ∧ v.Lapsed A userId jti stage) :
    Fails P F (answering request answer) .unread := by
  refine Follows.close ((verifyMfaChallenge_fails hJ hissued hP).handle ?_)
  rintro r q ⟨x, rfl⟩
  exact ⟨x, rfl⟩

section

variable {ι : Type}

/-- A step at which the user's second factor is off. -/
def StaysOff (userId : ℕ) (s : Sys AuthSig ι α) (_ : ι) (_ : Label AuthSig) : Prop :=
  s.db.MfaOff userId

/-- A step at which it is off and the challenge has lapsed. -/
def StaysLapsed (A : AppEnv) (userId jti : ℕ) (stage : Option Stage) (s : Sys AuthSig ι α)
    (_ : ι) (_ : Label AuthSig) : Prop :=
  s.db.MfaOff userId ∧ s.db.Lapsed A userId jti stage

instance (s : Sys AuthSig ι α) (i : ι) (ℓ : Label AuthSig) : Decidable (StaysOff userId s i ℓ) :=
  inferInstanceAs (Decidable (s.db.MfaOff userId))

instance (s : Sys AuthSig ι α) (i : ι) (ℓ : Label AuthSig) :
    Decidable (StaysLapsed A userId jti stage s i ℓ) :=
  inferInstanceAs (Decidable (s.db.MfaOff userId ∧ s.db.Lapsed A userId jti stage))

/-- Any step. -/
def AnyStep (_ : Sys AuthSig ι α) (_ : ι) (_ : Label AuthSig) : Prop := True

instance (s : Sys AuthSig ι α) (i : ι) (ℓ : Label AuthSig) : Decidable (AnyStep s i ℓ) :=
  isTrue trivial

variable [DecidableEq ι]

/-- **Stale challenges die where they lapse.** Whatever the service does, once the user's
second factor is off and as long as it stays off, a challenge of theirs is refused in every
later call, if all the while the check turns it away or nothing is left to answer it with. -/
theorem stale_challenge_refused (hJ : A.jose.Lawful) (proc : ι → Op α) (i : ι)
    (request : ChallengeRequest A) (answer : LoginReply A → α) (db : Database) (now next : ℕ)
    (s₁ s₂ : Sys AuthSig ι α) (reply : Except Err α)
    (hissued : ChallengeIssued A userId jti stage request.challengeToken)
    (hproc : proc i = answering request answer)
    (hbefore : Sys.Run F AnyStep (Sys.start db now next proc) s₁) (hlater : s₁.begun i = false)
    (hafter : Sys.Run F (StaysLapsed A userId jti stage) s₁ s₂)
    (hreply : (s₂.proc i).reply? = some reply) : ∃ x, reply = .error x := by
  obtain ⟨hidle, hstill⟩ := hbefore.unbegun hlater
  refine hafter.sees_only (fun v : Database => v.MfaOff userId ∧ v.Lapsed A userId jti stage)
    (fun r => ∃ x, r = .error x) (fun _ _ h => h) hidle (fun x => ⟨x, rfl⟩) ?_ hreply
  rw [hstill, hproc]
  exact answering_fails hJ hissued fun v hv => hv

end

/-! ## Two ends of a second factor -/

/-- A user with one device, and a recovery code. -/
def enrolledUser : User :=
  { id := 1, email := some "ada@lab.org", status := .active, mfaEnabled := true }

def enrolledOnce : Database := { Database.empty with
  users := [enrolledUser]
  mfaDevices := [{ id := 7, userId := 1, encryptedSecret := "s", verifiedAt := some 0 }]
  mfaRecoveryCodes := [{ id := 8, userId := 1, codeHash := AppEnv.symbolic.hashRecoveryCode "c" }] }

def enrolledWorld : World := ⟨enrolledOnce, enrolledOnce, minutes 1, 10, []⟩

/-- They sign in with a provider and are challenged. -/
def challenged : Except Err (LoginReply .symbolic) × World :=
  (generateTokensOrMfaChallenge .symbolic enrolledUser { authMethod := .oauth } {} true).close.run
    enrolledWorld

/-- The challenge is answered with the recovery code. -/
def staleAnswer : ChallengeRequest .symbolic where
  challengeToken := (LoginReply.challenge? challenged.1).getD (.hs256, {})
  code := "c"

theorem staleAnswer_issued : ChallengeIssued .symbolic 1 10 none staleAnswer.challengeToken :=
  ⟨{ authMethod := .oauth }, enrolledWorld, _, rfl,
    exec_run (createMfaChallengeToken AppEnv.symbolic.toEnv 1 { authMethod := .oauth } none) _⟩

/-- The second factor is taken away by the program, and the challenge is answered. -/
def ending (removal : Op Unit) : Bool → Op (Option (LoginReply .symbolic))
  | false => (removal.bind fun _ => ret none).close
  | true => answering staleAnswer some

/-- Whether a call returned the tokens of a login. -/
def signedIn : Option (Except Err (Option (LoginReply .symbolic))) → Bool
  | some (.ok (some (.tokens _ _))) => true
  | _ => false

theorem signedIn_iff (reply : Option (Except Err (Option (LoginReply .symbolic)))) :
    signedIn reply = true ↔ ∃ access refresh, reply = some (.ok (some (.tokens access refresh))) := by
  constructor
  · intro h
    unfold signedIn at h
    split at h
    · exact ⟨_, _, rfl⟩
    · cases h
  · rintro ⟨access, refresh, rfl⟩
    rfl

/-- Both are about to start. -/
def challengedSys (removal : Op Unit) : Sys AuthSig Bool (Option (LoginReply .symbolic)) :=
  Sys.start challenged.2.base challenged.2.now challenged.2.next (ending removal)

/-- Signed in, with the second factor off in every state on the way. -/
theorem stale_challenge_signs_in :
    ¬ enrolledOnce.MfaOff 1 ∧ ChallengeIssued .symbolic 1 10 none staleAnswer.challengeToken ∧
    ∃ s₁ s₂, Sys.Run False AnyStep (challengedSys (removeDevice 1 7)) s₁ ∧
      s₁.begun true = false ∧ Sys.Run False (StaysOff 1) s₁ s₂ ∧
      ∃ access refresh, (s₂.proc true).reply? = some (.ok (some (.tokens access refresh))) := by
  refine ⟨by decide, staleAnswer_issued, ?_⟩
  let s₁ := (challengedSys (removeDevice 1 7)).follow AnyStep (List.replicate 12 false)
  have hplays : s₁.any (fun s₁ => decide (s₁.begun true = false) &&
      (s₁.follow (StaysOff 1) (List.replicate 37 true)).any fun s₂ =>
        signedIn (s₂.proc true).reply?) = true := by decide
  obtain ⟨s₁, hs₁, hplays⟩ := (Option.any_eq_true _ _).mp hplays
  obtain ⟨hidle, hplays⟩ := (Bool.and_eq_true _ _).mp hplays
  obtain ⟨s₂, hs₂, hreply⟩ := (Option.any_eq_true _ _).mp hplays
  exact ⟨s₁, s₂, Sys.run_of_follow _ hs₁, of_decide_eq_true hidle, Sys.run_of_follow _ hs₂,
    (signedIn_iff _).mp hreply⟩

/-- After a reset nothing is left. -/
theorem stale_challenge_refused_reset :
    ∃ s₁ s₂ reply, Sys.Run False AnyStep (challengedSys (resetUserMfa 1 2)) s₁ ∧
      s₁.begun true = false ∧ Sys.Run False (StaysLapsed .symbolic 1 10 none) s₁ s₂ ∧
      (s₂.proc true).reply? = some reply ∧ ∃ x, reply = .error x := by
  let s₁ := (challengedSys (resetUserMfa 1 2)).follow AnyStep (List.replicate 13 false)
  have hplays : s₁.any (fun s₁ => decide (s₁.begun true = false) &&
      (s₁.follow (StaysLapsed .symbolic 1 10 none) (List.replicate 13 true)).any fun s₂ =>
        (s₂.proc true).reply?.isSome) = true := by decide
  obtain ⟨s₁, hs₁, hplays⟩ := (Option.any_eq_true _ _).mp hplays
  obtain ⟨hidle, hplays⟩ := (Bool.and_eq_true _ _).mp hplays
  obtain ⟨s₂, hs₂, hreply⟩ := (Option.any_eq_true _ _).mp hplays
  obtain ⟨reply, hr⟩ := Option.isSome_iff_exists.mp hreply
  have hbefore := Sys.run_of_follow _ hs₁
  have hafter := Sys.run_of_follow _ hs₂
  exact ⟨s₁, s₂, reply, hbefore, of_decide_eq_true hidle, hafter, hr,
    stale_challenge_refused Jose.symbolic_lawful (ending (resetUserMfa 1 2)) true staleAnswer some
      _ _ _ s₁ s₂ reply staleAnswer_issued rfl hbefore (of_decide_eq_true hidle) hafter hr⟩

end OmniAuth
