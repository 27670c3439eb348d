import OmniAuth.Mfa.Removal
import OmniAuth.Role.Members

/-!
# Enrolling a second factor

`start_totp_enrollment` and `verify_totp_enrollment` of `mfa_service`, their routes, and
`get_mfa_enrollment_user`, which lets in a user who is signed in and one who is not, with the
token `mfa_enrollment_service` has issued. A device counts once it is verified, and
`users.mfa_enabled` says whether one does.
-/

namespace OmniAuth

open Txn Prog

/-! ## `mfa_service` -/

/-- A device that was added and neither verified nor disabled. -/
def Database.pendingDevices (db : Database) (userId : ℕ) : List MFADevice :=
  db.mfaDevices.filter fun d =>
    d.userId = userId ∧ d.deviceType = .totp ∧ d.verifiedAt = none ∧ d.disabledAt = none

/-- `_disable_pending_totp_devices` -/
def disablePendingTotpDevices (userId : ℕ) : Op Unit := do
  let pending ← query (·.pendingDevices userId)
  if pending = [] then return ()
  else do
    let now ← time
    execute (.mfa (.disableDevices (pending.map (·.id)) now))
    commitNow

variable (A : AppEnv)

/-- `start_totp_enrollment` -/
def startTotpEnrollment (userId : ℕ) : Op MFADevice := do
  disablePendingTotpDevices userId
  let n ← draw
  match A.encrypt (A.secret n) with
  | none => raise (.runtime "encryption")
  | some encryptedSecret => do
      let createdAt ← time
      let id ← draw
      let device : MFADevice :=
        { id := id, userId := userId, encryptedSecret := encryptedSecret, createdAt := createdAt }
      execute (.mfa (.insertDevice device))
      logEvent
        { eventType := .mfaDeviceEnrollmentStarted
          actorUserId := some userId
          targetUserId := some userId
          resourceType := some "mfa_device"
          resourceId := some device.id
          metadata := [("device_type", device.deviceType.text)] }
        false
      commitNow
      return device

/-- The columns `verify_totp_enrollment` assigns, those that change. -/
def enabledColumns (user : User) (now : ℕ) : MfaColumns where
  enabled := if user.mfaEnabled then none else some true
  status := if user.mfaStatus = some "enabled" then none else some "enabled"
  primaryMethod := if user.mfaPrimaryMethod = some "totp" then none else some (some "totp")
  enabledAt := some (some now)
  lastVerifiedAt := some (some now)

/-- `verify_totp_enrollment`, once the code is right. -/
def enableDevice (userId : ℕ) (device : MFADevice) : Op MFADevice := do
  let now ← time
  execute (.mfa (.verifyDevice device.id now))
  logEvent
    { eventType := .mfaDeviceAdded
      actorUserId := some userId
      targetUserId := some userId
      resourceType := some "mfa_device"
      resourceId := some device.id
      afterState := [("device_type", device.deviceType.text), ("verified", "True")]
      metadata := [("device_type", device.deviceType.text)] }
    false
  let user ← query (·.userById userId)
  match user with
  | none => raise (.runtime "'NoneType' object has no attribute 'mfa_enabled'")
  | some user => do
      execute (.mfa (.updateMfa userId (enabledColumns user now)))
      if user.mfaEnabled then pure ()
      else
        logEvent
          { eventType := .mfaEnabled
            actorUserId := some userId
            targetUserId := some userId
            resourceType := some "user"
            resourceId := some userId
            afterState := [("mfa_enabled", "True"), ("mfa_primary_method", "totp")] }
          false
      commitNow
      return { device with verifiedAt := some now }

/-- `verify_totp_enrollment` -/
def verifyTotpEnrollment (userId deviceId : ℕ) (code : String) : Op MFADevice := do
  let device ← query fun db => db.mfaDevices.find? fun d => d.id = deviceId ∧ d.userId = userId
  match device with
  | none => raise (.lookup "MFA device not found")
  | some device =>
      if device.disabledAt.isSome then
        raise (.value "This enrollment is no longer active -- start a new one")
      else if device.verifiedAt.isSome then raise (.value "This device is already verified")
      else
        match A.decrypt device.encryptedSecret with
        | none => raise (.runtime "decryption")
        | some secret => do
            let verified ← verifyTotpCode A secret code
            if verified then enableDevice userId device
            else raise (.value "Invalid verification code")

/-! ## The enrollment capability -/

/-- `get_active_session` -/
def Database.activeSession (db : Database) (userId tokenJti now : ℕ) :
    Option MFAEnrollmentSession :=
  db.mfaEnrollmentSessions.find? fun s =>
    s.userId = userId ∧ s.tokenJti = tokenJti ∧ s.Live now

/-- `get_active_session(…, lock=True)` -/
def lockActiveSession (userId tokenJti : ℕ) : Op (Option MFAEnrollmentSession) := do
  let now ← time
  returning (S := AuthSig) (.mfa (.lockEnrollmentSession userId tokenJti now))
    (·.activeSession userId tokenJti now)

/-- `consume_session` -/
def consumeSession (sessionId : ℕ) : Op Bool := do
  let now ← time
  let changed ← returning (S := AuthSig) (.mfa (.consumeEnrollmentSession sessionId now))
    fun db => decide (∃ s ∈ db.mfaEnrollmentSessions, s.id = sessionId ∧ s.Live now)
  if changed then do
    commitNow
    return true
  else do
    rollbackNow
    return false

/-- Who enrolls: a user who is signed in, or the bearer of an enrollment token. -/
structure EnrollmentUser where
  userId : ℕ
  enrollmentJti : Option ℕ := none

/-- `get_mfa_enrollment_user` -/
def getMfaEnrollmentUser (redis : Option Redis) (token : A.Token) : Op EnrollmentUser := do
  let now ← time
  match decodeToken A.toEnv now token with
  | .error _ => raise (.http 401 "Invalid token")
  | .ok payload =>
      if payload.type ≠ some .mfaEnrollment then do
        let now ← time
        let user ← queryOrRaise fun db => getCurrentUser now redis db A.toEnv token
        match user.sub with
        | some (.user userId) => return ⟨userId, none⟩
        | _ => raise noSubject
      else
        match payload.userId, payload.jti with
        | some userId, some tokenJti =>
            if payload.purpose ≠ some "totp_enrollment" ∨ userId = 0 then
              raise (.http 401 "Invalid token")
            else do
              let user ← query fun db =>
                db.users.find? fun u => u.id = userId ∧ u.status = .active
              let now ← time
              let session ← query (·.activeSession userId tokenJti now)
              match user with
              | none => raise (.http 401 "Invalid or expired enrollment token")
              | some user =>
                  if user.mfaEnabled ∨ session = none then
                    raise (.http 401 "Invalid or expired enrollment token")
                  else return ⟨user.id, some tokenJti⟩
        | _, _ => raise (.http 401 "Invalid token")

/-! ## The routes -/

/-- `except RuntimeError`, where an enrollment is started. -/
def startFails {α : Type} : Err → Op α
  | .runtime message => raise (.http 500 message)
  | x => raise x

/-- `except LookupError` and `ValueError`, where it is verified. -/
def verifyFails {α : Type} : Err → Op α
  | .lookup _ => raise (.http 404 "MFA device not found")
  | .value message => raise (.http 400 message)
  | x => raise x

/-- `POST /users/me/mfa/totp/enroll` -/
def startEnrollment (redis : Option Redis) (token : A.Token) : Op MFADevice := do
  let user ← getMfaEnrollmentUser A redis token
  match user.enrollmentJti with
  | none => (startTotpEnrollment A user.userId).orElse startFails
  | some tokenJti => do
      let session ← lockActiveSession user.userId tokenJti
      match session.filter (·.deviceId = none) with
      | none => raise (.http 401 "Invalid or already used enrollment token")
      | some session => do
          let device ← (startTotpEnrollment A user.userId).orElse startFails
          execute (.mfa (.bindEnrollmentSession session.id device.id))
          commitNow
          return device

/-- `POST /users/me/mfa/totp/verify` -/
def verifyEnrollment (redis : Option Redis) (token : A.Token) (deviceId : ℕ) (code : String) :
    Op MFADevice := do
  let user ← getMfaEnrollmentUser A redis token
  match user.enrollmentJti with
  | none => (verifyTotpEnrollment A user.userId deviceId code).orElse verifyFails
  | some tokenJti => do
      let session ← lockActiveSession user.userId tokenJti
      match session.filter (·.deviceId = some deviceId) with
      | none => raise (.http 401 "Invalid or expired enrollment token")
      | some session => do
          let device ← (verifyTotpEnrollment A user.userId deviceId code).orElse verifyFails
          let consumed ← consumeSession session.id
          if consumed then return device
          else raise (.http 401 "Enrollment token already used or expired")

end OmniAuth
