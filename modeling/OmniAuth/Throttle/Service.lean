import Mathlib.Algebra.Group.Nat.Defs
import OmniAuth.Throttle.Redis

/-!
# The throttles

`app/core/rate_limit.py` while Redis answers, and the two services built on
it, `app/services/login_throttle_service.py` and
`app/services/mfa_throttle_service.py`. The two differ in their keys and
their settings only, so each function is one definition with the control as a
parameter, and the services' own functions are it at their own values.
-/

namespace OmniAuth

open Txn Prog

/-- The clock of Redis, in milliseconds. -/
def millis (t : ℕ) : ℕ := t / 1000

/-! ## `rate_limit` -/

/-- `record_attempt` -/
def recordAttempt (key : ThrottleKey) (limits : Limits) : RedisOp RateLimitResult := do
  let now ← time
  let result ← returning (S := RedisSig) (.incrAndLock key limits (millis now)) fun r =>
    (incrAndLock key limits (millis now) r).1
  note (.recorded key (millis now) result)
  return result

/-- `is_locked`: whether the lock is set, and for how many more seconds. -/
def isLocked (key : ThrottleKey) : RedisOp (Bool × ℤ) := do
  let now ← time
  note (.lookedUp key (millis now))
  let ttl ← query fun r : Redis => r.ttl (millis now) (.lock key)
  return if 0 < ttl then (true, ttl) else (false, 0)

/-- `bump_strikes` -/
def bumpStrikes (control : Control) (id strikeTtlSeconds : ℕ) : RedisOp ℕ := do
  let now ← time
  returning (S := RedisSig) (.strike control id strikeTtlSeconds (millis now)) fun r =>
    (strike control id strikeTtlSeconds (millis now) r).1

/-- `set_lock_ttl` -/
def setLockTtl (key : ThrottleKey) (ttlSeconds : ℕ) : RedisOp Unit := do
  let now ← time
  execute (S := RedisSig) (.expire (.lock key) ttlSeconds (millis now))

/-- `clear` -/
def clear (keys : List RedisKey) : RedisOp Unit := execute (S := RedisSig) (.del keys)

/-! ## The services -/

/-- `RATE_LIMIT_…`, respectively `MFA_RATE_LIMIT_…`. -/
structure ThrottleSettings where
  enabled : Bool
  account : Limits
  pair : Limits
  ip : Limits
  progressiveMultiplier : ℕ
  maxLockoutSeconds : ℕ
  strikeTtlSeconds : ℕ

/-- The defaults of `app/core/config.py`. -/
def ThrottleSettings.loginDefault : ThrottleSettings where
  enabled := true
  account := { windowSeconds := 900, maxAttempts := 10, lockoutSeconds := 900 }
  pair := { windowSeconds := 300, maxAttempts := 5, lockoutSeconds := 300 }
  ip := { windowSeconds := 900, maxAttempts := 30, lockoutSeconds := 900 }
  progressiveMultiplier := 2
  maxLockoutSeconds := 3600
  strikeTtlSeconds := 86400

def ThrottleSettings.mfaDefault : ThrottleSettings where
  enabled := true
  account := { windowSeconds := 300, maxAttempts := 5, lockoutSeconds := 300 }
  pair := { windowSeconds := 300, maxAttempts := 3, lockoutSeconds := 300 }
  ip := { windowSeconds := 300, maxAttempts := 20, lockoutSeconds := 300 }
  progressiveMultiplier := 2
  maxLockoutSeconds := 1800
  strikeTtlSeconds := 3600

/-- Who is throttled: the ids of the account and of the pair, and the address,
empty when there is none. -/
structure ThrottleSubject where
  account : ℕ
  pair : ℕ
  ip : String
  deriving DecidableEq

structure ThrottleStatus where
  locked : Bool
  retryAfterSeconds : ℤ
  deriving DecidableEq

variable (control : Control) (settings : ThrottleSettings) (subject : ThrottleSubject)

/-- The keys whose locks are looked up, in order. -/
def lockKeys : List ThrottleKey :=
  [.acct control subject.account, .pair control subject.pair] ++
    if subject.ip = "" then [] else [.ip control subject.ip]

/-- The loop of `check_throttled`. -/
def anyLocked : List ThrottleKey → ThrottleStatus → RedisOp ThrottleStatus
  | [], status => return status
  | key :: rest, status => do
      let answer ← isLocked key
      anyLocked rest (if answer.1 then ⟨true, max status.retryAfterSeconds answer.2⟩ else status)

/-- `check_throttled` -/
def checkThrottled : RedisOp ThrottleStatus :=
  if settings.enabled = false then return ⟨false, 0⟩
  else anyLocked (lockKeys control subject) ⟨false, 0⟩

/-- `_apply_progressive_escalation` -/
def applyProgressiveEscalation : RedisOp Unit := do
  let strikes ← bumpStrikes control subject.account settings.strikeTtlSeconds
  if strikes ≤ 1 then return ()
  else do
    let escalated := min
      (settings.account.lockoutSeconds * settings.progressiveMultiplier ^ (strikes - 1))
      settings.maxLockoutSeconds
    if settings.account.lockoutSeconds < escalated then
      setLockTtl (.acct control subject.account) escalated
    else return ()

/-- `record_failure`, short of its audit rows. -/
def recordFailure : RedisOp Unit :=
  if settings.enabled = false then return ()
  else do
    let account ← recordAttempt (.acct control subject.account) settings.account
    if account.newlyLocked then applyProgressiveEscalation control settings subject
    let _ ← recordAttempt (.pair control subject.pair) settings.pair
    if subject.ip = "" then return ()
    else do
      let _ ← recordAttempt (.ip control subject.ip) settings.ip
      return ()

/-- `record_success` -/
def recordSuccess : RedisOp Unit :=
  if settings.enabled = false then return ()
  else clear [.counter (.acct control subject.account), .lock (.acct control subject.account),
    .strikes control subject.account, .counter (.pair control subject.pair),
    .lock (.pair control subject.pair)]

/-- How an attempt ends: `aborted` is an attempt that raised something else
before there was a verdict. -/
inductive Outcome
  | refused
  | succeeded
  | failed
  | aborted
  deriving DecidableEq

/-- An attempt, as `/auth/login` and `verify_mfa_challenge` make it: nothing is
verified while a lock is seen, and the verdict, if there is one, is recorded. -/
def attempt (verdict : Option Bool) : RedisOp Outcome := do
  let throttle ← checkThrottled control settings subject
  if throttle.locked then return .refused
  else match verdict with
    | some true => do
        recordSuccess control settings subject
        return .succeeded
    | some false => do
        recordFailure control settings subject
        return .failed
    | none => return .aborted

/-! ## Their subjects -/

/-- `sha256(text).hexdigest()[:16]`, and `str.strip().lower()`. -/
structure TextPrimitives where
  digest : String → ℕ
  stripLower : String → String

variable (T : TextPrimitives)

/-- `_account_key`, `_pair_key` of `login_throttle_service`; no address is the empty
one. -/
def loginSubject (email : String) (ip : Option String) : ThrottleSubject where
  account := T.digest (T.stripLower email)
  pair := T.digest (ip.getD "" ++ ":" ++ T.stripLower email)
  ip := ip.getD ""

/-- `_account_key`, `_pair_key` of `mfa_throttle_service`. -/
def mfaSubject (userId : ℕ) (ip : Option String) : ThrottleSubject where
  account := userId
  pair := T.digest (ip.getD "" ++ ":" ++ toString userId)
  ip := ip.getD ""

namespace LoginThrottle

def checkThrottled (email : String) (ip : Option String) : RedisOp ThrottleStatus :=
  OmniAuth.checkThrottled .login settings (loginSubject T email ip)

def recordFailure (email : String) (ip : Option String) : RedisOp Unit :=
  OmniAuth.recordFailure .login settings (loginSubject T email ip)

def recordSuccess (email : String) (ip : Option String) : RedisOp Unit :=
  OmniAuth.recordSuccess .login settings (loginSubject T email ip)

end LoginThrottle

namespace MfaThrottle

def checkThrottled (userId : ℕ) (ip : Option String) : RedisOp ThrottleStatus :=
  OmniAuth.checkThrottled .mfa settings (mfaSubject T userId ip)

def recordFailure (userId : ℕ) (ip : Option String) : RedisOp Unit :=
  OmniAuth.recordFailure .mfa settings (mfaSubject T userId ip)

def recordSuccess (userId : ℕ) (ip : Option String) : RedisOp Unit :=
  OmniAuth.recordSuccess .mfa settings (mfaSubject T userId ip)

end MfaThrottle

end OmniAuth
