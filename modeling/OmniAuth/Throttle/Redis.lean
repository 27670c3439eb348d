import OmniAuth.Txn.Prog
import Mathlib.Data.Int.Notation

/-!
# Redis

The commands this service sends to Redis. A key keeps a value and, once a
command gave it one, an instant at which it expires; the clock of Redis
counts milliseconds. Every command, a script included, is executed as a
whole.
-/

namespace OmniAuth

open Txn

/-- Which of the two throttles a key belongs to. -/
inductive Control
  | login
  | mfa
  deriving DecidableEq

/-- What is throttled: an account, an address, or the two together. Accounts
and pairs are known by their digest. -/
inductive ThrottleKey
  | acct (control : Control) (id : ℕ)
  | ip (control : Control) (ip : String)
  | pair (control : Control) (id : ℕ)
  deriving DecidableEq

/-- The keys: `blacklist:jti:…`, the SAML message that was used, `saml_replay:…` or
`saml_slo_replay:…`, a counter, its `…:lock`, and the strikes of an account. -/
inductive RedisKey
  | blacklistJti (jti : ℕ)
  | samlMessage (slo : Bool) (organizationId configId : ℕ) (messageId : String)
  | counter (key : ThrottleKey)
  | lock (key : ThrottleKey)
  | strikes (control : Control) (id : ℕ)
  deriving DecidableEq

structure Entry where
  value : ℕ
  expiresAt : Option ℕ
  deriving DecidableEq

/-- The stored keys. A key past its expiry is as good as absent. -/
abbrev Redis : Type := RedisKey → Option Entry

namespace Redis

def empty : Redis := fun _ => none

variable (r : Redis) (now : ℕ)

/-- The entry of a key that has not expired. -/
def live (k : RedisKey) : Option Entry :=
  (r k).filter fun e => match e.expiresAt with
    | some x => now < x
    | none => true

def put (k : RedisKey) (e : Option Entry) : Redis := fun k' => if k' = k then e else r k'

/-- `EXISTS` -/
def exists? (k : RedisKey) : Bool := (r.live now k).isSome

/-- `GET`, zero when absent. -/
def get (k : RedisKey) : ℕ := ((r.live now k).map (·.value)).getD 0

/-- Milliseconds to live. -/
def pttl (e : Entry) : Option ℕ := e.expiresAt.map (· - now)

/-- `TTL`: whole seconds, rounded to nearest; -2 for no key, -1 for no expiry. -/
def ttl (k : RedisKey) : ℤ :=
  match r.live now k with
  | none => -2
  | some e => match pttl now e with
    | none => -1
    | some ms => ((ms + 500) / 1000 : ℕ)

/-- `INCR` keeps the expiry the key has. -/
def incr (k : RedisKey) : Redis :=
  r.put k (some (match r.live now k with
    | some e => { e with value := e.value + 1 }
    | none => ⟨1, none⟩))

/-- `EXPIRE`, for a positive number of seconds. -/
def expire (k : RedisKey) (seconds : ℕ) : Redis :=
  match r.live now k with
  | some e => r.put k (some { e with expiresAt := some (now + seconds * 1000) })
  | none => r

/-- `SET k value EX seconds`, also `SETEX`, for a positive number of seconds. -/
def setEx (k : RedisKey) (value seconds : ℕ) : Redis :=
  r.put k (some ⟨value, some (now + seconds * 1000)⟩)

/-- `DEL` -/
def del (ks : List RedisKey) : Redis := fun k => if k ∈ ks then none else r k

variable {r now}

@[simp] theorem put_self (k : RedisKey) (e : Option Entry) : r.put k e k = e := if_pos rfl

theorem put_of_ne {k k' : RedisKey} (h : k' ≠ k) (e : Option Entry) : r.put k e k' = r k' :=
  if_neg h

theorem live_eq_some {k : RedisKey} {e : Entry} :
    r.live now k = some e ↔ r k = some e ∧ ∀ x, e.expiresAt = some x → now < x := by
  unfold live
  rw [Option.filter_eq_some_iff]
  refine and_congr_right fun _ => ?_
  cases e.expiresAt with
  | none => simp
  | some x => simp

/-- What has expired does not come back. -/
theorem live_mono {now' : ℕ} {k : RedisKey} (hle : now ≤ now') (h : r.live now k = none) :
    r.live now' k = none := by
  cases hlive : r.live now' k with
  | none => rfl
  | some e =>
    obtain ⟨hr, hx⟩ := live_eq_some.mp hlive
    have hnow : r.live now k = some e := by
      refine live_eq_some.mpr ⟨hr, fun x he => ?_⟩
      have := hx x he
      omega
    rw [h] at hnow
    cases hnow

theorem incr_of_ne {k k' : RedisKey} (h : k' ≠ k) : r.incr now k k' = r k' := put_of_ne h _

theorem setEx_of_ne {k k' : RedisKey} (h : k' ≠ k) (v s : ℕ) : r.setEx now k v s k' = r k' :=
  put_of_ne h _

theorem expire_of_ne {k k' : RedisKey} (h : k' ≠ k) (s : ℕ) : r.expire now k s k' = r k' := by
  unfold expire
  cases r.live now k with
  | some e => exact put_of_ne h _
  | none => rfl

theorem expire_self {k : RedisKey} {e : Entry} (h : r.live now k = some e) (s : ℕ) :
    r.expire now k s k = some { e with expiresAt := some (now + s * 1000) } := by
  unfold expire
  rw [h]
  exact put_self k _

theorem incr_self_of_live {k : RedisKey} {e : Entry} (h : r.live now k = some e) :
    r.incr now k k = some { e with value := e.value + 1 } := by
  unfold incr
  rw [h]
  exact put_self k _

theorem incr_self_of_absent {k : RedisKey} (h : r.live now k = none) :
    r.incr now k k = some ⟨1, none⟩ := by
  unfold incr
  rw [h]
  exact put_self k _

/-- The counter after `INCR` is one more, and alive. -/
theorem live_incr (k : RedisKey) :
    ∃ e, (r.incr now k).live now k = some e ∧ e.value = r.get now k + 1 := by
  cases h : r.live now k with
  | none =>
    refine ⟨⟨1, none⟩, live_eq_some.mpr ⟨incr_self_of_absent h, nofun⟩, ?_⟩
    simp [get, h]
  | some e =>
    refine ⟨{ e with value := e.value + 1 },
      live_eq_some.mpr ⟨incr_self_of_live h, (live_eq_some.mp h).2⟩, ?_⟩
    simp [get, h]

end Redis

/-! ## Scripts -/

/-- `RateLimitResult` -/
structure RateLimitResult where
  locked : Bool
  newlyLocked : Bool
  count : ℕ
  deriving DecidableEq

/-- The limits of one dimension, positive numbers all. -/
structure Limits where
  windowSeconds : ℕ
  maxAttempts : ℕ
  lockoutSeconds : ℕ
  window_pos : 0 < windowSeconds := by decide
  attempts_pos : 0 < maxAttempts := by decide
  lockout_pos : 0 < lockoutSeconds := by decide

/-- `INCR`, and `EXPIRE` when that began the key: the count, and the keys after. -/
def incrWithin (k : RedisKey) (seconds now : ℕ) (r : Redis) : ℕ × Redis :=
  let r₁ := r.incr now k
  let n := r₁.get now k
  (n, if n = 1 then r₁.expire now k seconds else r₁)

/-- `_INCR_AND_LOCK_SCRIPT`: the answer, and the keys after. -/
def incrAndLock (key : ThrottleKey) (limits : Limits) (now : ℕ) (r : Redis) :
    RateLimitResult × Redis :=
  if r.exists? now (.lock key) then (⟨true, false, r.get now (.counter key)⟩, r)
  else
    let counted := incrWithin (.counter key) limits.windowSeconds now r
    if limits.maxAttempts ≤ counted.1 then
      (⟨true, true, counted.1⟩, counted.2.setEx now (.lock key) 1 limits.lockoutSeconds)
    else (⟨false, false, counted.1⟩, counted.2)

/-- `_STRIKE_SCRIPT` -/
def strike (control : Control) (id strikeTtlSeconds now : ℕ) (r : Redis) : ℕ × Redis :=
  incrWithin (.strikes control id) strikeTtlSeconds now r

/-! ## The store of the throttles -/

/-- What the throttles write. Each command carries the instant Redis executes it
at. -/
inductive Command
  | incrAndLock (key : ThrottleKey) (limits : Limits) (now : ℕ)
  | strike (control : Control) (id strikeTtlSeconds now : ℕ)
  | expire (key : RedisKey) (seconds now : ℕ)
  | del (keys : List RedisKey)

def Command.apply : Command → Redis → Redis
  | incrAndLock key limits now, r => (OmniAuth.incrAndLock key limits now r).2
  | strike control id ttl now, r => (OmniAuth.strike control id ttl now r).2
  | expire key seconds now, r => r.expire now key seconds
  | del keys, r => r.del keys

/-- The history of the throttles: a lock looked up, and a failure counted. -/
inductive ThrottleEvent
  | lookedUp (key : ThrottleKey) (now : ℕ)
  | recorded (key : ThrottleKey) (now : ℕ) (result : RateLimitResult)
  deriving DecidableEq

/-- The key an event is about. -/
def ThrottleEvent.about : ThrottleEvent → ThrottleKey
  | lookedUp key _ => key
  | recorded key _ _ => key

/-- Redis as a store of programs. No command is denied and none waits. -/
abbrev RedisSig : Sig := ⟨Redis, Empty, Command, ThrottleEvent, Empty, fun c _ => .ok ⟨[], c.apply⟩⟩

abbrev RedisOp (α : Type) : Type := Prog RedisSig α

abbrev RedisWorld : Type := Txn.World RedisSig

end OmniAuth
