import OmniAuth.Throttle.Service

/-!
# What the account throttle counts

A failed attempt that passed the check is counted once, the failure that
reaches the maximum sets the lock, and while the lock is set nothing passes:
provided no attempt is checked in the last half second of the lock. There
`TTL` already answers zero while the lock still exists, the check lets the
attempt pass, and the script that should count it finds the lock and does
not.
-/

namespace OmniAuth

open Txn Prog

variable {control : Control} {settings : ThrottleSettings} {subject : ThrottleSubject}
  {key : ThrottleKey} {limits : Limits} {r : Redis} {now : ℕ} {w w' : RedisWorld}

/-! ## The scripts -/

theorem incrWithin_fst (k : RedisKey) (seconds : ℕ) :
    (incrWithin k seconds now r).1 = r.get now k + 1 := by
  obtain ⟨e, hlive, hvalue⟩ : ∃ e, (r.incr now k).live now k = some e ∧
      e.value = r.get now k + 1 := Redis.live_incr k
  simp only [incrWithin, Redis.get, hlive]
  exact hvalue

theorem incrWithin_of_ne {k k' : RedisKey} (h : k' ≠ k) (seconds : ℕ) :
    (incrWithin k seconds now r).2 k' = r k' := by
  simp only [incrWithin]
  split
  · rw [Redis.expire_of_ne h, Redis.incr_of_ne h]
  · exact Redis.incr_of_ne h

/-- A counter that is alive goes on and keeps its expiry. -/
theorem incrWithin_of_live {k : RedisKey} {e : Entry} (h : r.live now k = some e)
    (hpos : 0 < e.value) (seconds : ℕ) :
    (incrWithin k seconds now r).2 k = some ⟨e.value + 1, e.expiresAt⟩ := by
  have hcount : (incrWithin k seconds now r).1 = r.get now k + 1 := incrWithin_fst k seconds
  have hget : r.get now k = e.value := by rw [Redis.get, h]; rfl
  simp only [incrWithin] at hcount ⊢
  rw [hcount, hget, if_neg (by omega)]
  exact Redis.incr_self_of_live h

/-- One that is not begins anew, with a full window. -/
theorem incrWithin_of_absent {k : RedisKey} (h : r.live now k = none) (seconds : ℕ) :
    (incrWithin k seconds now r).2 k = some ⟨1, some (now + seconds * 1000)⟩ := by
  have hcount : (incrWithin k seconds now r).1 = r.get now k + 1 := incrWithin_fst k seconds
  have hget : r.get now k = 0 := by rw [Redis.get, h]; rfl
  have hlive : (r.incr now k).live now k = some ⟨1, none⟩ :=
    Redis.live_eq_some.mpr ⟨Redis.incr_self_of_absent h, fun x hx => by cases hx⟩
  simp only [incrWithin] at hcount ⊢
  rw [hcount, hget, if_pos rfl]
  exact Redis.expire_self hlive _

/-- The script touches the counter and the lock of its key. -/
theorem incrAndLock_frame {k : RedisKey} (hc : k ≠ .counter key) (hl : k ≠ .lock key) :
    (incrAndLock key limits now r).2 k = r k := by
  unfold incrAndLock
  split
  · rfl
  dsimp only
  split
  · exact (Redis.setEx_of_ne hl _ _).trans (incrWithin_of_ne hc _)
  · exact incrWithin_of_ne hc _

/-- Where no lock is set, the failure is counted, and sets the lock when it
reaches the maximum. -/
theorem incrAndLock_of_unlocked {L : Limits} (h : r.live now (.lock key) = none) :
    (incrAndLock key L now r).1.newlyLocked =
        decide (L.maxAttempts ≤ r.get now (.counter key) + 1) ∧
      (incrAndLock key L now r).2 (.counter key) =
        (incrWithin (.counter key) L.windowSeconds now r).2 (.counter key) ∧
      (incrAndLock key L now r).2 (.lock key) =
        if L.maxAttempts ≤ r.get now (.counter key) + 1 then
          some ⟨1, some (now + L.lockoutSeconds * 1000)⟩
        else r (.lock key) := by
  have hne : RedisKey.lock key ≠ .counter key := by rintro ⟨⟩
  have hnot : ¬ r.exists? now (.lock key) = true := by simp [Redis.exists?, h]
  unfold incrAndLock
  rw [if_neg hnot]
  simp only [incrWithin_fst]
  by_cases hmax : L.maxAttempts ≤ r.get now (.counter key) + 1
  · simp only [if_pos hmax]
    exact ⟨(decide_eq_true hmax).symm, Redis.setEx_of_ne hne.symm _ _, Redis.put_self _ _⟩
  · simp only [if_neg hmax]
    exact ⟨(decide_eq_false hmax).symm, trivial, incrWithin_of_ne hne _⟩

/-! ## The functions

One lemma each: the answer, the keys after, and what is new in the history. -/

theorem isLocked_exec {a : Except Empty (Bool × ℤ)} (h : (isLocked key).Exec w a w') :
    ∃ t, w.now ≤ t ∧ w' = { w with now := t, log := w.log ++ [.lookedUp key (millis t)] } ∧
      a = .ok (if 0 < w.cur.ttl (millis t) (.lock key) then
        (true, w.cur.ttl (millis t) (.lock key)) else (false, 0)) := by
  simp only [isLocked, bind_eq, exec_time_bind, exec_note_bind, exec_query_bind] at h
  obtain ⟨t, ht, rfl, rfl⟩ := h
  exact ⟨t, ht, rfl, rfl⟩

/-- The loop of the check writes nothing, and what was locked stays locked. -/
theorem anyLocked_exec {keys : List ThrottleKey} {status : ThrottleStatus}
    {a : Except Empty ThrottleStatus} (hkeys : key ∉ keys)
    (h : (anyLocked keys status).Exec w a w') :
    ∃ status' evs, a = .ok status' ∧ w'.cur = w.cur ∧ w.now ≤ w'.now ∧
      w'.log = w.log ++ evs ∧ (∀ e ∈ evs, e.about ≠ key) ∧
      (status.locked = true → status'.locked = true) := by
  induction keys generalizing w status with
  | nil =>
    obtain ⟨rfl, rfl⟩ := h
    exact ⟨status, [], rfl, rfl, Nat.le_refl _, by simp, by simp, id⟩
  | cons k rest ih =>
    have hk : key ≠ k := fun heq => hkeys (heq ▸ List.mem_cons_self)
    have hrest : key ∉ rest := fun hmem => hkeys (List.mem_cons_of_mem _ hmem)
    simp only [anyLocked, bind_eq] at h
    obtain ⟨answer, w₁, h₁, h₂⟩ := exec_bind_inv h fun _ _ h => by
      obtain ⟨t, _, _, ha⟩ := isLocked_exec h
      exact ⟨_, ha⟩
    obtain ⟨t, ht, rfl, _⟩ := isLocked_exec h₁
    obtain ⟨status', evs, rfl, hcur, hnow, hlog, hevs, hlocked⟩ := ih hrest h₂
    refine ⟨status', .lookedUp k (millis t) :: evs, rfl, hcur, Nat.le_trans ht hnow, ?_, ?_, ?_⟩
    · rw [hlog]
      simp
    · intro e he
      rcases List.mem_cons.mp he with rfl | he
      · exact Ne.symm hk
      · exact hevs e he
    · intro hstatus
      refine hlocked ?_
      split
      · rfl
      · exact hstatus

/-- The check looks the lock of the account up first. -/
theorem checkThrottled_exec {a : Except Empty ThrottleStatus} (henabled : settings.enabled = true)
    (h : (checkThrottled control settings subject).Exec w a w') :
    ∃ t status evs, a = .ok status ∧ w.now ≤ t ∧ t ≤ w'.now ∧ w'.cur = w.cur ∧
      w'.log = w.log ++ .lookedUp (.acct control subject.account) (millis t) :: evs ∧
      (∀ e ∈ evs, e.about ≠ .acct control subject.account) ∧
      (0 < w.cur.ttl (millis t) (.lock (.acct control subject.account)) →
        status.locked = true) := by
  have hrest : ThrottleKey.acct control subject.account ∉
      ThrottleKey.pair control subject.pair ::
        if subject.ip = "" then [] else [.ip control subject.ip] := by
    split <;> simp
  rw [checkThrottled, if_neg (by simp [henabled])] at h
  simp only [lockKeys, List.cons_append, List.nil_append, anyLocked, bind_eq] at h
  obtain ⟨answer, w₁, h₁, h₂⟩ := exec_bind_inv h fun _ _ h => by
    obtain ⟨t, _, _, ha⟩ := isLocked_exec h
    exact ⟨_, ha⟩
  obtain ⟨t, ht, rfl, hanswer⟩ := isLocked_exec h₁
  obtain ⟨status, evs, rfl, hcur, hnow, hlog, hevs, hlocked⟩ := anyLocked_exec hrest h₂
  refine ⟨t, status, evs, rfl, ht, hnow, hcur, ?_, hevs, fun httl => hlocked ?_⟩
  · rw [hlog]
    simp
  · rw [if_pos httl] at hanswer
    rw [Except.ok.inj hanswer]
    rfl

theorem recordAttempt_exec {a : Except Empty RateLimitResult}
    (h : (recordAttempt key limits).Exec w a w') :
    ∃ t, w.now ≤ t ∧ a = .ok (incrAndLock key limits (millis t) w.cur).1 ∧
      w' = { w with
        now := t
        cur := (incrAndLock key limits (millis t) w.cur).2
        log := w.log ++ [.recorded key (millis t) (incrAndLock key limits (millis t) w.cur).1] } := by
  simp only [recordAttempt, bind_eq, exec_time_bind] at h
  obtain ⟨t, ht, h⟩ := h
  rw [exec_returning_bind_ok (e := ⟨[], _⟩) rfl] at h
  simp only [exec_note_bind] at h
  obtain ⟨rfl, rfl⟩ := h
  exact ⟨t, ht, rfl, rfl⟩

/-- The escalation never shortens a lock: of the keys it writes only the
strikes and, where the lock is still set, its expiry. -/
theorem applyProgressiveEscalation_exec {a : Except Empty Unit} {n : ℕ}
    (hn : n ≤ millis w.now)
    (hlock : w.cur (.lock (.acct control subject.account)) =
      some ⟨1, some (n + settings.account.lockoutSeconds * 1000)⟩)
    (h : (applyProgressiveEscalation control settings subject).Exec w a w') :
    a = .ok () ∧ w.now ≤ w'.now ∧ w'.log = w.log ∧
      (∀ key, w'.cur (.counter key) = w.cur (.counter key)) ∧
      (∀ key, key ≠ .acct control subject.account → w'.cur (.lock key) = w.cur (.lock key)) ∧
      ∃ x, w'.cur (.lock (.acct control subject.account)) = some ⟨1, some x⟩ ∧
        n + settings.account.lockoutSeconds * 1000 ≤ x := by
  have hstrikes : ∀ (k : RedisKey) (t : ℕ), k ≠ .strikes control subject.account →
      (strike control subject.account settings.strikeTtlSeconds t w.cur).2 k = w.cur k :=
    fun k t hk => incrWithin_of_ne hk _
  simp only [applyProgressiveEscalation, bumpStrikes, setLockTtl, bind_eq, Prog.bind_bind,
    exec_time_bind] at h
  obtain ⟨t, ht, h⟩ := h
  rw [exec_returning_bind_ok (e := ⟨[], _⟩) rfl] at h
  have hlock' : (strike control subject.account settings.strikeTtlSeconds (millis t) w.cur).2
      (.lock (.acct control subject.account)) =
        some ⟨1, some (n + settings.account.lockoutSeconds * 1000)⟩ :=
    (hstrikes _ _ (by rintro ⟨⟩)).trans hlock
  split at h
  · obtain ⟨rfl, rfl⟩ := h
    exact ⟨rfl, ht, rfl, fun key => hstrikes _ _ (by rintro ⟨⟩),
      fun key _ => hstrikes _ _ (by rintro ⟨⟩), _, hlock', Nat.le_refl _⟩
  split at h
  · rename_i hlonger
    simp only [exec_time_bind] at h
    obtain ⟨t', ht', h⟩ := h
    rw [execute, exec_returning] at h
    obtain ⟨_, heff, rfl, rfl⟩ | ⟨_, hx, _⟩ := h
    · obtain rfl := Except.ok.inj heff
      have hmono : millis w.now ≤ millis t' := Nat.div_le_div_right (Nat.le_trans ht ht')
      refine ⟨rfl, Nat.le_trans ht ht', rfl, fun key => ?_, fun key hkey => ?_, ?_⟩
      · exact (Redis.expire_of_ne (by rintro ⟨⟩) _).trans (hstrikes _ _ (by rintro ⟨⟩))
      · refine (Redis.expire_of_ne ?_ _).trans (hstrikes _ _ (by rintro ⟨⟩))
        rintro ⟨⟩
        exact hkey rfl
      -- a lock that has run out by now is left as it is
      · cases hlive : Redis.live (strike control subject.account settings.strikeTtlSeconds
          (millis t) w.cur).2 (millis t') (.lock (.acct control subject.account)) with
        | none =>
          refine ⟨_, ?_, Nat.le_refl _⟩
          simp only [Command.apply, Redis.expire, hlive]
          exact hlock'
        | some e =>
          have he := (Redis.live_eq_some.mp hlive).1
          rw [hlock'] at he
          obtain rfl := Option.some.inj he
          exact ⟨_, Redis.expire_self hlive _, Nat.add_le_add (Nat.le_trans hn hmono)
            (Nat.mul_le_mul_right _ (Nat.le_of_lt hlonger))⟩
    · cases hx
  · obtain ⟨rfl, rfl⟩ := h
    exact ⟨rfl, ht, rfl, fun key => hstrikes _ _ (by rintro ⟨⟩),
      fun key _ => hstrikes _ _ (by rintro ⟨⟩), _, hlock', Nat.le_refl _⟩

/-- What a failure recorded at `n` does to the keys of an account: one more, and
the lock when that reaches the maximum. -/
structure Counts (limits : Limits) (key : ThrottleKey) (n : ℕ) (result : RateLimitResult)
    (r r' : Redis) : Prop where
  answer : result.newlyLocked = decide (limits.maxAttempts ≤ r.get n (.counter key) + 1)
  counter : r' (.counter key) =
    (incrWithin (.counter key) limits.windowSeconds n r).2 (.counter key)
  locks : result.newlyLocked = true →
    ∃ x, r' (.lock key) = some ⟨1, some x⟩ ∧ n + limits.lockoutSeconds * 1000 ≤ x
  spares : result.newlyLocked = false → r' (.lock key) = r (.lock key)

/-- The failure recorded for another key leaves those of the account alone. -/
theorem Counts.of_other {n t : ℕ} {o : ThrottleKey} {L : Limits} {result : RateLimitResult}
    {r r' : Redis} (hc : Counts limits key n result r r') (hne : key ≠ o) :
    Counts limits key n result r (incrAndLock o L t r').2 := by
  have hcounter : RedisKey.counter key ≠ .counter o := by
    rintro ⟨⟩
    exact hne rfl
  have hlock : RedisKey.lock key ≠ .lock o := by
    rintro ⟨⟩
    exact hne rfl
  have h₁ : (incrAndLock o L t r').2 (.counter key) = r' (.counter key) :=
    incrAndLock_frame hcounter (by rintro ⟨⟩)
  have h₂ : (incrAndLock o L t r').2 (.lock key) = r' (.lock key) :=
    incrAndLock_frame (by rintro ⟨⟩) hlock
  refine ⟨hc.answer, h₁.trans hc.counter, fun hnew => ?_, fun hnew => h₂.trans (hc.spares hnew)⟩
  obtain ⟨x, hx, hle⟩ := hc.locks hnew
  exact ⟨x, h₂.trans hx, hle⟩

/-- **A recorded failure counts once**, where the account is not locked. -/
theorem recordFailure_exec {a : Except Empty Unit} (henabled : settings.enabled = true)
    (h : (recordFailure control settings subject).Exec w a w') :
    a = .ok () ∧ ∃ n result evs, millis w.now ≤ n ∧
      w'.log = w.log ++ .recorded (.acct control subject.account) n result :: evs ∧
      (∀ e ∈ evs, e.about ≠ .acct control subject.account) ∧
      (w.cur.live (millis w.now) (.lock (.acct control subject.account)) = none →
        Counts settings.account (.acct control subject.account) n result w.cur w'.cur) := by
  rw [recordFailure, if_neg (by simp [henabled])] at h
  simp only [bind_eq] at h
  obtain ⟨account, w₁, h₁, h⟩ := exec_bind_inv h fun _ _ h => by
    obtain ⟨_, _, ha, _⟩ := recordAttempt_exec h
    exact ⟨_, ha⟩
  obtain ⟨t, ht, haccount, rfl⟩ := recordAttempt_exec h₁
  obtain rfl := Except.ok.inj haccount
  have hmono : millis w.now ≤ millis t := Nat.div_le_div_right ht
  -- the account's own failure, and the escalation of its lock
  have hescalated : ∃ w₂ result, w₂.log = w.log ++ [.recorded
        (.acct control subject.account) (millis t) result] ∧
      (w.cur.live (millis w.now) (.lock (.acct control subject.account)) = none →
        Counts settings.account (.acct control subject.account) (millis t) result w.cur w₂.cur) ∧
      ((recordAttempt (.pair control subject.pair) settings.pair).bind fun _ =>
        if subject.ip = "" then ret () else
          (recordAttempt (.ip control subject.ip) settings.ip).bind fun _ => ret ()).Exec
        w₂ a w' := by
    cases hlive : w.cur.live (millis t) (.lock (.acct control subject.account)) with
    | some e =>
      rw [if_neg (by simp [incrAndLock, Redis.exists?, hlive])] at h
      refine ⟨_, _, rfl, fun hnone => ?_, h⟩
      rw [Redis.live_mono hmono hnone] at hlive
      cases hlive
    | none =>
      obtain ⟨hnewly, hcounter, hlocked⟩ :=
        incrAndLock_of_unlocked (L := settings.account) hlive
      split at h
      · rename_i hnew
        rw [hnewly, decide_eq_true_eq] at hnew
        rw [if_pos hnew] at hlocked
        obtain ⟨_, w₂, h₂, h⟩ := exec_bind_inv h fun _ _ h =>
          ⟨_, (applyProgressiveEscalation_exec (n := millis t) (Nat.le_refl _) hlocked h).1⟩
        obtain ⟨-, -, hlog, hcounters, -, x, hx, hle⟩ :=
          applyProgressiveEscalation_exec (n := millis t) (Nat.le_refl _) hlocked h₂
        refine ⟨w₂, _, hlog, fun _ => ⟨hnewly, (hcounters _).trans hcounter,
          fun _ => ⟨x, hx, hle⟩, fun hfew => ?_⟩, h⟩
        rw [hnewly, decide_eq_false_iff_not] at hfew
        exact absurd hnew hfew
      · rename_i hnew
        rw [hnewly, decide_eq_true_eq] at hnew
        rw [if_neg hnew] at hlocked
        refine ⟨_, _, rfl, fun _ => ⟨hnewly, hcounter, fun hmax => ?_, fun _ => hlocked⟩, h⟩
        rw [hnewly, decide_eq_true_eq] at hmax
        exact absurd hmax hnew
  obtain ⟨w₂, result, hlog, hcounts, h⟩ := hescalated
  obtain ⟨pair, w₃, h₃, h⟩ := exec_bind_inv h fun _ _ h => by
    obtain ⟨_, _, ha, _⟩ := recordAttempt_exec h
    exact ⟨_, ha⟩
  obtain ⟨t₃, _, -, rfl⟩ := recordAttempt_exec h₃
  have hcounts₃ := fun hnone => (hcounts hnone).of_other (t := millis t₃) (L := settings.pair)
    (o := .pair control subject.pair) (by rintro ⟨⟩)
  split at h
  · obtain ⟨rfl, rfl⟩ := h
    refine ⟨rfl, millis t, result, _, hmono,
      (congrArg (· ++ [_]) hlog).trans (List.append_assoc _ _ _), ?_, hcounts₃⟩
    simp [ThrottleEvent.about]
  · obtain ⟨ip, w₄, h₄, h⟩ := exec_bind_inv h fun _ _ h => by
      obtain ⟨_, _, ha, _⟩ := recordAttempt_exec h
      exact ⟨_, ha⟩
    obtain ⟨t₄, _, -, rfl⟩ := recordAttempt_exec h₄
    obtain ⟨rfl, rfl⟩ := h
    refine ⟨rfl, millis t, result, _, hmono,
      (congrArg (· ++ [_] ++ [_]) hlog).trans (by simp only [List.append_assoc]; rfl), ?_,
      fun hnone => (hcounts₃ hnone).of_other (t := millis t₄) (L := settings.ip)
        (o := .ip control subject.ip) (by rintro ⟨⟩)⟩
    simp [ThrottleEvent.about]

/-! ## The attempt -/

/-- What is new in the history after a run from `w` to `w'`. -/
def news (w w' : RedisWorld) : List ThrottleEvent := w'.log.drop w.log.length

theorem news_eq {evs : List ThrottleEvent} (h : w'.log = w.log ++ evs) : news w w' = evs := by
  rw [news, h, List.drop_left]

/-- What an attempt does to the keys of its account, whose lock it looked up at
`m`. -/
inductive Tried (settings : ThrottleSettings) (key : ThrottleKey) (m : ℕ) (w w' : RedisWorld) :
    Outcome → Prop
  | refused (same : w'.cur = w.cur) : Tried settings key m w w' .refused
  | aborted (passed : w.cur.ttl m (.lock key) ≤ 0) (same : w'.cur = w.cur) :
      Tried settings key m w w' .aborted
  | succeeded (passed : w.cur.ttl m (.lock key) ≤ 0) (counter : w'.cur (.counter key) = none)
      (lock : w'.cur (.lock key) = none) : Tried settings key m w w' .succeeded
  | failed (passed : w.cur.ttl m (.lock key) ≤ 0)
      (counted : w.cur.live m (.lock key) = none → ∃ n result, m ≤ n ∧
        .recorded key n result ∈ news w w' ∧
        (∀ n' result', .recorded key n' result' ∈ news w w' → result' = result) ∧
        Counts settings.account key n result w.cur w'.cur) :
      Tried settings key m w w' .failed

/-- **An attempt**: it looks the account's lock up at one instant, and what it
does after depends on what it saw there. -/
theorem attempt_exec {verdict : Option Bool} {a : Except Empty Outcome}
    (henabled : settings.enabled = true)
    (h : (attempt control settings subject verdict).Exec w a w') :
    ∃ outcome m, a = .ok outcome ∧
      .lookedUp (.acct control subject.account) m ∈ news w w' ∧
      (∀ m', .lookedUp (.acct control subject.account) m' ∈ news w w' → m' = m) ∧
      Tried settings (.acct control subject.account) m w w' outcome := by
  simp only [attempt, bind_eq] at h
  obtain ⟨throttle, w₁, h₁, h⟩ := exec_bind_inv h fun _ _ h => by
    obtain ⟨_, _, _, ha, _⟩ := checkThrottled_exec henabled h
    exact ⟨_, ha⟩
  obtain ⟨t, status, evs, hstatus, -, hnow, hcur, hlog, hevs, hlocked⟩ :=
    checkThrottled_exec henabled h₁
  obtain rfl := Except.ok.inj hstatus
  -- the one look-up of the lock among what the check wrote
  have honce : ∀ more, w'.log = w₁.log ++ more →
      (∀ e ∈ more, ∀ m, e ≠ .lookedUp (.acct control subject.account) m) →
      .lookedUp (.acct control subject.account) (millis t) ∈ news w w' ∧
      ∀ m', .lookedUp (.acct control subject.account) m' ∈ news w w' → m' = millis t := by
    intro more hmore hnone
    rw [hlog, List.append_assoc] at hmore
    rw [news_eq hmore]
    refine ⟨List.mem_cons_self, fun m' hm' => ?_⟩
    rcases List.mem_cons.mp hm' with hm' | hm'
    · cases hm'
      rfl
    rcases List.mem_append.mp hm' with hm' | hm'
    · exact absurd rfl (hevs _ hm')
    · exact absurd rfl (hnone _ hm' _)
  split at h
  · obtain ⟨rfl, rfl⟩ := h
    obtain ⟨hmem, huniq⟩ := honce [] (List.append_nil _).symm (by simp)
    exact ⟨_, _, rfl, hmem, huniq, .refused hcur⟩
  rename_i hopen
  have hpassed : w.cur.ttl (millis t) (.lock (.acct control subject.account)) ≤ 0 := by
    by_contra hpos
    exact hopen (hlocked (by omega))
  cases verdict with
  | none =>
    obtain ⟨rfl, rfl⟩ := h
    obtain ⟨hmem, huniq⟩ := honce [] (List.append_nil _).symm (by simp)
    exact ⟨_, _, rfl, hmem, huniq, .aborted hpassed hcur⟩
  | some right =>
    cases right with
    | true =>
      simp only [recordSuccess, henabled, Bool.true_eq_false, if_false, clear, execute] at h
      rw [exec_returning_bind_ok (e := ⟨[], _⟩) rfl] at h
      obtain ⟨rfl, rfl⟩ := h
      obtain ⟨hmem, huniq⟩ := honce [] (List.append_nil _).symm (by simp)
      refine ⟨_, _, rfl, hmem, huniq, .succeeded hpassed ?_ ?_⟩
      · exact if_pos (by simp)
      · exact if_pos (by simp)
    | false =>
      obtain ⟨_, w₂, h₂, h⟩ := exec_bind_inv h fun _ _ h =>
        ⟨_, (recordFailure_exec henabled h).1⟩
      obtain ⟨rfl, rfl⟩ := h
      obtain ⟨-, n, result, more, hn, hmore, hnone, hcounts⟩ := recordFailure_exec henabled h₂
      obtain ⟨hmem, huniq⟩ := honce (.recorded _ n result :: more) hmore (by
        rintro e he m rfl
        rcases List.mem_cons.mp he with he | he
        · cases he
        · exact hnone _ he rfl)
      have hmono : millis t ≤ millis w₁.now := Nat.div_le_div_right hnow
      refine ⟨_, _, rfl, hmem, huniq, .failed hpassed fun hlive => ?_⟩
      rw [hlog, List.append_assoc] at hmore
      refine ⟨n, result, Nat.le_trans hmono hn, ?_, fun n' result' hmem' => ?_, ?_⟩
      · rw [news_eq hmore]
        simp
      · rw [news_eq hmore] at hmem'
        simp only [List.cons_append, List.mem_cons, List.mem_append, reduceCtorEq, false_or,
          ThrottleEvent.recorded.injEq] at hmem'
        obtain hmem' | ⟨-, -, rfl⟩ | hmem' := hmem'
        · exact absurd rfl (hevs _ hmem')
        · rfl
        · exact absurd rfl (hnone _ hmem')
      · rw [hcur] at hcounts
        exact hcounts (Redis.live_mono hmono hlive)

end OmniAuth
