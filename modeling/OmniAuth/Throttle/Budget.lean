import OmniAuth.Throttle.Exact

/-!
# The budget of an account

Attempts against one account, one after another and at any times. As long as
none is checked in the last half second of the account's lock, the throttle
is exact: a failure counts once, the one that reaches the maximum locks, and
a lock refuses everything until it expires.
-/

namespace OmniAuth

open Txn Prog

variable (control : Control) (settings : ThrottleSettings) (account : ℕ)

/-- One attempt of a run: where from and how good it was, and the world before
and after it. -/
structure Trial where
  pair : ℕ
  ip : String
  verdict : Option Bool
  before : RedisWorld
  outcome : Outcome
  after : RedisWorld

namespace Trial

variable (t : Trial)

def Happens : Prop :=
  (attempt control settings ⟨account, t.pair, t.ip⟩ t.verdict).Exec t.before (.ok t.outcome) t.after

/-- The instants at which the attempt looked the account's lock up. -/
def LooksUp (m : ℕ) : Prop := .lookedUp (.acct control account) m ∈ news t.before t.after

/-- The answers the script gave when it recorded the attempt for the account. -/
def Records (n : ℕ) (result : RateLimitResult) : Prop :=
  .recorded (.acct control account) n result ∈ news t.before t.after

/-- Where the attempt finds the account locked, the lock has at least half a
second to go. -/
def Timely : Prop :=
  ∀ m e x, t.LooksUp control account m →
    t.before.cur.live m (.lock (.acct control account)) = some e → e.expiresAt = some x →
    m + 500 ≤ x

/-- The attempt set the account's lock. -/
def Locks : Prop := ∃ n result, t.Records control account n result ∧ result.newlyLocked = true

/-- What the counter says at `n`, before and after the attempt. -/
def CountsOnce (n : ℕ) : Prop :=
  t.after.cur.get n (.counter (.acct control account)) =
    t.before.cur.get n (.counter (.acct control account)) + 1

instance (m : ℕ) : Decidable (t.LooksUp control account m) :=
  inferInstanceAs (Decidable (_ ∈ news t.before t.after))

instance (n : ℕ) (result : RateLimitResult) : Decidable (t.Records control account n result) :=
  inferInstanceAs (Decidable (_ ∈ news t.before t.after))

instance (n : ℕ) : Decidable (t.CountsOnce control account n) :=
  inferInstanceAs (Decidable (_ = _))

end Trial

/-- The attempts follow on one another. Time may pass in between. -/
def Sequence (w : RedisWorld) : List Trial → Prop
  | [] => True
  | t :: rest => w.now ≤ t.before.now ∧ t.before = { w with now := t.before.now } ∧
      t.Happens control settings account ∧ Sequence t.after rest

variable {control : Control} {settings : ThrottleSettings} {account : ℕ} {w w' : RedisWorld}
  {t : Trial} {ts : List Trial}

/-! ## One attempt -/

/-- A counter counts something, and it and the lock expire. -/
structure Sound (key : ThrottleKey) (r : Redis) : Prop where
  counter : ∀ e, r (.counter key) = some e → 0 < e.value ∧ ∃ x, e.expiresAt = some x
  lock : ∀ e, r (.lock key) = some e → ∃ x, e.expiresAt = some x

theorem Sound.of_absent {key : ThrottleKey} {r : Redis} (hcounter : r (.counter key) = none)
    (hlock : r (.lock key) = none) : Sound key r := by
  refine ⟨fun e he => ?_, fun e he => ?_⟩
  · rw [hcounter] at he
    cases he
  · rw [hlock] at he
    cases he

theorem ttl_pos {r : Redis} {m x : ℕ} {k : RedisKey} {e : Entry} (h : r.live m k = some e)
    (he : e.expiresAt = some x) (hx : m + 500 ≤ x) : 0 < r.ttl m k := by
  simp only [Redis.ttl, h, Redis.pttl, he, Option.map_some]
  omega

/-- A timely attempt that passed the check found no lock. -/
theorem Trial.Timely.unlocked {m : ℕ} (ht : t.Timely control account)
    (hm : t.LooksUp control account m) (hs : Sound (.acct control account) t.before.cur)
    (hpassed : t.before.cur.ttl m (.lock (.acct control account)) ≤ 0) :
    t.before.cur.live m (.lock (.acct control account)) = none := by
  cases hlive : t.before.cur.live m (.lock (.acct control account)) with
  | none => rfl
  | some e =>
    obtain ⟨x, hx⟩ := hs.lock e (Redis.live_eq_some.mp hlive).1
    have := ttl_pos hlive hx (ht m e x hm hlive hx)
    omega

namespace Counts

variable {limits : Limits} {key : ThrottleKey} {n : ℕ} {result : RateLimitResult} {r r' : Redis}

/-- The counter after a recorded failure: one more than before, and with the
expiry it had, or a whole window when it begins. -/
theorem entry (hc : Counts limits key n result r r') (hs : Sound key r) :
    ∃ x, r' (.counter key) = some ⟨r.get n (.counter key) + 1, some x⟩ ∧ n < x ∧
      (r.live n (.counter key) = none → x = n + limits.windowSeconds * 1000) ∧
      (∀ e, r.live n (.counter key) = some e → e.expiresAt = some x) := by
  rw [hc.counter]
  cases hlive : r.live n (.counter key) with
  | none =>
    have hget : r.get n (.counter key) = 0 := by rw [Redis.get, hlive]; rfl
    have hwindow := limits.window_pos
    refine ⟨_, ?_, ?_, fun _ => rfl, fun e he => by cases he⟩
    · rw [hget]
      exact incrWithin_of_absent hlive _
    · omega
  | some e =>
    obtain ⟨hentry, hexpiry⟩ := Redis.live_eq_some.mp hlive
    obtain ⟨hpos, x, hx⟩ := hs.counter e hentry
    have hget : r.get n (.counter key) = e.value := by rw [Redis.get, hlive]; rfl
    refine ⟨x, ?_, hexpiry x hx, fun h => (by cases h), ?_⟩
    · rw [hget, ← hx]
      exact incrWithin_of_live hlive hpos _
    · rintro _ ⟨⟩
      exact hx

theorem get (hc : Counts limits key n result r r') (hs : Sound key r) :
    r'.get n (.counter key) = r.get n (.counter key) + 1 := by
  obtain ⟨x, hx, hlt, -, -⟩ := hc.entry hs
  rw [Redis.get, Redis.live_eq_some.mpr ⟨hx, fun y hy => by
    cases hy
    exact hlt⟩]
  rfl

theorem sound (hc : Counts limits key n result r r') (hs : Sound key r) : Sound key r' := by
  obtain ⟨x, hx, -⟩ := hc.entry hs
  refine ⟨fun e he => ?_, fun e he => ?_⟩
  · rw [hx] at he
    cases he
    exact ⟨Nat.succ_pos _, x, rfl⟩
  · cases hnew : result.newlyLocked with
    | true =>
      obtain ⟨y, hy, -⟩ := hc.locks hnew
      rw [hy] at he
      cases he
      exact ⟨y, rfl⟩
    | false =>
      rw [hc.spares hnew] at he
      exact hs.lock e he

end Counts

/-- The attempt as a step: what it looked up, and what it did. -/
theorem Trial.Happens.tried (henabled : settings.enabled = true)
    (h : t.Happens control settings account) :
    ∃ m, t.LooksUp control account m ∧ (∀ m', t.LooksUp control account m' → m' = m) ∧
      Tried settings (.acct control account) m t.before t.after t.outcome := by
  obtain ⟨outcome, m, ho, hm, huniq, htried⟩ := attempt_exec henabled h
  obtain rfl := Except.ok.inj ho
  exact ⟨m, hm, huniq, htried⟩

theorem Sound.trial (hs : Sound (.acct control account) t.before.cur)
    (henabled : settings.enabled = true) (h : t.Happens control settings account)
    (ht : t.Timely control account) : Sound (.acct control account) t.after.cur := by
  obtain ⟨m, hm, -, htried⟩ := h.tried henabled
  generalize t.outcome = outcome at htried
  cases htried with
  | refused same => exact same ▸ hs
  | aborted passed same => exact same ▸ hs
  | succeeded passed counter lock => exact .of_absent counter lock
  | failed passed counted =>
    obtain ⟨n, result, -, -, -, hcounts⟩ := counted (ht.unlocked hm hs passed)
    exact hcounts.sound hs

/-! ## A run -/

theorem Sequence.of_append {pre rest : List Trial}
    (h : Sequence control settings account w (pre ++ rest)) :
    Sequence control settings account w pre := by
  induction pre generalizing w with
  | nil => trivial
  | cons t pre ih =>
    obtain ⟨hnow, hbefore, hhappens, hrest⟩ := h
    exact ⟨hnow, hbefore, hhappens, ih hrest⟩

theorem Sequence.split {pre rest : List Trial} (henabled : settings.enabled = true)
    (h : Sequence control settings account w (pre ++ rest))
    (hs : Sound (.acct control account) w.cur)
    (ht : ∀ t ∈ pre, t.Timely control account) :
    ∃ w', Sequence control settings account w' rest ∧ Sound (.acct control account) w'.cur := by
  induction pre generalizing w with
  | nil => exact ⟨w, h, hs⟩
  | cons t pre ih =>
    obtain ⟨-, hbefore, hhappens, hrest⟩ := h
    have hsbefore : Sound (.acct control account) t.before.cur := by
      rw [hbefore]
      exact hs
    exact ih hrest (hsbefore.trial henabled hhappens (ht t List.mem_cons_self))
      fun t' ht' => ht t' (List.mem_cons_of_mem _ ht')

/-- Every attempt of a timely run happens, from a sound state. -/
theorem Sequence.happens (henabled : settings.enabled = true)
    (h : Sequence control settings account w ts) (hs : Sound (.acct control account) w.cur)
    (ht : ∀ t ∈ ts, t.Timely control account) (hmem : t ∈ ts) :
    t.Happens control settings account ∧ Sound (.acct control account) t.before.cur := by
  obtain ⟨pre, rest, rfl⟩ := List.append_of_mem hmem
  obtain ⟨w', ⟨-, hbefore, hhappens, -⟩, hs'⟩ := h.split henabled hs fun t' ht' =>
    ht t' (List.mem_append_left _ ht')
  refine ⟨hhappens, ?_⟩
  rw [hbefore]
  exact hs'

/-- How many of the attempts failed. -/
def failures (ts : List Trial) : ℕ := ts.countP (·.outcome = .failed)

/-- **The budget**, from a counter that has counted `v` of the failures. The
induction is on the attempts before the last: as none of them locks, each
that fails finds the counter below the maximum. -/
theorem Sequence.budget {pre : List Trial} {last : Trial} {x v : ℕ}
    (henabled : settings.enabled = true)
    (h : Sequence control settings account w (pre ++ [last]))
    (hs : Sound (.acct control account) w.cur)
    (ht : ∀ t ∈ pre ++ [last], t.Timely control account)
    (hfails : ∀ t ∈ pre ++ [last], t.outcome ≠ .succeeded)
    (hlife : ∀ t ∈ pre ++ [last], t.outcome = .failed → ∃ c,
      t.after.cur (.counter (.acct control account)) = some ⟨c, some x⟩)
    (hopen : ∀ t ∈ pre, ¬ t.Locks control account)
    (hv : v < settings.account.maxAttempts)
    (hcount : v = 0 ∨ ∃ c, v ≤ c ∧
      w.cur (.counter (.acct control account)) = some ⟨c, some x⟩) :
    v + failures (pre ++ [last]) ≤ settings.account.maxAttempts := by
  induction pre generalizing w v with
  | nil =>
    have : failures ([] ++ [last]) ≤ 1 := List.countP_le_length
    omega
  | cons t pre ih =>
    rw [List.cons_append] at h ht hfails hlife ⊢
    have hhead : t ∈ t :: (pre ++ [last]) := List.mem_cons_self
    obtain ⟨-, hbefore, hhappens, hrest⟩ := h
    have hcur : t.before.cur = w.cur := by rw [hbefore]
    rw [← hcur] at hs hcount
    have hsafter := hs.trial henabled hhappens (ht t hhead)
    have hnext := fun v' => ih (v := v') hrest hsafter
      (fun t' ht' => ht t' (List.mem_cons_of_mem _ ht'))
      (fun t' ht' => hfails t' (List.mem_cons_of_mem _ ht'))
      (fun t' ht' => hlife t' (List.mem_cons_of_mem _ ht'))
      (fun t' ht' => hopen t' (List.mem_cons_of_mem _ ht'))
    obtain ⟨m, hm, -, htried⟩ := hhappens.tried henabled
    cases ho : t.outcome with
    | succeeded => exact absurd ho (hfails t hhead)
    | refused =>
      rw [ho] at htried
      cases htried with
      | refused same =>
        have := hnext v hv (same ▸ hcount)
        simp only [failures, List.countP_cons, ho] at this ⊢
        simpa using this
    | aborted =>
      rw [ho] at htried
      cases htried with
      | aborted passed same =>
        have := hnext v hv (same ▸ hcount)
        simp only [failures, List.countP_cons, ho] at this ⊢
        simpa using this
    | failed =>
      rw [ho] at htried
      cases htried with
      | failed passed counted =>
        obtain ⟨n, result, -, hrecord, -, hcounts⟩ := counted ((ht t hhead).unlocked hm hs passed)
        obtain ⟨y, hy, hlt, hbegun, hkept⟩ := hcounts.entry hs
        obtain ⟨c', hc'⟩ := hlife t hhead ho
        rw [hy] at hc'
        cases hc'
        -- the answer was not a lock, so there is room for this failure
        have hroom : t.before.cur.get n (.counter (.acct control account)) + 1 <
            settings.account.maxAttempts := by
          by_contra hmax
          have hnew : result.newlyLocked = true := by
            rw [hcounts.answer]
            exact decide_eq_true (by omega)
          exact hopen t List.mem_cons_self ⟨n, result, hrecord, hnew⟩
        -- it continues the counter: one begun now would expire later than `x`
        have hvalue : v ≤ t.before.cur.get n (.counter (.acct control account)) := by
          rcases hcount with rfl | ⟨c, hle, hc⟩
          · exact Nat.zero_le _
          cases hlive : t.before.cur.live n (.counter (.acct control account)) with
          | none =>
            have hdead : ¬ n < x := by
              intro hlt
              rw [Redis.live_eq_some.mpr ⟨hc, fun z hz => by
                cases hz
                exact hlt⟩] at hlive
              cases hlive
            exact absurd hlt hdead
          | some e =>
            have hentry := (Redis.live_eq_some.mp hlive).1
            rw [hc] at hentry
            cases hentry
            rw [Redis.get, hlive]
            exact hle
        have := hnext (v + 1) (by omega) (.inr ⟨_, by omega, hy⟩)
        simp only [failures, List.countP_cons, ho, decide_true, if_true] at this ⊢
        omega

/-- **The throttle is exact while its checks are timely.** In every run of
attempts against one account, none of whose checks falls into the last half
second of the account's lock: each failed attempt counts once, and locks
exactly when the count reaches the maximum; as long as nothing succeeds, one
counter admits at most the maximum of failures up to and including the first
that locks; and every attempt looks the lock up at one instant, and passes the
check only if it does not find it. -/
theorem throttle_exact (control : Control) (settings : ThrottleSettings) (account : ℕ)
    (w : RedisWorld) (ts : List Trial) (henabled : settings.enabled = true)
    (hsound : Sound (.acct control account) w.cur)
    (hrun : Sequence control settings account w ts)
    (htimely : ∀ t ∈ ts, t.Timely control account) :
    (∀ t ∈ ts, t.outcome = .failed → ∃ n result, t.Records control account n result ∧
      t.CountsOnce control account n ∧
      (result.newlyLocked = true ↔ settings.account.maxAttempts ≤
        t.after.cur.get n (.counter (.acct control account))) ∧
      (result.newlyLocked = true → ∃ x,
        t.after.cur (.lock (.acct control account)) = some ⟨1, some x⟩ ∧
        n + settings.account.lockoutSeconds * 1000 ≤ x)) ∧
    (∀ pre last x, pre ++ [last] <:+: ts → (∀ t ∈ pre ++ [last], t.outcome ≠ .succeeded) →
      (∀ t ∈ pre ++ [last], t.outcome = .failed → ∃ c,
        t.after.cur (.counter (.acct control account)) = some ⟨c, some x⟩) →
      (∀ t ∈ pre, ¬ t.Locks control account) →
      failures (pre ++ [last]) ≤ settings.account.maxAttempts) ∧
    (∀ t ∈ ts, (∃! m, t.LooksUp control account m) ∧ ∀ m e, t.LooksUp control account m →
      t.before.cur.live m (.lock (.acct control account)) = some e →
      t.outcome = .refused ∧ t.after.cur = t.before.cur) := by
  refine ⟨fun t hmem hfailed => ?_, fun pre last x hin hfails hlife hopen => ?_,
    fun t hmem => ?_⟩
  · obtain ⟨hhappens, hs⟩ := hrun.happens henabled hsound htimely hmem
    obtain ⟨m, hm, -, htried⟩ := hhappens.tried henabled
    rw [hfailed] at htried
    cases htried with
    | failed passed counted =>
      obtain ⟨n, result, -, hrecord, -, hcounts⟩ :=
        counted ((htimely t hmem).unlocked hm hs passed)
      have hget := hcounts.get hs
      refine ⟨n, result, hrecord, hget, ?_, hcounts.locks⟩
      rw [hget, hcounts.answer, decide_eq_true_eq]
  · obtain ⟨a, b, rfl⟩ := hin
    rw [List.append_assoc] at hrun
    obtain ⟨w₁, hstretch, hs₁⟩ := hrun.split henabled hsound fun t ht =>
      htimely t (List.mem_append_left _ (List.mem_append_left _ ht))
    have := Sequence.budget (v := 0) (x := x) henabled
      (Sequence.of_append hstretch) hs₁
      (fun t ht => htimely t (List.mem_append_left _ (List.mem_append_right _ ht)))
      hfails hlife hopen settings.account.attempts_pos (.inl rfl)
    omega
  · obtain ⟨hhappens, hs⟩ := hrun.happens henabled hsound htimely hmem
    obtain ⟨m', hm', huniq, htried⟩ := hhappens.tried henabled
    refine ⟨⟨m', hm', huniq⟩, fun m e hm hlive => ?_⟩
    obtain rfl := huniq m hm
    have hseen : ¬ t.before.cur.ttl m (.lock (.acct control account)) ≤ 0 := by
      intro hpassed
      rw [(htimely t hmem).unlocked hm hs hpassed] at hlive
      cases hlive
    cases ho : t.outcome <;> rw [ho] at htried <;> cases htried
    · rename_i same
      exact ⟨rfl, same⟩
    all_goals exact absurd ‹_› hseen

/-! ## Concrete runs -/

variable (control settings account)

/-- An attempt to make: how long after the one before it, where from, and how
good. -/
structure Guess where
  delay : ℕ
  pair : ℕ
  ip : String
  verdict : Option Bool

/-- The guesses made one after another, each in an instant. -/
def trials (w : RedisWorld) : List Guess → List Trial
  | [] => []
  | g :: rest =>
      let before := { w with now := w.now + g.delay }
      let done := (attempt control settings ⟨account, g.pair, g.ip⟩ g.verdict).run before
      match done.1 with
      | .ok outcome =>
          ⟨g.pair, g.ip, g.verdict, before, outcome, done.2⟩ :: trials done.2 rest
      | .error x => nomatch x

theorem sequence_trials (w : RedisWorld) (gs : List Guess) :
    Sequence control settings account w (trials control settings account w gs) := by
  induction gs generalizing w with
  | nil => trivial
  | cons g rest ih =>
    have hrun := exec_run (attempt control settings ⟨account, g.pair, g.ip⟩ g.verdict)
      { w with now := w.now + g.delay }
    unfold trials
    dsimp only
    split
    · rename_i outcome hok
      rw [hok] at hrun
      exact ⟨Nat.le_add_right _ _, rfl, hrun, ih _⟩
    · rename_i x _
      cases x

/-- `Trial.Timely`, computed. -/
def Trial.timely (t : Trial) : Bool :=
  (news t.before t.after).all fun
    | .lookedUp key m => key ≠ .acct control account ||
        ((t.before.cur.live m (.lock (.acct control account))).bind (·.expiresAt)).all
          fun x => m + 500 ≤ x
    | .recorded _ _ _ => true

variable {control settings account}

theorem Trial.timely_iff : t.timely control account = true → t.Timely control account := by
  intro h m e x hm hlive hx
  have := List.all_eq_true.mp h _ hm
  simpa [hlive, hx] using this

/-- Ten wrong passwords for one account, each from another place. -/
def tenWrong : List Guess := (List.range 10).map fun i => ⟨0, i, "", some false⟩

/-- A new Redis. -/
def newRedis : RedisWorld := ⟨.empty, .empty, 0, 0, []⟩

/-- Ten wrong passwords lock the account; 899.5 s later, half a second before the
lock expires, the right one is refused. -/
theorem throttle_exact_locked :
    let ts := trials .login .loginDefault 1 newRedis
      (tenWrong ++ [⟨899500000, 11, "", some true⟩])
    (∀ t ∈ ts, (∃! m, t.LooksUp .login 1 m) ∧ ∀ m e, t.LooksUp .login 1 m →
      t.before.cur.live m (.lock (.acct .login 1)) = some e →
      t.outcome = .refused ∧ t.after.cur = t.before.cur) ∧
    ts.map (·.outcome) = List.replicate 10 .failed ++ [.refused] := by
  refine ⟨?_, by decide⟩
  have htimely : ∀ t ∈ trials .login .loginDefault 1 newRedis
      (tenWrong ++ [⟨899500000, 11, "", some true⟩]), t.timely .login 1 = true := by
    decide
  exact (throttle_exact .login .loginDefault 1 newRedis _ rfl (.of_absent rfl rfl)
    (sequence_trials _ _ _ _ _) fun t ht => Trial.timely_iff (htimely t ht)).2.2

/-- A tenth of a second later the check lets another wrong password pass, the
lock being there, and the script does not count it. -/
theorem throttle_not_exact :
    let ts := trials .login .loginDefault 1 newRedis
      (tenWrong ++ [⟨899600000, 11, "", some false⟩])
    Sequence .login .loginDefault 1 newRedis ts ∧
    ∃ t ∈ ts, t.LooksUp .login 1 899600 ∧
      t.before.cur.live 899600 (.lock (.acct .login 1)) = some ⟨1, some 900000⟩ ∧
      t.outcome = .failed ∧ t.Records .login 1 899600 ⟨true, false, 10⟩ ∧
      ¬ t.CountsOnce .login 1 899600 := by
  refine ⟨sequence_trials _ _ _ _ _, ?_⟩
  decide

end OmniAuth
