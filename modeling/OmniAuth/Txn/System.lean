import OmniAuth.Txn.Prog
import Mathlib.Logic.Function.Basic
import Mathlib.Data.Fintype.Basic

/-!
# Many programs on one store

The programs of `Txn.Prog` again, now interleaved statement by statement.
Every process has a connection of its own. A plain read goes to the
snapshot its transaction took at its first read, with its own pending
changes laid over it; a statement acts on the latest committed state, again
with its own pending changes, and its row locks keep every other process
from touching those rows until the transaction ends.

What a process does next is a `Label`. `Prog.Act` says which labels a
program offers, knowing nothing of the store; `Sys.Enabled` says which of
them the store grants. The two together are a step.
-/

namespace Txn

/-- A connection: the snapshot of its open transaction, the changes not yet
committed, and the locks held until they are. -/
structure Conn (S : Sig) where
  snap : Option S.State
  pend : S.State → S.State
  held : List S.Lock

/-- A connection with no transaction open. -/
def Conn.idle (S : Sig) : Conn S := ⟨none, id, []⟩

/-- One step of one process, as seen from outside. The last four are
failures: a statement that fails and leaves its transaction open, a commit
that stores nothing, a commit that stores everything and whose answer is
lost, and a process that dies. -/
inductive Label (S : Sig) : Type
  | read (view : S.State)
  | wrote (stmt : S.Stmt) (seen : S.State) (eff : Effect S.State S.Lock)
  | refused (stmt : S.Stmt) (seen : S.State) (x : S.Exn)
  | committed
  | rolledBack
  | ticked (t : ℕ)
  | drew (n : ℕ)
  | emitted (e : S.Event)
  | faulted (x : S.Exn)
  | commitFailed (x : S.Exn)
  | commitLost (x : S.Exn)
  | crashed (x : S.Exn)

/-- The failures. -/
def Label.Failure {S : Sig} : Label S → Prop
  | faulted _ | commitFailed _ | commitLost _ | crashed _ => True
  | _ => False

namespace Prog

variable {S : Sig} {α : Type}

/-- What a program offers to do next, and what is left of it then. Failures
are offered only when `F` says that things may fail. -/
inductive Act (F : Prop) : Prog S α → Label S → Prog S α → Prop
  | select {k h} (v : S.State) : Act F (select k h) (.read v) (k v)
  | exec {stmt k h} (seen : S.State) (eff : Effect S.State S.Lock) :
      Act F (exec stmt k h) (.wrote stmt seen eff) (k seen)
  | refused {stmt k h} (seen : S.State) (x : S.Exn) :
      Act F (exec stmt k h) (.refused stmt seen x) (h x)
  | commit {k h} : Act F (commit k h) .committed k
  | rollback {k} : Act F (rollback k) .rolledBack k
  | clock {k} (t : ℕ) : Act F (clock k) (.ticked t) (k t)
  | fresh {k} (n : ℕ) : Act F (fresh k) (.drew n) (k n)
  | emit {e k} : Act F (emit e k) (.emitted e) k
  | faultSelect {k h} (hF : F) (x : S.Exn) : Act F (select k h) (.faulted x) (h x)
  | faultExec {stmt k h} (hF : F) (x : S.Exn) : Act F (exec stmt k h) (.faulted x) (h x)
  | commitFailed {k h} (hF : F) (x : S.Exn) : Act F (commit k h) (.commitFailed x) (h x)
  | commitLost {k h} (hF : F) (x : S.Exn) : Act F (commit k h) (.commitLost x) (h x)
  | crash {p} (hF : F) (x : S.Exn) : Act F p (.crashed x) (raise x)

/-- Where nothing fails, no failure is offered. -/
theorem Act.noFailure {p p' : Prog S α} {ℓ : Label S} (h : p.Act False ℓ p') : ¬ ℓ.Failure := by
  cases h <;> first | exact id | exact fun _ => by assumption

/-- What is offered where nothing fails is offered where things may fail. -/
theorem Act.mono {F F' : Prop} {p p' : Prog S α} {ℓ : Label S} (h : p.Act F ℓ p')
    (hF : F → F') : p.Act F' ℓ p' := by
  cases h with
  | select v => exact .select v
  | exec seen eff => exact .exec seen eff
  | refused seen x => exact .refused seen x
  | commit => exact .commit
  | rollback => exact .rollback
  | clock t => exact .clock t
  | fresh n => exact .fresh n
  | emit => exact .emit
  | faultSelect h x => exact .faultSelect (hF h) x
  | faultExec h x => exact .faultExec (hF h) x
  | commitFailed h x => exact .commitFailed (hF h) x
  | commitLost h x => exact .commitLost (hF h) x
  | crash h x => exact .crash (hF h) x

/-- The reply of a program that has ended. -/
def reply? : Prog S α → Option (Except S.Exn α)
  | ret a => some (.ok a)
  | raise x => some (.error x)
  | _ => none

/-- A step is taken by a program that has not ended, unless its process dies. -/
theorem Act.unended {F : Prop} {p p' : Prog S α} {ℓ : Label S} (h : p.Act F ℓ p') :
    (∃ x, ℓ = .crashed x) ∨ p.reply? = none := by
  cases h with
  | crash hF x => exact .inl ⟨x, rfl⟩
  | _ => exact .inr rfl

end Prog

/-- Processes `ι` at one store: the committed state, the clock, the supply of
fresh identifiers, the common history, and for each process whether it has
begun, its connection, and what is left of its program. -/
structure Sys (S : Sig) (ι α : Type) where
  db : S.State
  now : ℕ
  next : ℕ
  log : List (ι × S.Event)
  begun : ι → Bool
  conn : ι → Conn S
  proc : ι → Prog S α

namespace Sys

variable {S : Sig} {ι α : Type} [DecidableEq ι]

/-- All processes are about to start. -/
def start (db : S.State) (now next : ℕ) (proc : ι → Prog S α) : Sys S ι α :=
  ⟨db, now, next, [], fun _ => false, fun _ => Conn.idle S, proc⟩

/-- The process has made a step and has not ended. -/
def InFlight (s : Sys S ι α) (i : ι) : Prop := s.begun i = true ∧ (s.proc i).reply? = none

/-- What a plain read of process `i` sees. -/
def view (s : Sys S ι α) (i : ι) : S.State := (s.conn i).pend ((s.conn i).snap.getD s.db)

/-- What a statement of process `i` acts on. -/
def latest (s : Sys S ι α) (i : ι) : S.State := (s.conn i).pend s.db

/-- The store grants `i` the step `ℓ`. -/
def Enabled (s : Sys S ι α) (i : ι) : Label S → Prop
  | .read v => v = s.view i
  | .wrote stmt seen eff => seen = s.latest i ∧ S.denote stmt seen = .ok eff ∧
      ∀ l ∈ eff.locks, ∀ j, j ≠ i → l ∉ (s.conn j).held
  | .refused stmt seen x => seen = s.latest i ∧ S.denote stmt seen = .error x
  | .ticked t => s.now ≤ t
  | .drew n => n = s.next
  | _ => True

/-- The connection of a process after its step. -/
def connAfter (s : Sys S ι α) (i : ι) : Label S → Conn S
  | .read _ => { s.conn i with snap := some ((s.conn i).snap.getD s.db) }
  | .wrote _ _ eff =>
      { s.conn i with pend := eff.delta ∘ (s.conn i).pend, held := eff.locks ++ (s.conn i).held }
  | .committed | .rolledBack | .commitFailed _ | .commitLost _ | .crashed _ => Conn.idle S
  | _ => s.conn i

/-- The committed state after a step. -/
def dbAfter (s : Sys S ι α) (i : ι) : Label S → S.State
  | .committed | .commitLost _ => s.latest i
  | _ => s.db

/-- The system after process `i` made the step `ℓ` and became `p`. -/
def after (s : Sys S ι α) (i : ι) (ℓ : Label S) (p : Prog S α) : Sys S ι α where
  db := s.dbAfter i ℓ
  now := match ℓ with
    | .ticked t => t
    | _ => s.now
  next := match ℓ with
    | .drew n => n + 1
    | _ => s.next
  log := match ℓ with
    | .emitted e => s.log ++ [(i, e)]
    | _ => s.log
  begun := Function.update s.begun i true
  conn := Function.update s.conn i (s.connAfter i ℓ)
  proc := Function.update s.proc i p

/-- One step of the system. -/
def Step (F : Prop) (s : Sys S ι α) (i : ι) (ℓ : Label S) (s' : Sys S ι α) : Prop :=
  ∃ p, (s.proc i).Act F ℓ p ∧ s.Enabled i ℓ ∧ s' = s.after i ℓ p

/-- A run all of whose steps meet `ok`, a condition on the state before the
step and on the step. -/
inductive Run (F : Prop) (ok : Sys S ι α → ι → Label S → Prop) (s : Sys S ι α) :
    Sys S ι α → Prop
  | refl : Run F ok s s
  | tail {s₁ s₂ i ℓ} : Run F ok s s₁ → ok s₁ i ℓ → s₁.Step F i ℓ s₂ → Run F ok s s₂

theorem Run.trans {F : Prop} {ok : Sys S ι α → ι → Label S → Prop} {s s₁ s₂ : Sys S ι α}
    (h₁ : Run F ok s s₁) (h₂ : Run F ok s₁ s₂) : Run F ok s s₂ := by
  induction h₂ with
  | refl => exact h₁
  | tail _ hok hstep ih => exact .tail ih hok hstep

theorem Run.mono {F : Prop} {ok ok' : Sys S ι α → ι → Label S → Prop} {s s' : Sys S ι α}
    (h : Run F ok s s') (himp : ∀ s i ℓ, ok s i ℓ → ok' s i ℓ) : Run F ok' s s' := by
  induction h with
  | refl => exact .refl
  | tail _ hok hstep ih => exact .tail ih (himp _ _ _ hok) hstep

/-- A run in which nothing fails is a run in which things may. -/
theorem Run.mayFail {F : Prop} {ok : Sys S ι α → ι → Label S → Prop} {s s' : Sys S ι α}
    (h : Run False ok s s') : Run F ok s s' := by
  induction h with
  | refl => exact .refl
  | tail _ hok hstep ih =>
    obtain ⟨p, hact, hen⟩ := hstep
    exact .tail ih hok ⟨p, hact.mono False.elim, hen⟩

theorem Run.noFailure {ok : Sys S ι α → ι → Label S → Prop} {s s' : Sys S ι α}
    (h : Run False ok s s') : Run False (fun s i ℓ => ok s i ℓ ∧ ¬ ℓ.Failure) s s' := by
  induction h with
  | refl => exact .refl
  | tail _ hok hstep ih =>
    obtain ⟨p, hact, hen⟩ := hstep
    exact .tail ih ⟨hok, hact.noFailure⟩ ⟨p, hact, hen⟩

/-! ## What a step leaves alone -/

@[simp] theorem after_conn_self (s : Sys S ι α) (i : ι) (ℓ : Label S) (p : Prog S α) :
    (s.after i ℓ p).conn i = s.connAfter i ℓ := by simp [after]

theorem after_conn_of_ne (s : Sys S ι α) {i j : ι} (ℓ : Label S) (p : Prog S α) (h : j ≠ i) :
    (s.after i ℓ p).conn j = s.conn j := by simp [after, h]

@[simp] theorem after_proc_self (s : Sys S ι α) (i : ι) (ℓ : Label S) (p : Prog S α) :
    (s.after i ℓ p).proc i = p := by simp [after]

theorem after_proc_of_ne (s : Sys S ι α) {i j : ι} (ℓ : Label S) (p : Prog S α) (h : j ≠ i) :
    (s.after i ℓ p).proc j = s.proc j := by simp [after, h]

@[simp] theorem after_begun_self (s : Sys S ι α) (i : ι) (ℓ : Label S) (p : Prog S α) :
    (s.after i ℓ p).begun i = true := by simp [after]

theorem after_begun_of_ne (s : Sys S ι α) {i j : ι} (ℓ : Label S) (p : Prog S α) (h : j ≠ i) :
    (s.after i ℓ p).begun j = s.begun j := by simp [after, h]

@[simp] theorem after_db (s : Sys S ι α) (i : ι) (ℓ : Label S) (p : Prog S α) :
    (s.after i ℓ p).db = s.dbAfter i ℓ := rfl

/-- What holds of each connection and of what is kept beside it, after a step of one. -/
theorem forall_after {Q : Type} {P : Conn S → Q → Prop} {s : Sys S ι α} {g : ι → Q} {i : ι}
    {ℓ : Label S} {p : Prog S α} {q : Q} (hself : P (s.connAfter i ℓ) q)
    (hother : ∀ j, j ≠ i → P (s.conn j) (g j)) (j : ι) :
    P ((s.after i ℓ p).conn j) (Function.update g i q j) := by
  by_cases hj : j = i
  · subst hj
    rwa [after_conn_self, Function.update_self]
  · rw [after_conn_of_ne _ _ _ hj, Function.update_of_ne hj]
    exact hother j hj

theorem mem_log_after {s : Sys S ι α} {i j : ι} {ℓ : Label S} {p : Prog S α}
    {e : S.Event} (h : (j, e) ∈ (s.after i ℓ p).log) :
    (j, e) ∈ s.log ∨ j = i ∧ ℓ = .emitted e := by
  cases ℓ with
  | emitted e' =>
    rcases List.mem_append.mp h with h | h
    · exact .inl h
    · obtain ⟨rfl, rfl⟩ := Prod.mk.inj (List.mem_singleton.mp h)
      exact .inr ⟨rfl, rfl⟩
  | _ => exact .inl h

/-- No two processes hold the same lock. -/
def Exclusive (s : Sys S ι α) : Prop :=
  ∀ i j, i ≠ j → ∀ l ∈ (s.conn i).held, l ∉ (s.conn j).held

omit [DecidableEq ι] in
theorem exclusive_start (db : S.State) (now next : ℕ) (proc : ι → Prog S α) :
    (start db now next proc).Exclusive := by
  intro i j _ l hl
  simp [start, Conn.idle] at hl

omit [DecidableEq ι] in
/-- The locks a process holds after its step are those it held or those the
store just granted it. -/
theorem mem_held_after {s : Sys S ι α} {i : ι} {ℓ : Label S} {l : S.Lock}
    (hen : s.Enabled i ℓ) (hl : l ∈ (s.connAfter i ℓ).held) :
    l ∈ (s.conn i).held ∨ ∀ j, j ≠ i → l ∉ (s.conn j).held := by
  cases ℓ with
  | wrote stmt seen eff =>
    rcases List.mem_append.mp hl with h | h
    · exact .inr (hen.2.2 l h)
    · exact .inl h
  | committed => simp [connAfter, Conn.idle] at hl
  | rolledBack => simp [connAfter, Conn.idle] at hl
  | commitFailed x => simp [connAfter, Conn.idle] at hl
  | commitLost x => simp [connAfter, Conn.idle] at hl
  | crashed x => simp [connAfter, Conn.idle] at hl
  | _ => exact .inl hl

/-- **Locks exclude each other** after every step. -/
theorem Exclusive.after {s : Sys S ι α} (hx : s.Exclusive) {i : ι} {ℓ : Label S}
    (hen : s.Enabled i ℓ) (p : Prog S α) : (s.after i ℓ p).Exclusive := by
  -- a lock of the moving process was its own before, or was free
  have key : ∀ j, j ≠ i → ∀ l ∈ (s.connAfter i ℓ).held, l ∉ (s.conn j).held := by
    intro j hj l hl
    rcases mem_held_after hen hl with h | h
    · exact hx i j hj.symm l h
    · exact h j hj
  intro a b hab l hl
  by_cases ha : a = i
  · subst ha
    rw [after_conn_self] at hl
    rw [after_conn_of_ne _ _ _ hab.symm]
    exact key b hab.symm l hl
  · rw [after_conn_of_ne _ _ _ ha] at hl
    by_cases hb : b = i
    · subst hb
      rw [after_conn_self]
      exact fun h => key a ha l h hl
    · rw [after_conn_of_ne _ _ _ hb]
      exact hx a b hab l hl

theorem Exclusive.run {F : Prop} {ok : Sys S ι α → ι → Label S → Prop} {s s' : Sys S ι α}
    (hx : s.Exclusive) (h : Run F ok s s') : s'.Exclusive := by
  induction h with
  | refl => exact hx
  | tail _ _ hstep ih =>
    obtain ⟨p, _, hen, rfl⟩ := hstep
    exact ih.after hen p

/-- A process that has made no step is as it was at the start. -/
theorem Run.unbegun {F : Prop} {ok : Sys S ι α → ι → Label S → Prop} {db : S.State}
    {now next : ℕ} {proc : ι → Prog S α} {s : Sys S ι α} (h : Run F ok (start db now next proc) s)
    {i : ι} (hi : s.begun i = false) : s.conn i = Conn.idle S ∧ s.proc i = proc i := by
  induction h with
  | refl => exact ⟨rfl, rfl⟩
  | @tail s₁ s₂ j ℓ _ _ hstep ih =>
    obtain ⟨p, _, _, rfl⟩ := hstep
    by_cases hj : i = j
    · subst hj
      rw [after_begun_self] at hi
      cases hi
    · rw [after_begun_of_ne _ _ _ hj] at hi
      rw [after_conn_of_ne _ _ _ hj, after_proc_of_ne _ _ _ hj]
      exact ih hi

/-- No step of a run is one of a process that has not begun at its end. -/
theorem Run.without {F : Prop} {ok : Sys S ι α → ι → Label S → Prop} {s s' : Sys S ι α}
    (h : Run F ok s s') {i : ι} (hi : s'.begun i = false) :
    Run F (fun s j ℓ => ok s j ℓ ∧ j ≠ i) s s' := by
  induction h with
  | refl => exact .refl
  | @tail s₁ s₂ j ℓ _ hok hstep ih =>
    obtain ⟨p, _, _, rfl⟩ := id hstep
    have hj : j ≠ i := by
      rintro rfl
      rw [after_begun_self] at hi
      cases hi
    rw [after_begun_of_ne _ _ _ hj.symm] at hi
    exact .tail (ih hi) ⟨hok, hj⟩ hstep

/-- A process that has begun has begun for good. -/
theorem Run.begun {F : Prop} {ok : Sys S ι α → ι → Label S → Prop} {s s' : Sys S ι α}
    (h : Run F ok s s') {i : ι} (hi : s.begun i = true) : s'.begun i = true := by
  induction h with
  | refl => exact hi
  | @tail s₁ s₂ j ℓ _ _ hstep ih =>
    obtain ⟨p, _, _, rfl⟩ := hstep
    by_cases hj : i = j
    · subst hj
      exact after_begun_self ..
    · rw [after_begun_of_ne _ _ _ hj]
      exact ih

/-! ## A scheduler

For runs on given inputs: `go` lets one process make its next step, with no
failures and a clock that stands still, and `follow` plays a schedule; both
stop short of a step that is not `ok`. -/

/-- The step a process makes next, when nothing fails. -/
def nextStep (s : Sys S ι α) (i : ι) : Option (Label S × Prog S α) :=
  match s.proc i with
  | .ret _ | .raise _ => none
  | .select k _ => some (.read (s.view i), k (s.view i))
  | .exec stmt k h =>
      match S.denote stmt (s.latest i) with
      | .ok eff => some (.wrote stmt (s.latest i) eff, k (s.latest i))
      | .error x => some (.refused stmt (s.latest i) x, h x)
  | .commit k _ => some (.committed, k)
  | .rollback k => some (.rolledBack, k)
  | .clock k => some (.ticked s.now, k s.now)
  | .fresh k => some (.drew s.next, k s.next)
  | .emit e k => some (.emitted e, k)

variable [Fintype ι] [DecidableEq S.Lock] (ok : Sys S ι α → ι → Label S → Prop)
  [∀ s i ℓ, Decidable (ok s i ℓ)]

/-- The locks a step asks for are not held by anybody else. -/
def granted (s : Sys S ι α) (i : ι) : Label S → Bool
  | .wrote _ _ eff => decide (∀ l ∈ eff.locks, ∀ j, j ≠ i → l ∉ (s.conn j).held)
  | _ => true

def go (s : Sys S ι α) (i : ι) : Option (Sys S ι α) :=
  match s.nextStep i with
  | some (ℓ, p) => if s.granted i ℓ ∧ ok s i ℓ then some (s.after i ℓ p) else none
  | none => none

def follow (s : Sys S ι α) : List ι → Option (Sys S ι α)
  | [] => some s
  | i :: is => (s.go ok i).bind (fun s' => s'.follow is)

/-- The step a process makes next, when its call to the store fails. -/
def failStep (s : Sys S ι α) (i : ι) (x : S.Exn) : Option (Label S × Prog S α) :=
  match s.proc i with
  | .select _ h | .exec _ _ h => some (.faulted x, h x)
  | .commit _ h => some (.commitFailed x, h x)
  | _ => none

def fail (s : Sys S ι α) (i : ι) (x : S.Exn) : Option (Sys S ι α) :=
  (s.failStep i x).map fun step => s.after i step.1 step.2

omit [Fintype ι] [DecidableEq S.Lock] in
theorem step_of_fail {s s' : Sys S ι α} {i : ι} {x : S.Exn} (h : s.fail i x = some s') :
    ∃ ℓ, ℓ.Failure ∧ s.Step True i ℓ s' := by
  obtain ⟨⟨ℓ, p⟩, hstep, rfl⟩ := Option.map_eq_some_iff.mp h
  have hact : ℓ.Failure ∧ (s.proc i).Act True ℓ p ∧ s.Enabled i ℓ := by
    unfold failStep at hstep
    split at hstep
    case h_4 => cases hstep
    all_goals
      rename_i heq
      obtain ⟨rfl, rfl⟩ := Prod.mk.inj (Option.some.inj hstep)
      rw [heq]
      exact ⟨trivial, by constructor; trivial, trivial⟩
  exact ⟨ℓ, hact.1, p, hact.2.1, hact.2.2, rfl⟩

omit [DecidableEq ι] [Fintype ι] [DecidableEq S.Lock] in
theorem nextStep_act {s : Sys S ι α} {i : ι} {ℓ : Label S} {p : Prog S α}
    (h : s.nextStep i = some (ℓ, p)) : (s.proc i).Act False ℓ p := by
  unfold nextStep at h
  split at h
  case h_1 => cases h
  case h_2 => cases h
  case h_4 stmt k hd heq =>
    rw [heq]
    split at h <;> (obtain ⟨rfl, rfl⟩ := Prod.mk.inj (Option.some.inj h))
    · exact .exec _ _
    · exact .refused _ _
  all_goals
    rename_i heq
    rw [heq]
    obtain ⟨rfl, rfl⟩ := Prod.mk.inj (Option.some.inj h)
    constructor

theorem nextStep_enabled {s : Sys S ι α} {i : ι} {ℓ : Label S} {p : Prog S α}
    (h : s.nextStep i = some (ℓ, p)) (hg : s.granted i ℓ = true) : s.Enabled i ℓ := by
  unfold nextStep at h
  split at h
  case h_1 => cases h
  case h_2 => cases h
  case h_4 stmt k hd heq =>
    split at h <;> rename_i hden <;> (obtain ⟨rfl, rfl⟩ := Prod.mk.inj (Option.some.inj h))
    · exact ⟨rfl, hden, of_decide_eq_true hg⟩
    · exact ⟨rfl, hden⟩
  all_goals
    obtain ⟨rfl, rfl⟩ := Prod.mk.inj (Option.some.inj h)
    simp [Enabled]

theorem step_of_go {s s' : Sys S ι α} {i : ι} (h : s.go ok i = some s') :
    ∃ ℓ, ok s i ℓ ∧ s.Step False i ℓ s' := by
  simp only [go] at h
  split at h
  · rename_i ℓ p hn
    split at h
    · rename_i hg
      obtain rfl := Option.some.inj h
      exact ⟨ℓ, hg.2, p, nextStep_act hn, nextStep_enabled hn hg.1, rfl⟩
    · cases h
  · cases h

/-- **A schedule that plays is a run.** -/
theorem run_of_follow {s s' : Sys S ι α} {is : List ι} (h : s.follow ok is = some s') :
    Run False ok s s' := by
  induction is generalizing s with
  | nil =>
    obtain rfl := Option.some.inj h
    exact .refl
  | cons i is ih =>
    simp only [follow, Option.bind_eq_some_iff] at h
    obtain ⟨s₁, h₁, h₂⟩ := h
    obtain ⟨ℓ, hok, hstep⟩ := step_of_go ok h₁
    exact (Run.tail .refl hok hstep).trans (ih h₂)

end Sys

end Txn
