import Mathlib.Data.List.Basic
import Mathlib.Order.Basic

/-!
# Programs over a transactional store

A request handler talks to its database one statement at a time: it reads,
it writes, it commits or rolls back, and between two statements anybody
else may do the same. `Prog` is the syntax of such handlers. The
statements a program may issue, and what each does to the stored state,
are the parameters of a `Sig`; everything here is generic in it.

This file holds the syntax, the monad, and the meaning of a program that
runs **alone**, from its first statement to its end. `Txn.System` gives the
same programs their meaning when many of them interleave.
-/

namespace Txn

/-- What a statement does once it is let through: the rows it locks until
its transaction ends, and the change it makes to them. -/
structure Effect (σ κ : Type) where
  locks : List κ
  delta : σ → σ

/-- The store a program runs against: its states, the names of its row
locks, its statements with their meaning, and the events and exceptions of
the programs. A statement is *denied* (a constraint fails) or has an
effect, decided on the state it is executed in. -/
structure Sig where
  State : Type
  Lock : Type
  Stmt : Type
  Event : Type
  Exn : Type
  denote : Stmt → State → Except Exn (Effect State Lock)

/-- A program. `select` is a plain read, `exec` a statement that acts on the
latest state (its continuation sees the state the statement was executed
in), `clock` a reading of the clock, `fresh` an identifier never drawn
before, `emit` an entry of the history. The last argument of `select`,
`exec` and `commit` is where the program continues when the call fails. -/
inductive Prog (S : Sig) (α : Type) : Type
  | ret (a : α)
  | raise (x : S.Exn)
  | select (k : S.State → Prog S α) (h : S.Exn → Prog S α)
  | exec (stmt : S.Stmt) (k : S.State → Prog S α) (h : S.Exn → Prog S α)
  | commit (k : Prog S α) (h : S.Exn → Prog S α)
  | rollback (k : Prog S α)
  | clock (k : ℕ → Prog S α)
  | fresh (k : ℕ → Prog S α)
  | emit (e : S.Event) (k : Prog S α)

namespace Prog

variable {S : Sig} {α β γ : Type}

/-! ## The monad

Sequencing and catching are two uses of one operation, which continues a
program at its reply, whether it returned or raised. Both continuations of a
node are extended, so an exception raised under a handler is still caught
by it. -/

/-- Continue `p` at its reply. -/
def handle : Prog S α → (Except S.Exn α → Prog S β) → Prog S β
  | ret a, f => f (.ok a)
  | raise x, f => f (.error x)
  | select k h, f => select (fun s => (k s).handle f) (fun x => (h x).handle f)
  | exec stmt k h, f => exec stmt (fun s => (k s).handle f) (fun x => (h x).handle f)
  | commit k h, f => commit (k.handle f) (fun x => (h x).handle f)
  | rollback k, f => rollback (k.handle f)
  | clock k, f => clock (fun t => (k t).handle f)
  | fresh k, f => fresh (fun n => (k n).handle f)
  | emit e k, f => emit e (k.handle f)

protected def bind (p : Prog S α) (f : α → Prog S β) : Prog S β :=
  p.handle fun
    | .ok a => f a
    | .error x => raise x

/-- `p.orElse h` is `try p except x: h x`. -/
protected def orElse (p : Prog S α) (f : S.Exn → Prog S α) : Prog S α :=
  p.handle fun
    | .ok a => ret a
    | .error x => f x

instance : Monad (Prog S) where
  pure := ret
  bind := Prog.bind

@[simp] theorem pure_eq (a : α) : (pure a : Prog S α) = ret a := rfl

@[simp] theorem bind_eq (p : Prog S α) (f : α → Prog S β) : p >>= f = p.bind f := rfl

@[simp] theorem map_eq (f : α → β) (p : Prog S α) : f <$> p = p.bind (fun a => ret (f a)) := rfl

@[simp] theorem ret_bind (a : α) (f : α → Prog S β) : (ret a).bind f = f a := rfl

@[simp] theorem raise_bind (x : S.Exn) (f : α → Prog S β) : (raise x).bind f = raise x := rfl

theorem handle_handle (p : Prog S α) (f : Except S.Exn α → Prog S β)
    (g : Except S.Exn β → Prog S γ) :
    (p.handle f).handle g = p.handle fun r => (f r).handle g := by
  induction p with
  | ret a => rfl
  | raise x => rfl
  | select k h ihk ihh => simp only [handle, ihk, ihh]
  | exec stmt k h ihk ihh => simp only [handle, ihk, ihh]
  | commit k h ihk ihh => simp only [handle, ihk, ihh]
  | rollback k ih => simp only [handle, ih]
  | clock k ih => simp only [handle, ih]
  | fresh k ih => simp only [handle, ih]
  | emit e k ih => simp only [handle, ih]

theorem bind_bind (p : Prog S α) (f : α → Prog S β) (g : β → Prog S γ) :
    (p.bind f).bind g = p.bind fun a => (f a).bind g := by
  simp only [Prog.bind, handle_handle]
  congr 1
  funext r
  cases r <;> rfl

/-- A plain read of `q`. -/
def query (q : S.State → β) : Prog S β := select (fun s => ret (q s)) raise

/-- Execute a statement; the result is computed from the state it acted on. -/
def returning (stmt : S.Stmt) (q : S.State → β) : Prog S β :=
  exec stmt (fun s => ret (q s)) raise

/-- Execute a statement for its effect. -/
def execute (stmt : S.Stmt) : Prog S Unit := returning stmt (fun _ => ())

def commitNow : Prog S Unit := commit (ret ()) raise

def rollbackNow : Prog S Unit := rollback (ret ())

/-- Read the clock. -/
def time : Prog S ℕ := clock ret

/-- Draw an identifier nobody drew before. -/
def draw : Prog S ℕ := fresh ret

def note (e : S.Event) : Prog S Unit := emit e (ret ())

/-- The session is closed when the handler ends, however it ends: what was
not committed is rolled back. -/
def close (p : Prog S α) : Prog S α :=
  p.handle fun
    | .ok a => rollback (ret a)
    | .error x => rollback (raise x)

/-! ## Running alone -/

end Prog

/-- The world of a program that runs alone: the committed state, the state
its open transaction sees, the clock, the next fresh identifier, and the
history. -/
structure World (S : Sig) where
  base : S.State
  cur : S.State
  now : ℕ
  next : ℕ
  log : List S.Event

namespace Prog

variable {S : Sig} {α β γ : Type}

/-- `Exec p w r w'`: run alone from `w`, the program `p` can end with `r` in
`w'`. The clock may advance at every reading, and never goes back. -/
def Exec : Prog S α → World S → Except S.Exn α → World S → Prop
  | ret a, w, r, w' => r = .ok a ∧ w' = w
  | raise x, w, r, w' => r = .error x ∧ w' = w
  | select k _, w, r, w' => (k w.cur).Exec w r w'
  | exec stmt k h, w, r, w' =>
      match S.denote stmt w.cur with
      | .ok eff => (k w.cur).Exec { w with cur := eff.delta w.cur } r w'
      | .error x => (h x).Exec w r w'
  | commit k _, w, r, w' => k.Exec { w with base := w.cur } r w'
  | rollback k, w, r, w' => k.Exec { w with cur := w.base } r w'
  | clock k, w, r, w' => ∃ t, w.now ≤ t ∧ (k t).Exec { w with now := t } r w'
  | fresh k, w, r, w' => (k w.next).Exec { w with next := w.next + 1 } r w'
  | emit e k, w, r, w' => k.Exec { w with log := w.log ++ [e] } r w'

/-- One particular run, with a clock that stands still. -/
def run : Prog S α → World S → Except S.Exn α × World S
  | ret a, w => (.ok a, w)
  | raise x, w => (.error x, w)
  | select k _, w => (k w.cur).run w
  | exec stmt k h, w =>
      match S.denote stmt w.cur with
      | .ok eff => (k w.cur).run { w with cur := eff.delta w.cur }
      | .error x => (h x).run w
  | commit k _, w => k.run { w with base := w.cur }
  | rollback k, w => k.run { w with cur := w.base }
  | clock k, w => (k w.now).run w
  | fresh k, w => (k w.next).run { w with next := w.next + 1 }
  | emit e k, w => k.run { w with log := w.log ++ [e] }

/-- **A program that runs alone always ends**, and `run` shows one of the
ways it can. -/
theorem exec_run (p : Prog S α) (w : World S) : p.Exec w (p.run w).1 (p.run w).2 := by
  induction p generalizing w with
  | ret a => exact ⟨rfl, rfl⟩
  | raise x => exact ⟨rfl, rfl⟩
  | select k h ihk _ => exact ihk _ _
  | exec stmt k h ihk ihh =>
    simp only [Exec, run]
    split
    · exact ihk _ _
    · exact ihh _ _
  | commit k h ihk _ => exact ihk _
  | rollback k ih => exact ih _
  | clock k ih => exact ⟨w.now, Nat.le_refl _, ih _ _⟩
  | fresh k ih => exact ih _ _
  | emit e k ih => exact ih _

theorem exec_total (p : Prog S α) (w : World S) : ∃ r w', p.Exec w r w' :=
  ⟨_, _, exec_run p w⟩

variable {w w' : World S}

@[simp] theorem exec_ret {a : α} {r : Except S.Exn α} :
    (ret a : Prog S α).Exec w r w' ↔ r = .ok a ∧ w' = w := Iff.rfl

@[simp] theorem exec_raise {x : S.Exn} {r : Except S.Exn α} :
    (raise x : Prog S α).Exec w r w' ↔ r = .error x ∧ w' = w := Iff.rfl

/-- **Composition.** A run of `p.handle f` is a run of `p` and then a run of
`f` at its reply. -/
theorem exec_handle {p : Prog S α} {f : Except S.Exn α → Prog S β} {r : Except S.Exn β} :
    (p.handle f).Exec w r w' ↔ ∃ r₁ w₁, p.Exec w r₁ w₁ ∧ (f r₁).Exec w₁ r w' := by
  induction p generalizing w with
  | ret a => simp [handle]
  | raise x => simp [handle]
  | select k h ihk _ => exact ihk _
  | exec stmt k h ihk ihh =>
    simp only [handle, Exec]
    split
    · exact ihk _
    · exact ihh _
  | commit k h ihk _ => exact ihk
  | rollback k ih => exact ih
  | clock k ih =>
    simp only [handle, Exec, ih]
    constructor
    · rintro ⟨t, ht, r₁, w₁, h₁, h₂⟩
      exact ⟨r₁, w₁, ⟨t, ht, h₁⟩, h₂⟩
    · rintro ⟨r₁, w₁, ⟨t, ht, h₁⟩, h₂⟩
      exact ⟨t, ht, r₁, w₁, h₁, h₂⟩
  | fresh k ih => exact ih _
  | emit e k ih => exact ih

/-- A run of `p.bind f` is a run of `p` and then, when `p` returned, a run
of `f` at what it returned. -/
theorem exec_bind {p : Prog S α} {f : α → Prog S β} {r : Except S.Exn β} :
    (p.bind f).Exec w r w' ↔
      (∃ a w₁, p.Exec w (.ok a) w₁ ∧ (f a).Exec w₁ r w') ∨
      (∃ x, p.Exec w (.error x) w' ∧ r = .error x) := by
  rw [Prog.bind, exec_handle]
  constructor
  · rintro ⟨a | x, w₁, h₁, h₂⟩
    · obtain ⟨rfl, rfl⟩ := h₂
      exact .inr ⟨_, h₁, rfl⟩
    · exact .inl ⟨_, w₁, h₁, h₂⟩
  · rintro (⟨a, w₁, h₁, h₂⟩ | ⟨x, h₁, rfl⟩)
    · exact ⟨.ok a, w₁, h₁, h₂⟩
    · exact ⟨.error x, w', h₁, rfl, rfl⟩

/-- Sequencing after a program that never raises. -/
theorem exec_bind_inv {p : Prog S α} {f : α → Prog S β} {r : Except S.Exn β}
    (h : (p.bind f).Exec w r w') (hp : ∀ r w₁, p.Exec w r w₁ → ∃ a, r = .ok a) :
    ∃ a w₁, p.Exec w (.ok a) w₁ ∧ (f a).Exec w₁ r w' := by
  rcases exec_bind.mp h with h | ⟨x, h, _⟩
  · exact h
  · obtain ⟨a, ha⟩ := hp _ _ h
    cases ha

/-- A run of `p.orElse f` is a run of `p` that returned, or one that raised
followed by a run of the handler. -/
theorem exec_orElse {p : Prog S α} {f : S.Exn → Prog S α} {r : Except S.Exn α} :
    (p.orElse f).Exec w r w' ↔
      (∃ a, p.Exec w (.ok a) w' ∧ r = .ok a) ∨
      (∃ x w₁, p.Exec w (.error x) w₁ ∧ (f x).Exec w₁ r w') := by
  rw [Prog.orElse, exec_handle]
  constructor
  · rintro ⟨x | a, w₁, h₁, h₂⟩
    · exact .inr ⟨x, w₁, h₁, h₂⟩
    · obtain ⟨rfl, rfl⟩ := h₂
      exact .inl ⟨a, h₁, rfl⟩
  · rintro (⟨a, h₁, rfl⟩ | ⟨x, w₁, h₁, h₂⟩)
    · exact ⟨.ok a, w', h₁, rfl, rfl⟩
    · exact ⟨.error x, w₁, h₁, h₂⟩

@[simp] theorem exec_query {q : S.State → α} {r : Except S.Exn α} :
    (query q).Exec w r w' ↔ r = .ok (q w.cur) ∧ w' = w := Iff.rfl

/-! A run that starts with a primitive step goes on from the world the step
leaves. -/

@[simp] theorem exec_ret_bind {a : α} {f : α → Prog S β} {r : Except S.Exn β} :
    ((ret a).bind f).Exec w r w' ↔ (f a).Exec w r w' := Iff.rfl

@[simp] theorem exec_query_bind {q : S.State → α} {f : α → Prog S β} {r : Except S.Exn β} :
    ((query q).bind f).Exec w r w' ↔ (f (q w.cur)).Exec w r w' := Iff.rfl

@[simp] theorem exec_time_bind {f : ℕ → Prog S β} {r : Except S.Exn β} :
    (time.bind f).Exec w r w' ↔
      ∃ t, w.now ≤ t ∧ (f t).Exec { w with now := t } r w' := Iff.rfl

@[simp] theorem exec_draw_bind {f : ℕ → Prog S β} {r : Except S.Exn β} :
    (draw.bind f).Exec w r w' ↔ (f w.next).Exec { w with next := w.next + 1 } r w' := Iff.rfl

@[simp] theorem exec_note_bind {e : S.Event} {f : Unit → Prog S β} {r : Except S.Exn β} :
    ((note e).bind f).Exec w r w' ↔ (f ()).Exec { w with log := w.log ++ [e] } r w' := Iff.rfl

@[simp] theorem exec_commitNow_bind {f : Unit → Prog S β} {r : Except S.Exn β} :
    (commitNow.bind f).Exec w r w' ↔ (f ()).Exec { w with base := w.cur } r w' := Iff.rfl

@[simp] theorem exec_rollbackNow_bind {f : Unit → Prog S β} {r : Except S.Exn β} :
    (rollbackNow.bind f).Exec w r w' ↔ (f ()).Exec { w with cur := w.base } r w' := Iff.rfl

/-- A statement let through. -/
theorem exec_returning_bind_ok {stmt : S.Stmt} {q : S.State → α} {f : α → Prog S β}
    {r : Except S.Exn β} {e : Effect S.State S.Lock} (h : S.denote stmt w.cur = .ok e) :
    ((returning stmt q).bind f).Exec w r w' ↔
      (f (q w.cur)).Exec { w with cur := e.delta w.cur } r w' := by
  simp only [returning, Prog.bind, handle, Exec, h]

/-- A statement denied. -/
theorem exec_returning_bind_error {stmt : S.Stmt} {q : S.State → α} {f : α → Prog S β}
    {r : Except S.Exn β} {x : S.Exn} (h : S.denote stmt w.cur = .error x) :
    ((returning stmt q).bind f).Exec w r w' ↔ r = .error x ∧ w' = w := by
  simp only [returning, Prog.bind, handle, Exec, h]

@[simp] theorem exec_commitNow {r : Except S.Exn Unit} :
    (commitNow : Prog S Unit).Exec w r w' ↔
      r = .ok () ∧ w' = { w with base := w.cur } := Iff.rfl

theorem exec_returning {stmt : S.Stmt} {q : S.State → α} {r : Except S.Exn α} :
    (returning stmt q).Exec w r w' ↔
      (∃ eff, S.denote stmt w.cur = .ok eff ∧ r = .ok (q w.cur) ∧
        w' = { w with cur := eff.delta w.cur }) ∨
      (∃ x, S.denote stmt w.cur = .error x ∧ r = .error x ∧ w' = w) := by
  simp only [returning, Exec]
  split <;> rename_i h <;> simp [h]

/-- Closing keeps the result and forgets what was not committed. -/
theorem exec_close {p : Prog S α} {r : Except S.Exn α} :
    p.close.Exec w r w' ↔ ∃ w₁, p.Exec w r w₁ ∧ w' = { w₁ with cur := w₁.base } := by
  rw [close, exec_handle]
  constructor
  · rintro ⟨x | a, w₁, h, rfl, rfl⟩ <;> exact ⟨w₁, h, rfl⟩
  · rintro ⟨w₁, h, rfl⟩
    cases r <;> exact ⟨_, w₁, h, rfl, rfl⟩

/-- Time does not go back, identifiers are not drawn twice, and history is
not rewritten. -/
theorem Exec.mono {p : Prog S α} {r : Except S.Exn α} (h : p.Exec w r w') :
    w.now ≤ w'.now ∧ w.next ≤ w'.next ∧ w.log <+: w'.log := by
  induction p generalizing w with
  | ret a => obtain ⟨-, rfl⟩ := h; simp
  | raise x => obtain ⟨-, rfl⟩ := h; simp
  | select k _ ihk _ => exact ihk _ h
  | exec stmt k _ ihk ihh =>
    simp only [Exec] at h
    split at h
    · have := ihk _ h
      exact this
    · exact ihh _ h
  | commit k _ ihk _ =>
    have := ihk h
    exact this
  | rollback k ih =>
    have := ih h
    exact this
  | clock k ih =>
    obtain ⟨t, ht, h⟩ := h
    obtain ⟨h₁, h₂, h₃⟩ := ih _ h
    exact ⟨Nat.le_trans ht h₁, h₂, h₃⟩
  | fresh k ih =>
    obtain ⟨h₁, h₂, h₃⟩ := ih _ h
    exact ⟨h₁, Nat.le_of_succ_le h₂, h₃⟩
  | emit e k ih =>
    obtain ⟨h₁, h₂, h₃⟩ := ih h
    exact ⟨h₁, h₂, (List.prefix_append _ _).trans h₃⟩

end Prog

end Txn
