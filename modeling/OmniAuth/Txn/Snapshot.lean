import OmniAuth.Txn.Discipline

/-!
# What a late process sees

A process that begins when a condition on the committed state holds, and goes on holding,
reads nothing else, whoever else is at work: its transaction takes its snapshot from such a
state, and until it writes something itself every read shows that one snapshot.
-/

namespace Txn

variable {S : Sig} {ι α : Type} [DecidableEq ι] {P : S.State → Prop}

/-- What a process has seen: nothing yet, one snapshot, or changes of its own as well. -/
inductive Sight (S : Sig)
  | unread
  | snapshot (seen : S.State)
  | changed

/-- What a process in this state may rely on when it reads. -/
def Sight.Shows (P : S.State → Prop) : Sight S → S.State → Prop
  | unread, v => P v
  | snapshot seen, v => v = seen
  | changed, _ => True

def Sight.read (q : Sight S) (v : S.State) : Sight S :=
  match q with
  | changed => changed
  | _ => snapshot v

/-- The automaton that keeps what its process has read. -/
def watching (P : S.State → Prop) : Discipline S (Sight S) where
  next q
    | .read v => q.read v
    | .ticked _ | .drew _ | .emitted _ | .faulted _ => q
    | _ => .changed
  sees q
    | .read v => q.Shows P v
    | _ => True
  may _ _ := True

/-- The connection is as its process has seen it. -/
def Sight.Agrees (q : Sight S) (c : Conn S) : Prop :=
  match q with
  | unread => c.pend = id ∧ c.snap = none
  | snapshot seen => c.pend = id ∧ c.snap = some seen
  | changed => True

omit [DecidableEq ι] in
theorem Sight.Agrees.shows {s : Sys S ι α} {i : ι} {q : Sight S} (h : q.Agrees (s.conn i))
    (hP : P s.db) : q.Shows P (s.view i) := by
  cases q with
  | unread =>
    obtain ⟨hpend, hsnap⟩ := h
    show P (s.view i)
    rw [Sys.view, hpend, hsnap]
    exact hP
  | snapshot seen =>
    obtain ⟨hpend, hsnap⟩ := h
    show s.view i = seen
    rw [Sys.view, hpend, hsnap]
    rfl
  | changed => trivial

omit [DecidableEq ι] in
theorem Sight.Agrees.after {s : Sys S ι α} {i : ι} {q : Sight S} {ℓ : Label S}
    (h : q.Agrees (s.conn i)) (hen : s.Enabled i ℓ) :
    ((watching P).next q ℓ).Agrees (s.connAfter i ℓ) := by
  cases ℓ with
  | read v =>
    obtain rfl : v = s.view i := hen
    cases q with
    | unread =>
      obtain ⟨hpend, hsnap⟩ := h
      refine ⟨hpend, ?_⟩
      simp only [Sys.connAfter, Sys.view, hpend, hsnap]
      rfl
    | snapshot seen =>
      obtain ⟨hpend, hsnap⟩ := h
      refine ⟨hpend, ?_⟩
      simp only [Sys.connAfter, Sys.view, hpend, hsnap]
      rfl
    | changed => trivial
  | ticked t => exact h
  | drew n => exact h
  | emitted e => exact h
  | faulted x => exact h
  | _ => trivial

/-- **Only what holds throughout.** A process with no transaction open, and every state of
the run meets `P`: what its program comes to where its reads meet `P` is what it comes to. -/
theorem Sys.Run.sees_only {F : Prop} {ok : Sys S ι α → ι → Label S → Prop} {s s' : Sys S ι α}
    {i : ι} {r : Except S.Exn α} (hrun : Run F ok s s') (P : S.State → Prop)
    (post : Except S.Exn α → Prop) (hok : ∀ s ℓ, ok s i ℓ → P s.db) (hidle : s.conn i = Conn.idle S)
    (hcrash : ∀ x, post (.error x))
    (hfol : (s.proc i).Follows (watching P) F (fun r _ => post r) .unread)
    (hr : (s'.proc i).reply? = some r) : post r := by
  have hends := hfol.among (fun s q => q.Agrees (s.conn i)) ?_ ?_ ?_ ?_ ?_ hrun
  · obtain ⟨q, -, hq⟩ := hends
    exact hq.reply hr
  · intro s q ℓ hagrees hen hi
    cases ℓ with
    | read v =>
      obtain rfl : v = s.view i := hen
      exact hagrees.shows (hok _ _ hi)
    | _ => trivial
  · rintro s q ℓ p hagrees - - ⟨_, -, hen, -⟩
    rw [Sys.after_conn_self]
    exact hagrees.after hen
  · intro s q j ℓ p hji hagrees _ _
    rwa [Sys.after_conn_of_ne _ _ _ (Ne.symm hji)]
  · exact fun _ _ => hcrash _
  · show Sight.unread.Agrees (s.conn i)
    rw [hidle]
    exact ⟨rfl, rfl⟩

end Txn
