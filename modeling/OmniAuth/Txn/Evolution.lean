import OmniAuth.Txn.Discipline

/-!
# What no statement undoes

A preorder that every statement respects, whatever state it was executed in
and whatever state its change is applied to, orders the committed states of
every run: what holds upward in it, once true, stays true, for a program
alone as for any number of them interleaved.
-/

namespace Txn

/-- A preorder on states that every statement of the store respects. -/
structure Evolution (S : Sig) where
  le : S.State → S.State → Prop
  refl : ∀ s, le s s
  trans : ∀ {s₁ s₂ s₃}, le s₁ s₂ → le s₂ s₃ → le s₁ s₃
  stmt : ∀ {stmt seen eff}, S.denote stmt seen = .ok eff → ∀ s, le s (eff.delta s)

namespace Evolution

variable {S : Sig} {α ι : Type} (V : Evolution S)

/-! ## One program -/

/-- What a program that runs alone commits, and what it leaves open. -/
theorem exec {p : Prog S α} {w w' : World S} {r : Except S.Exn α} (h : p.Exec w r w')
    (hw : V.le w.base w.cur) : V.le w.base w'.base ∧ V.le w'.base w'.cur := by
  induction p generalizing w with
  | ret a =>
    obtain ⟨-, rfl⟩ := h
    exact ⟨V.refl _, hw⟩
  | raise x =>
    obtain ⟨-, rfl⟩ := h
    exact ⟨V.refl _, hw⟩
  | select k _ ihk _ => exact ihk _ h hw
  | exec stmt k _ ihk ihh =>
    simp only [Prog.Exec] at h
    split at h
    · rename_i eff hden
      have h' := ihk _ h (V.trans hw (V.stmt hden _))
      exact h'
    · exact ihh _ h hw
  | commit k _ ihk _ =>
    obtain ⟨h₁, h₂⟩ := ihk h (V.refl _)
    exact ⟨V.trans hw h₁, h₂⟩
  | rollback k ih =>
    have h' := ih h (V.refl _)
    exact h'
  | clock k ih =>
    obtain ⟨t, -, h⟩ := h
    have h' := ih _ h hw
    exact h'
  | fresh k ih =>
    have h' := ih _ h hw
    exact h'
  | emit e k ih =>
    have h' := ih h hw
    exact h'

/-! ## Many programs -/

variable [DecidableEq ι] {s s' : Sys S ι α}

/-- Every connection's pending changes respect the order. -/
def Pending (s : Sys S ι α) : Prop := ∀ i st, V.le st ((s.conn i).pend st)

omit [DecidableEq ι] in
theorem pending_start (db : S.State) (now next : ℕ) (proc : ι → Prog S α) :
    V.Pending (Sys.start db now next proc) := fun _ _ => V.refl _

theorem Pending.after (h : V.Pending s) {i : ι} {ℓ : Label S} (hen : s.Enabled i ℓ)
    (p : Prog S α) : V.Pending (s.after i ℓ p) := by
  intro j st
  by_cases hj : j = i
  · subst hj
    rw [Sys.after_conn_self]
    cases ℓ with
    | wrote stmt seen eff => exact V.trans (h j st) (V.stmt hen.2.1 _)
    | committed => exact V.refl _
    | rolledBack => exact V.refl _
    | commitFailed x => exact V.refl _
    | commitLost x => exact V.refl _
    | crashed x => exact V.refl _
    | _ => exact h j st
  · rw [Sys.after_conn_of_ne _ _ _ hj]
    exact h j st

/-- **One step moves the committed state upward.** -/
theorem after (h : V.Pending s) (i : ι) (ℓ : Label S) (p : Prog S α) :
    V.le s.db (s.after i ℓ p).db := by
  rw [Sys.after_db]
  cases ℓ with
  | committed => exact h i _
  | commitLost x => exact h i _
  | _ => exact V.refl _

/-- Every open snapshot was a committed state. -/
def Snapshots (s : Sys S ι α) : Prop := ∀ i v, (s.conn i).snap = some v → V.le v s.db

omit [DecidableEq ι] in
theorem snapshots_start (db : S.State) (now next : ℕ) (proc : ι → Prog S α) :
    V.Snapshots (Sys.start db now next proc) := nofun

theorem Snapshots.after (hs : V.Snapshots s) (h : V.Pending s) {i : ι} {ℓ : Label S}
    (p : Prog S α) : V.Snapshots (s.after i ℓ p) := by
  intro j v hv
  refine V.trans ?_ (V.after h i ℓ p)
  by_cases hj : j = i
  · subst hj
    rw [Sys.after_conn_self] at hv
    cases ℓ with
    | read v' =>
      obtain rfl := Option.some.inj hv
      cases hsnap : (s.conn j).snap with
      | none => exact V.refl _
      | some v => exact hs j v hsnap
    | committed => cases hv
    | rolledBack => cases hv
    | commitFailed x => cases hv
    | commitLost x => cases hv
    | crashed x => cases hv
    | _ => exact hs j v hv
  · rw [Sys.after_conn_of_ne _ _ _ hj] at hv
    exact hs j v hv

/-- **Runs move the committed state upward.** -/
theorem run {F : Prop} {ok : Sys S ι α → ι → Label S → Prop} (h : V.Pending s)
    (hrun : Sys.Run F ok s s') : V.le s.db s'.db ∧ V.Pending s' := by
  induction hrun with
  | refl => exact ⟨V.refl _, h⟩
  | tail _ _ hstep ih =>
    obtain ⟨hle, hp⟩ := ih
    obtain ⟨p, _, hen, rfl⟩ := hstep
    exact ⟨V.trans hle (V.after hp _ _ p), hp.after V hen p⟩

theorem Snapshots.run {F : Prop} {ok : Sys S ι α → ι → Label S → Prop} (hs : V.Snapshots s)
    (h : V.Pending s) (hrun : Sys.Run F ok s s') : V.Snapshots s' := by
  induction hrun with
  | refl => exact hs
  | tail hrun _ hstep ih =>
    obtain ⟨p, _, _, rfl⟩ := hstep
    exact ih.after V (V.run h hrun).2 p

/-! ## What a late reader sees

A property that holds upward and holds of the committed state when a process
starts to read holds of all that the process reads. -/

/-- Of a watched process (`true`), every read satisfies `X`. -/
def reads (X : S.State → Prop) : Discipline S Bool where
  next q _ := q
  sees q
    | .read v => q = true → X v
    | _ => True
  may _ _ := True

/-- The upward closed `X` holds of the committed state and of the snapshots of
the watched processes. -/
structure Upward (X : S.State → Prop) (s : Sys S ι α) (g : ι → Bool) : Prop where
  moves : V.Pending s
  base : X s.db
  first : ∀ i, g i = true → ∀ v, (s.conn i).snap = some v → X v

theorem upward_keeps {X : S.State → Prop} (hX : ∀ s s', V.le s s' → X s → X s')
    (ok : Sys S ι α → ι → Label S → Prop) (post : ι → Except S.Exn α → Bool → Prop) :
    (reads X).Keeps ok post (V.Upward X) where
  sees := by
    intro s g i ℓ _ h hen _
    cases ℓ with
    | read v =>
      intro hi
      obtain rfl : v = s.view i := hen
      refine hX _ _ (h.moves i _) ?_
      cases hs : (s.conn i).snap with
      | none => exact h.base
      | some v => exact h.first i hi v hs
    | _ => trivial
  after := by
    intro s g i ℓ p _ h hen _ _ _
    refine ⟨h.moves.after V hen p, hX _ _ (V.after h.moves i ℓ p) h.base, fun j hj v hv => ?_⟩
    by_cases hji : j = i
    · subst hji
      rw [Function.update_self] at hj
      rw [Sys.after_conn_self] at hv
      cases ℓ with
      | read v' =>
        obtain rfl := Option.some.inj hv
        cases hs : (s.conn j).snap with
        | none => exact h.base
        | some v => exact h.first j hj v hs
      | committed => cases hv
      | rolledBack => cases hv
      | commitFailed x => cases hv
      | commitLost x => cases hv
      | crashed x => cases hv
      | _ => exact h.first j hj v hv
    · rw [Function.update_of_ne hji] at hj
      rw [Sys.after_conn_of_ne _ _ _ hji] at hv
      exact h.first j hj v hv

/-- **A late reader.** What a program makes sure of when all it reads satisfies
`X` holds of its reply, once `X` holds when it starts to read. -/
theorem late_reply {X : S.State → Prop} (hX : ∀ s s', V.le s s' → X s → X s')
    {F : Prop} {ok : Sys S ι α → ι → Label S → Prop} {post : Except S.Exn α → Prop} {j : ι}
    {r : Except S.Exn α} (hx : s.Exclusive) (hmoves : V.Pending s) (hbase : X s.db)
    (hidle : (s.conn j).snap = none)
    (hfol : (s.proc j).Follows (reads X) F (fun r _ => post r) true)
    (hcrash : F → ∀ x, post (.error x)) (hrun : Sys.Run F ok s s')
    (hr : (s'.proc j).reply? = some r) : post r := by
  let post' : ι → Except S.Exn α → Bool → Prop := fun i r _ => i = j → post r
  have hinv : V.Upward X s (fun i => decide (i = j)) := by
    refine ⟨hmoves, hbase, fun i hi v hv => ?_⟩
    rw [of_decide_eq_true hi, hidle] at hv
    cases hv
  have hfol' : ∀ i, (s.proc i).Follows (reads X) F (post' i) (decide (i = j)) := by
    intro i
    by_cases hi : i = j
    · subst hi
      rw [decide_eq_true rfl]
      exact hfol.mono fun r _ hr _ => hr
    · refine (Prog.follows_free (T := fun _ => True) (s.proc i) (fun _ _ _ => trivial)
        (fun _ _ _ => trivial) trivial).mono fun r _ _ h => absurd h hi
  obtain ⟨_, g, _, hfollows⟩ := Prog.Follows.run (V.upward_keeps hX ok post')
    (fun hF _ x _ _ => hcrash hF x) hx hinv hfol' hrun
  exact (hfollows j).reply hr rfl

end Evolution

end Txn
