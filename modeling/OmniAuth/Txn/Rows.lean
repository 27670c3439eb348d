import OmniAuth.Txn.Evolution

/-!
# What a lock protects

A statement changes nothing it has not locked. So what a process sees of a row it has
locked, its own changes included, stays as it is until the process itself changes it,
and what it sees of any other row is what is committed.
-/

namespace Txn

/-- What each lock stands for in the store, and that a statement leaves alone what it has
not locked. -/
structure Rows (S : Sig) (ρ : Type) where
  row : S.State → S.Lock → ρ
  frame : ∀ {stmt seen eff}, S.denote stmt seen = .ok eff →
    ∀ l, l ∉ eff.locks → ∀ s, row (eff.delta s) l = row s l
  congr : ∀ {stmt seen eff}, S.denote stmt seen = .ok eff →
    ∀ l s s', row s l = row s' l → row (eff.delta s) l = row (eff.delta s') l

namespace Rows

variable {S : Sig} {ρ ι α : Type} (R : Rows S ρ)

/-- What a connection has pending changes only what it has locked, each row by
itself. -/
structure Guarded (s : Sys S ι α) : Prop where
  frame : ∀ i l, l ∉ (s.conn i).held → ∀ st, R.row ((s.conn i).pend st) l = R.row st l
  congr : ∀ i l st st', R.row st l = R.row st' l →
    R.row ((s.conn i).pend st) l = R.row ((s.conn i).pend st') l

theorem guarded_start (db : S.State) (now next : ℕ) (proc : ι → Prog S α) :
    R.Guarded (Sys.start db now next proc) :=
  ⟨fun _ _ _ _ => rfl, fun _ _ _ _ h => h⟩

variable {R} {s : Sys S ι α} {i j : ι} {ℓ : Label S}

/-- Of a row it has not locked a process sees what is committed. -/
theorem Guarded.latest_of_not_held (h : R.Guarded s) {l : S.Lock} (hl : l ∉ (s.conn i).held) :
    R.row (s.latest i) l = R.row s.db l := h.frame i l hl s.db

variable [DecidableEq ι]

theorem Guarded.after (h : R.Guarded s) (hen : s.Enabled i ℓ) (p : Prog S α) :
    R.Guarded (s.after i ℓ p) := by
  refine ⟨fun k l hl st => ?_, fun k l st st' hst => ?_⟩
  · by_cases hk : k = i
    · subst hk
      rw [Sys.after_conn_self] at hl ⊢
      cases ℓ with
      | wrote stmt seen eff =>
        have hnot : l ∉ eff.locks ∧ l ∉ (s.conn k).held := by
          simpa [Sys.connAfter] using hl
        show R.row (eff.delta ((s.conn k).pend st)) l = R.row st l
        rw [R.frame hen.2.1 l hnot.1, h.frame k l hnot.2]
      | committed => rfl
      | rolledBack => rfl
      | commitFailed x => rfl
      | commitLost x => rfl
      | crashed x => rfl
      | _ => exact h.frame k l hl st
    · rw [Sys.after_conn_of_ne _ _ _ hk] at hl ⊢
      exact h.frame k l hl st
  · by_cases hk : k = i
    · subst hk
      rw [Sys.after_conn_self]
      cases ℓ with
      | wrote stmt seen eff => exact R.congr hen.2.1 l _ _ (h.congr k l st st' hst)
      | committed => exact hst
      | rolledBack => exact hst
      | commitFailed x => exact hst
      | commitLost x => exact hst
      | crashed x => exact hst
      | _ => exact h.congr k l st st' hst
    · rw [Sys.after_conn_of_ne _ _ _ hk]
      exact h.congr k l st st' hst

/-- The step commits. -/
def Commits : Label S → Prop
  | .committed | .commitLost _ => True
  | _ => False

instance (ℓ : Label S) : Decidable (Commits ℓ) :=
  match ℓ with
  | .committed | .commitLost _ => isTrue trivial
  | .read _ | .wrote .. | .refused .. | .rolledBack | .ticked _ | .drew _ | .emitted _
  | .faulted _ | .commitFailed _ | .crashed _ => isFalse id

omit [DecidableEq ι] in
theorem Commits.dbAfter (h : Commits ℓ) : s.dbAfter i ℓ = s.latest i := by
  cases ℓ with
  | committed => rfl
  | commitLost x => rfl
  | _ => exact h.elim

omit [DecidableEq ι] in
theorem dbAfter_of_not_commits (h : ¬ Commits ℓ) : s.dbAfter i ℓ = s.db := by
  cases ℓ with
  | committed => exact absurd trivial h
  | commitLost x => exact absurd trivial h
  | _ => rfl

/-- What a step leaves committed of a row: what its process saw last, when it commits. -/
theorem row_db_after (p : Prog S α) (l : S.Lock) :
    (Commits ℓ ∧ R.row (s.after i ℓ p).db l = R.row (s.latest i) l) ∨
      (¬ Commits ℓ ∧ (s.after i ℓ p).db = s.db) := by
  rw [Sys.after_db]
  cases ℓ with
  | committed => exact .inl ⟨trivial, rfl⟩
  | commitLost x => exact .inl ⟨trivial, rfl⟩
  | _ => exact .inr ⟨id, rfl⟩

/-- **A locked row is stable.** What is committed of a row a process has locked does not
change under the steps of others. -/
theorem Guarded.db_after (h : R.Guarded s) (hx : s.Exclusive) (hj : j ≠ i) {l : S.Lock}
    (hl : l ∈ (s.conn j).held) (p : Prog S α) : R.row (s.after i ℓ p).db l = R.row s.db l := by
  rcases row_db_after (R := R) (s := s) (i := i) (ℓ := ℓ) p l with ⟨-, hrow⟩ | ⟨-, hdb⟩
  · rw [hrow]
    exact h.latest_of_not_held (hx j i hj l hl)
  · rw [hdb]

/-- **So is what its process sees of it.** -/
theorem Guarded.latest_after (h : R.Guarded s) (hx : s.Exclusive) (hj : j ≠ i) {l : S.Lock}
    (hl : l ∈ (s.conn j).held) (p : Prog S α) :
    R.row ((s.after i ℓ p).latest j) l = R.row (s.latest j) l := by
  unfold Sys.latest
  rw [Sys.after_conn_of_ne _ _ _ hj]
  exact h.congr j l _ _ (h.db_after hx hj hl p)

/-- What the others see after a step: of their own rows what they saw, of any other what
is committed. -/
theorem Guarded.latest_after_of_ne (h : R.Guarded s) (hx : s.Exclusive) (hen : s.Enabled i ℓ)
    (hj : j ≠ i) (p : Prog S α) (l : S.Lock) :
    (l ∈ (s.conn j).held ∧ R.row ((s.after i ℓ p).latest j) l = R.row (s.latest j) l ∧
        R.row (s.after i ℓ p).db l = R.row s.db l) ∨
      (l ∉ (s.conn j).held ∧
        R.row ((s.after i ℓ p).latest j) l = R.row (s.after i ℓ p).db l) := by
  by_cases hl : l ∈ (s.conn j).held
  · exact .inl ⟨hl, h.latest_after hx hj hl p, h.db_after hx hj hl p⟩
  · refine .inr ⟨hl, (h.after hen p).latest_of_not_held ?_⟩
    rwa [Sys.after_conn_of_ne _ _ _ hj]

/-- What the process itself sees after its step. -/
theorem latest_after_self (hen : s.Enabled i ℓ) (p : Prog S α) :
    (∃ stmt seen eff, ℓ = .wrote stmt seen eff ∧ seen = s.latest i ∧
        S.denote stmt seen = .ok eff ∧ (s.after i ℓ p).latest i = eff.delta seen) ∨
      (s.after i ℓ p).latest i = (s.after i ℓ p).db ∨
      ((s.after i ℓ p).latest i = s.latest i ∧ (s.after i ℓ p).db = s.db) := by
  unfold Sys.latest
  rw [Sys.after_conn_self, Sys.after_db]
  cases ℓ with
  | wrote stmt seen eff =>
    refine .inl ⟨stmt, seen, eff, rfl, hen.1, hen.2.1, ?_⟩
    rw [hen.1]
    rfl
  | committed => exact .inr (.inl rfl)
  | rolledBack => exact .inr (.inl rfl)
  | commitFailed x => exact .inr (.inl rfl)
  | commitLost x => exact .inr (.inl rfl)
  | crashed x => exact .inr (.inl rfl)
  | _ => exact .inr (.inr ⟨rfl, rfl⟩)

/-- **A property of single rows.** What holds of every committed row and of every row as
each process sees it holds so after a step, if it holds of what the step writes. -/
theorem Guarded.forall_rows {P : S.Lock → ρ → Prop} (h : R.Guarded s) (hx : s.Exclusive)
    (hdb : ∀ l, P l (R.row s.db l)) (hlatest : ∀ j l, P l (R.row (s.latest j) l))
    (hen : s.Enabled i ℓ)
    (hwrote : ∀ stmt seen eff, ℓ = .wrote stmt seen eff → ∀ l, P l (R.row (eff.delta seen) l))
    (p : Prog S α) :
    (∀ l, P l (R.row (s.after i ℓ p).db l)) ∧ ∀ j l, P l (R.row ((s.after i ℓ p).latest j) l) := by
  have hdb' : ∀ l, P l (R.row (s.after i ℓ p).db l) := by
    intro l
    rcases row_db_after (R := R) (s := s) (i := i) (ℓ := ℓ) p l with ⟨-, hrow⟩ | ⟨-, hsame⟩
    · rw [hrow]
      exact hlatest i l
    · rw [hsame]
      exact hdb l
  refine ⟨hdb', fun j l => ?_⟩
  by_cases hj : j = i
  · subst hj
    rcases latest_after_self hen p with ⟨stmt, seen, eff, hℓ, -, -, hself⟩ | hself | ⟨hself, -⟩
    · rw [hself]
      exact hwrote stmt seen eff hℓ l
    · rw [hself]
      exact hdb' l
    · rw [hself]
      exact hlatest j l
  · rcases h.latest_after_of_ne hx hen hj p l with ⟨-, hrow, -⟩ | ⟨-, hrow⟩
    · rw [hrow]
      exact hlatest j l
    · rw [hrow]
      exact hdb' l

/-- **A relation between what is committed of a row and what a process sees of it** holds
after a step, if it holds of what the step writes. -/
theorem Guarded.related {P : ρ → ρ → Prop} (h : R.Guarded s) (hx : s.Exclusive)
    (hrefl : ∀ r, P r r) (hrel : ∀ j l, P (R.row s.db l) (R.row (s.latest j) l))
    (hen : s.Enabled i ℓ)
    (hwrote : ∀ stmt seen eff, ℓ = .wrote stmt seen eff → seen = s.latest i →
      S.denote stmt seen = .ok eff → ∀ l, P (R.row s.db l) (R.row (eff.delta seen) l))
    (p : Prog S α) (j : ι) (l : S.Lock) :
    P (R.row (s.after i ℓ p).db l) (R.row ((s.after i ℓ p).latest j) l) := by
  by_cases hj : j = i
  · subst hj
    rcases latest_after_self hen p with ⟨stmt, seen, eff, hℓ, hseen, hden, hself⟩ | hself |
      ⟨hself, hdb⟩
    · have hdb : (s.after j ℓ p).db = s.db := by
        rw [hℓ]
        rfl
      rw [hself, hdb]
      exact hwrote stmt seen eff hℓ hseen hden l
    · rw [hself]
      exact hrefl _
    · rw [hself, hdb]
      exact hrel j l
  · rcases h.latest_after_of_ne hx hen hj p l with ⟨-, hrow, hdb⟩ | ⟨-, hrow⟩
    · rw [hrow, hdb]
      exact hrel j l
    · rw [hrow]
      exact hrefl _

end Rows

end Txn
