import OmniAuth.Txn.Discipline

/-!
# What a failed call leaves behind

A program that reports a failure only while it has committed nothing has, when it does
report one, left the store as it was: in no step of its own did the committed state
change. Two endings are beyond any program's word: a commit whose answer was lost, and a
crash.
-/

namespace Txn

variable {S : Sig} {ι α β : Type}

/-- Whether a process has committed: not yet, it has, or it cannot tell. -/
inductive Commitment
  | clean
  | done
  | lost
  deriving DecidableEq

/-- The automaton that watches the commits of its process. -/
def committing : Discipline S Commitment where
  next q
    | .committed => if q = .lost then .lost else .done
    | .commitLost _ | .crashed _ => .lost
    | _ => q
  sees _ _ := True
  may _ _ := True

/-- The step leaves its process not knowing. -/
def Label.Unanswered : Label S → Prop
  | .commitLost _ | .crashed _ => True
  | _ => False

/-- The program reports no failure once it has committed. -/
def Prog.FailsClean (F : Prop) (p : Prog S α) : Prop :=
  p.Follows committing F (fun r q => (∃ x, r = .error x) → q ≠ .done) .clean

/-- A step that commits nothing. -/
def Label.Quiet : Label S → Prop
  | .committed | .commitLost _ | .crashed _ => False
  | _ => True

theorem committing_quiet {q : Commitment} {ℓ : Label S} (h : ℓ.Quiet) :
    committing.next q ℓ = q := by
  cases ℓ <;> first | rfl | exact h.elim

theorem committing_clean {q : Commitment} {ℓ : Label S}
    (h : committing.next q ℓ = Commitment.clean) : q = .clean ∧ ℓ.Quiet := by
  cases ℓ with
  | committed => cases q <;> simp [committing] at h
  | commitLost x => cases h
  | crashed x => cases h
  | _ => exact ⟨h, trivial⟩

variable {F : Prop}

/-- What commits nothing comes first. -/
theorem Prog.Within.failsClean_bind {p : Prog S α} {k : α → Prog S β}
    (h : p.Within F Label.Quiet) (hk : ∀ a, (k a).FailsClean F) : (p.bind k).FailsClean F := by
  refine h.follows_bind (T := fun q => q = .clean) (fun _ _ _ _ => trivial) ?_ rfl ?_ ?_
  · rintro q ℓ rfl hℓ
    exact committing_quiet hℓ
  · rintro a q rfl
    exact hk a
  · rintro x q rfl _
    decide

theorem Prog.Within.failsClean {p : Prog S α} (h : p.Within F Label.Quiet) : p.FailsClean F := by
  refine (h.follows (T := fun q => q = .clean) (fun _ _ _ _ => trivial) ?_ rfl).mono ?_
  · rintro q ℓ rfl hℓ
    exact committing_quiet hℓ
  · rintro r q rfl _
    decide

/-- A commit, the last thing that can fail. -/
theorem Prog.failsClean_commitNow : (commitNow : Prog S Unit).FailsClean F := by
  refine ⟨fun _ => ⟨trivial, ?_⟩, fun _ x => ⟨?_, trivial, ?_⟩⟩
  · rintro ⟨x, hx⟩
    cases hx
  · exact fun _ => nofun
  · exact fun _ => nofun

/-- A failure that is passed on. -/
theorem Prog.FailsClean.orElse {p : Prog S α} {f : S.Exn → Prog S α} (h : p.FailsClean F)
    (hf : ∀ x, (f x).Within F Label.Quiet) : (p.orElse f).FailsClean F := by
  refine Follows.orElse (M := fun _ q => q ≠ .done) (h.mono fun r q hr => ?_) fun x q hq => ?_
  · cases r with
    | ok a => exact fun ⟨x, hx⟩ => nomatch hx
    | error x => exact hr ⟨x, rfl⟩
  · refine ((hf x).follows (T := fun q => q ≠ .done) (fun _ _ _ _ => trivial) ?_ hq).mono ?_
    · intro q ℓ hq hℓ
      rwa [committing_quiet hℓ]
    · exact fun r q hq _ => hq

/-- What only returns does not fail. -/
theorem Prog.FailsClean.map {p : Prog S α} (h : p.FailsClean F) (f : α → β) :
    (p.bind fun a => ret (f a)).FailsClean F := by
  refine Follows.handle h fun r q hr => ?_
  cases r with
  | ok a => exact fun ⟨x, hx⟩ => nomatch hx
  | error x => exact fun _ => hr ⟨x, rfl⟩

theorem Prog.FailsClean.close {p : Prog S α} (h : p.FailsClean F) : p.close.FailsClean F :=
  Follows.close (h.mono fun _ _ hr => hr)

variable [DecidableEq ι]

/-- **A call that failed changed nothing.** -/
theorem Sys.Run.untouched {ok : Sys S ι α → ι → Label S → Prop} {s s' : Sys S ι α} {i : ι}
    {x : S.Exn} (hrun : Run F ok s s') (hok : ∀ s ℓ, ok s i ℓ → ¬ ℓ.Unanswered)
    (hfol : (s.proc i).FailsClean F) (hr : (s'.proc i).reply? = some (.error x)) :
    Run F (fun s j ℓ => ok s j ℓ ∧ (j = i → s.dbAfter j ℓ = s.db)) s s' := by
  let Inv (s₁ : Sys S ι α) (q : Commitment) : Prop := q ≠ .lost ∧ (q = .clean →
    Run F (fun s j ℓ => ok s j ℓ ∧ (j = i → s.dbAfter j ℓ = s.db)) s s₁)
  have hinv : ∃ q, Inv s' q ∧
      (s'.proc i).Follows committing F (fun r q => (∃ x, r = .error x) → q ≠ .done) q := by
    refine hfol.among Inv (fun _ _ _ => trivial) ?_ ?_ ?_ ⟨by decide, fun _ => .refl⟩ hrun
    · rintro s q ℓ p ⟨hlost, hclean⟩ hi - hstep
      have hanswered := hok _ _ hi
      refine ⟨?_, fun hnext => ?_⟩
      · cases ℓ with
        | committed =>
          show (if q = .lost then Commitment.lost else .done) ≠ .lost
          rw [if_neg hlost]
          decide
        | commitLost x => exact absurd trivial hanswered
        | crashed x => exact absurd trivial hanswered
        | _ => exact hlost
      · obtain ⟨rfl, hquiet⟩ := committing_clean hnext
        refine .tail (hclean rfl) ⟨hi, fun _ => ?_⟩ hstep
        cases ℓ <;> first | rfl | exact hquiet.elim
    · rintro s q j ℓ p hji ⟨hlost, hclean⟩ hj hstep
      exact ⟨hlost, fun hq => .tail (hclean hq) ⟨hj, fun h => absurd h hji⟩ hstep⟩
    · exact fun hi => absurd trivial (hok _ _ hi)
  obtain ⟨q, ⟨hlost, hclean⟩, hq⟩ := hinv
  have hdone := hq.reply hr ⟨x, rfl⟩
  cases q with
  | clean => exact hclean rfl
  | done => exact absurd rfl hdone
  | lost => exact absurd rfl hlost

end Txn
