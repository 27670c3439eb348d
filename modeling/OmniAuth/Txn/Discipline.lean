import OmniAuth.Txn.System

/-!
# Disciplines

A claim about every interleaving of some programs is proved in two halves.
A **discipline** is a small automaton that follows one program: its state
remembers what the program has read and written so far, as far as the
argument cares. The first half shows that each program *follows* the
discipline, whatever the store lets it see; it is a recursion over the
program and knows nothing of the others. The second half shows that an
invariant of the store and of all the automata survives any step a
discipline allows; it knows nothing of the programs.

`Follows.run` puts the two together.
-/

namespace Txn

/-- An automaton over the labels of one process. `sees` is what a process in
a given state may rely on when it makes a step, `may` what it must make sure
of. -/
structure Discipline (S : Sig) (Q : Type) where
  next : Q → Label S → Q
  sees : Q → Label S → Prop
  may : Q → Label S → Prop

variable {S : Sig} {Q ι α β : Type}

/-- `p.Follows D F post q`: from automaton state `q`, the program keeps to
`D`, and when it ends, `post` holds of its reply and the state it ends in. -/
def Prog.Follows (D : Discipline S Q) (F : Prop) (post : Except S.Exn α → Q → Prop) :
    Prog S α → Q → Prop
  | ret a, q => post (.ok a) q
  | raise x, q => post (.error x) q
  | select k h, q =>
      (∀ v, D.sees q (.read v) → D.may q (.read v) ∧ (k v).Follows D F post (D.next q (.read v))) ∧
      (F → ∀ x, (h x).Follows D F post (D.next q (.faulted x)))
  | exec stmt k h, q =>
      (∀ seen eff, S.denote stmt seen = .ok eff → D.sees q (.wrote stmt seen eff) →
        D.may q (.wrote stmt seen eff) ∧
          (k seen).Follows D F post (D.next q (.wrote stmt seen eff))) ∧
      (∀ seen x, S.denote stmt seen = .error x → D.sees q (.refused stmt seen x) →
        D.may q (.refused stmt seen x) ∧
          (h x).Follows D F post (D.next q (.refused stmt seen x))) ∧
      (F → ∀ x, (h x).Follows D F post (D.next q (.faulted x)))
  | commit k h, q =>
      (D.sees q .committed → D.may q .committed ∧ k.Follows D F post (D.next q .committed)) ∧
      (F → ∀ x, (h x).Follows D F post (D.next q (.commitFailed x)) ∧
        D.may q .committed ∧ (h x).Follows D F post (D.next q (.commitLost x)))
  | rollback k, q => k.Follows D F post (D.next q .rolledBack)
  | clock k, q => ∀ t, D.sees q (.ticked t) → (k t).Follows D F post (D.next q (.ticked t))
  | fresh k, q => ∀ n, D.sees q (.drew n) → (k n).Follows D F post (D.next q (.drew n))
  | emit e k, q => D.sees q (.emitted e) →
      D.may q (.emitted e) ∧ k.Follows D F post (D.next q (.emitted e))

namespace Prog

variable {D : Discipline S Q} {F : Prop}

/-- **Composition.** What holds when `p` ends is where its continuation
starts. -/
theorem Follows.handle {post : Except S.Exn α → Q → Prop} {post' : Except S.Exn β → Q → Prop}
    {p : Prog S α} {f : Except S.Exn α → Prog S β} {q : Q} (h : p.Follows D F post q)
    (hf : ∀ r q, post r q → (f r).Follows D F post' q) :
    (p.handle f).Follows D F post' q := by
  induction p generalizing q with
  | ret a => exact hf _ _ h
  | raise x => exact hf _ _ h
  | select k g ihk ihg =>
    exact ⟨fun v hv => ⟨(h.1 v hv).1, ihk v (h.1 v hv).2⟩, fun hF x => ihg x (h.2 hF x)⟩
  | exec stmt k g ihk ihg =>
    exact ⟨fun s e hd hv => ⟨(h.1 s e hd hv).1, ihk s (h.1 s e hd hv).2⟩,
      fun s x hd hv => ⟨(h.2.1 s x hd hv).1, ihg x (h.2.1 s x hd hv).2⟩,
      fun hF x => ihg x (h.2.2 hF x)⟩
  | commit k g ihk ihg =>
    refine ⟨fun hv => ⟨(h.1 hv).1, ihk (h.1 hv).2⟩, fun hF x => ?_⟩
    obtain ⟨h₁, h₂, h₃⟩ := h.2 hF x
    exact ⟨ihg x h₁, h₂, ihg x h₃⟩
  | rollback k ih => exact ih h
  | clock k ih => exact fun t ht => ih t (h t ht)
  | fresh k ih => exact fun n hn => ih n (h n hn)
  | emit e k ih => exact fun hv => ⟨(h hv).1, ih (h hv).2⟩

theorem Follows.mono {post post' : Except S.Exn α → Q → Prop} {p : Prog S α} {q : Q}
    (h : p.Follows D F post q) (himp : ∀ r q, post r q → post' r q) : p.Follows D F post' q := by
  induction p generalizing q with
  | ret a => exact himp _ _ h
  | raise x => exact himp _ _ h
  | select k g ihk ihg =>
    exact ⟨fun v hv => ⟨(h.1 v hv).1, ihk v (h.1 v hv).2⟩, fun hF x => ihg x (h.2 hF x)⟩
  | exec stmt k g ihk ihg =>
    exact ⟨fun s e hd hv => ⟨(h.1 s e hd hv).1, ihk s (h.1 s e hd hv).2⟩,
      fun s x hd hv => ⟨(h.2.1 s x hd hv).1, ihg x (h.2.1 s x hd hv).2⟩,
      fun hF x => ihg x (h.2.2 hF x)⟩
  | commit k g ihk ihg =>
    refine ⟨fun hv => ⟨(h.1 hv).1, ihk (h.1 hv).2⟩, fun hF x => ?_⟩
    obtain ⟨h₁, h₂, h₃⟩ := h.2 hF x
    exact ⟨ihg x h₁, h₂, ihg x h₃⟩
  | rollback k ih => exact ih h
  | clock k ih => exact fun t ht => ih t (h t ht)
  | fresh k ih => exact fun n hn => ih n (h n hn)
  | emit e k ih => exact fun hv => ⟨(h hv).1, ih (h hv).2⟩

theorem Follows.and {post post' : Except S.Exn α → Q → Prop} {p : Prog S α} {q : Q}
    (h : p.Follows D F post q) (h' : p.Follows D F post' q) :
    p.Follows D F (fun r q => post r q ∧ post' r q) q := by
  induction p generalizing q with
  | ret a => exact ⟨h, h'⟩
  | raise x => exact ⟨h, h'⟩
  | select k g ihk ihg =>
    exact ⟨fun v hv => ⟨(h.1 v hv).1, ihk v (h.1 v hv).2 (h'.1 v hv).2⟩,
      fun hF x => ihg x (h.2 hF x) (h'.2 hF x)⟩
  | exec stmt k g ihk ihg =>
    exact ⟨fun s e hd hv => ⟨(h.1 s e hd hv).1, ihk s (h.1 s e hd hv).2 (h'.1 s e hd hv).2⟩,
      fun s x hd hv => ⟨(h.2.1 s x hd hv).1, ihg x (h.2.1 s x hd hv).2 (h'.2.1 s x hd hv).2⟩,
      fun hF x => ihg x (h.2.2 hF x) (h'.2.2 hF x)⟩
  | commit k g ihk ihg =>
    refine ⟨fun hv => ⟨(h.1 hv).1, ihk (h.1 hv).2 (h'.1 hv).2⟩, fun hF x => ?_⟩
    obtain ⟨h₁, h₂, h₃⟩ := h.2 hF x
    obtain ⟨h₁', -, h₃'⟩ := h'.2 hF x
    exact ⟨ihg x h₁ h₁', h₂, ihg x h₃ h₃'⟩
  | rollback k ih => exact ih h h'
  | clock k ih => exact fun t ht => ih t (h t ht) (h' t ht)
  | fresh k ih => exact fun n hn => ih n (h n hn) (h' n hn)
  | emit e k ih => exact fun hv => ⟨(h hv).1, ih (h hv).2 (h' hv).2⟩

/-- **What no step takes back** still holds where the program ends. -/
theorem Follows.stable {T : Q → Prop} {post : Except S.Exn α → Q → Prop} {p : Prog S α} {q : Q}
    (h : p.Follows D F post q) (hT : ∀ q ℓ, T q → T (D.next q ℓ)) (hq : T q) :
    p.Follows D F (fun r q => post r q ∧ T q) q := by
  induction p generalizing q with
  | ret a => exact ⟨h, hq⟩
  | raise x => exact ⟨h, hq⟩
  | select k g ihk ihg =>
    exact ⟨fun v hv => ⟨(h.1 v hv).1, ihk v (h.1 v hv).2 (hT _ _ hq)⟩,
      fun hF x => ihg x (h.2 hF x) (hT _ _ hq)⟩
  | exec stmt k g ihk ihg =>
    exact ⟨fun s e hd hv => ⟨(h.1 s e hd hv).1, ihk s (h.1 s e hd hv).2 (hT _ _ hq)⟩,
      fun s x hd hv => ⟨(h.2.1 s x hd hv).1, ihg x (h.2.1 s x hd hv).2 (hT _ _ hq)⟩,
      fun hF x => ihg x (h.2.2 hF x) (hT _ _ hq)⟩
  | commit k g ihk ihg =>
    refine ⟨fun hv => ⟨(h.1 hv).1, ihk (h.1 hv).2 (hT _ _ hq)⟩, fun hF x => ?_⟩
    obtain ⟨hfailed, hmay, hlost⟩ := h.2 hF x
    exact ⟨ihg x hfailed (hT _ _ hq), hmay, ihg x hlost (hT _ _ hq)⟩
  | rollback k ih => exact ih h (hT _ _ hq)
  | clock k ih => exact fun t ht => ih t (h t ht) (hT _ _ hq)
  | fresh k ih => exact fun n hn => ih n (h n hn) (hT _ _ hq)
  | emit e k ih => exact fun hv => ⟨(h hv).1, ih (h hv).2 (hT _ _ hq)⟩

/-- **Sequencing.** -/
theorem Follows.bind {M : α → Q → Prop} {post : Except S.Exn β → Q → Prop} {p : Prog S α}
    {f : α → Prog S β} {q : Q}
    (h : p.Follows D F (fun r q => match r with
      | .ok a => M a q
      | .error x => post (.error x) q) q)
    (hf : ∀ a q, M a q → (f a).Follows D F post q) : (p.bind f).Follows D F post q := by
  refine h.handle fun r q hr => ?_
  cases r with
  | ok a => exact hf a q hr
  | error x => exact hr

/-- The program goes on from a state of `M`, unless it raises. -/
def Leads {X : Type} (M : α → Q → Prop) (r : Except X α) (q : Q) : Prop :=
  match r with
  | .ok a => M a q
  | .error _ => True

theorem Leads.bind {M : α → Q → Prop} {p : Prog S α} {f : α → Prog S β} {M' : β → Q → Prop} {q : Q}
    (h : p.Follows D F (Leads M) q) (hf : ∀ a q, M a q → (f a).Follows D F (Leads M') q) :
    (p.bind f).Follows D F (Leads M') q := by
  refine h.handle fun r q hr => ?_
  cases r with
  | ok a => exact hf a q hr
  | error x => trivial

/-- **Catching.** -/
theorem Follows.orElse {M : S.Exn → Q → Prop} {post : Except S.Exn α → Q → Prop}
    {p : Prog S α} {f : S.Exn → Prog S α} {q : Q}
    (h : p.Follows D F (fun r q => match r with
      | .ok a => post (.ok a) q
      | .error x => M x q) q)
    (hf : ∀ x q, M x q → (f x).Follows D F post q) : (p.orElse f).Follows D F post q := by
  refine h.handle fun r q hr => ?_
  cases r with
  | ok a => exact hr
  | error x => exact hf x q hr

/-- Closing the session at the end rolls the automaton back. -/
theorem Follows.close {post : Except S.Exn α → Q → Prop} {p : Prog S α} {q : Q}
    (h : p.Follows D F (fun r q => post r (D.next q .rolledBack)) q) :
    p.close.Follows D F post q := by
  refine h.handle fun r q hr => ?_
  cases r <;> exact hr

/-! The first step of a program that goes on with `k`. -/

theorem follows_query_bind {f : S.State → α} {k : α → Prog S β} {q : Q}
    {post : Except S.Exn β → Q → Prop} :
    ((query f).bind k).Follows D F post q ↔
      (∀ v, D.sees q (.read v) →
        D.may q (.read v) ∧ (k (f v)).Follows D F post (D.next q (.read v))) ∧
      (F → ∀ x, post (.error x) (D.next q (.faulted x))) := Iff.rfl

theorem follows_returning_bind {stmt : S.Stmt} {f : S.State → α} {k : α → Prog S β} {q : Q}
    {post : Except S.Exn β → Q → Prop} :
    ((returning stmt f).bind k).Follows D F post q ↔
      (∀ seen eff, S.denote stmt seen = .ok eff → D.sees q (.wrote stmt seen eff) →
        D.may q (.wrote stmt seen eff) ∧
          (k (f seen)).Follows D F post (D.next q (.wrote stmt seen eff))) ∧
      (∀ seen x, S.denote stmt seen = .error x → D.sees q (.refused stmt seen x) →
        D.may q (.refused stmt seen x) ∧ post (.error x) (D.next q (.refused stmt seen x))) ∧
      (F → ∀ x, post (.error x) (D.next q (.faulted x))) := Iff.rfl

theorem follows_commitNow_bind {k : Unit → Prog S β} {q : Q}
    {post : Except S.Exn β → Q → Prop} :
    (commitNow.bind k).Follows D F post q ↔
      (D.sees q .committed →
        D.may q .committed ∧ (k ()).Follows D F post (D.next q .committed)) ∧
      (F → ∀ x, post (.error x) (D.next q (.commitFailed x)) ∧
        D.may q .committed ∧ post (.error x) (D.next q (.commitLost x))) := Iff.rfl

theorem follows_time_bind {k : ℕ → Prog S β} {q : Q} {post : Except S.Exn β → Q → Prop} :
    (time.bind k).Follows D F post q ↔
      ∀ t, D.sees q (.ticked t) → (k t).Follows D F post (D.next q (.ticked t)) := Iff.rfl

theorem follows_draw_bind {k : ℕ → Prog S β} {q : Q} {post : Except S.Exn β → Q → Prop} :
    (draw.bind k).Follows D F post q ↔
      ∀ n, D.sees q (.drew n) → (k n).Follows D F post (D.next q (.drew n)) := Iff.rfl

theorem follows_note_bind {e : S.Event} {k : Unit → Prog S β} {q : Q}
    {post : Except S.Exn β → Q → Prop} :
    ((note e).bind k).Follows D F post q ↔ (D.sees q (.emitted e) →
      D.may q (.emitted e) ∧ (k ()).Follows D F post (D.next q (.emitted e))) := Iff.rfl

/-! ## Programs that do nothing special

Most of a handler is of no interest to an argument about it. `Within F A`
says that every step of a program, short of its crash, is in `A`; an
automaton that stays where it is under such steps has nothing to check. -/

/-- Every step the program offers is in `A`. -/
def Within (F : Prop) (A : Label S → Prop) : Prog S α → Prop
  | ret _ => True
  | raise _ => True
  | select k h => (∀ v, A (.read v) ∧ (k v).Within F A) ∧
      (F → ∀ x, A (.faulted x) ∧ (h x).Within F A)
  | exec stmt k h =>
      (∀ seen eff, S.denote stmt seen = .ok eff →
        A (.wrote stmt seen eff) ∧ (k seen).Within F A) ∧
      (∀ seen x, S.denote stmt seen = .error x →
        A (.refused stmt seen x) ∧ (h x).Within F A) ∧
      (F → ∀ x, A (.faulted x) ∧ (h x).Within F A)
  | commit k h => A .committed ∧ k.Within F A ∧
      (F → ∀ x, A (.commitFailed x) ∧ A (.commitLost x) ∧ (h x).Within F A)
  | rollback k => A .rolledBack ∧ k.Within F A
  | clock k => ∀ t, A (.ticked t) ∧ (k t).Within F A
  | fresh k => ∀ n, A (.drew n) ∧ (k n).Within F A
  | emit e k => A (.emitted e) ∧ k.Within F A

theorem Within.handle {A : Label S → Prop} {p : Prog S α} {f : Except S.Exn α → Prog S β}
    (h : p.Within F A) (hf : ∀ r, (f r).Within F A) : (p.handle f).Within F A := by
  induction p with
  | ret a => exact hf _
  | raise x => exact hf _
  | select k g ihk ihg =>
    exact ⟨fun v => ⟨(h.1 v).1, ihk v (h.1 v).2⟩, fun hF x => ⟨(h.2 hF x).1, ihg x (h.2 hF x).2⟩⟩
  | exec stmt k g ihk ihg =>
    exact ⟨fun s e hd => ⟨(h.1 s e hd).1, ihk s (h.1 s e hd).2⟩,
      fun s x hd => ⟨(h.2.1 s x hd).1, ihg x (h.2.1 s x hd).2⟩,
      fun hF x => ⟨(h.2.2 hF x).1, ihg x (h.2.2 hF x).2⟩⟩
  | commit k g ihk ihg =>
    refine ⟨h.1, ihk h.2.1, fun hF x => ?_⟩
    obtain ⟨h₁, h₂, h₃⟩ := h.2.2 hF x
    exact ⟨h₁, h₂, ihg x h₃⟩
  | rollback k ih => exact ⟨h.1, ih h.2⟩
  | clock k ih => exact fun t => ⟨(h t).1, ih t (h t).2⟩
  | fresh k ih => exact fun n => ⟨(h n).1, ih n (h n).2⟩
  | emit e k ih => exact ⟨h.1, ih h.2⟩

theorem Within.bind {A : Label S → Prop} {p : Prog S α} {f : α → Prog S β} (h : p.Within F A)
    (hf : ∀ a, (f a).Within F A) : (p.bind f).Within F A := by
  refine h.handle fun r => ?_
  cases r with
  | ok a => exact hf a
  | error x => trivial

theorem Within.orElse {A : Label S → Prop} {p : Prog S α} {f : S.Exn → Prog S α}
    (h : p.Within F A) (hf : ∀ x, (f x).Within F A) : (p.orElse f).Within F A := by
  refine h.handle fun r => ?_
  cases r with
  | ok a => trivial
  | error x => exact hf x

theorem Within.mono {A B : Label S → Prop} {p : Prog S α} (h : p.Within F A)
    (hAB : ∀ ℓ, A ℓ → B ℓ) : p.Within F B := by
  induction p with
  | ret a => trivial
  | raise x => trivial
  | select k g ihk ihg =>
    exact ⟨fun v => ⟨hAB _ (h.1 v).1, ihk v (h.1 v).2⟩,
      fun hF x => ⟨hAB _ (h.2 hF x).1, ihg x (h.2 hF x).2⟩⟩
  | exec stmt k g ihk ihg =>
    exact ⟨fun s e hd => ⟨hAB _ (h.1 s e hd).1, ihk s (h.1 s e hd).2⟩,
      fun s x hd => ⟨hAB _ (h.2.1 s x hd).1, ihg x (h.2.1 s x hd).2⟩,
      fun hF x => ⟨hAB _ (h.2.2 hF x).1, ihg x (h.2.2 hF x).2⟩⟩
  | commit k g ihk ihg =>
    refine ⟨hAB _ h.1, ihk h.2.1, fun hF x => ?_⟩
    obtain ⟨h₁, h₂, h₃⟩ := h.2.2 hF x
    exact ⟨hAB _ h₁, hAB _ h₂, ihg x h₃⟩
  | rollback k ih => exact ⟨hAB _ h.1, ih h.2⟩
  | clock k ih => exact fun t => ⟨hAB _ (h t).1, ih t (h t).2⟩
  | fresh k ih => exact fun n => ⟨hAB _ (h n).1, ih n (h n).2⟩
  | emit e k ih => exact ⟨hAB _ h.1, ih h.2⟩

theorem within_query {A : Label S → Prop} {f : S.State → α} (hread : ∀ v, A (.read v))
    (hfault : F → ∀ x, A (.faulted x)) : (query f).Within F A :=
  ⟨fun v => ⟨hread v, trivial⟩, fun hF x => ⟨hfault hF x, trivial⟩⟩

theorem within_returning {A : Label S → Prop} {stmt : S.Stmt} {f : S.State → α}
    (hwrote : ∀ seen eff, A (.wrote stmt seen eff)) (hrefused : ∀ seen x, A (.refused stmt seen x))
    (hfault : F → ∀ x, A (.faulted x)) : (returning stmt f).Within F A :=
  ⟨fun s e _ => ⟨hwrote s e, trivial⟩, fun s x _ => ⟨hrefused s x, trivial⟩,
    fun hF x => ⟨hfault hF x, trivial⟩⟩

theorem within_commitNow {A : Label S → Prop} (hcommit : A .committed)
    (hfailed : F → ∀ x, A (.commitFailed x)) (hlost : F → ∀ x, A (.commitLost x)) :
    (commitNow : Prog S Unit).Within F A :=
  ⟨hcommit, trivial, fun hF x => ⟨hfailed hF x, hlost hF x, trivial⟩⟩

theorem within_time {A : Label S → Prop} (h : ∀ t, A (.ticked t)) :
    (time : Prog S ℕ).Within F A := fun t => ⟨h t, trivial⟩

theorem within_draw {A : Label S → Prop} (h : ∀ n, A (.drew n)) :
    (draw : Prog S ℕ).Within F A := fun n => ⟨h n, trivial⟩

theorem within_note {A : Label S → Prop} {e : S.Event} (h : A (.emitted e)) :
    (note e : Prog S Unit).Within F A := ⟨h, trivial⟩

/-- **An automaton that does not care.** Under steps in `A` the states in `T`
stay in `T` and owe nothing; what the program ends in is then in `T`. -/
theorem Within.follows {A : Label S → Prop} {T : Q → Prop} {p : Prog S α} {q : Q}
    (h : p.Within F A) (hmay : ∀ q ℓ, T q → A ℓ → D.may q ℓ)
    (hnext : ∀ q ℓ, T q → A ℓ → T (D.next q ℓ)) (hq : T q) :
    p.Follows D F (fun _ q => T q) q := by
  induction p generalizing q with
  | ret a => exact hq
  | raise x => exact hq
  | select k g ihk ihg =>
    exact ⟨fun v _ => ⟨hmay q _ hq (h.1 v).1, ihk v (h.1 v).2 (hnext q _ hq (h.1 v).1)⟩,
      fun hF x => ihg x (h.2 hF x).2 (hnext q _ hq (h.2 hF x).1)⟩
  | exec stmt k g ihk ihg =>
    refine ⟨fun s e hd _ => ?_, fun s x hd _ => ?_, fun hF x => ?_⟩
    · obtain ⟨hA, hk⟩ := h.1 s e hd
      exact ⟨hmay q _ hq hA, ihk s hk (hnext q _ hq hA)⟩
    · obtain ⟨hA, hg⟩ := h.2.1 s x hd
      exact ⟨hmay q _ hq hA, ihg x hg (hnext q _ hq hA)⟩
    · obtain ⟨hA, hg⟩ := h.2.2 hF x
      exact ihg x hg (hnext q _ hq hA)
  | commit k g ihk ihg =>
    refine ⟨fun _ => ⟨hmay q _ hq h.1, ihk h.2.1 (hnext q _ hq h.1)⟩, fun hF x => ?_⟩
    obtain ⟨hf, hl, hg⟩ := h.2.2 hF x
    exact ⟨ihg x hg (hnext q _ hq hf), hmay q _ hq h.1, ihg x hg (hnext q _ hq hl)⟩
  | rollback k ih => exact ih h.2 (hnext q _ hq h.1)
  | clock k ih => exact fun t _ => ih t (h t).2 (hnext q _ hq (h t).1)
  | fresh k ih => exact fun n _ => ih n (h n).2 (hnext q _ hq (h n).1)
  | emit e k ih => exact fun _ => ⟨hmay q _ hq h.1, ih h.2 (hnext q _ hq h.1)⟩

/-- What a program does up to its continuation, in an automaton that does not
care. -/
theorem Within.follows_bind {A : Label S → Prop} {T : Q → Prop} {p : Prog S α}
    {k : α → Prog S β} {q : Q} {post : Except S.Exn β → Q → Prop} (h : p.Within F A)
    (hmay : ∀ q ℓ, T q → A ℓ → D.may q ℓ) (hnext : ∀ q ℓ, T q → A ℓ → T (D.next q ℓ)) (hq : T q)
    (hk : ∀ a q', T q' → (k a).Follows D F post q') (hx : ∀ x q', T q' → post (.error x) q') :
    (p.bind k).Follows D F post q := by
  refine (h.follows hmay hnext hq).handle fun r q' hq' => ?_
  cases r with
  | ok a => exact hk a q' hq'
  | error x => exact hx x q' hq'

/-- **What a program does to the store when it runs alone.** If every statement
it may execute moves along `R`, so does the committed state, and what is not
committed yet. -/
theorem Within.exec {A : Label S → Prop} {R : S.State → S.State → Prop} (hrefl : ∀ s, R s s)
    (htrans : ∀ {a b c}, R a b → R b c → R a c)
    (hstmt : ∀ {stmt seen eff}, A (.wrote stmt seen eff) → S.denote stmt seen = .ok eff →
      R seen (eff.delta seen))
    {p : Prog S α} {w w' : World S} {r : Except S.Exn α} (h : p.Within F A)
    (hexec : p.Exec w r w') (hw : R w.base w.cur) : R w.base w'.base ∧ R w'.base w'.cur := by
  induction p generalizing w with
  | ret a =>
    obtain ⟨-, rfl⟩ := hexec
    exact ⟨hrefl _, hw⟩
  | raise x =>
    obtain ⟨-, rfl⟩ := hexec
    exact ⟨hrefl _, hw⟩
  | select k g ihk _ => exact ihk _ (h.1 w.cur).2 hexec hw
  | exec stmt k g ihk ihg =>
    simp only [Exec] at hexec
    split at hexec
    · rename_i eff hden
      obtain ⟨hA, hk⟩ := h.1 w.cur eff hden
      have hnext := htrans hw (hstmt hA hden)
      have := ihk w.cur hk hexec hnext
      exact this
    · rename_i x hden
      exact ihg x (h.2.1 w.cur x hden).2 hexec hw
  | commit k g ihk _ =>
    obtain ⟨hbase, hcur⟩ := ihk h.2.1 hexec (hrefl _)
    exact ⟨htrans hw hbase, hcur⟩
  | rollback k ih =>
    have := ih h.2 hexec (hrefl _)
    exact this
  | clock k ih =>
    obtain ⟨t, -, hexec⟩ := hexec
    have := ih t (h t).2 hexec hw
    exact this
  | fresh k ih =>
    have := ih w.next (h w.next).2 hexec hw
    exact this
  | emit e k ih =>
    have := ih h.2 hexec hw
    exact this

theorem within_any (p : Prog S α) : p.Within F fun _ => True := by
  induction p with
  | ret a => trivial
  | raise x => trivial
  | select k g ihk ihg => exact ⟨fun v => ⟨trivial, ihk v⟩, fun _ x => ⟨trivial, ihg x⟩⟩
  | exec stmt k g ihk ihg =>
    exact ⟨fun s e _ => ⟨trivial, ihk s⟩, fun s x _ => ⟨trivial, ihg x⟩,
      fun _ x => ⟨trivial, ihg x⟩⟩
  | commit k g ihk ihg => exact ⟨trivial, ihk, fun _ x => ⟨trivial, trivial, ihg x⟩⟩
  | rollback k ih => exact ⟨trivial, ih⟩
  | clock k ih => exact fun t => ⟨trivial, ih t⟩
  | fresh k ih => exact fun n => ⟨trivial, ih n⟩
  | emit e k ih => exact ⟨trivial, ih⟩

/-- Any program follows an automaton that asks nothing, in any of its states
from which it does not leave `T`. -/
theorem follows_free {T : Q → Prop} (p : Prog S α) {q : Q} (hmay : ∀ q ℓ, T q → D.may q ℓ)
    (hnext : ∀ q ℓ, T q → T (D.next q ℓ)) (hq : T q) : p.Follows D F (fun _ q => T q) q :=
  (within_any p).follows (fun q ℓ hT _ => hmay q ℓ hT) (fun q ℓ hT _ => hnext q ℓ hT) hq

/-- Where nothing fails, a program that reads next reads. -/
theorem Act.select_inv {k : S.State → Prog S α} {h : S.Exn → Prog S α} {ℓ : Label S}
    {p : Prog S α} (hact : (Prog.select k h).Act False ℓ p) : ∃ v, ℓ = .read v ∧ p = k v := by
  cases hact with
  | select v => exact ⟨v, rfl, rfl⟩
  | faultSelect hF => exact hF.elim
  | crash hF => exact hF.elim

theorem Act.crashed {p p' : Prog S α} {x : S.Exn} (h : p.Act F (.crashed x) p') : F := by
  cases h
  assumption

/-- A program that has ended is where it should be. -/
theorem Follows.reply {post : Except S.Exn α → Q → Prop} {p : Prog S α} {q : Q}
    {r : Except S.Exn α} (h : p.Follows D F post q) (hr : p.reply? = some r) : post r q := by
  cases p with
  | ret a =>
    obtain rfl := Option.some.inj hr
    exact h
  | raise x =>
    obtain rfl := Option.some.inj hr
    exact h
  | _ => cases hr

/-- What a program offers keeps to the discipline it follows. -/
theorem Follows.act {post : Except S.Exn α → Q → Prop} {p p' : Prog S α} {q : Q}
    {ℓ : Label S} (h : p.Follows D F post q) (hact : p.Act F ℓ p')
    (hdenote : ∀ stmt seen eff, ℓ = .wrote stmt seen eff → S.denote stmt seen = .ok eff)
    (hdenied : ∀ stmt seen x, ℓ = .refused stmt seen x → S.denote stmt seen = .error x)
    (hsees : D.sees q ℓ) (hcrash : ∀ x, ℓ = .crashed x → post (.error x) (D.next q ℓ)) :
    p'.Follows D F post (D.next q ℓ) := by
  cases hact with
  | select v => exact (h.1 v hsees).2
  | exec seen eff => exact (h.1 seen eff (hdenote _ _ _ rfl) hsees).2
  | refused seen x => exact (h.2.1 seen x (hdenied _ _ _ rfl) hsees).2
  | commit => exact (h.1 hsees).2
  | rollback => exact h
  | clock t => exact h t hsees
  | fresh n => exact h n hsees
  | emit => exact (h hsees).2
  | faultSelect hF x => exact h.2 hF x
  | faultExec hF x => exact h.2.2 hF x
  | commitFailed hF x => exact (h.2 hF x).1
  | commitLost hF x => exact (h.2 hF x).2.2
  | crash hF x => exact hcrash x rfl

end Prog

namespace Discipline

variable [DecidableEq ι]

/-- The obligations a step comes with: what the program vouched for when it
offered the step. -/
def Vouched (D : Discipline S Q) (q : Q) : Label S → Prop
  | .read v => D.may q (.read v)
  | .wrote stmt seen eff => D.may q (.wrote stmt seen eff)
  | .refused stmt seen x => D.may q (.refused stmt seen x)
  | .committed | .commitLost _ => D.may q .committed
  | .emitted e => D.may q (.emitted e)
  | _ => True

/-- An invariant of the store, of the connections and of the automata that
every allowed step keeps. Only steps that meet `ok` count, and a process that
has ended is where `post` says. -/
structure Keeps (D : Discipline S Q) (ok : Sys S ι α → ι → Label S → Prop)
    (post : ι → Except S.Exn α → Q → Prop) (Inv : Sys S ι α → (ι → Q) → Prop) : Prop where
  sees : ∀ {s g i ℓ}, s.Exclusive → Inv s g → s.Enabled i ℓ → ok s i ℓ → D.sees (g i) ℓ
  after : ∀ {s g i ℓ} (p), s.Exclusive → Inv s g → s.Enabled i ℓ → ok s i ℓ →
    (∀ j r, (s.proc j).reply? = some r → post j r (g j)) →
    D.Vouched (g i) ℓ → Inv (s.after i ℓ p) (Function.update g i (D.next (g i) ℓ))

end Discipline

open Discipline in
theorem Prog.Follows.vouched {D : Discipline S Q} {F : Prop}
    {post : Except S.Exn α → Q → Prop} {p p' : Prog S α} {q : Q} {ℓ : Label S}
    (h : p.Follows D F post q) (hact : p.Act F ℓ p')
    (hdenote : ∀ stmt seen eff, ℓ = .wrote stmt seen eff → S.denote stmt seen = .ok eff)
    (hdenied : ∀ stmt seen x, ℓ = .refused stmt seen x → S.denote stmt seen = .error x)
    (hsees : D.sees q ℓ) : D.Vouched q ℓ := by
  cases hact with
  | select v => exact (h.1 v hsees).1
  | exec seen eff => exact (h.1 seen eff (hdenote _ _ _ rfl) hsees).1
  | refused seen x => exact (h.2.1 seen x (hdenied _ _ _ rfl) hsees).1
  | commit => exact (h.1 hsees).1
  | emit => exact (h hsees).1
  | commitLost hF x => exact (h.2 hF x).2.1
  | _ => trivial

open Discipline in
/-- The obligations of a step that is made. -/
theorem Prog.Follows.vouched_step [DecidableEq ι] {D : Discipline S Q} {F : Prop}
    {post : Except S.Exn α → Q → Prop} {s s' : Sys S ι α} {i : ι} {q : Q} {ℓ : Label S}
    (h : (s.proc i).Follows D F post q) (hstep : s.Step F i ℓ s') (hsees : D.sees q ℓ) :
    D.Vouched q ℓ := by
  obtain ⟨p, hact, hen, -⟩ := hstep
  refine h.vouched hact ?_ ?_ hsees
  · rintro stmt seen eff rfl
    exact hen.2.1
  · rintro stmt seen x rfl
    exact hen.2

/-- **The discipline theorem.** If every process follows `D` from the automaton state `g`
gives it, and the steps `D` allows keep `Inv`, then along any run there are automaton
states for which `Inv` holds and every process follows `D` still. What else the steps of
the run keep, `H`, may speak of the run itself. -/
theorem Prog.Follows.run_with [DecidableEq ι] {D : Discipline S Q} {F : Prop}
    {ok : Sys S ι α → ι → Label S → Prop} {Inv H : Sys S ι α → (ι → Q) → Prop}
    {post : ι → Except S.Exn α → Q → Prop} (hkeeps : D.Keeps ok post Inv)
    (hcrash : F → ∀ i x q, post i (.error x) (D.next q (.crashed x)))
    (hstep : ∀ {s g i ℓ p}, s.Exclusive → Inv s g → H s g → ok s i ℓ → D.Vouched (g i) ℓ →
      s.Step F i ℓ (s.after i ℓ p) → H (s.after i ℓ p) (Function.update g i (D.next (g i) ℓ)))
    {s s' : Sys S ι α} {g : ι → Q} (hx : s.Exclusive) (hinv : Inv s g) (hH : H s g)
    (hfol : ∀ i, (s.proc i).Follows D F (post i) (g i)) (hrun : Sys.Run F ok s s') :
    s'.Exclusive ∧ ∃ g', Inv s' g' ∧ H s' g' ∧
      ∀ i, (s'.proc i).Follows D F (post i) (g' i) := by
  induction hrun with
  | refl => exact ⟨hx, g, hinv, hH, hfol⟩
  | @tail s₁ s₂ i ℓ _ hok hnext ih =>
    obtain ⟨hx₁, g₁, hinv₁, hH₁, hfol₁⟩ := ih
    obtain ⟨p, hact, hen, rfl⟩ := id hnext
    have hsees := hkeeps.sees hx₁ hinv₁ hen hok
    have hdenote : ∀ stmt seen eff, ℓ = .wrote stmt seen eff → S.denote stmt seen = .ok eff := by
      rintro stmt seen eff rfl
      exact hen.2.1
    have hdenied : ∀ stmt seen x, ℓ = .refused stmt seen x → S.denote stmt seen = .error x := by
      rintro stmt seen x rfl
      exact hen.2
    have hvouched := (hfol₁ i).vouched_step hnext hsees
    have hpost : ∀ j r, (s₁.proc j).reply? = some r → post j r (g₁ j) := fun j r =>
      (hfol₁ j).reply
    refine ⟨hx₁.after hen p, _, hkeeps.after p hx₁ hinv₁ hen hok hpost hvouched,
      hstep hx₁ hinv₁ hH₁ hok hvouched hnext, fun j => ?_⟩
    by_cases hj : j = i
    · subst hj
      rw [Sys.after_proc_self, Function.update_self]
      refine (hfol₁ j).act hact hdenote hdenied hsees ?_
      rintro x rfl
      exact hcrash hact.crashed j x _
    · rw [Sys.after_proc_of_ne _ _ _ hj, Function.update_of_ne hj]
      exact hfol₁ j

theorem Prog.Follows.run [DecidableEq ι] {D : Discipline S Q} {F : Prop}
    {ok : Sys S ι α → ι → Label S → Prop} {Inv : Sys S ι α → (ι → Q) → Prop}
    {post : ι → Except S.Exn α → Q → Prop} (hkeeps : D.Keeps ok post Inv)
    (hcrash : F → ∀ i x q, post i (.error x) (D.next q (.crashed x)))
    {s s' : Sys S ι α} {g : ι → Q} (hx : s.Exclusive) (hinv : Inv s g)
    (hfol : ∀ i, (s.proc i).Follows D F (post i) (g i)) (hrun : Sys.Run F ok s s') :
    s'.Exclusive ∧ ∃ g', Inv s' g' ∧ ∀ i, (s'.proc i).Follows D F (post i) (g' i) := by
  obtain ⟨hx', g', hinv', -, hfol'⟩ := Prog.Follows.run_with (H := fun _ _ => True) hkeeps hcrash
    (fun _ _ _ _ _ _ => trivial) hx hinv trivial hfol hrun
  exact ⟨hx', g', hinv', hfol'⟩

/-- **One process among others.** What process `i` follows tells about `i` along any run,
whatever the others do, if each step of `i` that `D` allows keeps `Inv` and so does each
step of another. -/
theorem Prog.Follows.among [DecidableEq ι] {D : Discipline S Q} {F : Prop}
    {ok : Sys S ι α → ι → Label S → Prop} {post : Except S.Exn α → Q → Prop} {i : ι}
    (Inv : Sys S ι α → Q → Prop)
    (hsees : ∀ {s q ℓ}, Inv s q → s.Enabled i ℓ → ok s i ℓ → D.sees q ℓ)
    (hself : ∀ {s q ℓ p}, Inv s q → ok s i ℓ → D.Vouched q ℓ → s.Step F i ℓ (s.after i ℓ p) →
      Inv (s.after i ℓ p) (D.next q ℓ))
    (hother : ∀ {s q j ℓ p}, j ≠ i → Inv s q → ok s j ℓ → s.Step F j ℓ (s.after j ℓ p) →
      Inv (s.after j ℓ p) q)
    (hcrash : ∀ {s x}, ok s i (.crashed x) → ∀ q, post (.error x) (D.next q (.crashed x)))
    {s s' : Sys S ι α} {q : Q} (hinv : Inv s q) (hfol : (s.proc i).Follows D F post q)
    (hrun : Sys.Run F ok s s') : ∃ q', Inv s' q' ∧ (s'.proc i).Follows D F post q' := by
  induction hrun with
  | refl => exact ⟨q, hinv, hfol⟩
  | @tail s₁ s₂ j ℓ _ hok hstep ih =>
    obtain ⟨q₁, hinv₁, hfol₁⟩ := ih
    obtain ⟨p, hact, hen, rfl⟩ := id hstep
    by_cases hj : j = i
    · subst hj
      have hs := hsees hinv₁ hen hok
      refine ⟨_, hself hinv₁ hok (hfol₁.vouched_step hstep hs) hstep, ?_⟩
      rw [Sys.after_proc_self]
      refine hfol₁.act hact ?_ ?_ hs ?_
      · rintro stmt seen eff rfl
        exact hen.2.1
      · rintro stmt seen x rfl
        exact hen.2
      · rintro x rfl
        exact hcrash hok _
    · refine ⟨q₁, hother hj hinv₁ hok hstep, ?_⟩
      rwa [Sys.after_proc_of_ne _ _ _ (Ne.symm hj)]

end Txn
