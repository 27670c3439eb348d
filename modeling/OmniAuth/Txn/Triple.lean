import OmniAuth.Txn.Discipline

/-!
# Where a program that runs alone ends

`p.Ends w post` says that however `p` runs alone from `w`, its reply and the world
it leaves are in `post`. The rules follow the syntax of a program from its first
statement on. `Throws` is the part of it that needs no world: which exceptions a
program can end with.
-/

namespace Txn

namespace Prog

variable {S : Sig} {α β : Type} {w : World S}

/-- However `p` runs alone from `w`, it ends in `post`. -/
def Ends (p : Prog S α) (w : World S) (post : Except S.Exn α → World S → Prop) : Prop :=
  ∀ r w', p.Exec w r w' → post r w'

theorem Ends.mono {p : Prog S α} {post post' : Except S.Exn α → World S → Prop}
    (h : p.Ends w post) (himp : ∀ r w', post r w' → post' r w') : p.Ends w post' :=
  fun r w' hexec => himp r w' (h r w' hexec)

theorem Ends.and {p : Prog S α} {post post' : Except S.Exn α → World S → Prop}
    (h : p.Ends w post) (h' : p.Ends w post') : p.Ends w fun r w' => post r w' ∧ post' r w' :=
  fun r w' hexec => ⟨h r w' hexec, h' r w' hexec⟩

@[simp] theorem ends_ret {a : α} {post : Except S.Exn α → World S → Prop} :
    (ret a : Prog S α).Ends w post ↔ post (.ok a) w := by
  constructor
  · intro h
    exact h _ _ ⟨rfl, rfl⟩
  · rintro h r w' ⟨rfl, rfl⟩
    exact h

@[simp] theorem ends_raise {x : S.Exn} {post : Except S.Exn α → World S → Prop} :
    (raise x : Prog S α).Ends w post ↔ post (.error x) w := by
  constructor
  · intro h
    exact h _ _ ⟨rfl, rfl⟩
  · rintro h r w' ⟨rfl, rfl⟩
    exact h

/-- **Composition.** Where the continuation ends is asked where the program
ends. -/
theorem ends_handle {p : Prog S α} {f : Except S.Exn α → Prog S β}
    {post : Except S.Exn β → World S → Prop} :
    (p.handle f).Ends w post ↔ p.Ends w fun r w' => (f r).Ends w' post := by
  constructor
  · intro h r₁ w₁ h₁ r w' h₂
    exact h r w' (exec_handle.mpr ⟨r₁, w₁, h₁, h₂⟩)
  · intro h r w' hexec
    obtain ⟨r₁, w₁, h₁, h₂⟩ := exec_handle.mp hexec
    exact h r₁ w₁ h₁ r w' h₂

/-- **Sequencing.** -/
theorem Ends.bind {M : α → World S → Prop} {p : Prog S α} {f : α → Prog S β}
    {post : Except S.Exn β → World S → Prop}
    (h : p.Ends w fun r w' => match r with
      | .ok a => M a w'
      | .error x => post (.error x) w')
    (hf : ∀ a w', M a w' → (f a).Ends w' post) : (p.bind f).Ends w post := by
  refine ends_handle.mpr (h.mono fun r w' hr => ?_)
  cases r with
  | ok a => exact hf a w' hr
  | error x => exact ends_raise.mpr hr

/-- **Catching.** -/
theorem Ends.orElse {M : S.Exn → World S → Prop} {p : Prog S α} {f : S.Exn → Prog S α}
    {post : Except S.Exn α → World S → Prop}
    (h : p.Ends w fun r w' => match r with
      | .ok a => post (.ok a) w'
      | .error x => M x w')
    (hf : ∀ x w', M x w' → (f x).Ends w' post) : (p.orElse f).Ends w post := by
  refine ends_handle.mpr (h.mono fun r w' hr => ?_)
  cases r with
  | ok a => exact ends_ret.mpr hr
  | error x => exact hf x w' hr

/-! Where nothing is asked of the reply. -/

theorem Ends.bind_world {Q : World S → Prop} {p : Prog S α} {f : α → Prog S β}
    (h : p.Ends w fun _ => Q) (hf : ∀ a w', Q w' → (f a).Ends w' fun _ => Q) :
    (p.bind f).Ends w fun _ => Q := by
  refine ends_handle.mpr (h.mono fun r w' hw' => ?_)
  cases r with
  | ok a => exact hf a w' hw'
  | error x => exact ends_raise.mpr hw'

theorem Ends.orElse_world {Q : World S → Prop} {p : Prog S α} {f : S.Exn → Prog S α}
    (h : p.Ends w fun _ => Q) (hf : ∀ x w', Q w' → (f x).Ends w' fun _ => Q) :
    (p.orElse f).Ends w fun _ => Q := by
  refine ends_handle.mpr (h.mono fun r w' hw' => ?_)
  cases r with
  | ok a => exact ends_ret.mpr hw'
  | error x => exact hf x w' hw'

theorem ends_close {p : Prog S α} {post : Except S.Exn α → World S → Prop} :
    p.close.Ends w post ↔ p.Ends w fun r w' => post r { w' with cur := w'.base } := by
  constructor
  · intro h r w' hexec
    exact h r _ (exec_close.mpr ⟨w', hexec, rfl⟩)
  · intro h r w' hexec
    obtain ⟨w₁, hp, rfl⟩ := exec_close.mp hexec
    exact h r w₁ hp

/-! The first step of a program that goes on with `f`. -/

@[simp] theorem ends_query_bind {q : S.State → α} {f : α → Prog S β}
    {post : Except S.Exn β → World S → Prop} :
    ((query q).bind f).Ends w post ↔ (f (q w.cur)).Ends w post := Iff.rfl

@[simp] theorem ends_draw_bind {f : ℕ → Prog S β} {post : Except S.Exn β → World S → Prop} :
    (draw.bind f).Ends w post ↔ (f w.next).Ends { w with next := w.next + 1 } post := Iff.rfl

@[simp] theorem ends_note_bind {e : S.Event} {f : Unit → Prog S β}
    {post : Except S.Exn β → World S → Prop} :
    ((note e).bind f).Ends w post ↔ (f ()).Ends { w with log := w.log ++ [e] } post := Iff.rfl

@[simp] theorem ends_commitNow_bind {f : Unit → Prog S β}
    {post : Except S.Exn β → World S → Prop} :
    (commitNow.bind f).Ends w post ↔ (f ()).Ends { w with base := w.cur } post := Iff.rfl

@[simp] theorem ends_rollbackNow_bind {f : Unit → Prog S β}
    {post : Except S.Exn β → World S → Prop} :
    (rollbackNow.bind f).Ends w post ↔ (f ()).Ends { w with cur := w.base } post := Iff.rfl

@[simp] theorem ends_time_bind {f : ℕ → Prog S β} {post : Except S.Exn β → World S → Prop} :
    (time.bind f).Ends w post ↔ ∀ t, w.now ≤ t → (f t).Ends { w with now := t } post := by
  constructor
  · intro h t ht r w' hexec
    exact h r w' ⟨t, ht, hexec⟩
  · rintro h r w' ⟨t, ht, hexec⟩
    exact h t ht r w' hexec

@[simp] theorem ends_commitNow {post : Except S.Exn Unit → World S → Prop} :
    (commitNow : Prog S Unit).Ends w post ↔ post (.ok ()) { w with base := w.cur } := by
  constructor
  · intro h
    exact h _ _ ⟨rfl, rfl⟩
  · rintro h r w' ⟨rfl, rfl⟩
    exact h

/-- A statement is let through, or denied. -/
theorem ends_returning_bind {stmt : S.Stmt} {q : S.State → α} {f : α → Prog S β}
    {post : Except S.Exn β → World S → Prop} :
    ((returning stmt q).bind f).Ends w post ↔
      (∀ eff, S.denote stmt w.cur = .ok eff →
        (f (q w.cur)).Ends { w with cur := eff.delta w.cur } post) ∧
      ∀ x, S.denote stmt w.cur = .error x → post (.error x) w := by
  constructor
  · intro h
    constructor
    · intro eff heff r w' hexec
      exact h r w' ((exec_returning_bind_ok heff).mpr hexec)
    · intro x hx
      exact h _ w ((exec_returning_bind_error hx).mpr ⟨rfl, rfl⟩)
  · rintro ⟨hok, hdenied⟩ r w' hexec
    cases hden : S.denote stmt w.cur with
    | ok eff => exact hok eff hden r w' ((exec_returning_bind_ok hden).mp hexec)
    | error x =>
      obtain ⟨rfl, rfl⟩ := (exec_returning_bind_error hden).mp hexec
      exact hdenied x hden

theorem ends_returning {stmt : S.Stmt} {q : S.State → α}
    {post : Except S.Exn α → World S → Prop} :
    (returning stmt q).Ends w post ↔
      (∀ eff, S.denote stmt w.cur = .ok eff →
        post (.ok (q w.cur)) { w with cur := eff.delta w.cur }) ∧
      ∀ x, S.denote stmt w.cur = .error x → post (.error x) w := by
  constructor
  · intro h
    constructor
    · intro eff heff
      exact h _ _ (exec_returning.mpr (.inl ⟨eff, heff, rfl, rfl⟩))
    · intro x hx
      exact h _ _ (exec_returning.mpr (.inr ⟨x, hx, rfl, rfl⟩))
  · rintro ⟨hok, hdenied⟩ r w' hexec
    obtain ⟨eff, heff, rfl, rfl⟩ | ⟨x, hx, rfl, rfl⟩ := exec_returning.mp hexec
    · exact hok eff heff
    · exact hdenied x hx

/-- **Inside a transaction.** A program that neither commits nor rolls back leaves what is
committed, and moves what it sees along `R`. -/
theorem Within.ends {F : Prop} {A : Label S → Prop} {R : S.State → S.State → Prop}
    (hrefl : ∀ s, R s s) (htrans : ∀ {a b c}, R a b → R b c → R a c)
    (hstmt : ∀ {stmt seen eff}, A (.wrote stmt seen eff) → S.denote stmt seen = .ok eff →
      R seen (eff.delta seen))
    (hcommit : ¬ A .committed) (hrollback : ¬ A .rolledBack) {p : Prog S α} (h : p.Within F A) :
    p.Ends w fun _ w' => w'.base = w.base ∧ R w.cur w'.cur ∧ w.now ≤ w'.now := by
  intro r w' hexec
  induction p generalizing w with
  | ret a =>
    obtain ⟨-, rfl⟩ := hexec
    exact ⟨rfl, hrefl _, le_refl _⟩
  | raise x =>
    obtain ⟨-, rfl⟩ := hexec
    exact ⟨rfl, hrefl _, le_refl _⟩
  | select k g ihk _ => exact ihk _ (h.1 w.cur).2 hexec
  | exec stmt k g ihk ihg =>
    simp only [Exec] at hexec
    split at hexec
    · rename_i eff hden
      obtain ⟨hA, hk⟩ := h.1 w.cur eff hden
      obtain ⟨hbase, hcur, hnow⟩ := ihk w.cur hk hexec
      exact ⟨hbase, htrans (hstmt hA hden) hcur, hnow⟩
    · rename_i x hden
      exact ihg x (h.2.1 w.cur x hden).2 hexec
  | commit k g ihk _ => exact absurd h.1 hcommit
  | rollback k ih => exact absurd h.1 hrollback
  | clock k ih =>
    obtain ⟨t, ht, hexec⟩ := hexec
    obtain ⟨hbase, hcur, hnow⟩ := ih t (h t).2 hexec
    exact ⟨hbase, hcur, le_trans ht hnow⟩
  | fresh k ih =>
    have hend := ih w.next (h w.next).2 hexec
    exact hend
  | emit e k ih =>
    have hend := ih h.2 hexec
    exact hend

/-! ## The first reading of the clock -/

/-- The program, when its first step reads `t` on the clock. -/
def reading : Prog S α → ℕ → Prog S α
  | clock k, t => k t
  | p, _ => p

@[simp] theorem reading_time_bind {f : ℕ → Prog S α} {t : ℕ} : (time.bind f).reading t = f t := rfl

/-- **Every reading.** Where a program ends is asked for each time its first step may read. -/
theorem ends_of_reading {p : Prog S α} {post : Except S.Exn α → World S → Prop}
    (h : ∀ t, w.now ≤ t → (p.reading t).Ends { w with now := t } post) : p.Ends w post := by
  cases p with
  | clock k =>
    rintro r w' ⟨t, ht, hexec⟩
    exact h t ht r w' hexec
  | _ => exact h w.now (le_refl _)

/-- The clock may stand still. -/
theorem Ends.reading {p : Prog S α} {post : Except S.Exn α → World S → Prop} (h : p.Ends w post) :
    (p.reading w.now).Ends w post := by
  cases p with
  | clock k => exact fun r w' hexec => h r w' ⟨w.now, le_refl _, hexec⟩
  | _ => exact h

/-- A run may start earlier. -/
theorem Exec.earlier {p : Prog S α} {w' : World S} {r : Except S.Exn α} (h : p.Exec w r w') {t : ℕ}
    (ht : t ≤ w.now) : ∃ t', p.Exec { w with now := t } r { w' with now := t' } := by
  induction p generalizing w t with
  | ret a =>
    obtain ⟨rfl, rfl⟩ := h
    exact ⟨t, rfl, rfl⟩
  | raise x =>
    obtain ⟨rfl, rfl⟩ := h
    exact ⟨t, rfl, rfl⟩
  | select k g ihk _ => exact ihk w.cur h ht
  | exec stmt k g ihk ihg =>
    simp only [Exec] at h ⊢
    split at h
    · exact ihk w.cur h ht
    · exact ihg _ h ht
  | commit k g ihk _ => exact ihk h ht
  | rollback k ih => exact ih h ht
  | clock k ih =>
    obtain ⟨t', ht', h⟩ := h
    exact ⟨w'.now, t', ht.trans ht', h⟩
  | fresh k ih => exact ih w.next h ht
  | emit e k ih => exact ih h ht

/-- A run in which the first reading is `t`. -/
theorem exec_of_reading {p : Prog S α} {w' : World S} {r : Except S.Exn α} {t : ℕ}
    (ht : w.now ≤ t) (h : (p.reading t).Exec { w with now := t } r w') :
    ∃ t', p.Exec w r { w' with now := t' } := by
  cases p with
  | clock k => exact ⟨w'.now, t, ht, h⟩
  | _ => exact h.earlier ht

/-! ## Exceptions -/

/-- Run alone, the program ends with no exception outside `P`. -/
def Throws (P : S.Exn → Prop) : Prog S α → Prop
  | ret _ => True
  | raise x => P x
  | select k _ => ∀ v, (k v).Throws P
  | exec stmt k h =>
      (∀ seen, (k seen).Throws P) ∧ ∀ seen x, S.denote stmt seen = .error x → (h x).Throws P
  | commit k _ => k.Throws P
  | rollback k => k.Throws P
  | clock k => ∀ t, (k t).Throws P
  | fresh k => ∀ n, (k n).Throws P
  | emit _ k => k.Throws P

theorem Throws.handle {P Q : S.Exn → Prop} {p : Prog S α} {f : Except S.Exn α → Prog S β}
    (h : p.Throws P) (hok : ∀ a, (f (.ok a)).Throws Q) (herr : ∀ x, P x → (f (.error x)).Throws Q) :
    (p.handle f).Throws Q := by
  induction p with
  | ret a => exact hok a
  | raise x => exact herr x h
  | select k g ihk _ => exact fun v => ihk v (h v)
  | exec stmt k g ihk ihg =>
    exact ⟨fun seen => ihk seen (h.1 seen), fun seen x hx => ihg x (h.2 seen x hx)⟩
  | commit k g ihk _ => exact ihk h
  | rollback k ih => exact ih h
  | clock k ih => exact fun t => ih t (h t)
  | fresh k ih => exact fun n => ih n (h n)
  | emit e k ih => exact ih h

theorem Throws.bind {P : S.Exn → Prop} {p : Prog S α} {f : α → Prog S β} (h : p.Throws P)
    (hf : ∀ a, (f a).Throws P) : (p.bind f).Throws P :=
  h.handle hf fun _ hx => hx

theorem Throws.orElse {P Q : S.Exn → Prop} {p : Prog S α} {f : S.Exn → Prog S α} (h : p.Throws P)
    (hf : ∀ x, P x → (f x).Throws Q) : (p.orElse f).Throws Q :=
  h.handle (fun _ => trivial) hf

theorem throws_query {P : S.Exn → Prop} {q : S.State → α} : (query q).Throws P :=
  fun _ => trivial

theorem throws_time {P : S.Exn → Prop} : (time : Prog S ℕ).Throws P := fun _ => trivial

theorem throws_draw {P : S.Exn → Prop} : (draw : Prog S ℕ).Throws P := fun _ => trivial

theorem throws_returning {P : S.Exn → Prop} {stmt : S.Stmt} {q : S.State → α}
    (h : ∀ seen x, S.denote stmt seen = .error x → P x) : (returning stmt q).Throws P :=
  ⟨fun _ => trivial, h⟩

/-- **A run alone ends with an exception the program throws.** -/
theorem Throws.exec {P : S.Exn → Prop} {p : Prog S α} {w' : World S} {x : S.Exn} (h : p.Throws P)
    (hexec : p.Exec w (.error x) w') : P x := by
  induction p generalizing w with
  | ret a => cases hexec.1
  | raise y =>
    obtain rfl := Except.error.inj hexec.1
    exact h
  | select k g ihk _ => exact ihk _ (h w.cur) hexec
  | exec stmt k g ihk ihg =>
    simp only [Exec] at hexec
    split at hexec
    · exact ihk _ (h.1 w.cur) hexec
    · rename_i y hy
      exact ihg y (h.2 w.cur y hy) hexec
  | commit k g ihk _ => exact ihk h hexec
  | rollback k ih => exact ih h hexec
  | clock k ih =>
    obtain ⟨t, -, hexec⟩ := hexec
    exact ih t (h t) hexec
  | fresh k ih => exact ih _ (h w.next) hexec
  | emit e k ih => exact ih h hexec

/-! ## Replies -/

/-- Whatever the store lets it see, the program replies in `P`. -/
def Yields (P : Except S.Exn α → Prop) : Prog S α → Prop
  | ret a => P (.ok a)
  | raise x => P (.error x)
  | select k h => (∀ v, (k v).Yields P) ∧ ∀ x, (h x).Yields P
  | exec _ k h => (∀ seen, (k seen).Yields P) ∧ ∀ x, (h x).Yields P
  | commit k h => k.Yields P ∧ ∀ x, (h x).Yields P
  | rollback k => k.Yields P
  | clock k => ∀ t, (k t).Yields P
  | fresh k => ∀ n, (k n).Yields P
  | emit _ k => k.Yields P

/-- The reply of the continuation at any reply of the program. -/
theorem Yields.handle {P : Except S.Exn α → Prop} {P' : Except S.Exn β → Prop} {p : Prog S α}
    {f : Except S.Exn α → Prog S β} (h : p.Yields P) (hf : ∀ r, P r → (f r).Yields P') :
    (p.handle f).Yields P' := by
  induction p with
  | ret a => exact hf _ h
  | raise x => exact hf _ h
  | select k g ihk ihg => exact ⟨fun v => ihk v (h.1 v), fun x => ihg x (h.2 x)⟩
  | exec stmt k g ihk ihg => exact ⟨fun seen => ihk seen (h.1 seen), fun x => ihg x (h.2 x)⟩
  | commit k g ihk ihg => exact ⟨ihk h.1, fun x => ihg x (h.2 x)⟩
  | rollback k ih => exact ih h
  | clock k ih => exact fun t => ih t (h t)
  | fresh k ih => exact fun n => ih n (h n)
  | emit e k ih => exact ih h

theorem yields_any (p : Prog S α) : p.Yields fun _ => True := by
  induction p with
  | ret a => trivial
  | raise x => trivial
  | select k g ihk ihg => exact ⟨ihk, ihg⟩
  | exec stmt k g ihk ihg => exact ⟨ihk, ihg⟩
  | commit k g ihk ihg => exact ⟨ihk, ihg⟩
  | rollback k ih => exact ih
  | clock k ih => exact ih
  | fresh k ih => exact ih
  | emit e k ih => exact ih

/-- What comes after any program, where exceptions do not matter. -/
theorem yields_bind {P : Except S.Exn β → Prop} (p : Prog S α) {f : α → Prog S β}
    (hf : ∀ a, (f a).Yields P) (hx : ∀ x, P (.error x)) : (p.bind f).Yields P := by
  refine (yields_any p).handle fun r _ => ?_
  cases r with
  | ok a => exact hf a
  | error x => exact hx x

/-- What comes after a program whose reply does. -/
theorem Yields.bind {M : α → Prop} {P : Except S.Exn β → Prop} {p : Prog S α}
    {f : α → Prog S β} (h : p.Yields fun r => ∀ a, r = .ok a → M a)
    (hf : ∀ a, M a → (f a).Yields P) (hx : ∀ x, P (.error x)) : (p.bind f).Yields P := by
  refine h.handle fun r hr => ?_
  cases r with
  | ok a => exact hf a (hr a rfl)
  | error x => exact hx x

/-- **A run alone replies as the program yields.** -/
theorem Yields.exec {P : Except S.Exn α → Prop} {p : Prog S α} {w' : World S}
    {r : Except S.Exn α} (h : p.Yields P) (hexec : p.Exec w r w') : P r := by
  induction p generalizing w with
  | ret a =>
    obtain ⟨rfl, -⟩ := hexec
    exact h
  | raise x =>
    obtain ⟨rfl, -⟩ := hexec
    exact h
  | select k g ihk _ => exact ihk _ (h.1 w.cur) hexec
  | exec stmt k g ihk ihg =>
    simp only [Exec] at hexec
    split at hexec
    · exact ihk _ (h.1 w.cur) hexec
    · exact ihg _ (h.2 _) hexec
  | commit k g ihk _ => exact ihk h.1 hexec
  | rollback k ih => exact ih h hexec
  | clock k ih =>
    obtain ⟨t, -, hexec⟩ := hexec
    exact ih t (h t) hexec
  | fresh k ih => exact ih _ (h w.next) hexec
  | emit e k ih => exact ih h hexec

end Prog

end Txn
