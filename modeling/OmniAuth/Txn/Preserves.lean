import OmniAuth.Txn.Triple

/-!
# What a program that runs alone preserves

`p.Preserves P` says that `P` holds of what is committed and of what the transaction sees
after a run of `p` wherever it held of both before. The rules follow the syntax of the
program; only the statements it executes are looked into.
-/

namespace Txn

namespace Prog

variable {S : Sig} {α β : Type} {P : S.State → Prop}

/-- `P` of what is committed and of what is seen. -/
def Both (P : S.State → Prop) (w : World S) : Prop := P w.base ∧ P w.cur

/-- Run alone where `P` holds, the program ends where it holds. -/
def Preserves (P : S.State → Prop) (p : Prog S α) : Prop :=
  ∀ w, Both P w → p.Ends w fun _ => Both P

theorem preserves_ret (a : α) : (ret a : Prog S α).Preserves P :=
  fun _ h => ends_ret.mpr h

theorem preserves_raise (x : S.Exn) : (raise x : Prog S α).Preserves P :=
  fun _ h => ends_raise.mpr h

theorem Preserves.handle {p : Prog S α} {f : Except S.Exn α → Prog S β} (h : p.Preserves P)
    (hf : ∀ r, (f r).Preserves P) : (p.handle f).Preserves P :=
  fun w hw => ends_handle.mpr ((h w hw).mono fun r w' hw' => hf r w' hw')

theorem Preserves.bind {p : Prog S α} {f : α → Prog S β} (h : p.Preserves P)
    (hf : ∀ a, (f a).Preserves P) : (p.bind f).Preserves P := by
  refine h.handle fun r => ?_
  cases r with
  | ok a => exact hf a
  | error x => exact preserves_raise x

theorem Preserves.orElse {p : Prog S α} {f : S.Exn → Prog S α} (h : p.Preserves P)
    (hf : ∀ x, (f x).Preserves P) : (p.orElse f).Preserves P := by
  refine h.handle fun r => ?_
  cases r with
  | ok a => exact preserves_ret a
  | error x => exact hf x

/-- What goes on with a read may know what was read, and that `P` held there. -/
theorem preserves_query_bind {q : S.State → α} {f : α → Prog S β}
    (hf : ∀ s, P s → (f (q s)).Preserves P) : ((query q).bind f).Preserves P :=
  fun w hw => ends_query_bind.mpr (hf w.cur hw.2 w hw)

theorem preserves_time : (time : Prog S ℕ).Preserves P := by
  rintro w hw r w' ⟨t, -, -, rfl⟩
  exact hw

theorem preserves_draw : (draw : Prog S ℕ).Preserves P := by
  rintro w hw r w' ⟨-, rfl⟩
  exact hw

theorem preserves_commitNow : (commitNow : Prog S Unit).Preserves P :=
  fun _ hw => ends_commitNow.mpr ⟨hw.2, hw.2⟩

theorem preserves_rollbackNow : (rollbackNow : Prog S Unit).Preserves P := by
  rintro w hw r w' ⟨-, rfl⟩
  exact ⟨hw.1, hw.1⟩

/-- A statement that leads from `P` to `P`. -/
theorem preserves_returning {stmt : S.Stmt} {q : S.State → α}
    (hstmt : ∀ s eff, P s → S.denote stmt s = .ok eff → P (eff.delta s)) :
    (returning stmt q).Preserves P :=
  fun w hw => ends_returning.mpr ⟨fun eff heff => ⟨hw.1, hstmt w.cur eff hw.2 heff⟩, fun _ _ => hw⟩

theorem Preserves.close {p : Prog S α} (h : p.Preserves P) : p.close.Preserves P :=
  fun w hw => ends_close.mpr ((h w hw).mono fun _ _ hw' => ⟨hw'.1, hw'.1⟩)

theorem Preserves.and {Q : S.State → Prop} {p : Prog S α} (h : p.Preserves P)
    (h' : p.Preserves Q) : p.Preserves fun s => P s ∧ Q s :=
  fun w hw => ((h w ⟨hw.1.1, hw.2.1⟩).and (h' w ⟨hw.1.2, hw.2.2⟩)).mono fun _ _ hw' =>
    ⟨⟨hw'.1.1, hw'.2.1⟩, ⟨hw'.1.2, hw'.2.2⟩⟩

/-- A program whose statements all lead from `P` to `P`. -/
theorem Within.preserves {F : Prop} {A : Label S → Prop} {p : Prog S α} (h : p.Within F A)
    (hstmt : ∀ {stmt seen eff}, A (.wrote stmt seen eff) → S.denote stmt seen = .ok eff →
      P seen → P (eff.delta seen)) : p.Preserves P := by
  intro w hw r w' hexec
  induction p generalizing w with
  | ret a =>
    obtain ⟨-, rfl⟩ := hexec
    exact hw
  | raise x =>
    obtain ⟨-, rfl⟩ := hexec
    exact hw
  | select k g ihk _ => exact ihk _ (h.1 w.cur).2 w hw hexec
  | exec stmt k g ihk ihg =>
    simp only [Exec] at hexec
    split at hexec
    · rename_i eff hden
      obtain ⟨hA, hk⟩ := h.1 w.cur eff hden
      exact ihk w.cur hk { w with cur := eff.delta w.cur } ⟨hw.1, hstmt hA hden hw.2⟩ hexec
    · rename_i x hden
      exact ihg x (h.2.1 w.cur x hden).2 w hw hexec
  | commit k g ihk _ => exact ihk h.2.1 { w with base := w.cur } ⟨hw.2, hw.2⟩ hexec
  | rollback k ih => exact ih h.2 { w with cur := w.base } ⟨hw.1, hw.1⟩ hexec
  | clock k ih =>
    obtain ⟨t, -, hexec⟩ := hexec
    exact ih t (h t).2 { w with now := t } hw hexec
  | fresh k ih => exact ih w.next (h w.next).2 { w with next := w.next + 1 } hw hexec
  | emit e k ih => exact ih h.2 { w with log := w.log ++ [e] } hw hexec

end Prog

end Txn
