import Mathlib.Logic.Function.Basic
import Mathlib.Data.List.Induction

/-!
# Stores whose entries expire

A store executes each command as a whole, at an instant of its own clock, and an entry is gone
once its time has run out. What a key holds is a matter of the history of commands: of the last
one that set or removed it, and for `SET NX` of the last one that found it free.
-/

namespace Expiring

structure Entry (V : Type) where
  value : V
  expiresAt : ℕ

abbrev Store (K V : Type) : Type := K → Option (Entry V)

variable {K V : Type}

/-- What a key holds. -/
def Store.get (s : Store K V) (now : ℕ) (k : K) : Option V :=
  ((s k).filter fun e => now < e.expiresAt).map (·.value)

/-- `SET k v NX PX ttl`, `PSETEX k ttl v` and `GETDEL k`. The first answers whether the key was
free, the last what it held. -/
inductive Command (K V : Type)
  | setNx (k : K) (v : V) (ttl : ℕ)
  | setEx (k : K) (v : V) (ttl : ℕ)
  | getDel (k : K)

def Command.key : Command K V → K
  | setNx k _ _ => k
  | setEx k _ _ => k
  | getDel k => k

variable [DecidableEq K]

def Command.apply (now : ℕ) : Command K V → Store K V → Store K V
  | setNx k v ttl, s =>
      if (s.get now k).isSome then s else Function.update s k (some ⟨v, now + ttl⟩)
  | setEx k v ttl, s => Function.update s k (some ⟨v, now + ttl⟩)
  | getDel k, s => Function.update s k none

/-- The commands that were executed, the oldest first, each with its instant. -/
abbrev History (K V : Type) : Type := List (ℕ × Command K V)

/-- The store after a history. -/
def History.store (h : History K V) : Store K V :=
  h.foldl (fun s e => e.2.apply e.1 s) fun _ => none

/-- The instants of a history that is over by `now`. -/
def History.Until (h : History K V) (now : ℕ) : Prop :=
  h.Pairwise (fun e e' => e.1 ≤ e'.1) ∧ ∀ e ∈ h, e.1 ≤ now

variable {h : History K V} {k : K} {v : V} {now t ttl : ℕ} {c : Command K V}

/-! ## One command -/

@[simp] theorem History.store_nil : History.store ([] : History K V) = fun _ => none := rfl

theorem History.store_snoc : History.store (h ++ [(t, c)]) = c.apply t h.store := by
  unfold History.store
  rw [List.foldl_append]
  rfl

omit [DecidableEq K] in
theorem History.Until.init (hh : (h ++ [(t, c)]).Until now) : h.Until t ∧ t ≤ now := by
  obtain ⟨hpair, hnow⟩ := hh
  obtain ⟨hpair, -, hlast⟩ := List.pairwise_append.mp hpair
  refine ⟨⟨hpair, fun e he => hlast e he _ (List.mem_singleton_self _)⟩, ?_⟩
  exact hnow _ (List.mem_append_right _ (List.mem_singleton_self _))

omit [DecidableEq K] in
theorem History.Until.mono {now' : ℕ} (hh : h.Until now) (hle : now ≤ now') : h.Until now' :=
  ⟨hh.1, fun e he => Nat.le_trans (hh.2 e he) hle⟩

/-- A command leaves the other keys alone. -/
theorem Command.apply_of_ne {s : Store K V} (hk : c.key ≠ k) :
    (c.apply t s).get now k = s.get now k := by
  have hsame : c.apply t s k = s k := by
    cases c with
    | setNx k' v' ttl' =>
      simp only [Command.apply]
      split
      · rfl
      · exact Function.update_of_ne (Ne.symm hk) _ _
    | setEx k' v' ttl' => exact Function.update_of_ne (Ne.symm hk) _ _
    | getDel k' => exact Function.update_of_ne (Ne.symm hk) _ _
  unfold Store.get
  rw [hsame]

/-- What was set is held until its time has run out. -/
theorem Store.get_update {s : Store K V} :
    Store.get (Function.update s k (some ⟨v, t⟩)) now k = if now < t then some v else none := by
  unfold Store.get
  rw [Function.update_self, Option.filter_some]
  by_cases hlt : now < t <;> simp [hlt]

theorem Command.apply_setNx_free {s : Store K V} (hs : s.get t k = none) :
    (Command.setNx k v ttl).apply t s = Function.update s k (some ⟨v, t + ttl⟩) := by
  simp [Command.apply, hs]

theorem Command.apply_setNx_held {s : Store K V} {v' : V} (hs : s.get t k = some v') :
    (Command.setNx k v ttl).apply t s = s := by
  simp [Command.apply, hs]

/-- The last element of a list that is split somewhere. -/
theorem snoc_eq_split {α : Type} {l l₁ l₂ : List α} {a b : α} (h : l ++ [a] = l₁ ++ b :: l₂) :
    (l₂ = [] ∧ l = l₁ ∧ a = b) ∨ ∃ l₃, l₂ = l₃ ++ [a] ∧ l = l₁ ++ b :: l₃ := by
  induction l₂ using List.reverseRecOn with
  | nil =>
    obtain ⟨rfl, hab⟩ := List.append_inj' h rfl
    exact .inl ⟨rfl, rfl, List.singleton_inj.mp hab⟩
  | append_singleton l₃ c =>
    rw [← List.cons_append, ← List.append_assoc] at h
    obtain ⟨rfl, hac⟩ := List.append_inj' h rfl
    rw [List.singleton_inj.mp hac]
    exact .inr ⟨l₃, rfl, rfl⟩

/-! ## `SET NX` -/

/-- At `t`, a `SET NX` in the history found the key free, and took it for `ttl`. -/
def History.Takes (h : History K V) (k : K) (t ttl : ℕ) : Prop :=
  ∃ (h₁ : History K V) (v : V) (h₂ : History K V),
    h = h₁ ++ (t, .setNx k v ttl) :: h₂ ∧ h₁.store.get t k = none

theorem History.takes_snoc {t' ttl' : ℕ} : History.Takes (h ++ [(t, c)]) k t' ttl' ↔
    h.Takes k t' ttl' ∨ t = t' ∧ (∃ v, c = .setNx k v ttl') ∧ h.store.get t k = none := by
  constructor
  · rintro ⟨h₁, v, h₂, heq, hfree⟩
    rcases snoc_eq_split heq with ⟨rfl, rfl, hlast⟩ | ⟨h₃, rfl, rfl⟩
    · obtain ⟨rfl, rfl⟩ := Prod.mk.inj hlast
      exact .inr ⟨rfl, ⟨v, rfl⟩, hfree⟩
    · exact .inl ⟨h₁, v, h₃, rfl, hfree⟩
  · rintro (⟨h₁, v, h₂, rfl, hfree⟩ | ⟨rfl, ⟨v, rfl⟩, hfree⟩)
    · exact ⟨h₁, v, h₂ ++ [(t, c)], by simp, hfree⟩
    · exact ⟨h, v, [], rfl, hfree⟩

/-- **A key that only `SET NX` touches is free** once the time of every command that took it
has run out. -/
theorem History.free_iff (hh : h.Until now)
    (hk : ∀ e ∈ h, e.2.key = k → ∃ v ttl, e.2 = .setNx k v ttl) :
    h.store.get now k = none ↔ ∀ t ttl, h.Takes k t ttl → t + ttl ≤ now := by
  induction h using List.reverseRecOn generalizing now with
  | nil =>
    refine iff_of_true rfl fun t ttl ⟨h₁, v, h₂, heq, _⟩ => ?_
    exact absurd heq (by simp)
  | append_singleton h e ih =>
    obtain ⟨t₀, c⟩ := e
    obtain ⟨hinit, hle⟩ := hh.init
    have ih := fun now (hh : History.Until h now) =>
      ih hh fun e he => hk e (List.mem_append_left _ he)
    rw [History.store_snoc]
    by_cases hc : c.key = k
    · obtain ⟨v, ttl, rfl⟩ := hk (t₀, c) (List.mem_append_right _ (List.mem_singleton_self _)) hc
      cases hget : (History.store h).get t₀ k with
      | some v' =>
        rw [Command.apply_setNx_held hget, ih now (hinit.mono hle)]
        refine forall₂_congr fun t ttl => imp_congr_left ?_
        rw [History.takes_snoc, hget]
        simp
      | none =>
        rw [Command.apply_setNx_free hget, Store.get_update, ite_eq_right_iff]
        have hrun := (ih t₀ hinit).mp hget
        constructor
        · intro hnone t ttl' htakes
          rcases History.takes_snoc.mp htakes with htakes | ⟨rfl, ⟨v', heq⟩, -⟩
          · exact Nat.le_trans (hrun t ttl' htakes) hle
          · injection heq with _ _ httl
            subst httl
            by_contra hlt
            cases hnone (Nat.lt_of_not_le hlt)
        · intro hall hlt
          have htaken := hall t₀ ttl (History.takes_snoc.mpr (.inr ⟨rfl, ⟨v, rfl⟩, hget⟩))
          exact absurd htaken (Nat.not_le.mpr hlt)
    · rw [Command.apply_of_ne hc, ih now (hinit.mono hle)]
      refine forall₂_congr fun t ttl => imp_congr_left ?_
      rw [History.takes_snoc]
      refine ⟨.inl, fun htakes => htakes.resolve_right ?_⟩
      rintro ⟨-, ⟨v, rfl⟩, -⟩
      exact hc rfl

/-! ## `SETEX` and `GETDEL` -/

/-- **A key that `SET NX` does not touch** holds what the last command on it set, until its time
has run out. -/
theorem History.get_iff (hk : ∀ e ∈ h, ∀ v ttl, e.2 ≠ .setNx k v ttl) :
    h.store.get now k = some v ↔ ∃ h₁ t ttl h₂, h = h₁ ++ (t, .setEx k v ttl) :: h₂ ∧
      now < t + ttl ∧ ∀ e ∈ h₂, e.2.key ≠ k := by
  induction h using List.reverseRecOn with
  | nil =>
    refine iff_of_false (by rintro ⟨⟩) ?_
    rintro ⟨h₁, t, ttl, h₂, heq, -⟩
    exact absurd heq (by simp)
  | append_singleton h e ih =>
    obtain ⟨t₀, c⟩ := e
    have ih := ih fun e he => hk e (List.mem_append_left _ he)
    have hlast := hk (t₀, c) (List.mem_append_right _ (List.mem_singleton_self _))
    rw [History.store_snoc]
    by_cases hc : c.key = k
    · -- the last command is on the key
      have honly : (∃ h₁ t ttl h₂, h ++ [(t₀, c)] = h₁ ++ (t, .setEx k v ttl) :: h₂ ∧
          now < t + ttl ∧ ∀ e ∈ h₂, e.2.key ≠ k) ↔ ∃ ttl, c = .setEx k v ttl ∧ now < t₀ + ttl := by
        constructor
        · rintro ⟨h₁, t, ttl, h₂, heq, hlt, hothers⟩
          rcases snoc_eq_split heq with ⟨rfl, -, hsame⟩ | ⟨h₃, rfl, -⟩
          · obtain ⟨rfl, rfl⟩ := Prod.mk.inj hsame
            exact ⟨ttl, rfl, hlt⟩
          · exact absurd hc (hothers _ (List.mem_append_right _ (List.mem_singleton_self _)))
        · rintro ⟨ttl, rfl, hlt⟩
          exact ⟨h, t₀, ttl, [], rfl, hlt, by simp⟩
      rw [honly]
      cases c with
      | setNx k' v' ttl' =>
        obtain rfl : k' = k := hc
        exact absurd rfl (hlast v' ttl')
      | setEx k' v' ttl' =>
        obtain rfl : k' = k := hc
        rw [Command.apply, Store.get_update]
        constructor
        · intro hsome
          split at hsome
          · rename_i hlt
            obtain rfl := Option.some.inj hsome
            exact ⟨ttl', rfl, hlt⟩
          · cases hsome
        · rintro ⟨ttl, heq, hlt⟩
          injection heq with _ hv httl
          subst hv httl
          rw [if_pos hlt]
      | getDel k' =>
        obtain rfl : k' = k := hc
        refine iff_of_false ?_ (by rintro ⟨ttl, heq, -⟩; cases heq)
        unfold Store.get
        rw [Command.apply, Function.update_self]
        simp
    · rw [Command.apply_of_ne hc, ih]
      constructor
      · rintro ⟨h₁, t, ttl, h₂, rfl, hlt, hothers⟩
        refine ⟨h₁, t, ttl, h₂ ++ [(t₀, c)], by simp, hlt, fun e he => ?_⟩
        rcases List.mem_append.mp he with he | he
        · exact hothers e he
        · rw [List.mem_singleton.mp he]
          exact hc
      · rintro ⟨h₁, t, ttl, h₂, heq, hlt, hothers⟩
        rcases snoc_eq_split heq with ⟨rfl, -, hsame⟩ | ⟨h₃, rfl, rfl⟩
        · obtain ⟨-, rfl⟩ := Prod.mk.inj hsame
          exact absurd rfl hc
        · exact ⟨h₁, t, ttl, h₃, rfl, hlt, fun e he => hothers e (List.mem_append_left _ he)⟩

end Expiring
