import Mathlib.Algebra.Group.Nat.Defs
import Mathlib.Data.List.Basic

/-!
# Texts that can be split again

A printer is read back from the front of a text when what it printed, and what follows,
are determined by the text. Printers are put together from parts that have this property:
the items of a list up to a mark that starts no item, a run of characters up to the first
of another kind, a number in a fixed count of digits.
-/

namespace Codec

variable {τ α : Type}

/-- Among the values in `P`, the print of one and what follows it are determined by the
text, whatever may follow being in `R`. -/
def Splits (P : α → Prop) (R : List τ → Prop) (print : α → List τ) : Prop :=
  ∀ a b r r', P a → P b → R r → R r' → print a ++ r = print b ++ r' → a = b ∧ r = r'

/-- Whatever may follow. -/
abbrev PrefixFree (print : α → List τ) : Prop := Splits (fun _ => True) (fun _ => True) print

theorem Splits.injective {P : α → Prop} {R : List τ → Prop} {print : α → List τ}
    (h : Splits P R print) (hnil : R []) {a b : α} (ha : P a) (hb : P b)
    (heq : print a = print b) : a = b :=
  (h a b [] [] ha hb hnil hnil (by rw [heq])).1

/-- A printer that some reader undoes is prefix free. -/
theorem prefixFree_of_read {print : α → List τ} (read : List τ → Option (α × List τ))
    (h : ∀ a r, read (print a ++ r) = some (a, r)) : PrefixFree print := by
  intro a b r r' _ _ _ _ heq
  have hboth : some (a, r) = some (b, r') := by rw [← h a r, heq, h b r']
  exact Prod.mk.injEq .. ▸ Option.some.inj hboth

/-- **The items of a list**, up to a mark that starts no item. -/
theorem PrefixFree.flatMap {print : α → List τ} (h : PrefixFree print) {mark : τ}
    (hmark : ∀ a r r', print a ++ r ≠ mark :: r') :
    ∀ (l l' : List α) (r r' : List τ),
      l.flatMap print ++ mark :: r = l'.flatMap print ++ mark :: r' → l = l' ∧ r = r' := by
  intro l
  induction l with
  | nil =>
    intro l' r r' heq
    cases l' with
    | nil => exact ⟨rfl, (List.cons.inj heq).2⟩
    | cons b l' =>
      simp only [List.flatMap_cons, List.append_assoc] at heq
      exact absurd heq.symm (hmark b _ _)
  | cons a l ih =>
    intro l' r r' heq
    cases l' with
    | nil =>
      simp only [List.flatMap_cons, List.append_assoc] at heq
      exact absurd heq (hmark a _ _)
    | cons b l' =>
      simp only [List.flatMap_cons, List.append_assoc] at heq
      obtain ⟨hab, hrest⟩ := h a b _ _ trivial trivial trivial trivial heq
      obtain ⟨hl, hr⟩ := ih l' r r' hrest
      exact ⟨by rw [hab, hl], hr⟩

/-- **A run of characters** ends where the first of another kind stands. -/
theorem run_splits {p : τ → Prop} {l l' r r' : List τ} (hl : ∀ c ∈ l, p c) (hl' : ∀ c ∈ l', p c)
    (hr : ∀ c ∈ r.head?, ¬ p c) (hr' : ∀ c ∈ r'.head?, ¬ p c) (heq : l ++ r = l' ++ r') :
    l = l' ∧ r = r' := by
  induction l generalizing l' with
  | nil =>
    cases l' with
    | nil => exact ⟨rfl, heq⟩
    | cons c l' =>
      have hc : p c := hl' c (by simp)
      simp only [List.nil_append] at heq
      exact absurd hc (hr c (by simp [heq]))
  | cons c l ih =>
    cases l' with
    | nil =>
      have hc : p c := hl c (by simp)
      simp only [List.nil_append] at heq
      exact absurd hc (hr' c (by simp [← heq]))
    | cons d l' =>
      have hhead : c = d := (List.cons.inj heq).1
      have hrest : l ++ r = l' ++ r' := (List.cons.inj heq).2
      obtain ⟨htail, hr⟩ := ih (fun e he => hl e (by simp [he])) (fun e he => hl' e (by simp [he]))
        hrest
      exact ⟨by rw [hhead, htail], hr⟩

/-! ## Numbers in a fixed count of digits -/

/-- `n` in `width` digits to the base `base`, leading zeros included. -/
def digits (digit : ℕ → τ) (base : ℕ) : ℕ → ℕ → List τ
  | 0, _ => []
  | width + 1, n => digits digit base width (n / base) ++ [digit (n % base)]

variable {digit : ℕ → τ} {base : ℕ}

@[simp] theorem length_digits (width n : ℕ) : (digits digit base width n).length = width := by
  induction width generalizing n with
  | zero => rfl
  | succ width ih => simp [digits, ih]

/-- As many digits as the number has determine it. -/
theorem digits_injective (hdigit : ∀ m n, m < base → n < base → digit m = digit n → m = n)
    {width m n : ℕ} (hm : m < base ^ width) (hn : n < base ^ width)
    (heq : digits digit base width m = digits digit base width n) : m = n := by
  induction width generalizing m n with
  | zero =>
    have hm' : m < 1 := by simpa using hm
    have hn' : n < 1 := by simpa using hn
    omega
  | succ width ih =>
    have hpos : 0 < base := by
      by_contra hzero
      have hbase : base = 0 := by omega
      simp [hbase] at hm
    rw [Nat.pow_succ] at hm hn
    have hsplit := List.append_inj heq (by simp)
    have hdiv : m / base = n / base :=
      ih (Nat.div_lt_of_lt_mul (by rwa [Nat.mul_comm] at hm))
        (Nat.div_lt_of_lt_mul (by rwa [Nat.mul_comm] at hn)) hsplit.1
    have hmod : m % base = n % base :=
      hdigit _ _ (Nat.mod_lt _ hpos) (Nat.mod_lt _ hpos) (List.cons.inj hsplit.2).1
    rw [← Nat.div_add_mod m base, ← Nat.div_add_mod n base, hdiv, hmod]

/-- And what follows them. -/
theorem digits_splits (hdigit : ∀ m n, m < base → n < base → digit m = digit n → m = n)
    (width : ℕ) : Splits (· < base ^ width) (fun _ => True) (digits digit base width) := by
  intro m n r r' hm hn _ _ heq
  have hsplit := List.append_inj heq (by simp)
  exact ⟨digits_injective hdigit hm hn hsplit.1, hsplit.2⟩

end Codec
