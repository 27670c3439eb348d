import Mathlib.Data.List.Sort

/-!
# Paging through sorted rows

A store answers `ORDER BY … LIMIT … OFFSET …` page by page, and rows that tie may come in
another order each time. The rows in front of a page boundary are the same in all these
orders if and only if no tie lies across the boundary, and then, and only then, the pages
together are the rows, each of them once.
-/

namespace Paging

variable {α : Type*} (le : α → α → Prop)

/-- **An order of the rows** `ORDER BY` may answer in. -/
structure Ordered (rows l : List α) : Prop where
  perm : l.Perm rows
  sorted : l.Pairwise le

/-- The page `i`, from 0, of the rows in an order. -/
def page (size : ℕ) (l : List α) (i : ℕ) : List α := (l.drop (i * size)).take size

/-- The first `n` pages, each cut from the order its own query was answered in. -/
def pages (size : ℕ) (order : ℕ → List α) (n : ℕ) : List α :=
  (List.range n).flatMap fun i => page size (order i) i

variable [DecidableRel le]

/-- How many rows come before `a` in every order. -/
def before (rows : List α) (a : α) : ℕ := rows.countP fun b => ¬ le a b

/-- How many rows come before `a`, or tie with it. -/
def upTo (rows : List α) (a : α) : ℕ := rows.countP fun b => le b a

/-- **A tie across the boundary** behind `m` rows. -/
def Cut (rows : List α) (m : ℕ) : Prop := ∃ a ∈ rows, before le rows a < m ∧ m < upTo le rows a

instance (rows : List α) (m : ℕ) : Decidable (Cut le rows m) :=
  inferInstanceAs (Decidable (∃ a ∈ rows, _))

variable {le} {rows l s t : List α} {a : α} {m : ℕ}

theorem upTo_le_length (rows : List α) (a : α) : upTo le rows a ≤ rows.length :=
  List.countP_le_length

theorem upTo_congr (h : l.Perm rows) (a : α) : upTo le l a = upTo le rows a := h.countP_eq _

/-- Which ties there are does not depend on the order. -/
theorem cut_congr (h : l.Perm rows) : Cut le l m ↔ Cut le rows m := by
  have hbefore : ∀ a, before le l a = before le rows a := fun a => h.countP_eq _
  have hupTo : ∀ a, upTo le l a = upTo le rows a := upTo_congr h
  simp only [Cut, hbefore, hupTo, h.mem_iff]

/-! ## Two sides of a boundary -/

/-- A row that is not strictly behind all of the left side ties with one of them, or comes
before it. -/
theorem exists_left (h : before le (s ++ t) a < s.length) : ∃ x ∈ s, le a x := by
  by_contra hnone
  have hall : s.countP (fun b => ¬ le a b) = s.length := by
    refine List.countP_eq_length.mpr fun b hb => decide_eq_true fun hab => ?_
    exact hnone ⟨b, hb, hab⟩
  unfold before at h
  rw [List.countP_append, hall] at h
  omega

theorem exists_right (h : s.length < upTo le (s ++ t) a) : ∃ y ∈ t, le y a := by
  by_contra hnone
  have hzero : t.countP (fun b => le b a) = 0 := by
    refine List.countP_eq_zero.mpr fun b hb hba => ?_
    exact hnone ⟨b, hb, of_decide_eq_true hba⟩
  have hle : s.countP (fun b => le b a) ≤ s.length := List.countP_le_length
  unfold upTo at h
  rw [List.countP_append, hzero] at h
  omega

variable [Std.Total le]

/-- A row on the left side of a boundary has fewer rows strictly before it than that side
has. -/
theorem before_lt_of_mem_left (h : (s ++ t).Pairwise le) (ha : a ∈ s) :
    before le (s ++ t) a < s.length := by
  have hright : t.countP (fun b => ¬ le a b) = 0 := by
    refine List.countP_eq_zero.mpr fun b hb hab => ?_
    exact of_decide_eq_true hab ((List.pairwise_append.mp h).2.2 a ha b hb)
  have hself : s.countP (fun b => ¬ le a b) ≠ s.length := by
    intro hall
    have hstrict := of_decide_eq_true (List.countP_eq_length.mp hall a ha)
    exact hstrict (refl_of le a)
  have hle : s.countP (fun b => ¬ le a b) ≤ s.length := List.countP_le_length
  unfold before
  rw [List.countP_append, hright]
  omega

/-- On the right side a row is behind all of the left side, and counts itself. -/
theorem length_lt_upTo_of_mem_right (h : (s ++ t).Pairwise le) (ha : a ∈ t) :
    s.length < upTo le (s ++ t) a := by
  have hleft : s.countP (fun b => le b a) = s.length := by
    refine List.countP_eq_length.mpr fun b hb => decide_eq_true ?_
    exact (List.pairwise_append.mp h).2.2 b hb a ha
  have hself : 0 < t.countP (fun b => le b a) :=
    List.countP_pos_iff.mpr ⟨a, ha, decide_eq_true (refl_of le a)⟩
  unfold upTo
  rw [List.countP_append, hleft]
  omega

/-- **Without a tie across it**, the rows in front of a boundary are those with at most so
many rows up to them. -/
theorem take_eq_filter (h : l.Pairwise le) (huncut : ¬ Cut le l m) :
    l.take m = l.filter fun a => upTo le l a ≤ m := by
  have hsplit : (l.take m ++ l.drop m).Pairwise le := by rwa [List.take_append_drop]
  have hleft : ∀ a ∈ l.take m, upTo le l a ≤ m := by
    intro a ha
    have hbefore := before_lt_of_mem_left hsplit ha
    rw [List.take_append_drop, List.length_take] at hbefore
    by_contra hhigh
    exact huncut ⟨a, List.mem_of_mem_take ha, by omega, by omega⟩
  have hright : ∀ a ∈ l.drop m, ¬ upTo le l a ≤ m := by
    intro a ha hhigh
    have hbehind := length_lt_upTo_of_mem_right hsplit ha
    have hpos := List.length_pos_of_mem ha
    rw [List.take_append_drop, List.length_take] at hbehind
    rw [List.length_drop] at hpos
    omega
  have hnone : (l.drop m).filter (fun a => upTo le l a ≤ m) = [] := by
    refine List.filter_eq_nil_iff.mpr fun a ha hhigh => ?_
    exact hright a ha (of_decide_eq_true hhigh)
  have hall : (l.take m).filter (fun a => upTo le l a ≤ m) = l.take m :=
    List.filter_eq_self.mpr fun a ha => decide_eq_true (hleft a ha)
  calc l.take m
      = (l.take m).filter (fun a => upTo le l a ≤ m) ++
          (l.drop m).filter (fun a => upTo le l a ≤ m) := by rw [hnone, hall, List.append_nil]
    _ = l.filter fun a => upTo le l a ≤ m := by
        rw [← List.filter_append, List.take_append_drop]

/-- So they are the same in every order. -/
theorem Ordered.take_perm (h : Ordered le rows l) (huncut : ¬ Cut le rows m) :
    (l.take m).Perm (rows.filter fun a => upTo le rows a ≤ m) := by
  have hfilter := take_eq_filter h.sorted fun hcut => huncut ((cut_congr h.perm).mp hcut)
  simp only [upTo_congr h.perm] at hfilter
  rw [hfilter]
  exact h.perm.filter _

/-! ## All pages -/

omit [Std.Total le] [DecidableRel le] in
theorem pages_succ (size : ℕ) (order : ℕ → List α) (n : ℕ) :
    pages size order (n + 1) = pages size order n ++ page size (order n) n := by
  simp [pages, List.range_succ]

omit [Std.Total le] [DecidableRel le] in
/-- One page more of the same order. -/
theorem take_append_page (size : ℕ) (l : List α) (n : ℕ) :
    l.take (n * size) ++ page size l n = l.take ((n + 1) * size) := by
  rw [Nat.succ_mul, List.take_add]
  rfl

section

variable {size : ℕ} {order : ℕ → List α}

omit [Std.Total le] [DecidableRel le] in
/-- What is on a page is one of the rows. -/
theorem mem_of_mem_pages (horder : ∀ i, Ordered le rows (order i)) {n : ℕ}
    (ha : a ∈ pages size order n) : a ∈ rows := by
  obtain ⟨i, -, hi⟩ := List.mem_flatMap.mp ha
  exact (horder i).perm.mem_iff.mp (List.mem_of_mem_drop (List.mem_of_mem_take hi))

/-- **No tie across a boundary**: the first pages are the rows in front of theirs. -/
theorem pages_perm (horder : ∀ i, Ordered le rows (order i))
    (huncut : ∀ i, ¬ Cut le rows (i * size)) (n : ℕ) :
    (pages size order n).Perm (rows.filter fun a => upTo le rows a ≤ n * size) := by
  induction n with
  | zero =>
    have hzero := (horder 0).take_perm (huncut 0)
    rw [Nat.zero_mul, List.take_zero] at hzero
    rw [Nat.zero_mul]
    exact hzero
  | succ n ih =>
    rw [pages_succ]
    have hfront : (pages size order n).Perm ((order n).take (n * size)) :=
      ih.trans ((horder n).take_perm (huncut n)).symm
    have hpage := hfront.append_right (page size (order n) n)
    rw [take_append_page] at hpage
    exact hpage.trans ((horder n).take_perm (huncut (n + 1)))

/-- Enough pages are all the rows. -/
theorem pages_complete (horder : ∀ i, Ordered le rows (order i))
    (huncut : ∀ i, ¬ Cut le rows (i * size)) {n : ℕ} (hn : rows.length ≤ n * size) :
    (pages size order n).Perm rows := by
  have hall : (rows.filter fun a => upTo le rows a ≤ n * size) = rows :=
    List.filter_eq_self.mpr fun a _ => decide_eq_true ((upTo_le_length rows a).trans hn)
  have hperm := pages_perm horder huncut n
  rwa [hall] at hperm

end

/-! ## A tie across a boundary -/

omit [DecidableRel le] [Std.Total le] in
/-- Pages of one order are the rows in front. -/
theorem pages_const (size : ℕ) (l : List α) (n : ℕ) :
    pages size (fun _ => l) n = l.take (n * size) := by
  induction n with
  | zero => simp [pages]
  | succ n ih => rw [pages_succ, ih, take_append_page]

omit [DecidableRel le] [Std.Total le] in
/-- Pages of one order up to the boundary `i`, and of another one behind it. -/
theorem pages_switch (size : ℕ) (l l' : List α) {i n : ℕ} (hi : i ≤ n)
    (hlength : i * size ≤ l'.length) :
    pages size (fun j => if j < i then l else l') n =
      l.take (i * size) ++ (l'.take (n * size)).drop (i * size) := by
  induction n, hi using Nat.le_induction with
  | base =>
    have hfront : pages size (fun j => if j < i then l else l') i = pages size (fun _ => l) i := by
      refine List.flatMap_congr fun j hj => ?_
      simp only [if_pos (List.mem_range.mp hj)]
    have hback : (l'.take (i * size)).drop (i * size) = [] := by
      rw [List.drop_eq_nil_iff, List.length_take]
      omega
    rw [hfront, pages_const, hback, List.append_nil]
  | succ n hi ih =>
    have hle : i * size ≤ (l'.take (n * size)).length := by
      have hmono : i * size ≤ n * size := Nat.mul_le_mul_right size hi
      rw [List.length_take]
      omega
    rw [pages_succ, ih, if_neg (by omega), List.append_assoc, ← List.drop_append_of_le_length hle,
      take_append_page]

variable [IsTrans α le]

omit [Std.Total le] in
/-- **The rows on the two sides of it** tie. -/
theorem Cut.adjacent (hcut : Cut le l m) (hsorted : l.Pairwise le) :
    ∃ s x y t, l = s ++ x :: y :: t ∧ s.length + 1 = m ∧ le y x := by
  obtain ⟨a, -, hlow, hhigh⟩ := hcut
  have hbound : upTo le l a ≤ l.length := upTo_le_length l a
  have hsplit : l.take m ++ l.drop m = l := List.take_append_drop m l
  have hm : (l.take m).length = m := by
    rw [List.length_take]
    omega
  rw [← hsplit] at hlow hhigh hsorted
  obtain ⟨x', hx', hax'⟩ := exists_left (by rwa [hm])
  obtain ⟨y', hy', hya⟩ := exists_right (by rwa [hm])
  obtain ⟨hleft, hright, hacross⟩ := List.pairwise_append.mp hsorted
  -- the last row on the left, and the first one on the right
  obtain ⟨s, x, hs⟩ := List.eq_nil_or_concat (l.take m) |>.resolve_left (List.ne_nil_of_mem hx')
  rw [List.concat_eq_append] at hs
  obtain ⟨y, t, ht⟩ := List.exists_cons_of_ne_nil (List.ne_nil_of_mem hy')
  rw [hs] at hx' hleft
  rw [ht] at hy' hright
  have hax : le a x := by
    rcases List.mem_append.mp hx' with hx' | hx'
    · exact trans_of le hax' ((List.pairwise_append.mp hleft).2.2 x' hx' x (List.mem_singleton.mpr rfl))
    · rwa [← List.mem_singleton.mp hx']
  have hay : le y a := by
    rcases List.mem_cons.mp hy' with rfl | hy'
    · exact hya
    · exact trans_of le ((List.pairwise_cons.mp hright).1 y' hy') hya
  refine ⟨s, x, y, t, ?_, ?_, trans_of le hay hax⟩
  · rw [← hsplit, hs, ht]
    simp
  · rw [← hm, hs]
    simp

omit [Std.Total le] in
/-- Rows that tie come in either order. -/
theorem exists_other_order (hl : Ordered le rows l) (hnodup : rows.Nodup)
    (hcut : Cut le rows m) : ∃ l', Ordered le rows l' ∧ ¬ (l.take m).Perm (l'.take m) := by
  obtain ⟨s, x, y, t, rfl, rfl, hyx⟩ := ((cut_congr hl.perm).mpr hcut).adjacent hl.sorted
  refine ⟨s ++ y :: x :: t, ⟨?_, ?_⟩, ?_⟩
  · exact ((List.Perm.swap x y t).append_left s).trans hl.perm
  · have hsorted := hl.sorted
    simp only [List.pairwise_append, List.pairwise_cons, List.mem_cons] at hsorted ⊢
    obtain ⟨hs, ⟨hx, hy, ht⟩, hacross⟩ := hsorted
    refine ⟨hs, ⟨?_, fun b hb => hx b (.inr hb), ht⟩, fun b hb c hc => hacross b hb c ?_⟩
    · rintro b (rfl | hb)
      · exact hyx
      · exact hy b hb
    · tauto
  · intro hperm
    have hfront : ∀ z w : α, (s ++ z :: w :: t).take (s.length + 1) = s ++ [z] := by
      intro z w
      rw [List.take_length_add_append]
      rfl
    rw [hfront, hfront] at hperm
    have hxy : x = y := List.singleton_perm_singleton.mp ((List.perm_append_left_iff s).mp hperm)
    have hdistinct := hl.perm.nodup_iff.mpr hnodup
    rw [hxy] at hdistinct
    exact (List.nodup_cons.mp hdistinct.of_append_right).1 (List.mem_cons_self ..)

variable (le) in
/-- The rows have an order. -/
theorem exists_ordered (rows : List α) : ∃ l, Ordered le rows l :=
  ⟨rows.insertionSort le, List.perm_insertionSort le rows, List.pairwise_insertionSort le rows⟩

variable (le) in
/-- **Paging, exactly.** All pages together are the rows, whatever order each query is
answered in, if and only if no tie lies across a boundary. -/
theorem pages_exact_iff {size n : ℕ} (hnodup : rows.Nodup) (hn : rows.length ≤ n * size) :
    (∀ order : ℕ → List α, (∀ i, Ordered le rows (order i)) → (pages size order n).Perm rows) ↔
      ∀ i, ¬ Cut le rows (i * size) := by
  constructor
  · intro hall i hcut
    obtain ⟨l, hl⟩ := exists_ordered le rows
    obtain ⟨l', hl', hother⟩ := exists_other_order hl hnodup hcut
    have hlength : i * size < rows.length := by
      obtain ⟨a, -, -, hhigh⟩ := hcut
      exact hhigh.trans_le (upTo_le_length rows a)
    have hi : i ≤ n := by
      have hlt : i * size < n * size := by omega
      exact (Nat.lt_of_mul_lt_mul_right hlt).le
    have hperm := hall (fun j => if j < i then l else l') fun j => by
      by_cases hj : j < i
      · rw [if_pos hj]
        exact hl
      · rw [if_neg hj]
        exact hl'
    have hwhole : l'.take (n * size) = l' := by
      refine List.take_of_length_le ?_
      rw [hl'.perm.length_eq]
      exact hn
    rw [pages_switch size l l' hi (by rw [hl'.perm.length_eq]; omega), hwhole] at hperm
    -- what is behind the boundary is the same, so what is in front would be
    have hfront : (l.take (i * size) ++ l'.drop (i * size)).Perm
        (l'.take (i * size) ++ l'.drop (i * size)) := by
      rw [List.take_append_drop]
      exact hperm.trans hl'.perm.symm
    exact hother ((List.perm_append_right_iff _).mp hfront)
  · intro huncut order horder
    exact pages_complete horder huncut hn

/-- **Where only a row itself ties with a row**, no boundary is cut. -/
theorem not_cut_of_antisymm (hnodup : rows.Nodup)
    (hantisymm : ∀ a ∈ rows, ∀ b ∈ rows, le a b → le b a → a = b) : ¬ Cut le rows m := by
  intro hcut
  obtain ⟨l, hl⟩ := exists_ordered le rows
  obtain ⟨s, x, y, t, rfl, -, hyx⟩ := ((cut_congr hl.perm).mpr hcut).adjacent hl.sorted
  have hmem : ∀ z ∈ [x, y], z ∈ rows := by
    intro z hz
    refine hl.perm.mem_iff.mp (List.mem_append_right s ?_)
    simp only [List.mem_cons, List.not_mem_nil, or_false] at hz ⊢
    tauto
  have hxy : le x y := by
    have hright := (List.pairwise_append.mp hl.sorted).2.1
    exact (List.pairwise_cons.mp hright).1 y (List.mem_cons_self ..)
  have hsame := hantisymm x (hmem x (by simp)) y (hmem y (by simp)) hxy hyx
  have hdistinct := hl.perm.nodup_iff.mpr hnodup
  rw [hsame] at hdistinct
  exact (List.nodup_cons.mp hdistinct.of_append_right).1 (List.mem_cons_self ..)

end Paging
