import Mathlib.Data.List.Basic
import Mathlib.Order.Lattice

/-!
# Consumer groups of a stream

What a group keeps of one consumer: the id of the last entry delivered, and the entries
delivered and not acknowledged, oldest first. The list of pending entries is read in pages
by a cursor, and shrinks in between as entries are acknowledged; a reader that has seen
everything up to its cursor loses nothing by that.
-/

namespace Streams

structure ConsumerGroup (ι : Type) where
  delivered : ι
  pending : List ι

namespace ConsumerGroup

variable {ι : Type} [LinearOrder ι]

/-- The pending entries beyond a cursor. -/
def after (g : ConsumerGroup ι) (start : ι) : List ι := g.pending.filter (start < ·)

/-- One page of them. -/
def readPending (g : ConsumerGroup ι) (start : ι) (count : ℕ) : List ι := (g.after start).take count

/-- The entries of the stream that were not delivered yet, as many as are asked for. -/
def readNew (g : ConsumerGroup ι) (ids : List ι) (count : ℕ) : List ι :=
  (ids.filter (g.delivered < ·)).take count

/-- Entries become pending as they are delivered. -/
def deliver (g : ConsumerGroup ι) (ids : List ι) : ConsumerGroup ι where
  delivered := ids.getLastD g.delivered
  pending := g.pending ++ ids

def ack (g : ConsumerGroup ι) (id : ι) : ConsumerGroup ι := { g with pending := g.pending.filter (· ≠ id) }

/-- Pending entries are in order, and none is beyond the last one delivered. -/
structure WellFormed (g : ConsumerGroup ι) : Prop where
  ordered : g.pending.Pairwise (· < ·)
  delivered : ∀ id ∈ g.pending, id ≤ g.delivered

variable {g : ConsumerGroup ι}

theorem mem_after {start id : ι} : id ∈ g.after start ↔ id ∈ g.pending ∧ start < id := by
  simp [after]

theorem WellFormed.nodup (h : g.WellFormed) : g.pending.Nodup :=
  h.ordered.imp fun hlt => ne_of_lt hlt

theorem WellFormed.ack (h : g.WellFormed) (id : ι) : (g.ack id).WellFormed where
  ordered := h.ordered.filter _
  delivered := by
    intro id' hid'
    exact h.delivered id' (List.mem_filter.mp hid').1

/-- The last of a list in order is the greatest. -/
theorem le_getLastD {ids : List ι} (h : ids.Pairwise (· < ·)) {id : ι} (hid : id ∈ ids) (d : ι) :
    id ≤ ids.getLastD d := by
  rcases List.eq_nil_or_concat' ids with rfl | ⟨init, last, rfl⟩
  · cases hid
  have hlast : (init ++ [last]).getLastD d = last := by simp
  rw [hlast]
  rcases List.mem_append.mp hid with hid | hid
  · exact le_of_lt ((List.pairwise_append.mp h).2.2 id hid last (by simp))
  · exact le_of_eq (List.mem_singleton.mp hid)

/-- Entries delivered in the order of the stream keep a group well formed. -/
theorem WellFormed.deliver (h : g.WellFormed) {ids : List ι} (hids : ids.Pairwise (· < ·))
    (hnew : ∀ id ∈ ids, g.delivered < id) : (g.deliver ids).WellFormed where
  ordered := by
    refine List.pairwise_append.mpr ⟨h.ordered, hids, ?_⟩
    intro old hold new hmem
    exact lt_of_le_of_lt (h.delivered old hold) (hnew new hmem)
  delivered := by
    change ∀ id ∈ g.pending ++ ids, id ≤ ids.getLastD g.delivered
    intro id hid
    rcases List.mem_append.mp hid with hold | hmem
    · cases ids with
      | nil => exact h.delivered id hold
      | cons a ids =>
        have hlast : a ≤ (a :: ids).getLastD g.delivered := le_getLastD hids (by simp) _
        have hfirst := hnew a (by simp)
        exact le_of_lt (lt_of_le_of_lt (h.delivered id hold) (lt_of_lt_of_le hfirst hlast))
    · exact le_getLastD hids hmem _

theorem readNew_ordered {ids : List ι} (h : ids.Pairwise (· < ·)) (count : ℕ) :
    (g.readNew ids count).Pairwise (· < ·) :=
  (h.filter _).sublist (List.take_sublist _ _)

theorem readNew_new {ids : List ι} {count : ℕ} {id : ι} (h : id ∈ g.readNew ids count) :
    id ∈ ids ∧ g.delivered < id := by
  have hmem := List.mem_of_mem_take h
  rw [List.mem_filter, decide_eq_true_iff] at hmem
  exact hmem

/-! ## Paging -/

/-- In a list in order, what is beyond the last of its first part is the second part. -/
theorem filter_lt_last {page rest : List ι} {last : ι} (h : (page ++ [last] ++ rest).Pairwise (· < ·)) :
    (page ++ [last] ++ rest).filter (last < ·) = rest := by
  obtain ⟨hpage, -, hcross⟩ := List.pairwise_append.mp h
  obtain ⟨-, -, hlast⟩ := List.pairwise_append.mp hpage
  rw [List.filter_append, List.filter_eq_nil_iff.mpr, List.nil_append, List.filter_eq_self]
  · intro id hid
    exact decide_eq_true (hcross last (by simp) id hid)
  · intro id hid
    rw [decide_eq_true_iff, not_lt]
    rcases List.mem_append.mp hid with hid | hid
    · exact le_of_lt (hlast id hid last (by simp))
    · exact le_of_eq (List.mem_singleton.mp hid)

/-- **A page and what is beyond its last entry** are what was beyond the cursor. -/
theorem page_append_after (h : g.WellFormed) {start last : ι} {init : List ι} {count : ℕ}
    (hpage : g.readPending start count = init ++ [last]) :
    init ++ [last] ++ g.after last = g.after start := by
  have hsplit : init ++ [last] ++ (g.after start).drop count = g.after start := by
    rw [← hpage]
    exact List.take_append_drop count _
  have hlast : last ∈ g.after start := by
    rw [← hsplit]
    simp
  -- what is beyond the last entry is beyond the cursor
  have hbeyond : g.after last = (g.after start).filter (last < ·) := by
    unfold after
    rw [List.filter_filter]
    refine List.filter_congr fun id _ => ?_
    rw [Bool.eq_self_and, decide_eq_true_iff, decide_eq_true_iff]
    exact fun hlt => lt_trans (mem_after.mp hlast).2 hlt
  have hordered : (init ++ [last] ++ (g.after start).drop count).Pairwise (· < ·) := by
    rw [hsplit]
    exact h.ordered.filter _
  have hrest : (g.after start).filter (last < ·) = (g.after start).drop count := by
    conv_lhs => rw [← hsplit]
    exact filter_lt_last hordered
  rw [hbeyond, hrest, hsplit]

/-- An acknowledgement behind the cursor changes nothing beyond it. -/
theorem after_ack {start id : ι} (hid : id ≤ start) : (g.ack id).after start = g.after start := by
  unfold after ack
  rw [List.filter_filter]
  refine List.filter_congr fun id' _ => ?_
  rw [Bool.and_eq_left_iff_imp]
  intro hlt
  refine decide_eq_true fun heq => ?_
  rw [heq, decide_eq_true_iff] at hlt
  exact absurd hlt (not_lt.mpr hid)

end ConsumerGroup

end Streams
