import OmniAuth.Txn.System

/-!
# A unique index that lets go

A UNIQUE column that may be emptied again. A statement fills only values that are free where
it is executed, and locks them until its transaction ends; and it empties the column of some
rows. Nobody holds on to a value for good, and still no value stands twice in any state that
any number of programs reach.
-/

namespace Txn

/-- A unique index of the store: its entries, value and row, and what a statement may do to
them. -/
structure Index (S : Sig) (κ ρ : Type) where
  entries : S.State → List (κ × ρ)
  lock : κ → S.Lock
  stmt : ∀ {stmt seen eff}, S.denote stmt seen = .ok eff →
    ∃ (kept : ρ → Bool) (filled : List (κ × ρ)),
      (∀ s, entries (eff.delta s) = (entries s).filter (fun e => kept e.2) ++ filled) ∧
      (∀ e ∈ filled, lock e.1 ∈ eff.locks ∧ e.1 ∉ (entries seen).map Prod.fst) ∧
      (filled.map Prod.fst).Nodup

namespace Index

variable {S : Sig} {κ ρ ι α : Type} (X : Index S κ ρ)

/-- **No value stands twice.** -/
def Unique (s : S.State) : Prop := ((X.entries s).map Prod.fst).Nodup

/-- A filtered index, and what is added to it. -/
theorem nodup_patched {l filled : List (κ × ρ)} {kept : ρ → Bool}
    (hl : ((l.filter fun e => kept e.2).map Prod.fst).Nodup) (hfilled : (filled.map Prod.fst).Nodup)
    (hfree : ∀ e ∈ filled, e.1 ∉ (l.filter fun e => kept e.2).map Prod.fst) :
    (((l.filter fun e => kept e.2) ++ filled).map Prod.fst).Nodup := by
  rw [List.map_append, List.nodup_append]
  refine ⟨hl, hfilled, fun a ha b hb hab => ?_⟩
  obtain ⟨e, he, rfl⟩ := List.mem_map.mp hb
  exact hfree e he (hab ▸ ha)

theorem nodup_filter {l : List (κ × ρ)} (h : (l.map Prod.fst).Nodup) (kept : ρ → Bool) :
    ((l.filter fun e => kept e.2).map Prod.fst).Nodup :=
  h.sublist (List.filter_sublist.map _)

/-- A statement keeps the values apart where it is executed. -/
theorem unique_stmt {stmt : S.Stmt} {seen : S.State} {eff : Effect S.State S.Lock}
    (h : S.denote stmt seen = .ok eff) (hu : X.Unique seen) : X.Unique (eff.delta seen) := by
  obtain ⟨kept, filled, hentries, hfilled, hnodup⟩ := X.stmt h
  rw [Unique, hentries]
  refine nodup_patched (nodup_filter hu kept) hnodup fun e he hmem => (hfilled e he).2 ?_
  exact (List.filter_sublist.map Prod.fst).subset hmem

/-- What a connection has pending: it empties some rows, and fills values it has locked. -/
def Patches (c : Conn S) : Prop :=
  ∃ (kept : ρ → Bool) (filled : List (κ × ρ)),
    (∀ s, X.entries (c.pend s) = (X.entries s).filter (fun e => kept e.2) ++ filled) ∧
    ∀ e ∈ filled, X.lock e.1 ∈ c.held

theorem patches_idle : X.Patches (Conn.idle S) :=
  ⟨fun _ => true, [], fun s => by simp [Conn.idle], fun e he => by cases he⟩

/-- A statement more. -/
theorem Patches.wrote {c : Conn S} (h : X.Patches c) {stmt : S.Stmt} {seen : S.State}
    {eff : Effect S.State S.Lock} (hden : S.denote stmt seen = .ok eff) :
    X.Patches { c with pend := eff.delta ∘ c.pend, held := eff.locks ++ c.held } := by
  obtain ⟨kept, filled, hentries, hheld⟩ := h
  obtain ⟨kept', filled', hentries', hfilled', -⟩ := X.stmt hden
  refine ⟨fun r => kept r && kept' r, filled.filter (fun e => kept' e.2) ++ filled', fun s => ?_,
    fun e he => ?_⟩
  · calc X.entries (eff.delta (c.pend s))
        = ((X.entries s).filter (fun e => kept e.2) ++ filled).filter (fun e => kept' e.2) ++
            filled' := by rw [hentries', hentries]
      _ = (X.entries s).filter (fun e => kept e.2 && kept' e.2) ++
            (filled.filter (fun e => kept' e.2) ++ filled') := by
          rw [List.filter_append, List.filter_filter, List.append_assoc]
          congr 2
          funext e
          exact Bool.and_comm _ _
  · rcases List.mem_append.mp he with he | he
    · exact List.mem_append_right _ (hheld e (List.mem_of_mem_filter he))
    · exact List.mem_append_left _ (hfilled' e he).1

/-- **Whoever commits first.** What one connection commits leaves the values apart in what
another one sees, if each alone kept them apart and they hold no lock together. -/
theorem unique_commit {c c' : Conn S} (h : X.Patches c) (h' : X.Patches c') {s : S.State}
    (hu : X.Unique (c.pend s)) (hu' : X.Unique (c'.pend s))
    (hx : ∀ l ∈ c.held, l ∉ c'.held) : X.Unique (c'.pend (c.pend s)) := by
  obtain ⟨kept, filled, hentries, hheld⟩ := h
  obtain ⟨kept', filled', hentries', hheld'⟩ := h'
  rw [Unique, hentries'] at hu' ⊢
  rw [List.map_append, List.nodup_append] at hu'
  obtain ⟨-, hnodup, hapart⟩ := hu'
  refine nodup_patched (nodup_filter hu kept') hnodup fun e he hmem => ?_
  rw [hentries, List.filter_append, List.map_append] at hmem
  rcases List.mem_append.mp hmem with hmem | hmem
  · -- a value of a row that was there before
    refine hapart e.1 ?_ e.1 (List.mem_map_of_mem he) rfl
    rw [List.filter_filter] at hmem
    obtain ⟨e', he', heq⟩ := List.mem_map.mp hmem
    obtain ⟨hin, hkept⟩ := List.mem_filter.mp he'
    rw [Bool.and_eq_true] at hkept
    exact List.mem_map.mpr ⟨e', List.mem_filter.mpr ⟨hin, hkept.1⟩, heq⟩
  · -- a value the other one has just filled, and has locked
    obtain ⟨e', he', heq⟩ := List.mem_map.mp hmem
    refine hx _ (hheld e' (List.mem_of_mem_filter he')) ?_
    rw [heq]
    exact hheld' e he

/-! ## Runs -/

/-- **The invariant.** Values stand once, in what is committed and in what each connection
sees. -/
structure Holds (s : Sys S ι α) : Prop where
  patches : ∀ i, X.Patches (s.conn i)
  base : X.Unique s.db
  latest : ∀ i, X.Unique (s.latest i)

theorem holds_start {db : S.State} (h : X.Unique db) (now next : ℕ) (proc : ι → Prog S α) :
    X.Holds (Sys.start db now next proc) :=
  ⟨fun _ => X.patches_idle, h, fun _ => h⟩

variable {X} [DecidableEq ι] {s s' : Sys S ι α}

/-- A step that commits nothing. -/
theorem Holds.aside (h : X.Holds s) {i : ι} {ℓ : Label S} {p : Prog S α}
    (hdb : (s.after i ℓ p).db = s.db) (hpatches : X.Patches (s.connAfter i ℓ))
    (hlatest : X.Unique ((s.connAfter i ℓ).pend s.db)) : X.Holds (s.after i ℓ p) := by
  refine ⟨fun j => ?_, hdb ▸ h.base, fun j => ?_⟩
  · by_cases hj : j = i
    · subst hj
      rwa [Sys.after_conn_self]
    · rw [Sys.after_conn_of_ne _ _ _ hj]
      exact h.patches j
  · unfold Sys.latest
    rw [hdb]
    by_cases hj : j = i
    · subst hj
      rwa [Sys.after_conn_self]
    · rw [Sys.after_conn_of_ne _ _ _ hj]
      exact h.latest j

/-- A step that commits. -/
theorem Holds.commits (h : X.Holds s) (hx : s.Exclusive) {i : ι} {ℓ : Label S} {p : Prog S α}
    (hdb : (s.after i ℓ p).db = s.latest i) (hconn : s.connAfter i ℓ = Conn.idle S) :
    X.Holds (s.after i ℓ p) := by
  refine ⟨fun j => ?_, ?_, fun j => ?_⟩
  · by_cases hj : j = i
    · subst hj
      rw [Sys.after_conn_self, hconn]
      exact X.patches_idle
    · rw [Sys.after_conn_of_ne _ _ _ hj]
      exact h.patches j
  · rw [hdb]
    exact h.latest i
  · unfold Sys.latest
    rw [hdb]
    by_cases hj : j = i
    · subst hj
      rw [Sys.after_conn_self, hconn]
      exact h.latest j
    · rw [Sys.after_conn_of_ne _ _ _ hj]
      exact X.unique_commit (h.patches i) (h.patches j) (h.latest i) (h.latest j)
        (hx i j (Ne.symm hj))

/-- **Every step keeps it**, whatever the programs are. -/
theorem Holds.after (h : X.Holds s) (hx : s.Exclusive) {i : ι} {ℓ : Label S}
    (hen : s.Enabled i ℓ) (p : Prog S α) : X.Holds (s.after i ℓ p) := by
  cases ℓ with
  | wrote stmt seen eff =>
    refine h.aside rfl ((h.patches i).wrote X hen.2.1) ?_
    obtain rfl := hen.1
    exact X.unique_stmt hen.2.1 (h.latest i)
  | committed => exact h.commits hx rfl rfl
  | commitLost x => exact h.commits hx rfl rfl
  | rolledBack => exact h.aside rfl X.patches_idle h.base
  | commitFailed x => exact h.aside rfl X.patches_idle h.base
  | crashed x => exact h.aside rfl X.patches_idle h.base
  | _ => exact h.aside rfl (h.patches i) (h.latest i)

/-- **Every run keeps it.** -/
theorem Holds.run (h : X.Holds s) (hx : s.Exclusive) {F : Prop}
    {ok : Sys S ι α → ι → Label S → Prop} (hrun : Sys.Run F ok s s') :
    X.Holds s' ∧ s'.Exclusive := by
  induction hrun with
  | refl => exact ⟨h, hx⟩
  | tail _ _ hstep ih =>
    obtain ⟨hholds, hexclusive⟩ := ih
    obtain ⟨p, _, hen, rfl⟩ := hstep
    exact ⟨hholds.after hexclusive hen p, hexclusive.after hen p⟩

end Index

end Txn
