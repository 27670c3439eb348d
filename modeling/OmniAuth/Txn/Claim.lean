import OmniAuth.Txn.Discipline

/-!
# Claims

Things that may be taken once: a value of a UNIQUE column, a row a
conditional `UPDATE` matches while it is unspent. A statement that takes one
is let through only where it is free, and locks it until its transaction
ends; so of any number of processes one commits it. A process that then
*redeems* what it has committed, once, does so for the only time in the
history of the store, whatever fails or crashes in between.
-/

namespace Txn

/-- Keys that are free until a statement takes them, and taken for good as long
as only the statements of `admits` are executed. -/
structure Claims (S : Sig) (κ : Type) where
  taken : S.State → κ → Prop
  lock : κ → S.Lock
  wins : S.Stmt → S.State → κ → Prop
  admits : S.Stmt → Prop
  free : ∀ {stmt seen eff k}, S.denote stmt seen = .ok eff → wins stmt seen k → ¬ taken seen k
  locked : ∀ {stmt seen eff k}, S.denote stmt seen = .ok eff → wins stmt seen k →
    lock k ∈ eff.locks
  takes : ∀ {stmt seen eff k}, S.denote stmt seen = .ok eff → wins stmt seen k →
    ∀ s, taken (eff.delta s) k
  keeps : ∀ {stmt seen eff k s}, admits stmt → S.denote stmt seen = .ok eff → taken s k →
    taken (eff.delta s) k
  only : ∀ {stmt seen eff k s}, admits stmt → S.denote stmt seen = .ok eff →
    taken (eff.delta s) k → taken s k ∨ lock k ∈ eff.locks

namespace Claims

variable {S : Sig} {κ ι α : Type} (C : Claims S κ)

/-! ## Guarded connections -/

/-- A connection takes only what it holds the lock on, and frees nothing. -/
structure Guarded (s : Sys S ι α) : Prop where
  only : ∀ i k st, C.taken ((s.conn i).pend st) k → C.taken st k ∨ C.lock k ∈ (s.conn i).held
  keeps : ∀ i k st, C.taken st k → C.taken ((s.conn i).pend st) k

theorem guarded_start (db : S.State) (now next : ℕ) (proc : ι → Prog S α) :
    C.Guarded (Sys.start db now next proc) :=
  ⟨fun _ _ _ h => .inl h, fun _ _ _ h => h⟩

variable {C} [DecidableEq ι] {s : Sys S ι α} {i : ι} {ℓ : Label S}

variable (C) in
/-- The step executes no statement but the admitted ones. -/
def Admitted : Label S → Prop
  | .wrote stmt _ _ => C.admits stmt
  | _ => True

theorem Guarded.after (h : C.Guarded s) (hen : s.Enabled i ℓ) (hadm : C.Admitted ℓ)
    (p : Prog S α) : C.Guarded (s.after i ℓ p) := by
  have hidle : ∀ k st, C.taken ((Conn.idle S).pend st) k →
      C.taken st k ∨ C.lock k ∈ (Conn.idle S).held := fun _ _ h => .inl h
  refine ⟨fun j k st hk => ?_, fun j k st hk => ?_⟩
  · by_cases hj : j = i
    · subst hj
      rw [Sys.after_conn_self] at hk ⊢
      cases ℓ with
      | wrote stmt seen eff =>
        rcases C.only hadm hen.2.1 hk with hk | hk
        · exact (h.only j k st hk).imp_right (List.mem_append_right _)
        · exact .inr (List.mem_append_left _ hk)
      | committed => exact hidle k st hk
      | rolledBack => exact hidle k st hk
      | commitFailed x => exact hidle k st hk
      | commitLost x => exact hidle k st hk
      | crashed x => exact hidle k st hk
      | _ => exact h.only j k st hk
    · rw [Sys.after_conn_of_ne _ _ _ hj] at hk ⊢
      exact h.only j k st hk
  · by_cases hj : j = i
    · subst hj
      rw [Sys.after_conn_self]
      cases ℓ with
      | wrote stmt seen eff => exact C.keeps hadm hen.2.1 (h.keeps j k st hk)
      | committed => exact hk
      | rolledBack => exact hk
      | commitFailed x => exact hk
      | commitLost x => exact hk
      | crashed x => exact hk
      | _ => exact h.keeps j k st hk
    · rw [Sys.after_conn_of_ne _ _ _ hj]
      exact h.keeps j k st hk

/-- What is taken stays taken. -/
theorem Guarded.taken_after (h : C.Guarded s) {k : κ} (hk : C.taken s.db k) (p : Prog S α) :
    C.taken (s.after i ℓ p).db k := by
  rw [Sys.after_db]
  cases ℓ with
  | committed => exact h.keeps i k _ hk
  | commitLost x => exact h.keeps i k _ hk
  | _ => exact hk

/-- What is free stays free under the steps of others, while its lock is
held. -/
theorem Guarded.free_after (h : C.Guarded s) (hx : s.Exclusive) {j : ι} {k : κ} (hj : j ≠ i)
    (hlock : C.lock k ∈ (s.conn j).held) (hk : ¬ C.taken s.db k) (p : Prog S α) :
    ¬ C.taken (s.after i ℓ p).db k := by
  have hpend : ¬ C.taken (s.latest i) k := by
    intro hpend
    rcases h.only i k _ hpend with hk' | hheld
    · exact hk hk'
    · exact hx j i hj _ hlock hheld
  rw [Sys.after_db]
  cases ℓ with
  | committed => exact hpend
  | commitLost x => exact hpend
  | _ => exact hk

/-! ## Single use -/

/-- What a process has taken and not committed yet, and what it has committed
and not redeemed yet. -/
structure Purse (κ : Type) where
  taken : κ → Prop
  won : κ → Prop

def Purse.empty (κ : Type) : Purse κ := ⟨fun _ => False, fun _ => False⟩

variable (C) (redeems : S.Event → κ → Prop)

/-- A process redeems only what it has won, and then has it no more. -/
def single : Discipline S (Purse κ) where
  next q
    | .wrote stmt seen _ => { q with taken := fun k => q.taken k ∨ C.wins stmt seen k }
    | .committed | .commitLost _ => ⟨fun _ => False, fun k => q.won k ∨ q.taken k⟩
    | .rolledBack | .commitFailed _ | .crashed _ => { q with taken := fun _ => False }
    | .emitted e => { q with won := fun k => q.won k ∧ ¬ redeems e k }
    | _ => q
  sees _ _ := True
  may q
    | .wrote stmt _ _ => C.admits stmt
    | .emitted e => ∀ k, redeems e k → q.won k
    | _ => True

/-- **The single-use invariant.** -/
structure Single (s : Sys S ι α) (g : ι → Purse κ) : Prop where
  guarded : C.Guarded s
  pending : ∀ i k, (g i).taken k →
    C.lock k ∈ (s.conn i).held ∧ ¬ C.taken s.db k ∧ ∀ st, C.taken ((s.conn i).pend st) k
  won : ∀ i k, (g i).won k → C.taken s.db k
  one : ∀ i j k, (g i).won k → (g j).won k → i = j
  spent : ∀ i e k, (i, e) ∈ s.log → redeems e k → C.taken s.db k ∧ ∀ j, ¬ (g j).won k
  once : s.log.Pairwise fun a b => ∀ k, redeems a.2 k → ¬ redeems b.2 k

omit [DecidableEq ι] in
theorem single_start (db : S.State) (now next : ℕ) (proc : ι → Prog S α) :
    C.Single redeems (Sys.start db now next proc) (fun _ => Purse.empty κ) where
  guarded := C.guarded_start db now next proc
  pending _ _ h := h.elim
  won _ _ h := h.elim
  one _ _ _ h := h.elim
  spent _ _ _ h := by simp [Sys.start] at h
  once := .nil

variable {C} {redeems} {g : ι → Purse κ}

/-- The connection and the purse of the moving process, where nothing is
committed and nothing redeemed. -/
theorem Single.moves (h : C.Single redeems s g) (hen : s.Enabled i ℓ) (hadm : C.Admitted ℓ)
    {q : Purse κ} (p : Prog S α) (hdb : s.dbAfter i ℓ = s.db) (hlog : (s.after i ℓ p).log = s.log)
    (hpending : ∀ k, q.taken k → C.lock k ∈ (s.connAfter i ℓ).held ∧ ¬ C.taken s.db k ∧
      ∀ st, C.taken ((s.connAfter i ℓ).pend st) k)
    (hwon : ∀ k, q.won k → (g i).won k) :
    C.Single redeems (s.after i ℓ p) (Function.update g i q) := by
  have hdb' : (s.after i ℓ p).db = s.db := hdb
  have hsub : ∀ j k, (Function.update g i q j).won k → (g j).won k := by
    intro j k hk
    by_cases hj : j = i
    · subst hj
      rw [Function.update_self] at hk
      exact hwon k hk
    · rwa [Function.update_of_ne hj] at hk
  refine ⟨h.guarded.after hen hadm p, fun j k hk => ?_, fun j k hk => ?_, fun a b k ha hb => ?_,
    fun j e k hmem hr => ?_, ?_⟩
  · rw [hdb']
    by_cases hj : j = i
    · subst hj
      rw [Function.update_self] at hk
      rw [Sys.after_conn_self]
      exact hpending k hk
    · rw [Function.update_of_ne hj] at hk
      rw [Sys.after_conn_of_ne _ _ _ hj]
      exact h.pending j k hk
  · rw [hdb']
    exact h.won j k (hsub j k hk)
  · exact h.one a b k (hsub a k ha) (hsub b k hb)
  · rw [hlog] at hmem
    rw [hdb']
    obtain ⟨htaken, hnone⟩ := h.spent j e k hmem hr
    exact ⟨htaken, fun j' hj' => hnone j' (hsub j' k hj')⟩
  · rw [hlog]
    exact h.once

/-- **A commit** turns what was taken into what is won. -/
theorem Single.commits (h : C.Single redeems s g) (hx : s.Exclusive) (hen : s.Enabled i ℓ)
    (hadm : C.Admitted ℓ) (p : Prog S α) (hdb : s.dbAfter i ℓ = s.latest i) (hlog : (s.after i ℓ p).log = s.log) :
    C.Single redeems (s.after i ℓ p)
      (Function.update g i ⟨fun _ => False, fun k => (g i).won k ∨ (g i).taken k⟩) := by
  have hdb' : (s.after i ℓ p).db = s.latest i := hdb
  have hwas : ∀ j k, (Function.update g i
      ⟨fun _ => False, fun k => (g i).won k ∨ (g i).taken k⟩ j).won k →
      (g j).won k ∨ j = i ∧ (g i).taken k := by
    intro j k hk
    by_cases hj : j = i
    · subst hj
      rw [Function.update_self] at hk
      exact hk.imp_right fun hk => ⟨rfl, hk⟩
    · rw [Function.update_of_ne hj] at hk
      exact .inl hk
  refine ⟨h.guarded.after hen hadm p, fun j k hk => ?_, fun j k hk => ?_, fun a b k ha hb => ?_,
    fun j e k hmem hr => ?_, ?_⟩
  · by_cases hj : j = i
    · subst hj
      rw [Function.update_self] at hk
      exact hk.elim
    · rw [Function.update_of_ne hj] at hk
      rw [Sys.after_conn_of_ne _ _ _ hj]
      obtain ⟨hlock, hfree, htakes⟩ := h.pending j k hk
      exact ⟨hlock, h.guarded.free_after hx hj hlock hfree p, htakes⟩
  · rcases hwas j k hk with hk | ⟨rfl, hk⟩
    · exact h.guarded.taken_after (h.won j k hk) p
    · rw [hdb']
      exact (h.pending j k hk).2.2 s.db
  · -- a key that somebody has won was not free to be taken
    have hclash : ∀ a, (g a).won k → (g i).taken k → False := fun a ha hi =>
      (h.pending i k hi).2.1 (h.won a k ha)
    rcases hwas a k ha with ha' | ⟨hai, ha'⟩ <;> rcases hwas b k hb with hb' | ⟨hbi, hb'⟩
    · exact h.one a b k ha' hb'
    · exact (hclash a ha' hb').elim
    · exact (hclash b hb' ha').elim
    · exact hai.trans hbi.symm
  · rw [hlog] at hmem
    obtain ⟨htaken, hnone⟩ := h.spent j e k hmem hr
    refine ⟨h.guarded.taken_after htaken p, fun j' hj' => ?_⟩
    rcases hwas j' k hj' with hj' | ⟨rfl, hj'⟩
    · exact hnone j' hj'
    · exact (h.pending j' k hj').2.1 htaken
  · rw [hlog]
    exact h.once

/-- **A redemption** is the first of its key, and the last. -/
theorem Single.redeemed (h : C.Single redeems s g) {e : S.Event}
    (hmay : ∀ k, redeems e k → (g i).won k) (p : Prog S α) :
    C.Single redeems (s.after i (.emitted e) p)
      (Function.update g i { g i with won := fun k => (g i).won k ∧ ¬ redeems e k }) := by
  have hsub : ∀ j k, (Function.update g i
      { g i with won := fun k => (g i).won k ∧ ¬ redeems e k } j).won k →
      (g j).won k ∧ (j = i → ¬ redeems e k) := by
    intro j k hk
    by_cases hj : j = i
    · subst hj
      rw [Function.update_self] at hk
      exact ⟨hk.1, fun _ => hk.2⟩
    · rw [Function.update_of_ne hj] at hk
      exact ⟨hk, fun h => absurd h hj⟩
  have hen : s.Enabled i (.emitted e) := trivial
  have hadm : C.Admitted (.emitted e : Label S) := trivial
  refine ⟨h.guarded.after hen hadm p, fun j k hk => ?_, fun j k hk => ?_, fun a b k ha hb => ?_,
    fun j e' k hmem hr => ?_, ?_⟩
  · by_cases hj : j = i
    · subst hj
      rw [Function.update_self] at hk
      rw [Sys.after_conn_self]
      exact h.pending j k hk
    · rw [Function.update_of_ne hj] at hk
      rw [Sys.after_conn_of_ne _ _ _ hj]
      exact h.pending j k hk
  · exact h.won j k (hsub j k hk).1
  · exact h.one a b k (hsub a k ha).1 (hsub b k hb).1
  · rcases Sys.mem_log_after hmem with hold | ⟨rfl, hnew⟩
    · obtain ⟨htaken, hnone⟩ := h.spent j e' k hold hr
      exact ⟨htaken, fun j' hj' => hnone j' (hsub j' k hj').1⟩
    · obtain rfl := Label.emitted.inj hnew
      refine ⟨h.won j k (hmay k hr), fun j' hj' => ?_⟩
      obtain ⟨hwon, hnot⟩ := hsub j' k hj'
      exact hnot (h.one j' j k hwon (hmay k hr)) hr
  · refine List.pairwise_append.mpr ⟨h.once, List.pairwise_singleton _ _, fun a ha b hb => ?_⟩
    obtain rfl := List.mem_singleton.mp hb
    intro k hold hnew
    exact (h.spent a.1 a.2 k ha hold).2 i (hmay k hnew)

variable (C) in
/-- **Every step keeps single use.** -/
theorem single_keeps (ok : Sys S ι α → ι → Label S → Prop)
    (post : ι → Except S.Exn α → Purse κ → Prop) :
    (C.single redeems).Keeps ok post (C.Single redeems) where
  sees _ _ _ _ := trivial
  after := by
    intro s g i ℓ p hx h hen _ _ hvouched
    have hidle : ∀ k, (fun _ : κ => False) k → C.lock k ∈ (Conn.idle S).held ∧
        ¬ C.taken s.db k ∧ ∀ st, C.taken ((Conn.idle S).pend st) k := fun _ hk => hk.elim
    cases ℓ with
    | wrote stmt seen eff =>
      have hseen := hen.1
      have hden := hen.2.1
      refine h.moves hen hvouched p rfl rfl (fun k hk => ?_) fun _ hk => hk
      rcases hk with hk | hk
      · obtain ⟨hlock, hfree, htakes⟩ := h.pending i k hk
        exact ⟨List.mem_append_right _ hlock, hfree, fun st => C.keeps hvouched hden (htakes st)⟩
      · refine ⟨List.mem_append_left _ (C.locked hden hk), fun htaken => ?_,
          fun st => C.takes hden hk _⟩
        refine C.free hden hk ?_
        rw [hseen]
        exact h.guarded.keeps i k _ htaken
    | committed => exact h.commits hx hen trivial p rfl rfl
    | commitLost x => exact h.commits hx hen trivial p rfl rfl
    | emitted e => exact h.redeemed hvouched p
    | rolledBack => exact h.moves hen trivial p rfl rfl hidle fun _ hk => hk
    | commitFailed x => exact h.moves hen trivial p rfl rfl hidle fun _ hk => hk
    | crashed x => exact h.moves hen trivial p rfl rfl hidle fun _ hk => hk
    | _ => exact h.moves hen trivial p rfl rfl (fun k hk => h.pending i k hk) fun _ hk => hk

variable (C) in
/-- **Single use.** Where every process redeems only what it has won, no key
is redeemed twice in any run, whatever fails. -/
theorem single_use {F : Prop} {ok : Sys S ι α → ι → Label S → Prop} {db : S.State}
    {now next : ℕ} {proc : ι → Prog S α} {s : Sys S ι α}
    (hfollows : ∀ i, (proc i).Follows (C.single redeems) F (fun _ _ => True) (Purse.empty κ))
    (hrun : Sys.Run F ok (Sys.start db now next proc) s) :
    s.log.Pairwise fun a b => ∀ k, redeems a.2 k → ¬ redeems b.2 k := by
  obtain ⟨_, g, hinv, _⟩ := Prog.Follows.run (C.single_keeps ok fun _ _ _ => True)
    (fun _ _ _ _ => trivial) (Sys.exclusive_start _ _ _ _)
    (C.single_start redeems db now next proc) hfollows hrun
  exact hinv.once

end Claims

end Txn
