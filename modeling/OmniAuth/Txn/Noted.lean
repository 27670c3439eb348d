import OmniAuth.Txn.Discipline

/-!
# What a reply vouches for

A program notes events as it goes. If it replies only after it has noted some
event, then in any run, however it interleaves and whatever fails, the event of
a process that has replied is in the history.
-/

namespace Txn

variable {S : Sig} {ι α β : Type}

/-- The automaton that remembers what its process has noted. -/
def noting : Discipline S (S.Event → Prop) where
  next q
    | .emitted e => fun e' => q e' ∨ e' = e
    | _ => q
  sees _ _ := True
  may _ _ := True

theorem noting_next {q : S.Event → Prop} {ℓ : Label S} {e : S.Event} (h : q e) :
    (noting (S := S)).next q ℓ e := by
  cases ℓ <;> first | exact .inl h | exact h

namespace Prog

variable {F : Prop} {q : S.Event → Prop}

/-- What comes first does not matter. -/
theorem noting_bind {p : Prog S α} {k : α → Prog S β}
    {post : Except S.Exn β → (S.Event → Prop) → Prop}
    (hk : ∀ a q, (k a).Follows noting F post q) (hx : ∀ x q, post (.error x) q) :
    (p.bind k).Follows noting F post q :=
  (within_any p).follows_bind (T := fun _ => True) (fun _ _ _ _ => trivial)
    (fun _ _ _ _ => trivial) trivial (fun a q' _ => hk a q') fun x q' _ => hx x q'

/-- What was noted before a program stays noted through it. -/
theorem noting_note {e : S.Event} {k : Unit → Prog S β}
    {post : Except S.Exn β → (S.Event → Prop) → Prop} (hpost : ∀ r q, q e → post r q) :
    ((note e).bind k).Follows noting F post q := by
  refine follows_note_bind.mpr fun _ => ⟨trivial, ?_⟩
  have hfree := follows_free (D := noting) (F := F) (T := fun q => q e) (k ())
    (fun _ _ _ => trivial) (fun _ _ h => noting_next h) (q := noting.next q (.emitted e))
    (.inr rfl)
  exact hfree.mono hpost

end Prog

variable [DecidableEq ι] {s : Sys S ι α}

/-- What was noted is in the history. -/
def Noted (s : Sys S ι α) (g : ι → S.Event → Prop) : Prop := ∀ i e, g i e → (i, e) ∈ s.log

theorem noted_keeps (ok : Sys S ι α → ι → Label S → Prop)
    (post : ι → Except S.Exn α → (S.Event → Prop) → Prop) :
    (noting (S := S)).Keeps ok post Noted where
  sees _ _ _ _ := trivial
  after := by
    intro s g i ℓ p _ h _ _ _ _ j e he
    have hlog : ∀ x ∈ s.log, x ∈ (s.after i ℓ p).log := by
      intro x hx
      cases ℓ with
      | emitted e => exact List.mem_append_left _ hx
      | _ => exact hx
    by_cases hj : j = i
    · subst hj
      rw [Function.update_self] at he
      cases ℓ with
      | emitted e' =>
        rcases he with he | rfl
        · exact hlog _ (h j e he)
        · exact List.mem_append_right _ (List.mem_singleton.mpr rfl)
      | _ => exact hlog _ (h j e he)
    · rw [Function.update_of_ne hj] at he
      exact hlog _ (h j e he)

/-- **A reply comes after what it vouches for.** -/
theorem noted_of_reply {F : Prop} {ok : Sys S ι α → ι → Label S → Prop} {db : S.State}
    {now next : ℕ} {proc : ι → Prog S α} {post : ι → Except S.Exn α → (S.Event → Prop) → Prop}
    (hfollows : ∀ i, (proc i).Follows noting F (post i) fun _ => False)
    (hcrash : ∀ i x q, post i (.error x) q)
    (hrun : Sys.Run F ok (Sys.start db now next proc) s) {i : ι} {r : Except S.Exn α}
    (hr : (s.proc i).reply? = some r) : ∃ q, post i r q ∧ ∀ e, q e → (i, e) ∈ s.log := by
  have hstart : Noted (Sys.start db now next proc) fun _ _ => False := fun _ _ h => h.elim
  obtain ⟨_, g, hinv, hfol⟩ := Prog.Follows.run (noted_keeps ok post)
    (fun _ i x _ => hcrash i x _) (Sys.exclusive_start _ _ _ _) hstart hfollows hrun
  exact ⟨g i, (hfol i).reply hr, hinv i⟩

end Txn
