import OmniAuth.Inquiry.Stages

/-!
# What an answer leaves open

A submission is answered even if `notify` raises, and then the provider may have been called
without the attempt being counted. That takes a failure: a request in which nothing fails
answers, once it has called the provider, with what `notify` returned.
-/

namespace OmniAuth

open Txn Prog

/-- A request has not called the provider, it has, or something has failed. -/
inductive Contact
  | none
  | made
  | failed

def Contact.called : Contact → Contact
  | none => made
  | q => q

/-- The automaton that watches for failures and for calls of the provider. -/
def contacting : Discipline InquirySig Contact where
  next q
    | .emitted _ => q.called
    | .faulted _ | .commitFailed _ | .commitLost _ | .crashed _ => .failed
    | _ => q
  sees _ _ := True
  may _ _ := True

/-- Where the provider has been called and nothing failed, the program answers, as `P` says. -/
def Tells {α : Type} (P : α → Prop) (r : Except Err α) (q : Contact) : Prop :=
  q = .made → ∃ a, r = .ok a ∧ P a

theorem Tells.error {α : Type} {P : α → Prop} {x : Err} {q : Contact} (h : Tells P (.error x) q) :
    q ≠ .made := by
  intro hmade
  obtain ⟨a, ha, -⟩ := h hmade
  cases ha

/-- A step that does not call the provider. -/
def Beside : Label InquirySig → Prop
  | .emitted _ => False
  | _ => True

theorem contacting_beside (q : Contact) (ℓ : Label InquirySig) (hq : q ≠ .made) (hℓ : Beside ℓ) :
    contacting.next q ℓ ≠ .made := by
  cases ℓ with
  | emitted e => exact hℓ.elim
  | faulted x => exact nofun
  | commitFailed x => exact nofun
  | commitLost x => exact nofun
  | crashed x => exact nofun
  | _ => exact hq

variable {C : InquirySettings} {F : Prop} {α β : Type} {P : α → Prop} {q : Contact}

/-- What comes before the provider is called. -/
theorem contacting_bind {p : InquiryOp β} {k : β → InquiryOp α} (hp : p.Within F Beside)
    (hq : q ≠ .made)
    (hk : ∀ b q', q' ≠ .made → (k b).Follows contacting F (Tells P) q') :
    (p.bind k).Follows contacting F (Tells P) q :=
  hp.follows_bind (T := fun q => q ≠ .made) (fun _ _ _ _ => trivial) contacting_beside hq hk
    fun _ _ hq' hmade => absurd hmade hq'

/-- What never calls the provider. -/
theorem contacting_within {p : InquiryOp α} (hp : p.Within F Beside) (hq : q ≠ .made) :
    p.Follows contacting F (Tells P) q :=
  (hp.follows (T := fun q => q ≠ .made) (fun _ _ _ _ => trivial) contacting_beside hq).mono
    fun _ _ hq' hmade => absurd hmade hq'

theorem contacting_update_bind {id : ℕ} {c : InquiryColumns} {k : Unit → InquiryOp α}
    (hk : (k ()).Follows contacting F (Tells P) q) :
    ((execute (S := InquirySig) (.updateInquiry id c)).bind k).Follows contacting F (Tells P) q := by
  refine follows_returning_bind.mpr ⟨fun _ _ _ _ => ⟨trivial, hk⟩, fun seen x hden _ => ?_,
    fun _ _ => nofun⟩
  -- an update is not refused
  have hok : ∃ eff, InquiryStmt.denote (.updateInquiry id c) seen = .ok eff := by
    unfold InquiryStmt.denote
    dsimp only
    split <;> exact ⟨_, rfl⟩
  obtain ⟨eff, heff⟩ := hok
  exact nomatch heff.symm.trans hden

theorem contacting_commit_bind {k : Unit → InquiryOp α}
    (hk : (k ()).Follows contacting F (Tells P) q) :
    ((commitNow (S := InquirySig)).bind k).Follows contacting F (Tells P) q :=
  follows_commitNow_bind.mpr ⟨fun _ => ⟨trivial, hk⟩, fun _ _ => ⟨nofun, trivial, nofun⟩⟩

theorem deliver_contacts {id : ℕ} {c : InquiryColumns} {delivery : Delivery} :
    (deliver id c delivery).Follows contacting F (Tells fun _ => True) q := by
  unfold deliver
  refine follows_note_bind.mpr fun _ => ⟨trivial, ?_⟩
  cases delivery with
  | none =>
    refine contacting_update_bind (contacting_commit_bind ?_)
    exact fun _ => ⟨false, rfl, trivial⟩
  | some receipt =>
    refine follows_note_bind.mpr fun _ => ⟨trivial, ?_⟩
    refine contacting_update_bind (contacting_commit_bind ?_)
    exact fun _ => ⟨true, rfl, trivial⟩

theorem beside_execute {stmt : InquiryStmt} : (execute (S := InquirySig) stmt).Within F Beside :=
  within_returning (fun _ _ => trivial) (fun _ _ => trivial) fun _ _ => trivial

theorem beside_query {f : InquiryDb → β} : (query (S := InquirySig) f).Within F Beside :=
  within_query (fun _ => trivial) fun _ _ => trivial

theorem beside_time : (time (S := InquirySig)).Within F Beside := within_time fun _ => trivial

theorem beside_commitNow : (commitNow (S := InquirySig)).Within F Beside :=
  within_commitNow trivial (fun _ _ => trivial) fun _ _ => trivial

theorem notifyInquiry_contacts {id : ℕ} {actor : Option ℕ} {delivery : Delivery}
    (hq : q ≠ .made) :
    (notifyInquiry C id actor delivery).Follows contacting F (Tells fun _ => True) q := by
  unfold notifyInquiry
  refine contacting_bind (within_returning (fun _ _ => trivial) (fun _ _ => trivial)
    fun _ _ => trivial) hq fun row q₁ hq₁ => ?_
  cases row with
  | none => exact fun hmade => absurd hmade hq₁
  | some row =>
    dsimp only
    split
    · exact fun _ => ⟨true, rfl, trivial⟩
    split
    · exact contacting_within (beside_execute.bind fun _ => beside_commitNow.bind fun _ => trivial)
        hq₁
    refine contacting_bind beside_time hq₁ fun now q₂ hq₂ => ?_
    split
    · exact contacting_within (beside_execute.bind fun _ => beside_commitNow.bind fun _ => trivial)
        hq₂
    cases actor with
    | none => exact deliver_contacts
    | some actor =>
      refine contacting_bind beside_time hq₂ fun t q₃ hq₃ => ?_
      refine contacting_bind beside_execute hq₃ fun _ q₄ hq₄ => ?_
      exact contacting_bind beside_execute hq₄ fun _ q₅ _ => deliver_contacts

theorem createInquiry_beside {payload : InquiryPayload} :
    (createInquiry C payload).Within F Beside := by
  unfold createInquiry
  refine beside_time.bind fun now => (within_draw fun _ => trivial).bind fun id => ?_
  refine Within.orElse ?_ fun x => ⟨trivial, ?_⟩
  · unfold storeInquiry
    refine beside_execute.bind fun _ => beside_commitNow.bind fun _ => beside_query.bind ?_
    rintro (_ | row) <;> trivial
  · dsimp only
    split
    · refine beside_query.bind fun duplicate => ?_
      split <;> trivial
    · trivial

theorem persistAndNotify_contacts {payload : InquiryPayload} {delivery : Delivery}
    (hq : q ≠ .made) : (persistAndNotify C payload delivery).Follows contacting F
      (Tells fun reply => reply.reported) q := by
  unfold persistAndNotify
  refine contacting_bind (Within.orElse createInquiry_beside fun x => ⟨trivial, ?_⟩) hq ?_
  · dsimp only
    split <;> trivial
  · intro row q₁ hq₁
    refine Follows.bind (M := fun notified q => q = .made → notified.isSome) ?_
      fun notified q₂ hq₂ hmade => ⟨_, rfl, hq₂ hmade⟩
    refine Follows.orElse (M := fun _ q => q ≠ Contact.made) (Follows.bind
      (M := fun _ _ => True) ?_ fun sent q₂ _ _ => rfl) fun x q₂ hq₂ hmade => (hq₂ hmade).elim
    refine (notifyInquiry_contacts hq₁).mono fun r q₂ hq₂ => ?_
    cases r with
    | ok sent => trivial
    | error x => exact Tells.error hq₂

theorem retryNotification_contacts {id actor : ℕ} {delivery : Delivery} (hq : q ≠ .made) :
    (retryNotification C id actor delivery).Follows contacting F
      (Tells fun reply => reply.reported) q := by
  unfold retryNotification
  refine contacting_bind beside_query hq fun row q₁ hq₁ => ?_
  cases row with
  | none => exact fun hmade => absurd hmade hq₁
  | some row =>
    dsimp only
    split
    · exact fun hmade => absurd hmade hq₁
    refine Follows.bind (M := fun _ _ => True) ?_ fun sent q₂ _ _ => ⟨_, rfl, rfl⟩
    refine Follows.orElse (M := fun _ q => q ≠ Contact.made)
      ((notifyInquiry_contacts hq₁).mono fun r q₂ hq₂ => ?_)
      fun x q₂ hq₂ hmade => (hq₂ hmade).elim
    cases r with
    | ok sent => trivial
    | error x => exact hq₂.error

theorem updateInquiryStatus_beside {id actor : ℕ} {status : ProcessingStatus} :
    (updateInquiryStatus id status actor).Within F Beside := by
  unfold updateInquiryStatus
  refine beside_query.bind fun row => ?_
  cases row with
  | none => trivial
  | some row =>
    refine Within.bind (Within.orElse ?_ fun x => ⟨trivial, trivial⟩) fun _ => trivial
    exact beside_time.bind fun now => beside_time.bind fun t =>
      beside_execute.bind fun _ => beside_execute.bind fun _ => beside_commitNow

/-- **Every request** that has called the provider, and in which nothing fails, reports. -/
theorem inquiryCall_contacts {call : InquiryCall} :
    (call.op C).close.Follows contacting F (Tells fun reply => reply.reported) .none := by
  refine Follows.close ?_
  cases call with
  | submit payload delivery => exact persistAndNotify_contacts nofun
  | retry id actor delivery => exact retryNotification_contacts nofun
  | changeStatus id status actor => exact contacting_within updateInquiryStatus_beside nofun

/-! ## Runs -/

variable {ι : Type} [DecidableEq ι] {db : InquiryDb} {now next : ℕ} {calls : ι → InquiryCall}
  {s : Sys InquirySig ι InquiryReply} {i : ι}

/-- **A call whose attempt is open takes a failure.** -/
theorem reported_run
    (hrun : Sys.Run True (fun _ j ℓ => j = i → ¬ ℓ.Failure)
      (Sys.start db now next fun i => ((calls i).op C).close) s)
    {e : InquiryEvent} (he : (i, e) ∈ s.log) {res : Except Err InquiryReply}
    (hr : (s.proc i).reply? = some res) : ∃ reply, res = .ok reply ∧ reply.reported := by
  let Inv (s : Sys InquirySig ι InquiryReply) (q : Contact) : Prop :=
    q ≠ .failed ∧ ((∃ e, (i, e) ∈ s.log) → q = .made)
  have hstart : Inv (Sys.start db now next fun i => ((calls i).op C).close) .none :=
    ⟨nofun, fun ⟨_, he⟩ => absurd he List.not_mem_nil⟩
  have hends : ∃ q, Inv s q ∧ (s.proc i).Follows contacting True
      (Tells fun reply => reply.reported) q := by
    refine inquiryCall_contacts.among Inv (fun _ _ _ => trivial) ?_ ?_ ?_ hstart hrun
    · rintro s q ℓ p ⟨hsound, hlog⟩ hok - -
      have hno := hok rfl
      cases ℓ with
      | emitted e =>
        have hmade : q.called = .made := by
          cases q with
          | none => rfl
          | made => rfl
          | failed => exact absurd rfl hsound
        refine ⟨?_, fun _ => hmade⟩
        show q.called ≠ .failed
        rw [hmade]
        exact nofun
      | faulted x => exact absurd trivial hno
      | commitFailed x => exact absurd trivial hno
      | commitLost x => exact absurd trivial hno
      | crashed x => exact absurd trivial hno
      | _ => exact ⟨hsound, hlog⟩
    · rintro s q j ℓ p hj ⟨hsound, hlog⟩ - -
      refine ⟨hsound, fun ⟨e, he⟩ => hlog ⟨e, ?_⟩⟩
      exact (Sys.mem_log_after he).resolve_right fun h => hj h.1.symm
    · exact fun hok => absurd trivial (hok rfl)
  obtain ⟨q, ⟨-, hmade⟩, hfol⟩ := hends
  exact hfol.reply hr (hmade ⟨e, he⟩)

end OmniAuth
