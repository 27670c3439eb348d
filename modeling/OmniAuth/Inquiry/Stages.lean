import OmniAuth.Inquiry.Service
import OmniAuth.Txn.Discipline

/-!
# The stages of a notification

A request that notifies locks its row before it reads it, calls the provider once at most and
only while the row says that the mail is not sent and attempts are left, and commits what it
then knows. The automaton here follows a request through these stages, with the row as it was
when it was locked and as the request has it.
-/

namespace OmniAuth

open Txn Prog

/-- What the provider was asked, and what it answered. -/
inductive ProviderCall
  | none
  | posted
  | accepted (receipt : String)
  deriving DecidableEq

inductive NotifyStage
  | idle
  | writing
  | holding (was has : ResearchInquiry) (call : ProviderCall)
  | committed (id : ℕ) (call : ProviderCall)
  | lost (id : ℕ) (call : ProviderCall)

/-- What a commit may make of a row that was locked. -/
def ProviderCall.Outcome (maxAttempts : ℕ) (was has : ResearchInquiry) : ProviderCall → Prop
  | none =>
      has.notificationStatus ≠ .sent ∧ has.notificationAttempts = was.notificationAttempts ∧
        was.notificationStatus ≠ .sent
  | posted =>
      has.notificationStatus ≠ .sent ∧ has.notificationAttempts = was.notificationAttempts + 1 ∧
        was.notificationStatus ≠ .sent ∧ was.notificationAttempts < maxAttempts
  | accepted receipt =>
      has.notificationStatus = .sent ∧ has.notificationReceiptId = some receipt ∧
        has.notificationAttempts = was.notificationAttempts + 1 ∧
        was.notificationStatus ≠ .sent ∧ was.notificationAttempts < maxAttempts

/-- The columns of a notification are left alone. -/
def InquiryColumns.Aside (c : InquiryColumns) : Prop :=
  c.notificationStatus = .none ∧ c.notificationAttempts = .none ∧ c.notificationReceiptId = .none

/-- A row nobody was notified of. -/
def ResearchInquiry.Fresh (row : ResearchInquiry) : Prop :=
  row.notificationStatus = .pending ∧ row.notificationAttempts = 0

/-- What a statement makes of a stage. -/
def NotifyStage.wrote : NotifyStage → InquiryStmt → InquiryDb → NotifyStage
  | idle, .lockInquiry id, seen =>
      match seen.inquiryById id with
      | some row => holding row row .none
      | none => idle
  | idle, .insertInquiry _, _ => writing
  | idle, .updateInquiry _ _, _ => writing
  | holding was has call, .updateInquiry _ c, _ => holding was (has.assign c) call
  | q, _, _ => q

def NotifyStage.ended : NotifyStage → NotifyStage
  | idle => idle
  | writing => idle
  | holding _ _ .none => idle
  | holding was _ call => lost was.inquiryId call
  | q => q

def NotifyStage.commit : NotifyStage → NotifyStage
  | idle => idle
  | writing => idle
  | holding _ _ .none => idle
  | holding was _ call => committed was.inquiryId call
  | q => q

def NotifyStage.emitted : NotifyStage → InquiryEvent → NotifyStage
  | holding was has _, .posted _ => holding was has .posted
  | holding was has _, .accepted _ receipt => holding was has (.accepted receipt)
  | q, _ => q

/-- The statements a stage allows. -/
def NotifyStage.Allows : NotifyStage → InquiryStmt → Prop
  | idle, .insertInquiry row => row.Fresh
  | idle, .lockInquiry _ => True
  | idle, .updateInquiry _ c => c.Aside
  | writing, .insertAuditEvent _ => True
  | holding _ _ _, .insertAuditEvent _ => True
  | holding was _ _, .updateInquiry id _ => id = was.inquiryId
  | _, _ => False

/-- The calls of the provider a stage allows. -/
def NotifyStage.Calls (maxAttempts : ℕ) : NotifyStage → InquiryEvent → Prop
  | holding was _ .none, .posted id =>
      id = was.inquiryId ∧ was.notificationStatus ≠ .sent ∧ was.notificationAttempts < maxAttempts
  | holding was _ .posted, .accepted id _ => id = was.inquiryId
  | _, _ => False

def NotifyStage.Commits (maxAttempts : ℕ) : NotifyStage → Prop
  | holding was has call => call.Outcome maxAttempts was has
  | _ => True

def notifying (maxAttempts : ℕ) : Discipline InquirySig NotifyStage where
  next q
    | .wrote stmt seen _ => q.wrote stmt seen
    | .committed | .commitLost _ => q.commit
    | .rolledBack | .commitFailed _ | .crashed _ => q.ended
    | .emitted e => q.emitted e
    | _ => q
  sees _ _ := True
  may q
    | .wrote stmt _ _ => q.Allows stmt
    | .emitted e => q.Calls maxAttempts e
    | .committed => q.Commits maxAttempts
    | _ => True

/-- Nothing is left to do for the notification. -/
def NotifyStage.Settled : NotifyStage → Prop
  | idle => True
  | committed _ _ => True
  | _ => False

/-- As `Settled`, or the row was found to say that the mail is sent. -/
def NotifyStage.Quiet : NotifyStage → Prop
  | holding _ _ .none => True
  | q => q.Settled

theorem NotifyStage.Quiet.ended {q : NotifyStage} (h : q.Quiet) : q.ended.Settled := by
  cases q with
  | holding was has call =>
    cases call with
    | none => trivial
    | posted => exact h.elim
    | accepted receipt => exact h.elim
  | writing => exact h.elim
  | lost id call => exact h.elim
  | idle => trivial
  | committed id call => trivial

/-! ## The requests keep to the stages -/

variable {C : InquirySettings} {F : Prop} {α : Type} {maxAttempts : ℕ}

theorem notifying_execute_bind {stmt : InquiryStmt} {k : Unit → InquiryOp α} {q : NotifyStage}
    {post : Except Err α → NotifyStage → Prop} (hallows : q.Allows stmt)
    (hk : ∀ seen, (k ()).Follows (notifying maxAttempts) F post (q.wrote stmt seen))
    (hx : ∀ x, post (.error x) q) :
    ((execute (S := InquirySig) stmt).bind k).Follows (notifying maxAttempts) F post q :=
  follows_returning_bind.mpr ⟨fun seen _ _ _ => ⟨hallows, hk seen⟩,
    fun _ x _ _ => ⟨trivial, hx x⟩, fun _ x => hx x⟩

theorem notifying_time_bind {k : ℕ → InquiryOp α} {q : NotifyStage}
    {post : Except Err α → NotifyStage → Prop}
    (hk : ∀ t, (k t).Follows (notifying maxAttempts) F post q) :
    ((time (S := InquirySig)).bind k).Follows (notifying maxAttempts) F post q :=
  follows_time_bind.mpr fun t _ => hk t

theorem notifying_query_bind {β : Type} {f : InquiryDb → β} {k : β → InquiryOp α}
    {q : NotifyStage} {post : Except Err α → NotifyStage → Prop}
    (hk : ∀ b, (k b).Follows (notifying maxAttempts) F post q) (hx : ∀ x, post (.error x) q) :
    ((query (S := InquirySig) f).bind k).Follows (notifying maxAttempts) F post q :=
  follows_query_bind.mpr ⟨fun v _ => ⟨trivial, hk (f v)⟩, fun _ x => hx x⟩

/-- A commit, after which the program answers. -/
theorem notifying_commit_bind {k : Unit → InquiryOp α} {q : NotifyStage}
    {post : Except Err α → NotifyStage → Prop} (hcommits : q.Commits maxAttempts)
    (hk : (k ()).Follows (notifying maxAttempts) F post q.commit)
    (hx : ∀ x, post (.error x) q.ended ∧ post (.error x) q.commit) :
    ((commitNow (S := InquirySig)).bind k).Follows (notifying maxAttempts) F post q :=
  follows_commitNow_bind.mpr ⟨fun _ => ⟨hcommits, hk⟩,
    fun _ x => ⟨(hx x).1, hcommits, (hx x).2⟩⟩

/-- An exception is handled, wherever it leaves the stages. -/
theorem leads_orElse {β : Type} {M : β → NotifyStage → Prop} {p : InquiryOp β}
    {f : Err → InquiryOp β} {q : NotifyStage}
    (h : p.Follows (notifying maxAttempts) F (Leads M) q)
    (hf : ∀ x q, (f x).Follows (notifying maxAttempts) F (Leads M) q) :
    (p.orElse f).Follows (notifying maxAttempts) F (Leads M) q := by
  refine Follows.orElse (M := fun _ _ => True) (h.mono fun r q hr => ?_) fun x q _ => hf x q
  cases r with
  | ok b => exact hr
  | error x => trivial

/-- What `notify` returns, and where it leaves the row. -/
def Notified (r : Except Err Bool) (q : NotifyStage) : Prop := Leads (fun _ q => q.Quiet) r q

theorem deliver_follows {was has : ResearchInquiry} {c : InquiryColumns} {delivery : Delivery}
    (hunsent : was.notificationStatus ≠ .sent) (hleft : was.notificationAttempts < maxAttempts)
    (hc : (has.assign c).notificationAttempts = was.notificationAttempts + 1) :
    (deliver was.inquiryId c delivery).Follows (notifying maxAttempts) F Notified
      (.holding was has .none) := by
  unfold deliver
  refine follows_note_bind.mpr fun _ => ⟨⟨rfl, hunsent, hleft⟩, ?_⟩
  cases delivery with
  | none =>
    refine notifying_execute_bind rfl (fun seen => ?_) fun x => trivial
    refine notifying_commit_bind ⟨?_, hc, hunsent, hleft⟩ trivial fun x => ⟨trivial, trivial⟩
    exact fun hsent => nomatch hsent
  | some receipt =>
    refine follows_note_bind.mpr fun _ => ⟨rfl, ?_⟩
    refine notifying_execute_bind rfl (fun seen => ?_) fun x => trivial
    exact notifying_commit_bind ⟨rfl, rfl, hc, hunsent, hleft⟩ trivial fun x => ⟨trivial, trivial⟩

theorem inquiryById_id {db : InquiryDb} {id : ℕ} {row : ResearchInquiry}
    (h : db.inquiryById id = some row) : row.inquiryId = id := by
  simpa using List.find?_some h

/-- **A notification** keeps to its stages. -/
theorem notifyInquiry_follows {id : ℕ} {actor : Option ℕ} {delivery : Delivery} :
    (notifyInquiry C id actor delivery).Follows (notifying C.notificationMaxAttempts) F Notified
      .idle := by
  unfold notifyInquiry
  refine follows_returning_bind.mpr ⟨fun seen eff _ _ => ⟨trivial, ?_⟩,
    fun _ x _ _ => ⟨trivial, trivial⟩, fun _ x => trivial⟩
  cases hrow : seen.inquiryById id with
  | none => trivial
  | some row =>
    obtain rfl := inquiryById_id hrow
    have hstage : NotifyStage.idle.wrote (.lockInquiry row.inquiryId) seen =
        .holding row row .none := by
      simp only [NotifyStage.wrote, hrow]
    show Follows (S := InquirySig) (notifying C.notificationMaxAttempts) F Notified _
      (NotifyStage.idle.wrote (.lockInquiry row.inquiryId) seen)
    rw [hstage]
    dsimp only
    split
    · trivial
    rename_i hunsent
    split
    · refine notifying_execute_bind rfl (fun _ => ?_) fun x => trivial
      exact notifying_commit_bind ⟨hunsent, rfl, hunsent⟩ trivial fun x => ⟨trivial, trivial⟩
    rename_i hleft
    refine notifying_time_bind fun now => ?_
    split
    · refine notifying_execute_bind rfl (fun _ => ?_) fun x => trivial
      refine notifying_commit_bind ⟨?_, rfl, hunsent⟩ trivial fun x => ⟨trivial, trivial⟩
      exact fun hsent => nomatch hsent
    · cases actor with
      | none => exact deliver_follows hunsent (Nat.lt_of_not_le hleft) rfl
      | some actor =>
        refine notifying_time_bind fun t => ?_
        refine notifying_execute_bind rfl (fun _ => ?_) fun x => trivial
        refine notifying_execute_bind trivial (fun _ => ?_) fun x => trivial
        exact deliver_follows hunsent (Nat.lt_of_not_le hleft) rfl

theorem storeInquiry_follows {row : ResearchInquiry} (hrow : row.Fresh) :
    (storeInquiry row).Follows (notifying maxAttempts) F (Leads fun _ q => q = .idle) .idle := by
  unfold storeInquiry
  refine notifying_execute_bind hrow (fun _ => ?_) fun x => trivial
  refine notifying_commit_bind trivial ?_ fun x => ⟨trivial, trivial⟩
  refine notifying_query_bind (fun refreshed => ?_) fun x => trivial
  cases refreshed with
  | none => trivial
  | some row => exact rfl

/-- **A submission** stores a row nobody was notified of. -/
theorem createInquiry_follows {payload : InquiryPayload} :
    (createInquiry C payload).Follows (notifying maxAttempts) F (Leads fun _ q => q = .idle)
      .idle := by
  unfold createInquiry
  refine notifying_time_bind fun now => ?_
  refine follows_draw_bind.mpr fun id _ => ?_
  refine leads_orElse (storeInquiry_follows ⟨rfl, rfl⟩) fun x q => ?_
  show Follows (S := InquirySig) (notifying maxAttempts) F (Leads fun _ q => q = .idle) _ q.ended
  dsimp only
  split
  · refine notifying_query_bind (fun duplicate => ?_) fun x => trivial
    split
    · trivial
    · trivial
  · trivial

/-- The reply tells how a notification ended, as `notify` returned. -/
def InquiryReply.reported : InquiryReply → Bool
  | received _ _ notified => notified.isSome
  | retried _ _ => true
  | changed _ _ => false

/-- What a request ends in. -/
def InquiryAnswered (r : Except Err InquiryReply) (q : NotifyStage) : Prop :=
  Leads (fun reply q => reply.reported → q.Settled) r q

theorem persistAndNotify_follows {payload : InquiryPayload} {delivery : Delivery} :
    (persistAndNotify C payload delivery).Follows (notifying C.notificationMaxAttempts) F
      (Leads fun reply q => reply.reported → q.Quiet) .idle := by
  unfold persistAndNotify
  refine Leads.bind (M := fun _ q => q = .idle) ?_ fun row q hq => ?_
  · refine leads_orElse createInquiry_follows fun x q => ?_
    show Follows (S := InquirySig) _ F _ _ q.ended
    dsimp only
    split
    · trivial
    · trivial
  · subst hq
    refine Leads.bind (M := fun notified q => notified.isSome → q.Quiet) ?_ fun notified q hq => ?_
    swap
    · exact hq
    refine leads_orElse (Leads.bind notifyInquiry_follows fun sent q hq _ => hq) fun x q => ?_
    exact fun hnone => absurd hnone (by decide)

theorem retryNotification_follows {id actor : ℕ} {delivery : Delivery} :
    (retryNotification C id actor delivery).Follows (notifying C.notificationMaxAttempts) F
      (Leads fun reply q => reply.reported → q.Quiet) .idle := by
  unfold retryNotification
  refine notifying_query_bind (fun row => ?_) fun x => trivial
  cases row with
  | none => trivial
  | some row =>
    dsimp only
    split
    · trivial
    refine Leads.bind (M := fun _ q => q.Quiet) ?_ fun sent q hq _ => hq
    exact leads_orElse notifyInquiry_follows fun x q => trivial

theorem updateInquiryStatus_follows {id actor : ℕ} {status : ProcessingStatus} :
    (updateInquiryStatus id status actor).Follows (notifying maxAttempts) F
      (Leads fun reply q => reply.reported → q.Quiet) .idle := by
  unfold updateInquiryStatus
  refine notifying_query_bind (fun row => ?_) fun x => trivial
  cases row with
  | none => trivial
  | some row =>
    refine Leads.bind (M := fun _ _ => True) ?_ fun _ q _ hreported => absurd hreported nofun
    refine leads_orElse ?_ fun x q => trivial
    refine notifying_time_bind fun now => notifying_time_bind fun t => ?_
    refine notifying_execute_bind ⟨rfl, rfl, rfl⟩ (fun _ => ?_) fun x => trivial
    refine notifying_execute_bind trivial (fun _ => ?_) fun x => trivial
    exact ⟨fun _ => ⟨trivial, trivial⟩, fun _ x => ⟨trivial, trivial, trivial⟩⟩

/-- **Every request** keeps to the stages. -/
theorem inquiryCall_follows {call : InquiryCall} :
    (call.op C).close.Follows (notifying C.notificationMaxAttempts) F InquiryAnswered .idle := by
  have hquiet : (call.op C).Follows (notifying C.notificationMaxAttempts) F
      (Leads fun reply q => reply.reported → q.Quiet) .idle := by
    cases call with
    | submit payload delivery => exact persistAndNotify_follows
    | retry id actor delivery => exact retryNotification_follows
    | changeStatus id status actor => exact updateInquiryStatus_follows
  refine (hquiet.mono fun r q hr => ?_).close
  cases r with
  | ok reply => exact fun hreported => (hr hreported).ended
  | error x => trivial

end OmniAuth
