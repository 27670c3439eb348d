import OmniAuth.Inquiry.Rows
import OmniAuth.Inquiry.Contact

/-!
# Inquiries are notified once

Whatever requests are made at once and whatever fails, an inquiry is stored once a day, a
request calls the provider once at most, those whose `notify` returns call it no more often
than the limit says and get one receipt at most, and once the mail is committed as sent nobody
calls the provider again. Where `notify` raises after the call, the attempt may not be
counted: that takes a failure.
-/

namespace OmniAuth

open Txn Prog

variable {C : InquirySettings} {F : Prop} {maxAttempts : ℕ}

/-- The receipt an event tells of. -/
def InquiryEvent.receipt? (id : ℕ) : InquiryEvent → Option String
  | accepted id' receipt => if id' = id then some receipt else none
  | posted _ => none

theorem InquiryEvent.receipt?_eq_some {e : InquiryEvent} {id : ℕ} {receipt : String} :
    e.receipt? id = some receipt ↔ e = .accepted id receipt := by
  cases e with
  | posted id' => exact ⟨nofun, nofun⟩
  | accepted id' receipt' =>
    unfold receipt?
    rw [Option.ite_none_right_eq_some]
    constructor
    · rintro ⟨rfl, hreceipt⟩
      rw [Option.some.inj hreceipt]
    · intro he
      obtain ⟨rfl, rfl⟩ := InquiryEvent.accepted.inj he
      exact ⟨rfl, rfl⟩

/-- What a process may rely on at its stage. -/
def NotifyStage.Holds (c : Conn InquirySig) (db : InquiryDb) : NotifyStage → Prop
  | writing => ∀ id, SameNotice (db.inquiryById id) ((c.pend db).inquiryById id)
  | holding was has _ =>
      (∀ l ∈ c.held, l = .inquiry was.inquiryId) ∧ .inquiry was.inquiryId ∈ c.held ∧
        db.inquiryById was.inquiryId = some was ∧
        (c.pend db).inquiryById was.inquiryId = some has
  | _ => c.held = []

/-- The history of a call. -/
def ProviderCall.Covers (id : ℕ) : ProviderCall → InquiryEvent → Prop
  | posted, .posted id' => id' = id
  | accepted _, .posted id' => id' = id
  | accepted receipt, .accepted id' receipt' => id' = id ∧ receipt' = receipt
  | _, _ => False

/-- The calls of the provider a stage remembers. -/
def NotifyStage.Called (e : InquiryEvent) : NotifyStage → Prop
  | holding was _ call => call.Covers was.inquiryId e
  | committed id call => call.Covers id e
  | lost id call => call.Covers id e
  | _ => False

variable {ι : Type}

/-! ## The history -/

/-- Who called the provider for an inquiry, one entry a call. -/
def callers (s : Sys InquirySig ι InquiryReply) (id : ℕ) : List ι :=
  s.log.filterMap fun e => if e.2 = .posted id then some e.1 else none

/-- The receipts for an inquiry and who got them, one entry a receipt. -/
def receipts (s : Sys InquirySig ι InquiryReply) (id : ℕ) : List (ι × String) :=
  s.log.filterMap fun e => e.2.receipt? id |>.map (e.1, ·)

theorem mem_callers {s : Sys InquirySig ι InquiryReply} {id : ℕ} {i : ι} :
    i ∈ callers s id ↔ (i, .posted id) ∈ s.log := by
  unfold callers
  rw [List.mem_filterMap]
  constructor
  · rintro ⟨⟨j, e⟩, he, hsome⟩
    obtain ⟨rfl, hj⟩ := Option.ite_none_right_eq_some.mp hsome
    obtain rfl := Option.some.inj hj
    exact he
  · exact fun he => ⟨_, he, if_pos rfl⟩

theorem mem_receipts {s : Sys InquirySig ι InquiryReply} {id : ℕ} {i : ι} {receipt : String} :
    (i, receipt) ∈ receipts s id ↔ (i, .accepted id receipt) ∈ s.log := by
  unfold receipts
  rw [List.mem_filterMap]
  constructor
  · rintro ⟨⟨j, e⟩, he, hsome⟩
    obtain ⟨receipt', hreceipt, hpair⟩ := Option.map_eq_some_iff.mp hsome
    obtain ⟨rfl, rfl⟩ := Prod.mk.inj hpair
    obtain rfl := InquiryEvent.receipt?_eq_some.mp hreceipt
    exact he
  · exact fun he => ⟨_, he, Option.map_eq_some_iff.mpr
      ⟨receipt, InquiryEvent.receipt?_eq_some.mpr rfl, rfl⟩⟩

variable [DecidableEq ι]

/-- **The invariant.** -/
structure Notifications (maxAttempts : ℕ) (s : Sys InquirySig ι InquiryReply)
    (g : ι → NotifyStage) : Prop where
  guarded : inquiryRows.Guarded s
  stages : ∀ i, (g i).Holds (s.conn i) s.db
  rows : ∀ id row, InquiryDb.inquiryById s.db id = some row → row.Sound maxAttempts
  logged : ∀ i e, (i, e) ∈ s.log → (g i).Called e
  callers : ∀ id, (callers s id).Nodup
  receipts : ∀ id, ((receipts s id).map Prod.fst).Nodup
  counted : ∀ id (l : List ι), l.Nodup → (∀ i ∈ l, ∃ call, g i = .committed id call) →
    l.length ≤ InquiryDb.attempts s.db id
  sent : ∀ i id receipt, g i = .committed id (.accepted receipt) →
    InquiryDb.SentWith s.db id receipt
  one : ∀ i j id receipt receipt', g i = .committed id (.accepted receipt) →
    g j = .committed id (.accepted receipt') → i = j

/-! ## A stage after a step -/

variable {s s' : Sys InquirySig ι InquiryReply} {g : ι → NotifyStage} {i j : ι}
  {ℓ : Label InquirySig} {q : NotifyStage}

theorem NotifyStage.idle_holds {c : Conn InquirySig} {db : InquiryDb} (hc : c.held = [])
    (hq : q.Settled ∨ ∃ id call, q = .lost id call) : q.Holds c db := by
  rcases hq with hq | ⟨id, call, rfl⟩
  · cases q with
    | idle => exact hc
    | committed id call => exact hc
    | writing => exact hq.elim
    | holding was has call => exact hq.elim
    | lost id call => exact hq.elim
  · exact hc

theorem NotifyStage.commit_settled (q : NotifyStage) :
    q.commit.Settled ∨ ∃ id call, q.commit = .lost id call := by
  cases q with
  | holding was has call => cases call <;> exact .inl trivial
  | lost id call => exact .inr ⟨id, call, rfl⟩
  | _ => exact .inl trivial

theorem NotifyStage.ended_settled (q : NotifyStage) :
    q.ended.Settled ∨ ∃ id call, q.ended = .lost id call := by
  cases q with
  | holding was has call =>
    cases call with
    | none => exact .inl trivial
    | posted => exact .inr ⟨_, _, rfl⟩
    | accepted receipt => exact .inr ⟨_, _, rfl⟩
  | lost id call => exact .inr ⟨id, call, rfl⟩
  | _ => exact .inl trivial

/-- A first statement leaves notifications alone. -/
theorem NotifyStage.idle_sameNotice {db seen : InquiryDb} {stmt : InquiryStmt}
    {eff : Effect InquiryDb InquiryLock} (hden : stmt.denote seen = .ok eff)
    (hallows : NotifyStage.idle.Allows stmt) {id : ℕ}
    (hrow : seen.inquiryById id = db.inquiryById id) :
    SameNotice (db.inquiryById id) ((eff.delta seen).inquiryById id) := by
  rcases denote_row hden id with hsame | ⟨row, rfl, -, hnone, hor⟩ | ⟨c, rfl, -, hmap⟩
  · rw [hsame, hrow]
    exact SameNotice.refl _
  · rw [hor, ← hrow, hnone]
    exact hallows
  · rw [hmap, hrow]
    obtain ⟨hstatus, hattempts, hreceipt⟩ := hallows
    cases db.inquiryById id with
    | none => trivial
    | some row =>
      simp only [Option.map_some, SameNotice, ResearchInquiry.assign, hstatus, hattempts, hreceipt]
      exact ⟨rfl, rfl, rfl⟩

/-- **A statement of the process itself.** -/
theorem NotifyStage.wrote_holds {c : Conn InquirySig} {db : InquiryDb} {stmt : InquiryStmt}
    {eff : Effect InquirySig.State InquirySig.Lock}
    (hden : InquirySig.denote stmt (c.pend db) = .ok eff) (hallows : q.Allows stmt)
    (hframe : ∀ id, InquiryLock.inquiry id ∉ c.held →
      InquiryDb.inquiryById (c.pend db) id = db.inquiryById id) (h : q.Holds c db) :
    (q.wrote stmt (c.pend db)).Holds
      { c with pend := eff.delta ∘ c.pend, held := eff.locks ++ c.held } db := by
  cases q with
  | idle =>
    have hheld : c.held = [] := h
    have hrow : ∀ id, InquiryDb.inquiryById (c.pend db) id = db.inquiryById id := fun id =>
      hframe id (by rw [hheld]; exact List.not_mem_nil)
    cases stmt with
    | insertInquiry row => exact fun id => NotifyStage.idle_sameNotice hden hallows (hrow id)
    | updateInquiry id' c' => exact fun id => NotifyStage.idle_sameNotice hden hallows (hrow id)
    | insertAuditEvent row => exact hallows.elim
    | lockInquiry id =>
      have heff := Except.ok.inj hden
      cases hfound : InquiryDb.inquiryById (c.pend db) id with
      | none =>
        have hstage : NotifyStage.idle.wrote (.lockInquiry id) (c.pend db) = .idle := by
          simp only [NotifyStage.wrote, hfound]
        rw [hstage]
        show eff.locks ++ c.held = []
        rw [hheld, ← heff, hfound]
        rfl
      | some row =>
        have hstage : NotifyStage.idle.wrote (.lockInquiry id) (c.pend db) =
            .holding row row .none := by
          simp only [NotifyStage.wrote, hfound]
        obtain rfl := inquiryById_id hfound
        have hlocks : eff.locks ++ c.held = [InquiryLock.inquiry row.inquiryId] := by
          rw [hheld, ← heff, hfound]
          rfl
        rw [hstage]
        refine ⟨fun l hl => ?_, ?_, (hrow _).symm.trans hfound, ?_⟩
        · exact List.mem_singleton.mp (hlocks ▸ hl)
        · show _ ∈ eff.locks ++ c.held
          rw [hlocks]
          exact List.mem_singleton_self _
        · show InquiryDb.inquiryById (eff.delta (c.pend db)) row.inquiryId = some row
          rw [← heff]
          exact hfound
  | writing =>
    cases stmt with
    | insertAuditEvent row =>
      obtain rfl := Except.ok.inj hden
      exact h
    | insertInquiry row => exact hallows.elim
    | lockInquiry id => exact hallows.elim
    | updateInquiry id c => exact hallows.elim
  | holding was has call =>
    obtain ⟨honly, hlock, hwas, hhas⟩ := h
    cases stmt with
    | insertAuditEvent row =>
      obtain rfl := Except.ok.inj hden
      exact ⟨honly, hlock, hwas, hhas⟩
    | updateInquiry id c' =>
      obtain rfl : id = was.inquiryId := hallows
      have hsome : (InquiryDb.inquiryById (c.pend db) was.inquiryId).isSome = true := by
        rw [hhas]
        rfl
      have heff : (⟨[.inquiry was.inquiryId], fun db => db.updateInquiry was.inquiryId c'⟩ :
          Effect InquiryDb InquiryLock) = eff := by
        have hden' : InquiryStmt.denote (.updateInquiry was.inquiryId c') (c.pend db) = .ok eff :=
          hden
        simp only [InquiryStmt.denote, hsome, if_true] at hden'
        exact Except.ok.inj hden'
      rw [← heff]
      refine ⟨fun l hl => ?_, List.mem_append_right _ hlock, hwas, ?_⟩
      · rcases List.mem_append.mp hl with hl | hl
        · exact List.mem_singleton.mp hl
        · exact honly l hl
      · show InquiryDb.inquiryById (InquiryDb.updateInquiry (c.pend db) was.inquiryId c')
          was.inquiryId = some (has.assign c')
        rw [inquiryById_update, if_pos rfl, hhas]
        rfl
    | insertInquiry row => exact hallows.elim
    | lockInquiry id => exact hallows.elim
  | committed id call => cases stmt <;> exact hallows.elim
  | lost id call => cases stmt <;> exact hallows.elim

omit [DecidableEq ι] in
/-- **A stage after a step of its process.** -/
theorem NotifyStage.next_holds (hden : ∀ stmt seen eff, ℓ = .wrote stmt seen eff →
      seen = s.latest i ∧ InquirySig.denote stmt seen = .ok eff)
    (hvouched : (notifying maxAttempts).Vouched q ℓ)
    (hframe : ∀ id, InquiryLock.inquiry id ∉ (s.conn i).held →
      InquiryDb.inquiryById (s.latest i) id = InquiryDb.inquiryById s.db id)
    (h : q.Holds (s.conn i) s.db) :
    ((notifying maxAttempts).next q ℓ).Holds (s.connAfter i ℓ) (s.dbAfter i ℓ) := by
  cases ℓ with
  | wrote stmt seen eff =>
    obtain ⟨rfl, hok⟩ := hden _ _ _ rfl
    exact NotifyStage.wrote_holds hok hvouched hframe h
  | committed => exact NotifyStage.idle_holds rfl q.commit_settled
  | commitLost x => exact NotifyStage.idle_holds rfl q.commit_settled
  | rolledBack => exact NotifyStage.idle_holds rfl q.ended_settled
  | commitFailed x => exact NotifyStage.idle_holds rfl q.ended_settled
  | crashed x => exact NotifyStage.idle_holds rfl q.ended_settled
  | emitted e =>
    cases q with
    | holding was has call => cases e <;> exact h
    | _ => exact h
  | _ => cases q <;> exact h

/-- **A stage does not mind the steps of others.** -/
theorem NotifyStage.Holds.other (hg : inquiryRows.Guarded s) (hx : s.Exclusive)
    (hen : s.Enabled i ℓ) (hj : j ≠ i) (p : Prog InquirySig InquiryReply)
    (h : q.Holds (s.conn j) s.db) : q.Holds (s.conn j) (s.after i ℓ p).db := by
  have hconn : (s.after i ℓ p).conn j = s.conn j := Sys.after_conn_of_ne _ _ _ hj
  cases q with
  | writing =>
    intro id
    have hstable := hg.latest_after_of_ne hx hen hj p (.inquiry id)
    unfold Sys.latest at hstable
    rw [hconn] at hstable
    rcases hstable with ⟨-, hlatest, hdb⟩ | ⟨-, hlatest⟩
    · have hlatest : InquiryDb.inquiryById ((s.conn j).pend (s.after i ℓ p).db) id =
          InquiryDb.inquiryById ((s.conn j).pend s.db) id := hlatest
      have hdb : InquiryDb.inquiryById (s.after i ℓ p).db id = InquiryDb.inquiryById s.db id := hdb
      rw [hlatest, hdb]
      exact h id
    · have hlatest : InquiryDb.inquiryById ((s.conn j).pend (s.after i ℓ p).db) id =
          InquiryDb.inquiryById (s.after i ℓ p).db id := hlatest
      rw [hlatest]
      exact SameNotice.refl _
  | holding was has call =>
    obtain ⟨honly, hlock, hwas, hhas⟩ := h
    refine ⟨honly, hlock, (hg.db_after hx hj hlock p).trans hwas, ?_⟩
    have hlatest := hg.latest_after (ℓ := ℓ) hx hj hlock p
    unfold Sys.latest at hlatest
    rw [hconn] at hlatest
    exact hlatest.trans hhas
  | _ => exact h

/-- **What a step does to the committed rows.** -/
theorem Notifications.noticeStep (h : Notifications maxAttempts s g)
    (hvouched : (notifying maxAttempts).Vouched (g i) ℓ) (p : Prog InquirySig InquiryReply)
    (id : ℕ) : NoticeStep maxAttempts (InquiryDb.inquiryById s.db id)
      (InquiryDb.inquiryById (s.after i ℓ p).db id) := by
  by_cases hcommits : Rows.Commits ℓ
  · have hmay : (g i).Commits maxAttempts := by
      cases ℓ with
      | committed => exact hvouched
      | commitLost x => exact hvouched
      | _ => exact hcommits.elim
    rw [Sys.after_db, hcommits.dbAfter]
    have hstage := h.stages i
    have hfree : InquiryLock.inquiry id ∉ (s.conn i).held →
        InquiryDb.inquiryById (s.latest i) id = InquiryDb.inquiryById s.db id :=
      h.guarded.latest_of_not_held
    cases hq : g i with
    | writing =>
      rw [hq] at hstage
      exact .inl (hstage id)
    | holding was has call =>
      rw [hq] at hstage hmay
      obtain ⟨honly, -, hwas, hhas⟩ := hstage
      by_cases hid : id = was.inquiryId
      · subst hid
        exact .inr ⟨was, has, call, hwas, hhas, hmay⟩
      · rw [hfree fun hl => hid (InquiryLock.inquiry.inj (honly _ hl))]
        exact .inl (SameNotice.refl _)
    | _ =>
      rw [hq] at hstage
      have hempty : (s.conn i).held = [] := hstage
      rw [hfree (by rw [hempty]; exact List.not_mem_nil)]
      exact .inl (SameNotice.refl _)
  · rw [Sys.after_db, Rows.dbAfter_of_not_commits hcommits]
    exact .inl (SameNotice.refl _)

theorem NotifyStage.called_wrote {e : InquiryEvent} {stmt : InquiryStmt} {seen : InquiryDb}
    (h : q.Called e) : (q.wrote stmt seen).Called e := by
  cases q with
  | idle => exact h.elim
  | writing => exact h.elim
  | _ => cases stmt <;> exact h

theorem NotifyStage.called_ended {e : InquiryEvent} (h : q.Called e) : q.ended.Called e := by
  cases q with
  | holding was has call => cases call <;> exact h
  | _ => exact h

theorem NotifyStage.called_commit {e : InquiryEvent} (h : q.Called e) : q.commit.Called e := by
  cases q with
  | holding was has call => cases call <;> exact h
  | _ => exact h

theorem NotifyStage.called_emitted {e e' : InquiryEvent} (hcalls : q.Calls maxAttempts e')
    (h : q.Called e ∨ e' = e) : (q.emitted e').Called e := by
  cases q with
  | holding was has call =>
    cases call with
    | none =>
      cases e' with
      | posted id =>
        obtain ⟨rfl, -⟩ := hcalls
        rcases h with h | rfl
        · exact h.elim
        · rfl
      | accepted id receipt => exact hcalls.elim
    | posted =>
      cases e' with
      | posted id => exact hcalls.elim
      | accepted id receipt =>
        obtain rfl : id = was.inquiryId := hcalls
        rcases h with h | rfl
        · cases e with
          | posted id => exact h
          | accepted id' receipt' => exact h.elim
        · exact ⟨rfl, rfl⟩
    | accepted receipt => cases e' <;> exact hcalls.elim
  | _ => cases e' <;> exact hcalls.elim

/-- **A stage remembers** what its process asked the provider. -/
theorem NotifyStage.called_next {e : InquiryEvent} (hvouched : (notifying maxAttempts).Vouched q ℓ)
    (h : q.Called e ∨ ℓ = .emitted e) : ((notifying maxAttempts).next q ℓ).Called e := by
  cases ℓ with
  | emitted e' => exact NotifyStage.called_emitted hvouched (h.imp_right Label.emitted.inj)
  | wrote stmt seen eff => exact NotifyStage.called_wrote (h.resolve_right nofun)
  | committed => exact NotifyStage.called_commit (h.resolve_right nofun)
  | commitLost x => exact NotifyStage.called_commit (h.resolve_right nofun)
  | rolledBack => exact NotifyStage.called_ended (h.resolve_right nofun)
  | commitFailed x => exact NotifyStage.called_ended (h.resolve_right nofun)
  | crashed x => exact NotifyStage.called_ended (h.resolve_right nofun)
  | _ => exact h.resolve_right nofun

theorem NotifyStage.commit_committed {id : ℕ} {call : ProviderCall}
    (h : q.commit = .committed id call) : q = .committed id call ∨
      call ≠ .none ∧ ∃ was has, q = .holding was has call ∧ id = was.inquiryId := by
  cases q with
  | holding was has call' =>
    cases call' with
    | none => cases h
    | posted =>
      cases h
      exact .inr ⟨nofun, was, has, rfl, rfl⟩
    | accepted receipt =>
      cases h
      exact .inr ⟨nofun, was, has, rfl, rfl⟩
  | committed id' call' => exact .inl h
  | _ => cases h

theorem NotifyStage.ended_committed {id : ℕ} {call : ProviderCall}
    (h : q.ended = .committed id call) : q = .committed id call := by
  cases q with
  | holding was has call' => cases call' <;> cases h
  | committed id' call' => exact h
  | _ => cases h

theorem NotifyStage.wrote_committed {id : ℕ} {call : ProviderCall} {stmt : InquiryStmt}
    {seen : InquiryDb} (h : q.wrote stmt seen = .committed id call) : q = .committed id call := by
  cases q with
  | idle =>
    cases stmt with
    | lockInquiry id' =>
      simp only [NotifyStage.wrote] at h
      split at h <;> cases h
    | _ => cases h
  | _ => cases stmt <;> cases h <;> rfl

/-- **A notification is committed** by a commit of what the row was locked for. -/
theorem NotifyStage.next_committed {id : ℕ} {call : ProviderCall}
    (hvouched : (notifying maxAttempts).Vouched q ℓ)
    (h : (notifying maxAttempts).next q ℓ = .committed id call) :
    q = .committed id call ∨ ∃ was has, q = .holding was has call ∧ id = was.inquiryId ∧
      call ≠ .none ∧ Rows.Commits ℓ ∧ call.Outcome maxAttempts was has := by
  cases ℓ with
  | committed =>
    refine (NotifyStage.commit_committed h).imp_right ?_
    rintro ⟨hcall, was, has, rfl, hid⟩
    exact ⟨was, has, rfl, hid, hcall, trivial, hvouched⟩
  | commitLost x =>
    refine (NotifyStage.commit_committed h).imp_right ?_
    rintro ⟨hcall, was, has, rfl, hid⟩
    exact ⟨was, has, rfl, hid, hcall, trivial, hvouched⟩
  | rolledBack => exact .inl (NotifyStage.ended_committed h)
  | commitFailed x => exact .inl (NotifyStage.ended_committed h)
  | crashed x => exact .inl (NotifyStage.ended_committed h)
  | wrote stmt seen eff => exact .inl (NotifyStage.wrote_committed h)
  | emitted e =>
    cases q with
    | committed id' call' => cases e <;> exact hvouched.elim
    | _ => cases e <;> cases h
  | _ => exact .inl h

/-- Who calls the provider has not called it. -/
theorem NotifyStage.Calls.first {id : ℕ} (h : q.Calls maxAttempts (.posted id)) (e : InquiryEvent) :
    ¬ q.Called e := by
  cases q with
  | holding was has call =>
    cases call with
    | none => exact fun hcalled => hcalled
    | posted => exact h.elim
    | accepted receipt => exact h.elim
  | _ => exact h.elim

/-- Who gets a receipt has got none. -/
theorem NotifyStage.Calls.unanswered {id id' : ℕ} {receipt receipt' : String}
    (h : q.Calls maxAttempts (.accepted id receipt)) : ¬ q.Called (.accepted id' receipt') := by
  cases q with
  | holding was has call =>
    cases call with
    | none => exact h.elim
    | posted => exact fun hcalled => hcalled
    | accepted receipt => exact h.elim
  | _ => exact h.elim

theorem NotifyStage.Called.inquiry {id id' : ℕ} (h : q.Called (.posted id))
    (h' : q.Called (.posted id')) : id = id' := by
  cases q with
  | holding was has call => cases call <;> first | exact h.elim | exact h.trans h'.symm
  | committed id₀ call => cases call <;> first | exact h.elim | exact h.trans h'.symm
  | lost id₀ call => cases call <;> first | exact h.elim | exact h.trans h'.symm
  | idle => exact h.elim
  | writing => exact h.elim

/-! ## The invariant -/

/-- What a list with one more entry tells is told once, if the entry tells something new. -/
theorem nodup_filterMap_append {α β : Type} {f : α → Option β} {l : List α} {a : α}
    (h : (l.filterMap f).Nodup) (hnew : ∀ b, f a = some b → b ∉ l.filterMap f) :
    ((l ++ [a]).filterMap f).Nodup := by
  rw [List.filterMap_append]
  cases ha : f a with
  | none =>
    rw [List.filterMap_cons_none ha, List.filterMap_nil, List.append_nil]
    exact h
  | some b =>
    rw [List.filterMap_cons_some ha, List.filterMap_nil]
    exact h.append (List.nodup_singleton b) (List.disjoint_singleton.mpr (hnew b ha))

/-- **A request calls the provider once.** -/
theorem Notifications.callers_after (h : Notifications maxAttempts s g)
    (hvouched : (notifying maxAttempts).Vouched (g i) ℓ) (p : Prog InquirySig InquiryReply)
    (id : ℕ) : (OmniAuth.callers (s.after i ℓ p) id).Nodup := by
  cases ℓ with
  | emitted e =>
    refine nodup_filterMap_append (h.callers id) fun j hsome hj => ?_
    obtain ⟨rfl, hi⟩ := Option.ite_none_right_eq_some.mp hsome
    obtain rfl := Option.some.inj hi
    exact hvouched.first _ (h.logged _ _ (mem_callers.mp hj))
  | _ => exact h.callers id

/-- **A request gets one receipt.** -/
theorem Notifications.receipts_after (h : Notifications maxAttempts s g)
    (hvouched : (notifying maxAttempts).Vouched (g i) ℓ) (p : Prog InquirySig InquiryReply)
    (id : ℕ) : ((OmniAuth.receipts (s.after i ℓ p) id).map Prod.fst).Nodup := by
  cases ℓ with
  | emitted e =>
    have hold := h.receipts id
    unfold OmniAuth.receipts at hold ⊢
    rw [List.map_filterMap] at hold ⊢
    refine nodup_filterMap_append hold fun j hsome hj => ?_
    obtain ⟨pair, hpair, rfl⟩ := Option.map_eq_some_iff.mp hsome
    obtain ⟨receipt, he, rfl⟩ := Option.map_eq_some_iff.mp hpair
    obtain rfl := InquiryEvent.receipt?_eq_some.mp he
    have hgot : i ∈ (OmniAuth.receipts s id).map Prod.fst := by
      unfold OmniAuth.receipts
      rw [List.map_filterMap]
      exact hj
    obtain ⟨⟨j, receipt'⟩, hmem, hi⟩ := List.mem_map.mp hgot
    obtain rfl : j = i := hi
    exact hvouched.unanswered (h.logged _ _ (mem_receipts.mp hmem))
  | _ => exact h.receipts id

/-- An attempt more is counted by the commit that ends it. -/
theorem ProviderCall.Outcome.attempts {was has : ResearchInquiry} {call : ProviderCall}
    (h : call.Outcome maxAttempts was has) (hcall : call ≠ .none) :
    has.notificationAttempts = was.notificationAttempts + 1 := by
  cases call with
  | none => exact absurd rfl hcall
  | posted => exact h.2.1
  | accepted receipt => exact h.2.2.1

/-- **Who has committed a notification** had before, or does by this step. -/
theorem Notifications.newly (h : Notifications maxAttempts s g)
    (hvouched : (notifying maxAttempts).Vouched (g i) ℓ) (p : Prog InquirySig InquiryReply)
    {id : ℕ} {call : ProviderCall}
    (hj : Function.update g i ((notifying maxAttempts).next (g i) ℓ) j = .committed id call) :
    g j = .committed id call ∨ j = i ∧ ∃ was has, call ≠ .none ∧
      call.Outcome maxAttempts was has ∧ InquiryDb.inquiryById s.db id = some was ∧
      InquiryDb.inquiryById (s.after i ℓ p).db id = some has := by
  by_cases hi : j = i
  · subst hi
    rw [Function.update_self] at hj
    refine (NotifyStage.next_committed hvouched hj).imp_right ?_
    rintro ⟨was, has, hq, rfl, hcall, hcommits, hout⟩
    have hstage := h.stages j
    rw [hq] at hstage
    obtain ⟨-, -, hwas, hhas⟩ := hstage
    refine ⟨rfl, was, has, hcall, hout, hwas, ?_⟩
    rw [Sys.after_db, hcommits.dbAfter]
    exact hhas
  · rw [Function.update_of_ne hi] at hj
    exact .inl hj

/-- **A step counts at most one attempt**, and counts it in the row. -/
theorem Notifications.counted_after (h : Notifications maxAttempts s g)
    (hvouched : (notifying maxAttempts).Vouched (g i) ℓ) (p : Prog InquirySig InquiryReply)
    {id : ℕ} {l : List ι} (hl : l.Nodup) (hall : ∀ j ∈ l, ∃ call,
      Function.update g i ((notifying maxAttempts).next (g i) ℓ) j = .committed id call) :
    l.length ≤ InquiryDb.attempts (s.after i ℓ p).db id := by
  have hmono := (h.noticeStep hvouched p id).attempts
  by_cases hnew : ∃ j ∈ l, ∀ call, g j ≠ .committed id call
  · obtain ⟨j, hj, hnot⟩ := hnew
    obtain ⟨call, hcall⟩ := hall j hj
    obtain ⟨rfl, was, has, hne, hout, hwas, hhas⟩ :=
      (h.newly hvouched p hcall).resolve_left (hnot call)
    have hothers : (l.erase j).length ≤ InquiryDb.attempts s.db id := by
      refine h.counted id _ (hl.erase j) fun k hk => ?_
      obtain ⟨hkj, hkl⟩ := hl.mem_erase_iff.mp hk
      obtain ⟨call', hcall'⟩ := hall k hkl
      exact ⟨call', (h.newly hvouched p hcall').resolve_right fun hk => hkj hk.1⟩
    rw [List.length_erase_of_mem hj, InquiryDb.attempts_row hwas] at hothers
    rw [InquiryDb.attempts_row hhas, hout.attempts hne]
    omega
  · simp only [not_exists, not_and, not_forall, not_not] at hnew
    exact (h.counted id l hl hnew).trans hmono

omit [DecidableEq ι] in
/-- Who finds the mail sent does not send it. -/
theorem Notifications.unsent (h : Notifications maxAttempts s g) {id : ℕ}
    {receipt receipt' : String} {was has : ResearchInquiry}
    (hj : g j = .committed id (.accepted receipt))
    (hwas : InquiryDb.inquiryById s.db id = some was) :
    ¬ ProviderCall.Outcome maxAttempts was has (.accepted receipt') := by
  rintro ⟨-, -, -, hnot, -⟩
  obtain ⟨row, hrow, hstatus, -⟩ := h.sent j id receipt hj
  obtain rfl := Option.some.inj (hwas.symm.trans hrow)
  exact hnot hstatus

/-- **Every step keeps the invariant.** -/
theorem notifications_keeps {ok : Sys InquirySig ι InquiryReply → ι → Label InquirySig → Prop} :
    (notifying maxAttempts).Keeps ok (fun _ => InquiryAnswered) (Notifications maxAttempts) where
  sees _ _ _ _ := trivial
  after {s g i ℓ} p hx h hen _ _ hvouched := by
    have hstep := h.noticeStep hvouched p
    refine ⟨h.guarded.after hen p, ?_, fun id => (hstep id).sound (h.rows id), fun j e he => ?_,
      h.callers_after hvouched p, h.receipts_after hvouched p,
      fun id l hl hall => h.counted_after hvouched p hl hall, fun j id receipt hj => ?_,
      fun j k id receipt receipt' hj hk => ?_⟩
    · refine Sys.forall_after (P := fun c (q : NotifyStage) => q.Holds c (s.after i ℓ p).db) ?_
        fun j hj => (h.stages j).other h.guarded hx hen hj p
      refine NotifyStage.next_holds ?_ hvouched (fun id => h.guarded.latest_of_not_held)
        (h.stages i)
      rintro stmt seen eff rfl
      exact ⟨hen.1, hen.2.1⟩
    · by_cases hj : j = i
      · subst hj
        rw [Function.update_self]
        refine NotifyStage.called_next hvouched ?_
        exact (Sys.mem_log_after he).imp (h.logged j e) fun h => h.2
      · rw [Function.update_of_ne hj]
        exact h.logged j e ((Sys.mem_log_after he).resolve_right fun h => hj h.1)
    · rcases h.newly hvouched p hj with hold | ⟨-, was, has, -, hout, -, hhas⟩
      · exact (hstep id).sentWith (h.sent j id receipt hold)
      · exact ⟨has, hhas, hout.1, hout.2.1⟩
    · rcases h.newly hvouched p hj with holdj | ⟨rfl, was, has, -, hout, hwas, -⟩
      · rcases h.newly hvouched p hk with holdk | ⟨rfl, was, has, -, hout, hwas, -⟩
        · exact h.one j k id receipt receipt' holdj holdk
        · exact absurd hout (h.unsent holdj hwas)
      · rcases h.newly hvouched p hk with holdk | ⟨rfl, -⟩
        · exact absurd hout (h.unsent holdk hwas)
        · rfl

omit [DecidableEq ι] in
theorem notifications_start {db : InquiryDb} {now next : ℕ}
    {proc : ι → Prog InquirySig InquiryReply}
    (hrows : ∀ row ∈ db.inquiries, row.Sound maxAttempts) :
    Notifications maxAttempts (Sys.start db now next proc) fun _ => .idle where
  guarded := inquiryRows.guarded_start db now next proc
  stages _ := rfl
  rows _ row hrow := hrows row (List.mem_of_find?_eq_some hrow)
  logged _ _ he := absurd he List.not_mem_nil
  callers _ := .nil
  receipts _ := .nil
  counted _ l _ hall := by
    cases l with
    | nil => exact Nat.zero_le _
    | cons i l =>
      obtain ⟨call, hcall⟩ := hall i List.mem_cons_self
      cases hcall
  sent _ _ _ h := nomatch h
  one _ _ _ _ _ h := nomatch h

/-! ## Runs -/

/-- The request came to an answer that tells how its notification ended. -/
def reports (s : Sys InquirySig ι InquiryReply) (i : ι) : Bool :=
  match (s.proc i).reply? with
  | some (.ok reply) => reply.reported
  | _ => false

omit [DecidableEq ι] in
theorem reports_iff : reports s i ↔
    ∃ reply, (s.proc i).reply? = some (.ok reply) ∧ reply.reported := by
  unfold reports
  constructor
  · intro h
    split at h
    · rename_i reply hreply
      exact ⟨reply, hreply, h⟩
    · cases h
  · rintro ⟨reply, hreply, hreported⟩
    rw [hreply]
    exact hreported

omit [DecidableEq ι] in
/-- Who reports has committed what the provider was asked. -/
theorem Notifications.committed_of_reports (h : Notifications maxAttempts s g)
    (hfol : (s.proc i).Follows (notifying maxAttempts) F InquiryAnswered (g i))
    (hreports : reports s i) {e : InquiryEvent} (he : (i, e) ∈ s.log) :
    ∃ id call, g i = .committed id call ∧ call.Covers id e := by
  obtain ⟨reply, hreply, hreported⟩ := reports_iff.mp hreports
  have hsettled : (g i).Settled := hfol.reply hreply hreported
  have hcalled := h.logged i e he
  cases hq : g i with
  | committed id call =>
    rw [hq] at hcalled
    exact ⟨id, call, rfl, hcalled⟩
  | idle =>
    rw [hq] at hcalled
    exact hcalled.elim
  | writing =>
    rw [hq] at hsettled
    exact hsettled.elim
  | holding was has call =>
    rw [hq] at hsettled
    exact hsettled.elim
  | lost id call =>
    rw [hq] at hsettled
    exact hsettled.elim

theorem ProviderCall.Covers.posted {id id' : ℕ} {call : ProviderCall}
    (h : call.Covers id (.posted id')) : id' = id := by
  cases call with
  | none => exact h.elim
  | posted => exact h
  | accepted receipt => exact h

theorem ProviderCall.Covers.accepted {id id' : ℕ} {call : ProviderCall} {receipt : String}
    (h : call.Covers id (.accepted id' receipt)) : id' = id ∧ call = .accepted receipt := by
  cases call with
  | none => exact h.elim
  | posted => exact h.elim
  | accepted receipt' => exact ⟨h.1, congrArg _ h.2.symm⟩

omit [DecidableEq ι] in
/-- **Nobody posts a mail that is sent.** -/
theorem Notifications.unsent_of_posted (h : Notifications maxAttempts s g) {id : ℕ}
    (hcalls : (g i).Calls maxAttempts (.posted id)) {receipt : String} :
    ¬ InquiryDb.SentWith s.db id receipt := by
  rintro ⟨row, hrow, hstatus, -⟩
  have hstage := h.stages i
  cases hq : g i with
  | holding was has call =>
    rw [hq] at hstage hcalls
    obtain ⟨-, -, hwas, -⟩ := hstage
    cases call with
    | none =>
      obtain ⟨rfl, hunsent, -⟩ := hcalls
      obtain rfl := Option.some.inj (hwas.symm.trans hrow)
      exact hunsent hstatus
    | posted => exact hcalls.elim
    | accepted receipt' => exact hcalls.elim
  | _ =>
    rw [hq] at hcalls
    exact hcalls.elim

omit [DecidableEq ι] in
/-- **Every call that is reported is counted.** -/
theorem Notifications.calls_counted (h : Notifications maxAttempts s g)
    (hfol : ∀ i, (s.proc i).Follows (notifying maxAttempts) F InquiryAnswered (g i)) (id : ℕ) :
    ((OmniAuth.callers s id).filter (reports s)).length ≤ InquiryDb.attempts s.db id := by
  refine h.counted id _ ((h.callers id).filter _) fun i hi => ?_
  obtain ⟨hcaller, hreports⟩ := List.mem_filter.mp hi
  obtain ⟨id', call, hg, hcovers⟩ :=
    h.committed_of_reports (hfol i) hreports (mem_callers.mp hcaller)
  obtain rfl := hcovers.posted
  exact ⟨call, hg⟩

omit [DecidableEq ι] in
theorem Notifications.attempts_le (h : Notifications maxAttempts s g) (id : ℕ) :
    InquiryDb.attempts s.db id ≤ maxAttempts := by
  cases hrow : InquiryDb.inquiryById s.db id with
  | none =>
    unfold InquiryDb.attempts
    rw [hrow]
    exact Nat.zero_le _
  | some row =>
    rw [InquiryDb.attempts_row hrow]
    exact (h.rows id row hrow).1

omit [DecidableEq ι] in
/-- Who got a receipt, and reports it, has committed it. -/
theorem Notifications.receipt_committed (h : Notifications maxAttempts s g)
    (hfol : ∀ i, (s.proc i).Follows (notifying maxAttempts) F InquiryAnswered (g i)) {id : ℕ}
    {receipt : String} (hgot : (i, receipt) ∈ OmniAuth.receipts s id) (hreports : reports s i) :
    g i = .committed id (.accepted receipt) := by
  obtain ⟨id', call, hg, hcovers⟩ :=
    h.committed_of_reports (hfol i) hreports (mem_receipts.mp hgot)
  obtain ⟨rfl, rfl⟩ := hcovers.accepted
  exact hg

omit [DecidableEq ι] in
/-- **One receipt is reported.** -/
theorem Notifications.receipts_reported (h : Notifications maxAttempts s g)
    (hfol : ∀ i, (s.proc i).Follows (notifying maxAttempts) F InquiryAnswered (g i)) (id : ℕ) :
    ((OmniAuth.receipts s id).filter fun got => reports s got.1).length ≤ 1 := by
  have hnodup : (((OmniAuth.receipts s id).filter fun got => reports s got.1).map
      Prod.fst).Nodup := (h.receipts id).sublist (List.filter_sublist.map _)
  have hsame : ∀ got ∈ (OmniAuth.receipts s id).filter fun got => reports s got.1,
      ∀ got' ∈ (OmniAuth.receipts s id).filter fun got => reports s got.1, got.1 = got'.1 := by
    rintro ⟨i, receipt⟩ hi ⟨j, receipt'⟩ hj
    obtain ⟨hi, hreports⟩ := List.mem_filter.mp hi
    obtain ⟨hj, hreports'⟩ := List.mem_filter.mp hj
    exact h.one i j id receipt receipt' (h.receipt_committed hfol hi hreports)
      (h.receipt_committed hfol hj hreports')
  generalize (OmniAuth.receipts s id).filter (fun got => reports s got.1) = l at hnodup hsame
  cases l with
  | nil => exact Nat.zero_le 1
  | cons got l =>
    cases l with
    | nil => exact Nat.le_refl 1
    | cons got' l =>
      have heq := hsame got List.mem_cons_self got' (List.mem_cons_of_mem _ List.mem_cons_self)
      rw [List.map_cons, List.map_cons, heq] at hnodup
      exact absurd List.mem_cons_self (List.nodup_cons.mp hnodup).1

/-- **An inquiry is stored once and notified once**: whatever requests are made at once and
whatever fails. A row has an id and a fingerprint of its own. A request calls the provider
once at most. The calls for one inquiry by requests that report are no more than the attempts
in its row, and these no more than the limit; of the receipts one is reported at most, and it
is in the row. A request that has called the provider and answers without a report is one in
which something failed: its attempt may be open. And where a row says that its mail is sent it
keeps that, and nobody calls the provider again. -/
theorem inquiry_notified_once {db : InquiryDb} {now next : ℕ} {calls : ι → InquiryCall}
    {s₁ s₂ : Sys InquirySig ι InquiryReply}
    (hrows : ∀ row ∈ db.inquiries, row.Sound C.notificationMaxAttempts)
    (hids : (db.inquiries.map (·.inquiryId)).Nodup)
    (hfingerprints : (db.inquiries.map (·.duplicateFingerprint)).Nodup)
    (hrun₁ : Sys.Run True (fun _ _ _ => True)
      (Sys.start db now next fun i => ((calls i).op C).close) s₁)
    (hrun₂ : Sys.Run True (fun _ _ _ => True) s₁ s₂) :
    ((InquiryDb.inquiries s₁.db).map (·.inquiryId)).Nodup ∧
    ((InquiryDb.inquiries s₁.db).map (·.duplicateFingerprint)).Nodup ∧
    (∀ row ∈ InquiryDb.inquiries s₁.db, row.Sound C.notificationMaxAttempts) ∧
    (∀ id, (callers s₁ id).Nodup ∧ ∀ id', ∀ i ∈ callers s₁ id, i ∈ callers s₁ id' → id = id') ∧
    (∀ id, ((callers s₁ id).filter (reports s₁)).length ≤ InquiryDb.attempts s₁.db id ∧
      InquiryDb.attempts s₁.db id ≤ C.notificationMaxAttempts) ∧
    (∀ id, ((receipts s₁ id).filter fun got => reports s₁ got.1).length ≤ 1 ∧
      ∀ i receipt, (i, receipt) ∈ receipts s₁ id → reports s₁ i →
        InquiryDb.SentWith s₁.db id receipt) ∧
    (∀ i, Sys.Run True (fun _ j ℓ => j = i → ¬ ℓ.Failure)
        (Sys.start db now next fun i => ((calls i).op C).close) s₁ →
      ∀ id, i ∈ callers s₁ id → ∀ res, (s₁.proc i).reply? = some res → reports s₁ i) ∧
    (∀ id receipt, InquiryDb.SentWith s₁.db id receipt →
      InquiryDb.SentWith s₂.db id receipt ∧ callers s₂ id = callers s₁ id) := by
  have hx := Sys.exclusive_start (S := InquirySig) db now next fun i => ((calls i).op C).close
  have hids₁ := inquiryIds_unique.mp
    ((inquiryIds.holds_start (inquiryIds_unique.mpr hids) now next _).run hx hrun₁).1.base
  have hfingerprints₁ := inquiryFingerprints_unique.mp ((inquiryFingerprints.holds_start
    (inquiryFingerprints_unique.mpr hfingerprints) now next _).run hx hrun₁).1.base
  obtain ⟨hx₁, g₁, h₁, hfol₁⟩ := Prog.Follows.run
    notifications_keeps (fun _ _ _ _ => trivial) hx (notifications_start hrows)
    (fun _ => inquiryCall_follows) hrun₁
  refine ⟨hids₁, hfingerprints₁, fun row hrow =>
    h₁.rows _ row (InquiryDb.inquiryById_of_mem hids₁ hrow),
    fun id => ⟨h₁.callers id, fun id' i hi hi' => ?_⟩,
    fun id => ⟨h₁.calls_counted hfol₁ id, h₁.attempts_le id⟩,
    fun id => ⟨h₁.receipts_reported hfol₁ id, fun i receipt hi hreports =>
      h₁.sent i id receipt (h₁.receipt_committed hfol₁ hi hreports)⟩,
    fun i hquiet id hi res hres => ?_, fun id receipt hsent => ?_⟩
  · exact (h₁.logged _ _ (mem_callers.mp hi)).inquiry (h₁.logged _ _ (mem_callers.mp hi'))
  · obtain ⟨reply, rfl, hreported⟩ := reported_run hquiet (mem_callers.mp hi) hres
    exact reports_iff.mpr ⟨reply, hres, hreported⟩
  · have hkept : ∀ {s g} {i : ι} {ℓ p}, Notifications C.notificationMaxAttempts s g →
        (InquiryDb.SentWith s.db id receipt ∧ callers s id = callers s₁ id) →
        (notifying C.notificationMaxAttempts).Vouched (g i) ℓ →
        InquiryDb.SentWith (s.after i ℓ p).db id receipt ∧
          callers (s.after i ℓ p) id = callers s₁ id := by
      rintro s g i ℓ p h ⟨hstays, hcallers⟩ hvouched
      refine ⟨(h.noticeStep hvouched p id).sentWith hstays, ?_⟩
      cases ℓ with
      | emitted e =>
        have hother : e ≠ .posted id := by
          rintro rfl
          exact h.unsent_of_posted hvouched hstays
        rw [← hcallers]
        unfold callers
        exact (List.filterMap_append ..).trans (by simp [hother])
      | _ => exact hcallers
    obtain ⟨_, _, _, hsent₂, _⟩ := Prog.Follows.run_with
      (H := fun s _ => InquiryDb.SentWith s.db id receipt ∧ callers s id = callers s₁ id)
      notifications_keeps (fun _ _ _ _ => trivial)
      (fun _ h hH _ hvouched _ => hkept h hH hvouched) hx₁ h₁ ⟨hsent, rfl⟩ hfol₁ hrun₂
    exact hsent₂

/-! ## A run -/

def inquirySettings : InquirySettings where
  notificationTo := "admin@omnibioai.org"
  notificationIdempotencyConfirmed := true
  notificationMaxAttempts := 2
  fingerprint payload _ := payload.institutionalEmail
  lower := id
  attempts_pos := by decide

def adaInquiry : InquiryPayload where
  fullName := "Ada"
  institutionalEmail := "ada@lab.org"
  institution := "Lab"
  department := "Genomics"
  country := "UK"
  researchInterest := "Variants"
  proposedCollaboration := "Joint study"
  potentialDatasets := ""
  institutionalWebsite := ""
  additionalInformation := ""

/-- Ada submits her inquiry twice, and an administrator sends the mail again. -/
def inquiryCalls : Fin 3 → InquiryCall
  | 0 => .submit adaInquiry none
  | 1 => .submit adaInquiry none
  | 2 => .retry 5 1 (some "r-1")

def inquiring : Sys InquirySig (Fin 3) InquiryReply :=
  Sys.start ⟨[], []⟩ 0 5 fun i => ((inquiryCalls i).op inquirySettings).close

/-- The second submission is refused, and the second mail is the last one. -/
theorem inquiry_notified_once_ada : ∃ s, Sys.Run True (fun _ _ _ => True) inquiring s ∧
    (InquiryDb.inquiries s.db).map (·.duplicateFingerprint) = ["ada@lab.org"] ∧
    ∀ s', Sys.Run True (fun _ _ _ => True) s s' →
      InquiryDb.SentWith s'.db 5 "r-1" ∧ callers s' 5 = [0, 2] := by
  have hplays : (inquiring.follow (fun _ _ _ => True)
      (List.replicate 11 0 ++ List.replicate 7 1 ++ List.replicate 11 2)).any (fun s =>
        decide ((InquiryDb.inquiries s.db).map (·.duplicateFingerprint) = ["ada@lab.org"]) &&
        decide (callers s 5 = [0, 2]) && decide (receipts s 5 = [(2, "r-1")]) &&
        reports s 2) = true := by decide
  obtain ⟨s, hs, hends⟩ := (Option.any_eq_true _ _).mp hplays
  simp only [Bool.and_eq_true, decide_eq_true_eq] at hends
  obtain ⟨⟨⟨hrow, hcallers⟩, hreceipts⟩, hreports⟩ := hends
  have hrun := (Sys.run_of_follow _ hs).mayFail (F := True)
  refine ⟨s, hrun, hrow, fun s' hrun' => ?_⟩
  obtain ⟨-, -, -, -, -, hreceipt, -, hsent⟩ :=
    inquiry_notified_once (by simp) (by simp) (by simp) hrun hrun'
  have hgot : (2, "r-1") ∈ receipts s 5 := by
    rw [hreceipts]
    exact List.mem_singleton_self _
  obtain ⟨hkept, hlast⟩ := hsent 5 "r-1" ((hreceipt 5).2 2 "r-1" hgot hreports)
  exact ⟨hkept, hlast.trans hcallers⟩

end OmniAuth
