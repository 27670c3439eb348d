import OmniAuth.Session.Service

/-!
# Research inquiries

A public form stores an inquiry and tells an administrator of it by mail; administrators send
the mail again where that failed, and move the inquiry along. The inquiries have a database of
their own here: nothing else reads or writes their table. What the mail provider answers is a
field of the request.
-/

namespace OmniAuth

open Txn Prog

/-! ## The table -/

inductive ProcessingStatus
  | new
  | inReview
  | contacted
  | closed
  | spam
  deriving DecidableEq

inductive NotificationStatus
  | pending
  | sent
  | failed
  | notConfigured
  deriving DecidableEq

/-- `ResearchInquiryCreate`, once it is validated; `company_fax` and `consent` are not stored. -/
structure InquiryPayload where
  fullName : String
  institutionalEmail : String
  institution : String
  department : String
  country : String
  researchInterest : String
  proposedCollaboration : String
  potentialDatasets : String
  institutionalWebsite : String
  additionalInformation : String
  deriving DecidableEq

structure ResearchInquiry extends InquiryPayload where
  inquiryId : ℕ
  consentTimestamp : ℕ
  submissionTimestamp : ℕ
  processingStatus : ProcessingStatus := .new
  notificationStatus : NotificationStatus := .pending
  notificationAttempts : ℕ := 0
  notificationReceiptId : Option String := none
  notificationLastError : Option String := none
  notificationLastAttemptAt : Option ℕ := none
  duplicateFingerprint : String
  createdAt : ℕ
  updatedAt : ℕ
  deriving DecidableEq

/-- The columns an `UPDATE` assigns. -/
structure InquiryColumns where
  processingStatus : Option ProcessingStatus := none
  notificationStatus : Option NotificationStatus := none
  notificationAttempts : Option ℕ := none
  notificationReceiptId : Option (Option String) := none
  notificationLastError : Option (Option String) := none
  notificationLastAttemptAt : Option (Option ℕ) := none
  updatedAt : Option ℕ := none

def ResearchInquiry.assign (row : ResearchInquiry) (c : InquiryColumns) : ResearchInquiry :=
  { row with
    processingStatus := c.processingStatus.getD row.processingStatus
    notificationStatus := c.notificationStatus.getD row.notificationStatus
    notificationAttempts := c.notificationAttempts.getD row.notificationAttempts
    notificationReceiptId := c.notificationReceiptId.getD row.notificationReceiptId
    notificationLastError := c.notificationLastError.getD row.notificationLastError
    notificationLastAttemptAt := c.notificationLastAttemptAt.getD row.notificationLastAttemptAt
    updatedAt := c.updatedAt.getD row.updatedAt }

/-- The audit events `research_inquiry_notification_retry` and
`research_inquiry_status_changed`. -/
inductive InquiryAuditEvent
  | notificationRetry (actorUserId inquiryId attempt createdAt : ℕ)
  | statusChanged (actorUserId inquiryId : ℕ) (before after : ProcessingStatus) (createdAt : ℕ)
  deriving DecidableEq

structure InquiryDb where
  inquiries : List ResearchInquiry
  auditEvents : List InquiryAuditEvent

def InquiryDb.inquiryById (db : InquiryDb) (id : ℕ) : Option ResearchInquiry :=
  db.inquiries.find? (·.inquiryId = id)

inductive InquiryLock
  | inquiry (id : ℕ)
  | fingerprint (fingerprint : String)
  deriving DecidableEq

inductive InquiryStmt
  | insertInquiry (row : ResearchInquiry)
  | lockInquiry (id : ℕ)
  | updateInquiry (id : ℕ) (columns : InquiryColumns)
  | insertAuditEvent (row : InquiryAuditEvent)

/-- A call of the mail provider, and a receipt it answered with. -/
inductive InquiryEvent
  | posted (id : ℕ)
  | accepted (id : ℕ) (receipt : String)
  deriving DecidableEq

def InquiryDb.insertInquiry (db : InquiryDb) (row : ResearchInquiry) : InquiryDb :=
  { db with inquiries := db.inquiries ++ [row] }

def InquiryDb.updateInquiry (db : InquiryDb) (id : ℕ) (c : InquiryColumns) : InquiryDb :=
  { db with inquiries := db.inquiries.map fun row =>
      if row.inquiryId = id then row.assign c else row }

/-- The meaning of the statements. A row that is not there is not locked. -/
def InquiryStmt.denote (stmt : InquiryStmt) (seen : InquiryDb) :
    Except Err (Effect InquiryDb InquiryLock) :=
  match stmt with
  | insertInquiry row =>
      if seen.inquiries.any fun r => r.inquiryId = row.inquiryId ||
          r.duplicateFingerprint = row.duplicateFingerprint then
        .error .integrity
      else
        .ok ⟨[.inquiry row.inquiryId, .fingerprint row.duplicateFingerprint],
          fun db => db.insertInquiry row⟩
  | lockInquiry id =>
      .ok ⟨if (seen.inquiryById id).isSome then [.inquiry id] else [], fun db => db⟩
  | updateInquiry id c =>
      if (seen.inquiryById id).isSome then .ok ⟨[.inquiry id], fun db => db.updateInquiry id c⟩
      else .ok ⟨[], fun db => db⟩
  | insertAuditEvent row => .ok ⟨[], fun db => { db with auditEvents := db.auditEvents ++ [row] }⟩

abbrev InquirySig : Sig where
  State := InquiryDb
  Lock := InquiryLock
  Stmt := InquiryStmt
  Event := InquiryEvent
  Exn := Err
  denote := InquiryStmt.denote

abbrev InquiryOp (α : Type) : Type := Prog InquirySig α

/-! ## The service -/

/-- `RESEARCH_INQUIRY_…`; `fingerprint` is the keyed digest of the fields and the day. -/
structure InquirySettings where
  notificationTo : String
  notificationIdempotencyConfirmed : Bool
  notificationMaxAttempts : ℕ
  fingerprint : InquiryPayload → ℕ → String
  lower : String → String
  attempts_pos : 0 < notificationMaxAttempts

variable (C : InquirySettings)

/-- `.replace("\r\n", "\n").replace("\r", "\n")` -/
def normalizeNewlines (s : String) : String := (s.replace "\r\n" "\n").replace "\r" "\n"

/-- `duplicate_fingerprint`, before the line ends are made one. -/
def duplicateFingerprint (payload : InquiryPayload) (submittedAt : ℕ) : String :=
  C.fingerprint { payload with institutionalEmail := C.lower payload.institutionalEmail }
    (submittedAt / days 1)

/-- The row of a new inquiry. -/
def newInquiry (payload : InquiryPayload) (inquiryId now : ℕ) : ResearchInquiry :=
  { payload with
    institutionalEmail := C.lower payload.institutionalEmail
    proposedCollaboration := normalizeNewlines payload.proposedCollaboration
    potentialDatasets := normalizeNewlines payload.potentialDatasets
    additionalInformation := normalizeNewlines payload.additionalInformation
    inquiryId := inquiryId
    consentTimestamp := now
    submissionTimestamp := now
    duplicateFingerprint := duplicateFingerprint C payload now
    createdAt := now
    updatedAt := now }

/-- The `try` of `create`. -/
def storeInquiry (row : ResearchInquiry) : InquiryOp ResearchInquiry := do
  execute (.insertInquiry row)
  commitNow
  let refreshed ← query (·.inquiryById row.inquiryId)
  match refreshed with
  | some row => return row
  | none => raise .database

/-- `create`; the message is that of the route. -/
def createInquiry (payload : InquiryPayload) : InquiryOp ResearchInquiry := do
  let now ← time
  let inquiryId ← draw
  let row := newInquiry C payload inquiryId now
  (storeInquiry row).orElse fun (x : Err) => do
    rollbackNow
    if x = .integrity then do
      let duplicate ← query (·.inquiries.any (·.duplicateFingerprint = row.duplicateFingerprint))
      if duplicate then raise (.http 409 "A matching inquiry was already submitted recently")
      else raise x
    else raise x

/-- What the mail provider answers: a receipt, or nothing that is one. -/
abbrev Delivery : Type := Option String

/-- What `notify` assigns once it has called the provider, beside the attempt it counts. -/
def deliveryColumns (attempt : InquiryColumns) : Delivery → InquiryColumns
  | some receipt =>
      { attempt with
        notificationStatus := some .sent
        notificationReceiptId := some (some receipt)
        notificationLastError := some none }
  | none =>
      { attempt with
        notificationStatus := some .failed
        notificationLastError := some (some "delivery_failed") }

/-- `notify` from the call of the provider on; `attempt` is what was not flushed before. -/
def deliver (inquiryId : ℕ) (attempt : InquiryColumns) (delivery : Delivery) :
    InquiryOp Bool := do
  note (.posted inquiryId)
  match delivery with
  | some receipt => do
      note (.accepted inquiryId receipt)
      execute (.updateInquiry inquiryId (deliveryColumns attempt (some receipt)))
      commitNow
      return true
  | none => do
      execute (.updateInquiry inquiryId (deliveryColumns attempt none))
      commitNow
      return false

/-- `notify`. The audit row of an administrator's retry is flushed, and with it the attempt. -/
def notifyInquiry (inquiryId : ℕ) (actorUserId : Option ℕ) (delivery : Delivery) :
    InquiryOp Bool := do
  let row ← returning (.lockInquiry inquiryId) (·.inquiryById inquiryId)
  match row with
  | none => raise .database
  | some row =>
      if row.notificationStatus = .sent then return true
      else if C.notificationMaxAttempts ≤ row.notificationAttempts then do
        execute (.updateInquiry inquiryId
          { notificationLastError := some (some "retry_exhausted") })
        commitNow
        return false
      else do
        let now ← time
        if C.notificationTo = "" ∨ ¬ C.notificationIdempotencyConfirmed then do
          execute (.updateInquiry inquiryId
            { notificationStatus := some .notConfigured
              notificationLastError := some (some (if C.notificationTo = "" then
                "recipient_not_configured" else "provider_idempotency_unverified"))
              notificationLastAttemptAt := some (some now)
              updatedAt := some now })
          commitNow
          return false
        else do
          let attempt : InquiryColumns :=
            { notificationAttempts := some (row.notificationAttempts + 1)
              notificationLastAttemptAt := some (some now)
              updatedAt := some now }
          match actorUserId with
          | none => deliver inquiryId attempt delivery
          | some actor => do
              let t ← time
              execute (.updateInquiry inquiryId attempt)
              execute (.insertAuditEvent (.notificationRetry actor inquiryId
                (row.notificationAttempts + 1) (wholeSecond t)))
              deliver inquiryId {} delivery

/-- `change_status`; the ORM leaves out a column it finds unchanged. -/
def changeInquiryStatus (row : ResearchInquiry) (status : ProcessingStatus)
    (actorUserId : ℕ) : InquiryOp Unit := do
  let now ← time
  let t ← time
  execute (.updateInquiry row.inquiryId
    { processingStatus := if status = row.processingStatus then none else some status
      updatedAt := some now })
  execute (.insertAuditEvent (.statusChanged actorUserId row.inquiryId row.processingStatus status
    (wholeSecond t)))
  commitNow

/-! ## The routes -/

/-- A request, past rate limits, validation and authorization. -/
inductive InquiryCall
  | submit (payload : InquiryPayload) (delivery : Delivery)
  | retry (inquiryId actorUserId : ℕ) (delivery : Delivery)
  | changeStatus (inquiryId : ℕ) (status : ProcessingStatus) (actorUserId : ℕ)

/-- What is answered. Of a submission there is also what `notify` returned, `none` where it
raised. -/
inductive InquiryReply
  | received (inquiryId submittedAt : ℕ) (notified : Option Bool)
  | retried (inquiryId : ℕ) (sent : Bool)
  | changed (inquiryId : ℕ) (status : ProcessingStatus)
  deriving DecidableEq

/-- `_persist_and_notify` -/
def persistAndNotify (payload : InquiryPayload) (delivery : Delivery) :
    InquiryOp InquiryReply := do
  let row ← (createInquiry C payload).orElse fun (x : Err) => do
    rollbackNow
    if x = .http 409 "A matching inquiry was already submitted recently" then raise x
    else raise (.http 503 "Inquiry could not be recorded")
  let notified ← (do
    let sent ← notifyInquiry C row.inquiryId none delivery
    return some sent : InquiryOp (Option Bool)).orElse fun _ => do
      rollbackNow
      return none
  return .received row.inquiryId row.submissionTimestamp notified

/-- `retry_research_inquiry_notification`. The answer to a mail that was not sent is an error
of the route, 502 or 503, and no exception. -/
def retryNotification (inquiryId actorUserId : ℕ) (delivery : Delivery) :
    InquiryOp InquiryReply := do
  let row ← query (·.inquiryById inquiryId)
  match row with
  | none => raise (.http 404 "Inquiry not found")
  | some row =>
      if row.notificationStatus = .sent then raise (.http 409 "Notification already sent")
      else do
        let sent ← (notifyInquiry C inquiryId (some actorUserId) delivery).orElse fun _ => do
          rollbackNow
          raise (.http 503 "Notification state unavailable")
        return .retried inquiryId sent

/-- `update_research_inquiry` -/
def updateInquiryStatus (inquiryId : ℕ) (status : ProcessingStatus) (actorUserId : ℕ) :
    InquiryOp InquiryReply := do
  let row ← query (·.inquiryById inquiryId)
  match row with
  | none => raise (.http 404 "Inquiry not found")
  | some row => do
      (changeInquiryStatus row status actorUserId).orElse fun _ => do
        rollbackNow
        raise (.http 503 "Inquiry status could not be updated")
      return .changed inquiryId status

def InquiryCall.op : InquiryCall → InquiryOp InquiryReply
  | submit payload delivery => persistAndNotify C payload delivery
  | retry inquiryId actorUserId delivery => retryNotification C inquiryId actorUserId delivery
  | changeStatus inquiryId status actorUserId => updateInquiryStatus inquiryId status actorUserId

end OmniAuth
