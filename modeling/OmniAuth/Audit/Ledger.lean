import OmniAuth.Audit.Integrity

/-!
# The audit ledger

`log_event` signs a record in memory and then stores it: texts in columns of bounded length,
identifiers in columns of 32 bits, the states through `json.dumps` and `json.loads`, the
time in a column of whole seconds. A state that was stored and loaded again normalises to
what was signed, so every row of the ledger verifies.
-/

namespace OmniAuth

namespace Audit

open Json

/-! ## Columns -/

mutual

/-- `json.dumps`, as a column of JSON is written. It has no text for a time. Signing has
refused keys that are no strings, numbers that are not finite and integers that are too
long. -/
def encode : Value → Except Err Json
  | .none => .ok .null
  | .bool b => .ok (.bool b)
  | .int n => .ok (.int n)
  | .float (some text) => .ok (.float text)
  | .str s => .ok (.str s)
  | .dict entries => do
      let entries ← encodeEntries entries
      return .obj entries
  | .list items | .tuple items => do
      let items ← encodeItems items
      return .arr items
  | .float Option.none | .datetime _ | .awareDatetime _ _ | .date _ | .oddDict | .other _ =>
      .error .database

def encodeItems : List Value → Except Err (List Json)
  | [] => .ok []
  | item :: rest => do
      let item ← encode item
      let rest ← encodeItems rest
      return item :: rest

def encodeEntries : List (String × Value) → Except Err (List (String × Json))
  | [] => .ok []
  | (k, v) :: rest => do
      let v ← encode v
      let rest ← encodeEntries rest
      return (k, v) :: rest

end

mutual

/-- `json.loads`, as a column of JSON is read. -/
def decode : Json → Value
  | .null => .none
  | .bool b => .bool b
  | .int n => .int n
  | .float text => .float (some text)
  | .str s => .str s
  | .obj entries => .dict (decodeEntries entries)
  | .arr items => .list (decodeItems items)

def decodeItems : List Json → List Value
  | [] => []
  | item :: rest => decode item :: decodeItems rest

def decodeEntries : List (String × Json) → List (String × Value)
  | [] => []
  | (k, v) :: rest => (k, decode v) :: decodeEntries rest

end

/-- `String(length)` -/
def fits (length : ℕ) (s : Option String) : Bool := s.all fun s => s.toList.length ≤ length

/-- `Integer` -/
def fitsInteger (n : Option ℤ) : Bool := n.all fun n => -2 ^ 31 ≤ n ∧ n < 2 ^ 31

/-- `.replace(microsecond=0)`, and all that a column of type `DATETIME` keeps. -/
def wholeSeconds (t : DateTime) : DateTime where
  date := t.date
  hour := t.hour
  minute := t.minute
  second := t.second
  microsecond := 0
  inRange := ⟨t.inRange.1, t.inRange.2.1, t.inRange.2.2.1, by omega⟩

/-! ## Rows -/

/-- `AuditEvent`, its columns of JSON as values in memory or as they are stored. -/
structure AuditEvent (State : Type) where
  eventType : String
  actorUserId : Option ℤ
  targetUserId : Option ℤ
  organizationId : Option ℤ
  resourceType : Option String
  resourceId : Option String
  beforeState : State
  afterState : State
  eventMetadata : State
  createdAt : DateTime
  integrityVersion : Option ℤ := none
  integrityAlgorithm : Option String := none
  integrityDigest : Option String := none

/-- What the signature is computed on. -/
def AuditEvent.record (e : AuditEvent Value) : AuditRecord where
  eventType := .str e.eventType
  actorUserId := e.actorUserId.elim .none .int
  targetUserId := e.targetUserId.elim .none .int
  organizationId := e.organizationId.elim .none .int
  resourceType := e.resourceType.elim .none .str
  resourceId := e.resourceId.elim .none .str
  beforeState := e.beforeState
  afterState := e.afterState
  eventMetadata := e.eventMetadata
  createdAt := .datetime e.createdAt
  integrityVersion := e.integrityVersion
  integrityAlgorithm := e.integrityAlgorithm
  integrityDigest := e.integrityDigest

/-- The row of an event, where its columns take it. -/
def AuditEvent.insert (e : AuditEvent Value) : Except Err (AuditEvent Json) := do
  let beforeState ← encode e.beforeState
  let afterState ← encode e.afterState
  let eventMetadata ← encode e.eventMetadata
  if fits 100 (some e.eventType) && fitsInteger e.actorUserId && fitsInteger e.targetUserId &&
      fitsInteger e.organizationId && fits 50 e.resourceType && fits 100 e.resourceId &&
      fitsInteger e.integrityVersion && fits 32 e.integrityAlgorithm &&
      fits 64 e.integrityDigest then
    return { e with
      beforeState := beforeState
      afterState := afterState
      eventMetadata := eventMetadata
      createdAt := wholeSeconds e.createdAt }
  else throw .database

/-- The event as it is loaded from its row. -/
def AuditEvent.load (row : AuditEvent Json) : AuditEvent Value :=
  { row with
    beforeState := decode row.beforeState
    afterState := decode row.afterState
    eventMetadata := decode row.eventMetadata }

/-! ## Transactions -/

/-- The rows that are committed, and those each session has flushed since. -/
structure Ledger (Session : Type) where
  committed : List (AuditEvent Json)
  flushed : Session → List (AuditEvent Json)

section

variable {Session : Type} [DecidableEq Session]

def Ledger.flush (l : Ledger Session) (s : Session) (row : AuditEvent Json) : Ledger Session :=
  { l with flushed := Function.update l.flushed s (l.flushed s ++ [row]) }

def Ledger.commit (l : Ledger Session) (s : Session) : Ledger Session where
  committed := l.committed ++ l.flushed s
  flushed := Function.update l.flushed s []

def Ledger.rollback (l : Ledger Session) (s : Session) : Ledger Session :=
  { l with flushed := Function.update l.flushed s [] }

/-- A row that is stored, or waits for its commit. -/
def Ledger.Holds (l : Ledger Session) (row : AuditEvent Json) : Prop :=
  row ∈ l.committed ∨ ∃ s, row ∈ l.flushed s

end

/-! ## The service -/

/-- What `log_event` is called with, the time of the call, and what the database makes of
it: the failure of the INSERT, if it fails for a reason of its own, and whether the COMMIT
fails. -/
structure LogEvent where
  eventType : String
  actorUserId : Option ℤ := none
  targetUserId : Option ℤ := none
  organizationId : Option ℤ := none
  resourceType : Option String := none
  resourceId : Option (String ⊕ ℤ) := none
  beforeState : Value := .none
  afterState : Value := .none
  metadata : Value := .none
  commit : Bool := true
  utcnow : DateTime
  insertFails : Option Err := none
  commitFails : Bool := false

/-- `hashlib.sha256` under `hmac.new(…).hexdigest()`: sixty-four hexadecimal digits. -/
structure Hmac where
  hexdigest : List ℕ → ByteArray → String
  isDigest : ∀ key message, isDigest (hexdigest key message) = true

section

variable (hmac : Hmac) (settingsKey : String)

/-- The event that is added to the session. -/
def LogEvent.event (a : LogEvent) : AuditEvent Value where
  eventType := a.eventType
  actorUserId := a.actorUserId
  targetUserId := a.targetUserId
  organizationId := a.organizationId
  resourceType := a.resourceType
  resourceId := a.resourceId.map (Sum.elim id toString)
  beforeState := a.beforeState
  afterState := a.afterState
  eventMetadata := a.metadata
  createdAt := wholeSeconds a.utcnow

/-- `set_integrity(event)` -/
def sign (e : AuditEvent Value) : Except Err (AuditEvent Value) := do
  let signed ← setIntegrity hmac.hexdigest settingsKey e.record none
  return { e with
    integrityVersion := signed.integrityVersion
    integrityAlgorithm := signed.integrityAlgorithm
    integrityDigest := signed.integrityDigest }

/-- `db.add(event); db.flush()` -/
def LogEvent.insert (a : LogEvent) (e : AuditEvent Value) : Except Err (AuditEvent Json) :=
  match a.insertFails with
  | some err => .error err
  | none => e.insert

variable {Session : Type} [DecidableEq Session]

/-- `log_event` in session `s`. A flush that fails takes the transaction with it; a commit
that fails is rolled back and not reported. -/
def logEvent (l : Ledger Session) (s : Session) (a : LogEvent) : Except Err Unit × Ledger Session :=
  match sign hmac settingsKey a.event with
  | .error err => (.error err, l)
  | .ok event =>
      match a.insert event with
      | .error err => (.error err, l.rollback s)
      | .ok row =>
          if a.commit then
            if a.commitFails then (.ok (), l.rollback s)
            else (.ok (), (l.flush s row).commit s)
          else (.ok (), l.flush s row)

/-- What sessions do to the ledger: they call `log_event`, and their callers commit and
roll back. -/
inductive Step : Ledger Session → Ledger Session → Prop
  | logEvent (l : Ledger Session) (s : Session) (a : LogEvent) :
      Step l (logEvent hmac settingsKey l s a).2
  | commit (l : Ledger Session) (s : Session) : Step l (l.commit s)
  | rollback (l : Ledger Session) (s : Session) : Step l (l.rollback s)

/-- The row is the one this call signs and stores. -/
def Stores (a : LogEvent) (row : AuditEvent Json) : Prop :=
  ∃ event, sign hmac settingsKey a.event = .ok event ∧ event.insert = .ok row

/-- The row says what the call was told: its states are written as they were given, its time
is that of the call, in whole seconds. -/
structure AuditEvent.Records (row : AuditEvent Json) (a : LogEvent) : Prop where
  eventType : row.eventType = a.eventType
  actorUserId : row.actorUserId = a.actorUserId
  targetUserId : row.targetUserId = a.targetUserId
  organizationId : row.organizationId = a.organizationId
  resourceType : row.resourceType = a.resourceType
  resourceId : row.resourceId = a.resourceId.map (Sum.elim id toString)
  beforeState : encode a.beforeState = .ok row.beforeState
  afterState : encode a.afterState = .ok row.afterState
  eventMetadata : encode a.metadata = .ok row.eventMetadata
  createdAt : row.createdAt = wholeSeconds a.utcnow

/-- The row verifies under the key it was signed with, however that key is given. -/
def Verifies (row : AuditEvent Json) : Prop :=
  ∀ keyHex, keyBytes settingsKey keyHex = keyBytes settingsKey none →
    verifyRecord hmac.hexdigest settingsKey row.load.record keyHex = .ok .valid

end

/-! ## What is loaded again -/

mutual

/-- **A state that was stored and loaded** normalises to what the state normalises to. -/
theorem normalize_decode : (v : Value) → (j : Json) → encode v = .ok j →
    normalize (decode j) = normalize v := by
  intro v j h
  match v with
  | .none | .bool _ | .int _ | .str _ | .float (some _) =>
    cases h
    rfl
  | .float Option.none | .datetime _ | .awareDatetime _ _ | .date _ | .oddDict | .other _ =>
    cases h
  | .dict entries =>
    obtain ⟨es, hes, hj⟩ := ok_of_bind h
    cases hj
    have hentries := normalizeEntries_decode entries es hes
    simp only [decode, normalize, hentries]
  | .list items =>
    obtain ⟨js, hjs, hj⟩ := ok_of_bind h
    cases hj
    have hitems := normalizeItems_decode items js hjs
    simp only [decode, normalize, hitems]
  | .tuple items =>
    -- a tuple comes back as a list, and both are written as arrays
    obtain ⟨js, hjs, hj⟩ := ok_of_bind h
    cases hj
    have hitems := normalizeItems_decode items js hjs
    simp only [decode, normalize, hitems]

theorem normalizeItems_decode : (l : List Value) → (js : List Json) → encodeItems l = .ok js →
    normalizeItems (decodeItems js) = normalizeItems l := by
  intro l js h
  match l with
  | [] =>
    cases h
    rfl
  | v :: rest =>
    obtain ⟨j, hj, h⟩ := ok_of_bind h
    obtain ⟨js', hrest, h⟩ := ok_of_bind h
    cases h
    have hhead := normalize_decode v j hj
    have htail := normalizeItems_decode rest js' hrest
    simp only [decodeItems, normalizeItems, hhead, htail]

theorem normalizeEntries_decode : (l : List (String × Value)) → (es : List (String × Json)) →
    encodeEntries l = .ok es → normalizeEntries (decodeEntries es) = normalizeEntries l := by
  intro l es h
  match l with
  | [] =>
    cases h
    rfl
  | (k, v) :: rest =>
    obtain ⟨j, hj, h⟩ := ok_of_bind h
    obtain ⟨es', hrest, h⟩ := ok_of_bind h
    cases h
    have hhead := normalize_decode v j hj
    have htail := normalizeEntries_decode rest es' hrest
    simp only [decodeEntries, normalizeEntries, hhead, htail]

end

@[simp] theorem wholeSeconds_idem (t : DateTime) :
    wholeSeconds (wholeSeconds t) = wholeSeconds t := rfl

/-- What an INSERT stores. -/
theorem AuditEvent.insert_eq {e : AuditEvent Value} {row : AuditEvent Json}
    (h : e.insert = .ok row) :
    ∃ beforeState afterState eventMetadata, encode e.beforeState = .ok beforeState ∧
      encode e.afterState = .ok afterState ∧ encode e.eventMetadata = .ok eventMetadata ∧
      row = { e with
        beforeState := beforeState
        afterState := afterState
        eventMetadata := eventMetadata
        createdAt := wholeSeconds e.createdAt } := by
  obtain ⟨beforeState, hbefore, h⟩ := ok_of_bind h
  obtain ⟨afterState, hafter, h⟩ := ok_of_bind h
  obtain ⟨eventMetadata, hmetadata, h⟩ := ok_of_bind h
  split at h
  · exact ⟨beforeState, afterState, eventMetadata, hbefore, hafter, hmetadata,
      (Except.ok.inj h).symm⟩
  · cases h

/-- **The signed bytes survive the table**, for an event whose time is in whole seconds. -/
theorem canonicalRecord_load {e : AuditEvent Value} {row : AuditEvent Json}
    (h : e.insert = .ok row) (htime : wholeSeconds e.createdAt = e.createdAt) :
    canonicalRecord row.load.record = canonicalRecord e.record := by
  obtain ⟨beforeState, afterState, eventMetadata, hbefore, hafter, hmetadata, rfl⟩ :=
    AuditEvent.insert_eq h
  have hfields : normalizeEntries (AuditEvent.load { e with
      beforeState := beforeState
      afterState := afterState
      eventMetadata := eventMetadata
      createdAt := wholeSeconds e.createdAt }).record.signedFields =
      normalizeEntries e.record.signedFields := by
    simp only [AuditRecord.signedFields, AuditEvent.record, AuditEvent.load, normalizeEntries,
      normalize_decode _ _ hbefore, normalize_decode _ _ hafter, normalize_decode _ _ hmetadata,
      htime]
  unfold canonicalRecord
  rw [hfields]

section

variable (hmac : Hmac) (settingsKey : String)

/-- The signature of an event covers none of its own three columns. -/
theorem sign_eq {e signed : AuditEvent Value} (h : sign hmac settingsKey e = .ok signed) :
    ∃ digest, signRecord hmac.hexdigest settingsKey e.record none = .ok digest ∧
      signed = { e with
        integrityVersion := some integrityVersion
        integrityAlgorithm := some integrityAlgorithm
        integrityDigest := some digest } := by
  obtain ⟨record, hrecord, h⟩ := ok_of_bind h
  obtain ⟨digest, hdigest, hrecord⟩ := ok_of_bind hrecord
  cases hrecord
  exact ⟨digest, hdigest, (Except.ok.inj h).symm⟩

/-- **The row is that of the call.** -/
theorem Stores.records {a : LogEvent} {row : AuditEvent Json}
    (h : Stores hmac settingsKey a row) : row.Records a := by
  obtain ⟨event, hsign, hinsert⟩ := h
  obtain ⟨digest, -, rfl⟩ := sign_eq hmac settingsKey hsign
  obtain ⟨_, _, _, hbefore, hafter, hmetadata, rfl⟩ := AuditEvent.insert_eq hinsert
  exact ⟨rfl, rfl, rfl, rfl, rfl, rfl, hbefore, hafter, hmetadata, rfl⟩

/-- A record with the digest of its own fields verifies. -/
theorem verifyRecord_signed {r : AuditRecord} {keyHex : Option String} {key : List ℕ}
    {message : ByteArray} (hversion : r.integrityVersion = some integrityVersion)
    (halgorithm : r.integrityAlgorithm = some integrityAlgorithm)
    (hdigest : r.integrityDigest = some (hmac.hexdigest key message))
    (hsign : signRecord hmac.hexdigest settingsKey r keyHex = .ok (hmac.hexdigest key message)) :
    verifyRecord hmac.hexdigest settingsKey r keyHex = .ok .valid := by
  unfold verifyRecord
  rw [if_neg (by simp [hversion]), if_neg (by simp [hversion, halgorithm]), hdigest]
  simp only [hmac.isDigest, if_true, hsign]
  exact congrArg Except.ok (if_pos rfl)

/-- **A signed event verifies once it is loaded again.** -/
theorem verifies_of_insert {e signed : AuditEvent Value} {row : AuditEvent Json}
    (hsign : sign hmac settingsKey e = .ok signed) (hinsert : signed.insert = .ok row)
    (htime : wholeSeconds e.createdAt = e.createdAt) : Verifies hmac settingsKey row := by
  intro keyHex hkeyHex
  obtain ⟨digest, hdigest, rfl⟩ := sign_eq hmac settingsKey hsign
  obtain ⟨key, message, hkey, hmessage, rfl⟩ := signRecord_eq hmac.hexdigest settingsKey hdigest
  have hloaded : canonicalRecord row.load.record = .ok message := by
    rw [canonicalRecord_load hinsert htime]
    exact hmessage
  -- the digest of what is loaded is the digest that was stored
  have hagain : signRecord hmac.hexdigest settingsKey row.load.record keyHex =
      .ok (hmac.hexdigest key message) := by
    unfold signRecord
    rw [hkeyHex, hkey, hloaded]
    rfl
  obtain ⟨_, _, _, -, -, -, rfl⟩ := AuditEvent.insert_eq hinsert
  exact verifyRecord_signed hmac settingsKey rfl rfl rfl hagain

/-! ## The ledger -/

variable {Session : Type} [DecidableEq Session]

theorem Ledger.holds_flush {l : Ledger Session} {s : Session} {row other : AuditEvent Json}
    (h : (l.flush s row).Holds other) : l.Holds other ∨ other = row := by
  rcases h with h | ⟨s', h⟩
  · exact .inl (.inl h)
  · by_cases hs : s' = s
    · subst hs
      have hmem : other ∈ l.flushed s' ++ [row] := by simpa [Ledger.flush] using h
      rcases List.mem_append.mp hmem with hmem | hmem
      · exact .inl (.inr ⟨s', hmem⟩)
      · exact .inr (List.mem_singleton.mp hmem)
    · exact .inl (.inr ⟨s', by simpa [Ledger.flush, Function.update_of_ne hs] using h⟩)

theorem Ledger.holds_commit {l : Ledger Session} {s : Session} {row : AuditEvent Json}
    (h : (l.commit s).Holds row) : l.Holds row := by
  rcases h with h | ⟨s', h⟩
  · rcases List.mem_append.mp h with h | h
    · exact .inl h
    · exact .inr ⟨s, h⟩
  · by_cases hs : s' = s
    · simp [Ledger.commit, hs] at h
    · exact .inr ⟨s', by simpa [Ledger.commit, Function.update_of_ne hs] using h⟩

theorem Ledger.holds_rollback {l : Ledger Session} {s : Session} {row : AuditEvent Json}
    (h : (l.rollback s).Holds row) : l.Holds row := by
  rcases h with h | ⟨s', h⟩
  · exact .inl h
  · by_cases hs : s' = s
    · simp [Ledger.rollback, hs] at h
    · exact .inr ⟨s', by simpa [Ledger.rollback, Function.update_of_ne hs] using h⟩

/-- What one call leaves: the ledger as it was, or without what its session had flushed, or
with one row more that verifies. -/
theorem logEvent_cases (l : Ledger Session) (s : Session) (a : LogEvent) :
    (∃ err, logEvent hmac settingsKey l s a = (.error err, l) ∨
      logEvent hmac settingsKey l s a = (.error err, l.rollback s)) ∨
    logEvent hmac settingsKey l s a = (.ok (), l.rollback s) ∧ a.commitFails = true ∨
    ∃ row, Stores hmac settingsKey a row ∧ Verifies hmac settingsKey row ∧
      logEvent hmac settingsKey l s a =
        (.ok (), if a.commit then (l.flush s row).commit s else l.flush s row) := by
  unfold logEvent
  cases hsign : sign hmac settingsKey a.event with
  | error err => exact .inl ⟨err, .inl rfl⟩
  | ok event =>
    cases hinsert : a.insert event with
    | error err => exact .inl ⟨err, .inr (by simp [hinsert])⟩
    | ok row =>
      have hrow : event.insert = .ok row := by
        unfold LogEvent.insert at hinsert
        cases hfails : a.insertFails with
        | none => rwa [hfails] at hinsert
        | some err =>
          rw [hfails] at hinsert
          cases hinsert
      have hstores : Stores hmac settingsKey a row := ⟨event, hsign, hrow⟩
      have hverifies := verifies_of_insert hmac settingsKey hsign hrow rfl
      by_cases hcommit : a.commit = true
      · by_cases hfails : a.commitFails = true
        · exact .inr (.inl ⟨by simp [hinsert, hcommit, hfails], hfails⟩)
        · exact .inr (.inr ⟨row, hstores, hverifies, by simp [hinsert, hcommit, hfails]⟩)
      · exact .inr (.inr ⟨row, hstores, hverifies, by simp [hinsert, hcommit]⟩)

/-- One step adds only rows that verify. -/
theorem Step.holds {l l' : Ledger Session} (h : Step hmac settingsKey l l')
    {row : AuditEvent Json} (hrow : l'.Holds row) : l.Holds row ∨ Verifies hmac settingsKey row := by
  cases h with
  | commit s => exact .inl (Ledger.holds_commit hrow)
  | rollback s => exact .inl (Ledger.holds_rollback hrow)
  | logEvent s a =>
    rcases logEvent_cases hmac settingsKey l s a with
      ⟨err, heq | heq⟩ | ⟨heq, -⟩ | ⟨added, -, hverifies, heq⟩ <;> rw [heq] at hrow
    · exact .inl hrow
    · exact .inl (Ledger.holds_rollback hrow)
    · exact .inl (Ledger.holds_rollback hrow)
    · have hflushed : (l.flush s added).Holds row := by
        by_cases hcommit : a.commit = true
        · rw [if_pos hcommit] at hrow
          exact Ledger.holds_commit hrow
        · rwa [if_neg hcommit] at hrow
      rcases Ledger.holds_flush hflushed with hold | rfl
      · exact .inl hold
      · exact .inr hverifies

/-- **Every stored audit row verifies.** A call that raises stores nothing, one that
returns leaves at most one row more, which says what the call was told and verifies once it
is loaded; so does every row of a ledger whose rows were all written this way. -/
theorem audit_rows_verify :
    (∀ (l : Ledger Session) (s : Session) (a : LogEvent) (err : Err) (l' : Ledger Session),
      logEvent hmac settingsKey l s a = (.error err, l') → ∀ row, l'.Holds row → l.Holds row) ∧
    (∀ (l : Ledger Session) (s : Session) (a : LogEvent) (l' : Ledger Session),
      logEvent hmac settingsKey l s a = (.ok (), l') →
        l' = l.rollback s ∧ a.commitFails = true ∨
        ∃ row, Stores hmac settingsKey a row ∧ row.Records a ∧ Verifies hmac settingsKey row ∧
          l' = if a.commit then (l.flush s row).commit s else l.flush s row) ∧
    ∀ l : Ledger Session, Relation.ReflTransGen (Step hmac settingsKey) ⟨[], fun _ => []⟩ l →
      ∀ row ∈ l.committed, Verifies hmac settingsKey row := by
  refine ⟨fun l s a err l' h row hrow => ?_, fun l s a l' h => ?_, fun l hrun => ?_⟩
  · rcases logEvent_cases hmac settingsKey l s a with
      ⟨err', heq | heq⟩ | ⟨heq, -⟩ | ⟨added, -, -, heq⟩ <;> rw [heq] at h <;> cases h
    · exact hrow
    · exact Ledger.holds_rollback hrow
  · rcases logEvent_cases hmac settingsKey l s a with
      ⟨err', heq | heq⟩ | ⟨heq, hfails⟩ | ⟨added, hstores, hverifies, heq⟩ <;> rw [heq] at h <;> cases h
    · exact .inl ⟨rfl, hfails⟩
    · exact .inr ⟨added, hstores, hstores.records, hverifies, rfl⟩
  · have hall : ∀ row, l.Holds row → Verifies hmac settingsKey row := by
      induction hrun with
      | refl => intro row h; simp [Ledger.Holds] at h
      | tail _ hstep ih =>
        intro row h
        rcases hstep.holds hmac settingsKey h with hold | hverifies
        · exact ih row hold
        · exact hverifies
    exact fun row hrow => hall row (.inl hrow)

end

/-! ## One login -/

/-- An HMAC that does not look at its key. -/
def loginMac : Hmac where
  hexdigest := loginHmac
  isDigest := by
    intro key message
    unfold isDigest loginHmac
    rw [String.toList_ofList]
    split <;> decide

theorem loginDay_inRange : 2026 < 10000 ∧ 1 < 13 ∧ 2 < 32 := by decide

theorem loginTime_inRange : 3 < 24 ∧ 4 < 60 ∧ 5 < 60 ∧ 6 < 1000000 := by decide

/-- A login of user 7. -/
def loginCall : LogEvent where
  eventType := "login_success"
  actorUserId := some 7
  targetUserId := some 7
  resourceType := some "user"
  resourceId := some (.inl "7")
  metadata := .dict [("amr", .tuple [.str "pwd"])]
  utcnow := ⟨⟨2026, 1, 2, loginDay_inRange⟩, 3, 4, 5, 6, loginTime_inRange⟩

def loginKey : String := String.ofList (List.replicate 64 '0')

/-- The login with the digest of `message`. -/
def signedLogin (message : ByteArray) : AuditEvent Value :=
  { loginCall.event with
    integrityVersion := some integrityVersion
    integrityAlgorithm := some integrityAlgorithm
    integrityDigest := some (loginHmac (List.replicate 32 0) message) }

theorem sign_login : ∃ message,
    sign loginMac loginKey loginCall.event = .ok (signedLogin message) := by
  obtain ⟨message, hmessage⟩ : ∃ message, canonicalRecord loginCall.event.record = .ok message :=
    ⟨_, rfl⟩
  refine ⟨message, ?_⟩
  unfold sign setIntegrity signRecord loginKey
  rw [keyBytes_zeros, hmessage]
  rfl

theorem insert_login (message : ByteArray) : ∃ row, (signedLogin message).insert = .ok row := by
  have hdigest : fits 64 (some (loginHmac (List.replicate 32 0) message)) = true := by
    simp [fits, loginHmac]
  have hcolumns : (fits 100 (some "login_success") && fitsInteger (some 7) &&
      fitsInteger (some 7) && fitsInteger none && fits 50 (some "user") && fits 100 (some "7") &&
      fitsInteger (some integrityVersion) && fits 32 (some integrityAlgorithm)) = true := by
    decide
  exact ⟨_, if_pos (Bool.and_eq_true_iff.mpr ⟨hcolumns, hdigest⟩)⟩

theorem loginCall_stored : (logEvent loginMac loginKey ⟨[], fun _ : Unit => []⟩ () loginCall).1 =
    .ok () := by
  obtain ⟨message, hsign⟩ := sign_login
  obtain ⟨row, hinsert⟩ := insert_login message
  have hstored : loginCall.insert (signedLogin message) = .ok row := hinsert
  unfold logEvent
  simp only [hsign, hstored]
  rfl

/-- The login is stored, and its row verifies. -/
theorem audit_rows_verify_login :
    ∃ row, (logEvent loginMac loginKey ⟨[], fun _ : Unit => []⟩ () loginCall).2.committed = [row] ∧
      row.Records loginCall ∧ Verifies loginMac loginKey row := by
  have hstored := loginCall_stored
  generalize hresult : logEvent loginMac loginKey ⟨[], fun _ : Unit => []⟩ () loginCall = result
    at hstored ⊢
  obtain ⟨reply, ledger⟩ := result
  dsimp only at hstored
  subst hstored
  obtain ⟨-, hfails⟩ | ⟨row, -, hrecords, hverifies, hledger⟩ :=
    (audit_rows_verify loginMac loginKey).2.1 _ _ _ _ hresult
  · exact absurd hfails Bool.false_ne_true
  · refine ⟨row, ?_, hrecords, hverifies⟩
    rw [hledger]
    simp [loginCall, Ledger.commit, Ledger.flush]

end Audit

end OmniAuth
