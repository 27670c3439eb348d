import Mathlib.Data.Prod.Lex
import OmniAuth.Interaction.Service
import OmniAuth.Stream.Group

/-!
# The interaction consumer

`app/workers/interaction_consumer.py`, step by step: the worker reads entries of the stream,
hands each to `handle_message`, and may die between any two steps. Meanwhile others publish
entries, old entries are trimmed, and others insert interactions of their own.

The database holds the rows that are committed and those inserted and not committed; an
insert of an id that either has is refused or waits, which is all that UNIQUE does here.
-/

namespace OmniAuth

open Streams

/-- The id of an entry of the stream; `"0"` is before all of them. -/
abbrev EntryId : Type := ℕ ×ₗ ℕ

/-- An entry as it is read: its id and its field `data`, absent once it was trimmed. -/
structure Message where
  id : EntryId
  data : Option String
  deriving DecidableEq

/-- Where `handle_message` and the call of `persist_interaction` in it are: before the
reading of the event, before the INSERT and the COMMIT of `db.commit()`, before the refresh,
before the query after an IntegrityError, before the acknowledgement. -/
inductive HandleStage
  | parse
  | insert (event : InteractionEvent)
  | commit (event : InteractionEvent)
  | refresh (event : InteractionEvent)
  | lookup (event : InteractionEvent)
  | ack (event : InteractionEvent)

/-- What is left to do with the messages at hand: those of a page of `_drain_own_pending`,
with the last id of the page, or those `run` read. -/
inductive Todo
  | page (last : EntryId) (messages : List Message)
  | batch (messages : List Message)

def Todo.messages : Todo → List Message
  | page _ messages => messages
  | batch messages => messages

def Todo.rest : Todo → Todo
  | page last messages => page last messages.tail
  | batch messages => batch messages.tail

/-- Where the worker is. -/
inductive Process
  | down
  | drain (start : EntryId)
  | messages (todo : Todo)
  | handling (message : Message) (stage : HandleStage) (todo : Todo)
  | live

/-- The worker, the table, the stream and its group, and the history of acknowledgements
with the events they were for. -/
structure Consumer where
  rows : List Interaction
  others : List Interaction
  mine : Option Interaction
  stream : List (EntryId × Option String)
  trimmed : EntryId
  group : ConsumerGroup EntryId
  process : Process
  acks : List (EntryId × InteractionEvent)

namespace Consumer

variable (A : AppEnv) (D : EventDecoder)

/-- Every row there is, committed or not. -/
def allRows (s : Consumer) : List Interaction := s.rows ++ s.others ++ s.mine.toList

/-- The ids of the entries that were not trimmed. -/
def streamIds (s : Consumer) : List EntryId :=
  (s.stream.map (·.1)).filter (s.trimmed < ·)

/-- An entry as Redis gives it; of a trimmed one only the id is left. -/
def message (s : Consumer) (id : EntryId) : Message where
  id := id
  data := if id ≤ s.trimmed then none else (s.stream.lookup id).join

/-- The connection goes, and what was not committed with it. -/
def rolledBack (s : Consumer) : Consumer := { s with mine := none }

/-- How one step of `handle_message` continues. -/
inductive Next
  | stage (stage : HandleStage)
  | returned
  | raised

/-- **`handle_message`**, one step. -/
inductive HandleStep (m : Message) : HandleStage → Consumer → Next → Consumer → Prop
  -- `_parse_event`
  | parsed {s : Consumer} {uuid : String} {now : ℤ} {event : InteractionEvent}
      (h : parseEvent A D m.data uuid now = .ok event) :
      HandleStep m .parse s (.stage (.insert event)) s
  | malformed {s : Consumer} {uuid : String} {now : ℤ}
      (h : parseEvent A D m.data uuid now = .error .malformed) : HandleStep m .parse s .returned s
  | escaped {s : Consumer} {uuid : String} {now : ℤ}
      (h : parseEvent A D m.data uuid now = .error .escaping) : HandleStep m .parse s .raised s
  -- `db.add(record)`, and `db.commit()` in its two statements
  | inserted {s : Consumer} {event : InteractionEvent} (id : ℕ)
      (hfree : ∀ row ∈ s.rows ++ s.others, row.interactionId ≠ event.interactionId) :
      HandleStep m (.insert event) s (.stage (.commit event))
        { s with mine := some (.ofEvent id event) }
  | committed {s : Consumer} {event : InteractionEvent} {row : Interaction}
      (h : s.mine = some row) :
      HandleStep m (.commit event) s (.stage (.refresh event))
        { s with rows := s.rows ++ [row], mine := none }
  -- `db.refresh(record)`
  | refreshed {s : Consumer} {event : InteractionEvent} :
      HandleStep m (.refresh event) s (.stage (.ack event)) s
  -- `except IntegrityError`
  | duplicate {s : Consumer} {stage : HandleStage} {event : InteractionEvent}
      (h : stage = .insert event ∨ stage = .commit event) :
      HandleStep m stage s (.stage (.lookup event)) s.rolledBack
  | found {s : Consumer} {event : InteractionEvent} {row : Interaction} (hrow : row ∈ s.rows)
      (hid : row.interactionId = event.interactionId) :
      HandleStep m (.lookup event) s (.stage (.ack event)) s
  | absent {s : Consumer} {event : InteractionEvent}
      (h : ∀ row ∈ s.rows, row.interactionId ≠ event.interactionId) :
      HandleStep m (.lookup event) s .returned s
  | lookupRaised {s : Consumer} {event : InteractionEvent} :
      HandleStep m (.lookup event) s .raised s
  -- `except Exception`; a COMMIT may have taken effect and its reply be lost
  | failed {s : Consumer} {stage : HandleStage} {event : InteractionEvent}
      (h : stage = .insert event ∨ stage = .commit event ∨ stage = .refresh event) :
      HandleStep m stage s .returned s.rolledBack
  | replyLost {s : Consumer} {event : InteractionEvent} {row : Interaction}
      (h : s.mine = some row) :
      HandleStep m (.commit event) s .returned
        { s with rows := s.rows ++ [row], mine := none }
  -- `reader.ack(message_id)`
  | acked {s : Consumer} {event : InteractionEvent} :
      HandleStep m (.ack event) s .returned
        { s with group := s.group.ack m.id, acks := s.acks ++ [(m.id, event)] }
  | ackRaised {s : Consumer} {event : InteractionEvent} : HandleStep m (.ack event) s .raised s

/-- Who takes a step: the worker as it takes up an entry, the worker otherwise, the worker as
it dies, or anybody else. -/
inductive Actor
  | visit (id : EntryId)
  | worker
  | death
  | other

/-- The page size of `read_own_pending`. -/
def pendingCount : ℕ := 100

/-- **One step**; `readCount` is `INTERACTIONS_READ_COUNT`. -/
inductive Step (readCount : ℕ) : Actor → Consumer → Consumer → Prop
  -- the others
  | published {s : Consumer} (id : EntryId) (data : Option String) (hpos : ⊥ < id)
      (hlast : ∀ entry ∈ s.stream, entry.1 < id) :
      Step readCount .other s { s with stream := s.stream ++ [(id, data)] }
  | trimmed {s : Consumer} (id : EntryId) (h : s.trimmed ≤ id) :
      Step readCount .other s { s with trimmed := id }
  | otherInserted {s : Consumer} (row : Interaction)
      (hfree : ∀ row' ∈ s.allRows, row'.interactionId ≠ row.interactionId) :
      Step readCount .other s { s with others := s.others ++ [row] }
  | otherCommitted {s : Consumer} {before after : List Interaction} {row : Interaction}
      (h : s.others = before ++ row :: after) :
      Step readCount .other s { s with rows := s.rows ++ [row], others := before ++ after }
  | otherRolledBack {s : Consumer} {before after : List Interaction} {row : Interaction}
      (h : s.others = before ++ row :: after) :
      Step readCount .other s { s with others := before ++ after }
  -- `run`: `ensure_group`, then `_drain_own_pending`
  | started {s : Consumer} (h : s.process = .down) :
      Step readCount .worker s { s with process := .drain ⊥ }
  | pageRead {s : Consumer} {start last : EntryId} {init : List EntryId}
      (h : s.process = .drain start)
      (hpage : s.group.readPending start pendingCount = init ++ [last]) :
      Step readCount .worker s
        { s with process := .messages (.page last ((init ++ [last]).map s.message)) }
  | pageEmpty {s : Consumer} {start : EntryId} (h : s.process = .drain start)
      (hpage : s.group.readPending start pendingCount = []) :
      Step readCount .worker s { s with process := .live }
  | pageDone {s : Consumer} {last : EntryId} (h : s.process = .messages (.page last [])) :
      Step readCount .worker s { s with process := .drain last }
  -- `run`: the loop; a reply that is lost leaves the entries delivered
  | newRead {s : Consumer} (h : s.process = .live) :
      Step readCount .worker s
        { s with
          group := s.group.deliver (s.group.readNew s.streamIds readCount)
          process := .messages (.batch ((s.group.readNew s.streamIds readCount).map s.message)) }
  | newLost {s : Consumer} (h : s.process = .live) :
      Step readCount .worker s
        { s with
          group := s.group.deliver (s.group.readNew s.streamIds readCount)
          process := .messages (.batch []) }
  | readFailed {s : Consumer} (h : s.process = .live) :
      Step readCount .worker s { s with process := .messages (.batch []) }
  | batchDone {s : Consumer} (h : s.process = .messages (.batch [])) :
      Step readCount .worker s { s with process := .live }
  -- `handle_message`
  | taken {s : Consumer} {todo : Todo} {m : Message} {rest : List Message}
      (h : s.process = .messages todo) (htodo : todo.messages = m :: rest) :
      Step readCount (.visit m.id) s { s with process := .handling m .parse todo.rest }
  | handled {s s' : Consumer} {m : Message} {stage stage' : HandleStage} {todo : Todo}
      (h : s.process = .handling m stage todo)
      (hstep : HandleStep A D m stage s (.stage stage') s') :
      Step readCount .worker s { s' with process := .handling m stage' todo }
  | returned {s s' : Consumer} {m : Message} {stage : HandleStage} {todo : Todo}
      (h : s.process = .handling m stage todo) (hstep : HandleStep A D m stage s .returned s') :
      Step readCount .worker s { s' with process := .messages todo }
  | raised {s s' : Consumer} {m : Message} {stage : HandleStage} {todo : Todo}
      (h : s.process = .handling m stage todo) (hstep : HandleStep A D m stage s .raised s') :
      Step readCount .death s { s'.rolledBack with process := .down }
  -- the process is killed, or told to stop
  | killed {s : Consumer} : Step readCount .death s { s.rolledBack with process := .down }

/-- Before the first start: any rows of distinct ids, any entries in order, any of them
pending. -/
structure Initial (s : Consumer) : Prop where
  down : s.process = .down
  idle : s.mine = none
  keys : (s.allRows.map (·.interactionId)).Nodup
  ordered : (s.stream.map (·.1)).Pairwise (· < ·)
  positive : ∀ entry ∈ s.stream, ⊥ < entry.1
  group : s.group.WellFormed
  pending : ∀ id ∈ s.group.pending, id ∈ s.stream.map (·.1)
  fresh : s.acks = []

/-- Every run, with its crashes and restarts. -/
inductive Reachable (readCount : ℕ) : Consumer → Prop
  | initial {s : Consumer} (h : s.Initial) : Reachable readCount s
  | step {s s' : Consumer} {actor : Actor} (h : Reachable readCount s)
      (hstep : Step A D readCount actor s s') : Reachable readCount s'

end Consumer

end OmniAuth
