import Mathlib.Data.List.Infix
import OmniAuth.Audit.Json
import OmniAuth.Model.App

/-!
# Interactions

`app/services/interaction_service.py` and the reading of an entry of the stream in
`app/workers/interaction_consumer.py`: the event, the redaction of its metadata, and the row
it becomes.
-/

namespace OmniAuth

/-- A `datetime`: microseconds since the epoch on its own clock, and the offset of that clock
from UTC where it has one. -/
structure Timestamp where
  ticks : ℤ
  offset : Option ℤ
  deriving DecidableEq

/-- `datetime.min` and `datetime.max` -/
def minTicks : ℤ := -62135596800000000

def maxTicks : ℤ := 253402300799999999

/-- The `InteractionEvent` schema. -/
structure InteractionEvent where
  interactionId : String
  timestamp : Timestamp
  organizationId : ℤ
  userId : Option ℤ
  sessionId : Option String
  traceId : Option String
  service : String
  interactionType : String
  action : String
  resourceType : Option String
  resourceId : Option String
  status : Option String
  decision : Option String
  metadata : List (String × Json)

/-- `_FORBIDDEN_METADATA_KEY_SUBSTRINGS` -/
def forbiddenMetadataKeySubstrings : List String :=
  ["token", "secret", "password", "cookie", "authorization", "credential", "api_key", "apikey",
    "private_key"]

/-- The name of a key looks like that of a secret. -/
def isForbiddenKey (A : AppEnv) (key : String) : Bool :=
  forbiddenMetadataKeySubstrings.any fun bad =>
    decide (bad.toList <:+: (A.lower key).toList)

mutual

/-- What `_redact_metadata` makes of a value: only a dict is looked into. -/
def redactValue (A : AppEnv) : Json → Json
  | .obj entries => .obj (redactMetadata A entries)
  | .null => .null
  | .bool b => .bool b
  | .int n => .int n
  | .float text => .float text
  | .str s => .str s
  | .arr items => .arr items

/-- `_redact_metadata`. On JSON only the recursion limit reaches its `except`, which is left
out. -/
def redactMetadata (A : AppEnv) : List (String × Json) → List (String × Json)
  | [] => []
  | (key, value) :: rest =>
      if isForbiddenKey A key then redactMetadata A rest
      else (key, redactValue A value) :: redactMetadata A rest

end

/-- The keyword arguments of `build_interaction_event`. -/
structure InteractionArgs where
  organizationId : ℤ
  service : String
  interactionType : String
  action : String := ""
  userId : Option ℤ := none
  sessionId : Option String := none
  traceId : Option String := none
  resourceType : Option String := none
  resourceId : Option String := none
  status : Option String := none
  decision : Option String := none
  metadata : Option (List (String × Json)) := none

/-- `build_interaction_event`, given the id and the instant of the schema's defaults. -/
def buildInteractionEvent (A : AppEnv) (args : InteractionArgs) (uuid : String) (now : ℤ) :
    InteractionEvent where
  interactionId := uuid
  timestamp := { ticks := now, offset := none }
  organizationId := args.organizationId
  userId := args.userId
  sessionId := args.sessionId
  traceId := args.traceId
  service := args.service
  interactionType := args.interactionType
  action := args.action
  resourceType := args.resourceType
  resourceId := args.resourceId
  status := args.status
  decision := args.decision
  metadata := redactMetadata A (args.metadata.getD [])

/-- What `_parse_event` raises: `handle_message` catches a missing field, text that is not
JSON and a payload that is not an event; anything else escapes it. -/
inductive ParseError
  | malformed
  | escaping
  deriving DecidableEq

/-- The parts of the reading that are not of this repository: `json.loads` and the
validation of the schema, given the id and the instant its defaults would use. -/
structure EventDecoder where
  decode : String → String → ℤ → Except ParseError InteractionEvent

/-- `astimezone(timezone.utc).replace(tzinfo=None)`, which overflows at the ends. -/
def Timestamp.toNaiveUtc (t : Timestamp) : Except ParseError Timestamp :=
  match t.offset with
  | none => .ok t
  | some offset =>
      if minTicks ≤ t.ticks - offset ∧ t.ticks - offset ≤ maxTicks then
        .ok { ticks := t.ticks - offset, offset := none }
      else .error .escaping

/-- `_parse_event` of `fields["data"]` -/
def parseEvent (A : AppEnv) (D : EventDecoder) (data : Option String) (uuid : String) (now : ℤ) :
    Except ParseError InteractionEvent := do
  match data with
  | none => throw .malformed
  | some data => do
      let event ← D.decode data uuid now
      let timestamp ← event.timestamp.toNaiveUtc
      let event := { event with timestamp := timestamp }
      return { event with metadata := redactMetadata A event.metadata }

/-- The `interactions` table. -/
structure Interaction where
  id : ℕ
  interactionId : String
  organizationId : ℤ
  userId : Option ℤ
  sessionId : Option String
  traceId : Option String
  service : String
  interactionType : String
  action : String
  resourceType : Option String
  resourceId : Option String
  status : Option String
  decision : Option String
  eventMetadata : List (String × Json)
  createdAt : Timestamp

/-- The row `persist_interaction` builds. -/
def Interaction.ofEvent (id : ℕ) (event : InteractionEvent) : Interaction where
  id := id
  interactionId := event.interactionId
  organizationId := event.organizationId
  userId := event.userId
  sessionId := event.sessionId
  traceId := event.traceId
  service := event.service
  interactionType := event.interactionType
  action := event.action
  resourceType := event.resourceType
  resourceId := event.resourceId
  status := event.status
  decision := event.decision
  eventMetadata := event.metadata
  createdAt := event.timestamp

/-! ## Nothing secret is kept -/

mutual

/-- No key at any depth of dicts looks like that of a secret. -/
def ValueClean (A : AppEnv) : Json → Prop
  | .obj entries => MetadataClean A entries
  | .null | .bool _ | .int _ | .float _ | .str _ | .arr _ => True

def MetadataClean (A : AppEnv) : List (String × Json) → Prop
  | [] => True
  | (key, value) :: rest => isForbiddenKey A key = false ∧ ValueClean A value ∧ MetadataClean A rest

end

mutual

theorem redactValue_clean (A : AppEnv) : ∀ value, ValueClean A (redactValue A value)
  | .obj entries => redactMetadata_clean A entries
  | .null | .bool _ | .int _ | .float _ | .str _ | .arr _ => trivial

theorem redactMetadata_clean (A : AppEnv) : ∀ entries, MetadataClean A (redactMetadata A entries)
  | [] => trivial
  | (key, value) :: rest => by
    unfold redactMetadata
    split
    · exact redactMetadata_clean A rest
    · rename_i hkey
      exact ⟨by simpa using hkey, redactValue_clean A value, redactMetadata_clean A rest⟩

end

/-- **An event read from the stream** carries no key of a secret, and no offset. -/
theorem parseEvent_clean {A : AppEnv} {D : EventDecoder} {data : Option String} {uuid : String}
    {now : ℤ} {event : InteractionEvent} (h : parseEvent A D data uuid now = .ok event) :
    MetadataClean A event.metadata ∧ event.timestamp.offset = none := by
  unfold parseEvent at h
  split at h
  · cases h
  obtain ⟨read, -, h⟩ := ok_of_bind h
  obtain ⟨timestamp, htime, h⟩ := ok_of_bind h
  cases h
  refine ⟨redactMetadata_clean A _, ?_⟩
  change timestamp.offset = none
  unfold Timestamp.toNaiveUtc at htime
  split at htime
  · rename_i hnaive
    cases htime
    exact hnaive
  · split at htime
    · cases htime
      rfl
    · cases htime

end OmniAuth
