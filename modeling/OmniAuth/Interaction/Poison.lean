import OmniAuth.Interaction.Consumer

/-!
# Entries that cannot be read

`_parse_event` decodes the text of an entry, calls the schema with what it got, and takes the
instant to UTC. `handle_message` catches what the first two raise about text that is not JSON
and about fields that are missing or wrong. What else they raise ends the worker, and the
entry is still there when it comes back.
-/

namespace OmniAuth

open Consumer

/-- What `json.loads` raises: `JSONDecodeError`, or the error of a limit of the interpreter (on
the digits of an integer, on the nesting). -/
inductive LoadsError
  | jsonDecodeError
  | limit
  deriving DecidableEq

/-- `json.loads`, and the validation of the fields of an `InteractionEvent`, given the id and
the instant its defaults would use; `none` for a `ValidationError`. -/
structure PayloadReader where
  loads : String → Except LoadsError Json
  validate : List (String × Json) → String → ℤ → Option InteractionEvent

/-- `InteractionEvent(**payload)` of the decoded text: only an object can be spread. -/
def PayloadReader.decoder (R : PayloadReader) : EventDecoder where
  decode data uuid now :=
    match R.loads data with
    | .error .jsonDecodeError => .error .malformed
    | .error .limit => .error .escaping
    | .ok (.obj payload) =>
        match R.validate payload uuid now with
        | none => .error .malformed
        | some event => .ok event
    | .ok _ => .error .escaping

/-- The text is not JSON, not an object, or not of an event. -/
def PayloadReader.Malformed (R : PayloadReader) (data : String) : Prop :=
  ∀ payload, R.loads data = .ok (.obj payload) → ∀ uuid now, R.validate payload uuid now = none

/-- The instant can be taken to UTC. -/
def Timestamp.Convertible (t : Timestamp) : Prop :=
  ∀ offset, t.offset = some offset → minTicks ≤ t.ticks - offset ∧ t.ticks - offset ≤ maxTicks

/-- What `handle_message` is prepared for: text that is not JSON, or an object that is no
event, or one of an event whose instant can be taken to UTC. -/
def PayloadReader.Digestible (R : PayloadReader) (data : String) : Prop :=
  R.loads data ≠ .error .limit ∧
    ∀ value, R.loads data = .ok value → ∃ payload, value = .obj payload ∧
      ∀ uuid now event, R.validate payload uuid now = some event → event.timestamp.Convertible

/-- **The entry does no harm.** The worker raises only where the database or Redis fails it (the
query after an IntegrityError, the acknowledgement), and an entry that is malformed is left as
it is: not acknowledged, nothing stored, and the worker goes on. -/
def HarmlessEntry (A : AppEnv) (R : PayloadReader) (data : String) : Prop :=
  (∀ id stage s s', HandleStep A R.decoder ⟨id, some data⟩ stage s .raised s' →
      ∃ event, stage = .lookup event ∨ stage = .ack event) ∧
    (R.Malformed data → ∀ id s next s',
      HandleStep A R.decoder ⟨id, some data⟩ .parse s next s' → next = .returned ∧ s' = s)

variable {A : AppEnv} {R : PayloadReader} {data uuid : String} {now : ℤ}

theorem Timestamp.toNaiveUtc_cases (t : Timestamp) :
    (t.Convertible ∧ ∃ t', t.toNaiveUtc = .ok t') ∨
      (¬ t.Convertible ∧ t.toNaiveUtc = .error .escaping) := by
  unfold Timestamp.toNaiveUtc Timestamp.Convertible
  cases t.offset with
  | none => exact .inl ⟨nofun, t, rfl⟩
  | some offset =>
    by_cases hrange : minTicks ≤ t.ticks - offset ∧ t.ticks - offset ≤ maxTicks
    · refine .inl ⟨fun o ho => ?_, _, if_pos hrange⟩
      obtain rfl := Option.some.inj ho
      exact hrange
    · exact .inr ⟨fun hall => hrange (hall offset rfl), if_neg hrange⟩

/-- An event that was decoded escapes by its instant only. -/
theorem parseEvent_decoded {event : InteractionEvent}
    (hread : R.decoder.decode data uuid now = .ok event) :
    (event.timestamp.Convertible ∧
        ∃ stored, parseEvent A R.decoder (some data) uuid now = .ok stored) ∨
      (¬ event.timestamp.Convertible ∧
        parseEvent A R.decoder (some data) uuid now = .error .escaping) := by
  unfold parseEvent
  simp only [hread]
  rcases event.timestamp.toNaiveUtc_cases with ⟨hconv, t, ht⟩ | ⟨hconv, ht⟩
  · refine .inl ⟨hconv, { event with timestamp := t, metadata := redactMetadata A event.metadata }, ?_⟩
    show (event.timestamp.toNaiveUtc >>= _) = _
    rw [ht]
    rfl
  · refine .inr ⟨hconv, ?_⟩
    show (event.timestamp.toNaiveUtc >>= _) = _
    rw [ht]
    rfl

theorem parseEvent_undecoded {x : ParseError} (hread : R.decoder.decode data uuid now = .error x) :
    parseEvent A R.decoder (some data) uuid now = .error x := by
  unfold parseEvent
  simp only [hread]
  rfl

/-- How the text of an entry is decoded. -/
theorem PayloadReader.decode_cases (R : PayloadReader) (data uuid : String) (now : ℤ) :
    (R.loads data = .error .jsonDecodeError ∧
        R.decoder.decode data uuid now = .error .malformed) ∨
      (R.loads data = .error .limit ∧ R.decoder.decode data uuid now = .error .escaping) ∨
      (∃ payload, R.loads data = .ok (.obj payload) ∧ R.validate payload uuid now = none ∧
        R.decoder.decode data uuid now = .error .malformed) ∨
      (∃ payload event, R.loads data = .ok (.obj payload) ∧
        R.validate payload uuid now = some event ∧ R.decoder.decode data uuid now = .ok event) ∨
      (∃ value, R.loads data = .ok value ∧ (∀ payload, value ≠ .obj payload) ∧
        R.decoder.decode data uuid now = .error .escaping) := by
  unfold PayloadReader.decoder
  dsimp only
  cases hloads : R.loads data with
  | error x =>
    cases x with
    | jsonDecodeError => exact .inl ⟨rfl, rfl⟩
    | limit => exact .inr (.inl ⟨rfl, rfl⟩)
  | ok value =>
    cases value with
    | obj payload =>
      cases hvalid : R.validate payload uuid now with
      | none => exact .inr (.inr (.inl ⟨payload, rfl, hvalid, by simp only [hvalid]⟩))
      | some event =>
        exact .inr (.inr (.inr (.inl ⟨payload, event, rfl, hvalid, by simp only [hvalid]⟩)))
    | _ => exact .inr (.inr (.inr (.inr ⟨_, rfl, nofun, rfl⟩)))

/-- **What escapes `handle_message`.** -/
theorem parseEvent_escapes_iff (A : AppEnv) (R : PayloadReader) (data : String) :
    (∃ uuid now, parseEvent A R.decoder (some data) uuid now = .error .escaping) ↔
      ¬ R.Digestible data := by
  constructor
  · rintro ⟨uuid, now, hescapes⟩ ⟨hlimit, hobject⟩
    rcases R.decode_cases data uuid now with ⟨-, hread⟩ | ⟨hloads, -⟩ | ⟨payload, -, -, hread⟩ |
      ⟨payload, event, hloads, hvalid, hread⟩ | ⟨value, hloads, hnot, -⟩
    · rw [parseEvent_undecoded hread] at hescapes
      cases hescapes
    · exact hlimit hloads
    · rw [parseEvent_undecoded hread] at hescapes
      cases hescapes
    · obtain ⟨payload', heq, hconv⟩ := hobject _ hloads
      obtain rfl := Json.obj.inj heq
      rcases parseEvent_decoded (A := A) hread with ⟨-, stored, hstored⟩ | ⟨hnot, -⟩
      · rw [hstored] at hescapes
        cases hescapes
      · exact hnot (hconv uuid now event hvalid)
    · obtain ⟨payload, heq, -⟩ := hobject _ hloads
      exact hnot payload heq
  · intro hnot
    by_contra hnone
    refine hnot ⟨fun hloads => ?_, fun value hloads => ?_⟩
    · refine hnone ⟨"", 0, parseEvent_undecoded ?_⟩
      unfold PayloadReader.decoder
      dsimp only
      rw [hloads]
    · by_cases hobject : ∃ payload, value = .obj payload
      · obtain ⟨payload, rfl⟩ := hobject
        refine ⟨payload, rfl, fun uuid now event hvalid => ?_⟩
        have hread : R.decoder.decode data uuid now = .ok event := by
          unfold PayloadReader.decoder
          simp only [hloads, hvalid]
        rcases parseEvent_decoded (A := A) hread with ⟨hconv, -⟩ | ⟨-, hescapes⟩
        · exact hconv
        · exact absurd ⟨uuid, now, hescapes⟩ hnone
      · -- `InteractionEvent(**payload)` raises a `TypeError`
        refine absurd ⟨"", 0, parseEvent_undecoded ?_⟩ hnone
        unfold PayloadReader.decoder
        simp only [hloads]
        cases value with
        | obj payload => exact absurd ⟨payload, rfl⟩ hobject
        | _ => rfl

/-- **Entries do no harm** exactly where their text is not JSON, or an object that is no event,
or one of an event whose instant can be taken to UTC. -/
theorem poison_harmless_iff (A : AppEnv) (R : PayloadReader) (data : String) :
    HarmlessEntry A R data ↔ R.Digestible data := by
  constructor
  · intro h
    by_contra hnot
    obtain ⟨uuid, now, hescapes⟩ := (parseEvent_escapes_iff A R data).mpr hnot
    obtain ⟨event, hstage | hstage⟩ :=
      h.1 ⊥ .parse ⟨[], [], none, [], ⊥, ⟨⊥, []⟩, .down, []⟩ _ (.escaped hescapes)
    · cases hstage
    · cases hstage
  · intro hdigest
    have hcaught : ∀ uuid now, parseEvent A R.decoder (some data) uuid now ≠ .error .escaping :=
      fun uuid now hescapes => (parseEvent_escapes_iff A R data).mp ⟨uuid, now, hescapes⟩ hdigest
    refine ⟨fun id stage s s' hstep => ?_, fun hmalformed id s next s' hstep => ?_⟩
    · cases hstep with
      | escaped h => exact absurd h (hcaught _ _)
      | lookupRaised => exact ⟨_, .inl rfl⟩
      | ackRaised => exact ⟨_, .inr rfl⟩
    · cases hstep with
      | @parsed _ uuid now event h =>
        -- a malformed text yields no event
        rcases R.decode_cases data uuid now with ⟨-, hread⟩ | ⟨-, hread⟩ | ⟨_, -, -, hread⟩ |
          ⟨payload, event', hloads, hvalid, -⟩ | ⟨_, -, -, hread⟩
        · rw [parseEvent_undecoded hread] at h
          cases h
        · rw [parseEvent_undecoded hread] at h
          cases h
        · rw [parseEvent_undecoded hread] at h
          cases h
        · rw [hmalformed payload hloads uuid now] at hvalid
          cases hvalid
        · rw [parseEvent_undecoded hread] at h
          cases h
      | malformed h => exact ⟨rfl, rfl⟩
      | escaped h => exact absurd h (hcaught _ _)
      | duplicate h => rcases h with h | h <;> cases h
      | failed h => rcases h with h | h | h <;> cases h

/-! ## A number -/

/-- What `json.loads` makes of the text `5`, and of one that is not JSON; no field is right. -/
def readsFive : PayloadReader where
  loads data := if data = "5" then .ok (.int 5) else .error .jsonDecodeError
  validate _ _ _ := none

/-- **The text `5` ends the worker**: the payload cannot be spread into an event. -/
theorem poison_number : ¬ HarmlessEntry .symbolic readsFive "5" ∧
    ∀ s, HandleStep .symbolic readsFive.decoder ⟨⊥, some "5"⟩ .parse s .raised s := by
  have hstep : ∀ s, HandleStep .symbolic readsFive.decoder ⟨⊥, some "5"⟩ .parse s .raised s :=
    fun s => .escaped (show parseEvent .symbolic readsFive.decoder (some "5") "" 0 = _ from rfl)
  refine ⟨fun hharmless => ?_, hstep⟩
  obtain ⟨event, hstage | hstage⟩ :=
    hharmless.1 _ _ _ _ (hstep ⟨[], [], none, [], ⊥, ⟨⊥, []⟩, .down, []⟩)
  · cases hstage
  · cases hstage

end OmniAuth
