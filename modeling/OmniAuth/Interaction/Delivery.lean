import OmniAuth.Interaction.Consumer

/-!
# Delivery

Whatever the worker, its crashes and the others do: an entry is acknowledged only when a row
of its interaction is committed, and no interaction has two rows. The drain of the pending
entries takes each of them up once and comes to its end.
-/

namespace OmniAuth

open Streams

namespace Consumer

variable {A : AppEnv} {D : EventDecoder} {readCount : ℕ} {s s' : Consumer}

/-! ## What a step does -/

/-- The event was read from this message. -/
def Parsed (A : AppEnv) (D : EventDecoder) (m : Message) (event : InteractionEvent) : Prop :=
  ∃ uuid now, parseEvent A D m.data uuid now = .ok event

/-- What is known where `handle_message` is. -/
def StageHolds (A : AppEnv) (D : EventDecoder) (s : Consumer) (m : Message) : HandleStage → Prop
  | .parse => True
  | .insert event | .lookup event => Parsed A D m event
  | .commit event => Parsed A D m event ∧
      ∃ row, s.mine = some row ∧ row.interactionId = event.interactionId
  | .refresh event | .ack event => Parsed A D m event ∧
      ∃ row ∈ s.rows, row.interactionId = event.interactionId

/-- What a step of `handle_message` leaves alone, and what it may do to the rest. -/
structure Handled (m : Message) (stage : HandleStage) (s s' : Consumer) : Prop where
  stream : s'.stream = s.stream
  trimmed : s'.trimmed = s.trimmed
  others : s'.others = s.others
  rows : s'.mine = none ∧ s'.rows = s.rows ∨ s'.mine = s.mine ∧ s'.rows = s.rows ∨
    (∃ row, s.mine = some row ∧ s'.rows = s.rows ++ [row] ∧ s'.mine = none) ∨
    ∃ row, s'.mine = some row ∧ s'.rows = s.rows ∧
      ∀ row' ∈ s.rows ++ s.others, row'.interactionId ≠ row.interactionId
  acks : s'.acks = s.acks ∧ s'.group = s.group ∨
    ∃ event, stage = .ack event ∧ s'.acks = s.acks ++ [(m.id, event)] ∧
      s'.group = s.group.ack m.id

theorem HandleStep.handled {m : Message} {stage : HandleStage} {next : Next}
    (h : HandleStep A D m stage s next s') : Handled m stage s s' := by
  cases h with
  | parsed | malformed | escaped | refreshed | found | absent | lookupRaised | ackRaised =>
    exact ⟨rfl, rfl, rfl, .inr (.inl ⟨rfl, rfl⟩), .inl ⟨rfl, rfl⟩⟩
  | inserted id hfree =>
    exact ⟨rfl, rfl, rfl, .inr (.inr (.inr ⟨_, rfl, rfl, hfree⟩)), .inl ⟨rfl, rfl⟩⟩
  | committed hmine | replyLost hmine =>
    exact ⟨rfl, rfl, rfl, .inr (.inr (.inl ⟨_, hmine, rfl, rfl⟩)), .inl ⟨rfl, rfl⟩⟩
  | duplicate | failed => exact ⟨rfl, rfl, rfl, .inl ⟨rfl, rfl⟩, .inl ⟨rfl, rfl⟩⟩
  | acked => exact ⟨rfl, rfl, rfl, .inr (.inl ⟨rfl, rfl⟩), .inr ⟨_, rfl, rfl, rfl⟩⟩

/-- **Where `handle_message` is, what is known there holds.** -/
theorem HandleStep.stage_holds {m : Message} {stage stage' : HandleStage}
    (h : HandleStep A D m stage s (.stage stage') s') (hs : StageHolds A D s m stage) :
    StageHolds A D s' m stage' := by
  cases h with
  | parsed h => exact ⟨_, _, h⟩
  | inserted id hfree => exact ⟨hs, _, rfl, rfl⟩
  | committed hmine =>
    obtain ⟨hparsed, row', hrow', hid⟩ := hs
    obtain rfl := Option.some.inj (hmine.symm.trans hrow')
    exact ⟨hparsed, _, by simp, hid⟩
  | refreshed => exact hs
  | duplicate h =>
    rcases h with rfl | rfl
    · exact hs
    · exact hs.1
  | found hrow hid => exact ⟨hs, _, hrow, hid⟩

/-- Committed rows stay. -/
theorem Handled.rows_mono {m : Message} {stage : HandleStage} (h : Handled m stage s s')
    {row : Interaction} (hrow : row ∈ s.rows) : row ∈ s'.rows := by
  obtain ⟨-, hrows⟩ | ⟨-, hrows⟩ | ⟨_, -, hrows, -⟩ | ⟨_, -, hrows, -⟩ := h.rows
  · rw [hrows]
    exact hrow
  · rw [hrows]
    exact hrow
  · rw [hrows]
    exact List.mem_append_left _ hrow
  · rw [hrows]
    exact hrow

/-- No two rows of one interaction, committed or not. -/
def KeysDistinct (s : Consumer) : Prop := (s.allRows.map (·.interactionId)).Nodup

theorem KeysDistinct.perm {rows rows' : List Interaction}
    (h : (rows.map (·.interactionId)).Nodup) (hperm : rows'.Perm rows) :
    (rows'.map (·.interactionId)).Nodup :=
  (hperm.map _).nodup_iff.mpr h

theorem KeysDistinct.sublist {rows rows' : List Interaction}
    (h : (rows.map (·.interactionId)).Nodup) (hsub : rows'.Sublist rows) :
    (rows'.map (·.interactionId)).Nodup :=
  h.sublist (hsub.map _)

theorem KeysDistinct.snoc {rows : List Interaction} {row : Interaction}
    (h : (rows.map (·.interactionId)).Nodup)
    (hfree : ∀ row' ∈ rows, row'.interactionId ≠ row.interactionId) :
    ((rows ++ [row]).map (·.interactionId)).Nodup := by
  rw [List.map_append, List.nodup_append]
  refine ⟨h, by simp, ?_⟩
  intro key hold key' hnew heq
  obtain ⟨row', hrow', rfl⟩ := List.mem_map.mp hold
  have hlast : key' = row.interactionId := by simpa using hnew
  exact hfree row' hrow' (heq.trans hlast)

theorem Handled.keys {m : Message} {stage : HandleStage} (h : Handled m stage s s')
    (hs : s.KeysDistinct) : s'.KeysDistinct := by
  unfold KeysDistinct allRows at *
  rw [h.others]
  obtain ⟨hmine, hrows⟩ | ⟨hmine, hrows⟩ | ⟨row, hmine, hrows, hnone⟩ | ⟨row, hmine, hrows, hfree⟩ :=
    h.rows
  · rw [hmine, hrows]
    refine KeysDistinct.sublist hs ?_
    simp
  · rw [hmine, hrows]
    exact hs
  · rw [hmine] at hs
    rw [hrows, hnone]
    refine KeysDistinct.perm hs ?_
    simp only [Option.toList_none, Option.toList_some, List.append_nil, List.append_assoc]
    exact List.Perm.append_left _ List.perm_append_comm
  · rw [hmine, hrows]
    exact KeysDistinct.snoc (KeysDistinct.sublist hs (by simp)) hfree

/-! ## The invariant -/

/-- A message at hand is an entry of the stream. -/
def FromStream (s : Consumer) (m : Message) : Prop :=
  ∀ data, m.data = some data → (m.id, some data) ∈ s.stream

/-- What is known where the worker is. -/
def ProcessHolds (A : AppEnv) (D : EventDecoder) (s : Consumer) : Process → Prop
  | .messages todo => ∀ m ∈ todo.messages, s.FromStream m
  | .handling m stage todo =>
      s.FromStream m ∧ StageHolds A D s m stage ∧ ∀ m' ∈ todo.messages, s.FromStream m'
  | .down | .drain _ | .live => True

/-- What every acknowledgement was for: an entry of the stream with this event, a row of
which is committed. -/
def AckedFor (A : AppEnv) (D : EventDecoder) (s : Consumer) (a : EntryId × InteractionEvent) :
    Prop :=
  (∃ row ∈ s.rows, row.interactionId = a.2.interactionId) ∧
    ∃ data uuid now, (a.1, some data) ∈ s.stream ∧ parseEvent A D (some data) uuid now = .ok a.2

structure Invariant (A : AppEnv) (D : EventDecoder) (s : Consumer) : Prop where
  keys : s.KeysDistinct
  ordered : (s.stream.map (·.1)).Pairwise (· < ·)
  positive : ∀ entry ∈ s.stream, ⊥ < entry.1
  group : s.group.WellFormed
  pending : ∀ id ∈ s.group.pending, id ∈ s.stream.map (·.1)
  process : ProcessHolds A D s s.process
  acked : ∀ a ∈ s.acks, AckedFor A D s a

/-- The state grows: rows stay committed, entries stay in the stream's history. -/
structure Grows (s s' : Consumer) : Prop where
  rows : ∀ row ∈ s.rows, row ∈ s'.rows
  stream : ∀ entry ∈ s.stream, entry ∈ s'.stream

theorem Grows.acked (h : Grows s s') {a : EntryId × InteractionEvent} (ha : AckedFor A D s a) :
    AckedFor A D s' a := by
  obtain ⟨⟨row, hrow, hid⟩, data, uuid, now, hentry, hparse⟩ := ha
  exact ⟨⟨row, h.rows row hrow, hid⟩, data, uuid, now, h.stream _ hentry, hparse⟩

theorem Grows.fromStream (h : Grows s s') {m : Message} (hm : s.FromStream m) : s'.FromStream m :=
  fun data hdata => h.stream _ (hm data hdata)

/-- What is known where the worker is survives what the others do. -/
theorem Grows.process (h : Grows s s') (hmine : s'.mine = s.mine) {p : Process}
    (hp : ProcessHolds A D s p) : ProcessHolds A D s' p := by
  cases p with
  | messages todo => exact fun m hm => h.fromStream (hp m hm)
  | handling m stage todo =>
    obtain ⟨hm, hstage, htodo⟩ := hp
    refine ⟨h.fromStream hm, ?_, fun m' hm' => h.fromStream (htodo m' hm')⟩
    cases stage with
    | parse => trivial
    | insert event => exact hstage
    | lookup event => exact hstage
    | commit event => exact ⟨hstage.1, hmine ▸ hstage.2⟩
    | refresh event =>
      obtain ⟨hparsed, row, hrow, hid⟩ := hstage
      exact ⟨hparsed, row, h.rows row hrow, hid⟩
    | ack event =>
      obtain ⟨hparsed, row, hrow, hid⟩ := hstage
      exact ⟨hparsed, row, h.rows row hrow, hid⟩
  | down => trivial
  | drain start => trivial
  | live => trivial

theorem Initial.invariant (h : s.Initial) : Invariant A D s where
  keys := h.keys
  ordered := h.ordered
  positive := h.positive
  group := h.group
  pending := h.pending
  process := by
    rw [h.down]
    trivial
  acked := by
    rw [h.fresh]
    intro a ha
    cases ha

theorem lookup_mem {stream : List (EntryId × Option String)} {id : EntryId} {data : String}
    (h : (stream.lookup id).join = some data) : (id, some data) ∈ stream := by
  have hsome : stream.lookup id = some (some data) := by
    cases hl : stream.lookup id with
    | none =>
      rw [hl] at h
      cases h
    | some entry =>
      rw [hl] at h
      exact congrArg some h
  rw [List.lookup_eq_some_iff] at hsome
  obtain ⟨before, after, rfl, -⟩ := hsome
  simp

theorem message_fromStream (s : Consumer) (id : EntryId) : s.FromStream (s.message id) := by
  intro data hdata
  unfold message at hdata
  dsimp only at hdata
  split at hdata
  · cases hdata
  · exact lookup_mem hdata

/-- A step of `handle_message` keeps the invariant, apart from where the worker is. -/
theorem Invariant.handled {m : Message} {stage : HandleStage} {todo : Todo}
    (h : Invariant A D s) (hproc : s.process = .handling m stage todo)
    (hstep : Handled m stage s s') :
    Grows s s' ∧ s'.KeysDistinct ∧ s'.group.WellFormed ∧
      (∀ id ∈ s'.group.pending, id ∈ s'.stream.map (·.1)) ∧ ∀ a ∈ s'.acks, AckedFor A D s' a := by
  have hgrows : Grows s s' := ⟨fun _ => hstep.rows_mono, fun entry he => hstep.stream ▸ he⟩
  have hp := h.process
  rw [hproc] at hp
  refine ⟨hgrows, hstep.keys h.keys, ?_⟩
  obtain ⟨hacks, hgroup⟩ | ⟨event, rfl, hacks, hgroup⟩ := hstep.acks
  · rw [hgroup, hacks, hstep.stream]
    exact ⟨h.group, h.pending, fun a ha => hgrows.acked (h.acked a ha)⟩
  · rw [hgroup, hacks, hstep.stream]
    refine ⟨h.group.ack _, fun id hid => h.pending id (List.mem_filter.mp hid).1, fun a ha => ?_⟩
    rcases List.mem_append.mp ha with ha | ha
    · exact hgrows.acked (h.acked a ha)
    · rw [List.mem_singleton] at ha
      subst ha
      -- the event was read from this entry, and its row is committed
      obtain ⟨hm, ⟨⟨uuid, now, hparse⟩, hrow⟩, -⟩ := hp
      refine hgrows.acked ⟨hrow, ?_⟩
      cases hdata : m.data with
      | none =>
        rw [hdata] at hparse
        cases hparse
      | some data =>
        rw [hdata] at hparse
        exact ⟨data, uuid, now, hm data hdata, hparse⟩

/-- Only where the worker is has changed. -/
theorem Invariant.move (h : Invariant A D s) {p : Process}
    (hp : ProcessHolds A D { s with process := p } p) : Invariant A D { s with process := p } where
  keys := h.keys
  ordered := h.ordered
  positive := h.positive
  group := h.group
  pending := h.pending
  process := hp
  acked := h.acked

theorem streamIds_ordered (h : (s.stream.map (·.1)).Pairwise (· < ·)) :
    s.streamIds.Pairwise (· < ·) := h.filter _

/-- Entries that are delivered become pending. -/
theorem Invariant.deliver (h : Invariant A D s) (messages : List Message)
    (hmessages : ∀ m ∈ messages, s.FromStream m) :
    Invariant A D { s with
      group := s.group.deliver (s.group.readNew s.streamIds readCount)
      process := .messages (.batch messages) } where
  keys := h.keys
  ordered := h.ordered
  positive := h.positive
  group := h.group.deliver (ConsumerGroup.readNew_ordered (streamIds_ordered h.ordered) _)
    fun _ hid => (ConsumerGroup.readNew_new hid).2
  pending := by
    intro id hid
    rcases List.mem_append.mp hid with hold | hnew
    · exact h.pending id hold
    · exact (List.mem_filter.mp (ConsumerGroup.readNew_new hnew).1).1
  process := hmessages
  acked := h.acked

theorem mem_tail_messages {todo : Todo} {m : Message} (h : m ∈ todo.rest.messages) :
    m ∈ todo.messages := by
  cases todo with
  | page last messages => exact List.mem_of_mem_tail h
  | batch messages => exact List.mem_of_mem_tail h

/-- **The invariant is kept by every step.** -/
theorem Invariant.step {actor : Actor} (h : Invariant A D s)
    (hstep : Step A D readCount actor s s') : Invariant A D s' := by
  cases hstep with
  | published id data hpos hlast =>
    have hgrows : Grows s { s with stream := s.stream ++ [(id, data)] } :=
      ⟨fun _ hrow => hrow, fun _ he => List.mem_append_left _ he⟩
    refine ⟨h.keys, ?_, ?_, h.group, ?_, hgrows.process rfl h.process,
      fun a ha => hgrows.acked (h.acked a ha)⟩
    · rw [List.map_append, List.pairwise_append]
      refine ⟨h.ordered, List.pairwise_singleton _ _, ?_⟩
      intro old hold new hnew
      obtain ⟨entry, hentry, rfl⟩ := List.mem_map.mp hold
      have heq : new = id := by simpa using hnew
      exact heq ▸ hlast entry hentry
    · intro entry hentry
      rcases List.mem_append.mp hentry with hentry | hentry
      · exact h.positive entry hentry
      · rw [List.mem_singleton] at hentry
        exact hentry ▸ hpos
    · intro id' hid'
      rw [List.map_append]
      exact List.mem_append_left _ (h.pending id' hid')
  | trimmed id _ =>
    exact ⟨h.keys, h.ordered, h.positive, h.group, h.pending,
      Grows.process ⟨fun _ hrow => hrow, fun _ he => he⟩ rfl h.process, h.acked⟩
  | otherInserted row hfree =>
    refine ⟨?_, h.ordered, h.positive, h.group, h.pending,
      Grows.process ⟨fun _ hrow => hrow, fun _ he => he⟩ rfl h.process, h.acked⟩
    refine KeysDistinct.perm (KeysDistinct.snoc h.keys hfree) ?_
    unfold allRows
    simp only [List.append_assoc]
    exact List.Perm.append_left _ (List.Perm.append_left _ List.perm_append_comm)
  | @otherCommitted _ before after row hothers =>
    have hgrows : Grows s { s with rows := s.rows ++ [row], others := before ++ after } :=
      ⟨fun _ hrow => List.mem_append_left _ hrow, fun _ he => he⟩
    refine ⟨?_, h.ordered, h.positive, h.group, h.pending, hgrows.process rfl h.process,
      fun a ha => hgrows.acked (h.acked a ha)⟩
    refine KeysDistinct.perm h.keys ?_
    unfold allRows
    simp only [hothers, List.append_assoc, List.cons_append, List.nil_append]
    exact List.Perm.append_left _ List.perm_middle.symm
  | @otherRolledBack _ before after row hothers =>
    refine ⟨?_, h.ordered, h.positive, h.group, h.pending,
      Grows.process ⟨fun _ hrow => hrow, fun _ he => he⟩ rfl h.process, h.acked⟩
    refine KeysDistinct.sublist h.keys ?_
    unfold allRows
    simp only [hothers]
    exact ((((List.sublist_cons_self row after).append_left before).append_left s.rows).append_right
      s.mine.toList)
  | started => exact h.move trivial
  | pageRead hproc hpage =>
    refine h.move fun m hm => ?_
    obtain ⟨id, -, rfl⟩ := List.mem_map.mp hm
    exact s.message_fromStream id
  | pageEmpty => exact h.move trivial
  | pageDone => exact h.move trivial
  | newRead =>
    refine h.deliver _ fun m hm => ?_
    obtain ⟨id, -, rfl⟩ := List.mem_map.mp hm
    exact s.message_fromStream id
  | newLost => exact h.deliver _ fun m hm => by cases hm
  | readFailed => exact h.move fun m hm => by cases hm
  | batchDone => exact h.move trivial
  | @taken _ todo m rest hproc htodo =>
    have hp := h.process
    rw [hproc] at hp
    have hp : ∀ m' ∈ todo.messages, s.FromStream m' := hp
    refine h.move ⟨hp m (by rw [htodo]; simp), trivial, fun m' hm' => hp m' (mem_tail_messages hm')⟩
  | @handled _ s₁ m stage stage' todo hproc hhandle =>
    obtain ⟨hgrows, hkeys, hgroup, hpending, hacked⟩ := h.handled hproc hhandle.handled
    have hp := h.process
    rw [hproc] at hp
    obtain ⟨hm, hstage, htodo⟩ := hp
    have hstream := hhandle.handled.stream
    refine ⟨hkeys, ?_, ?_, hgroup, hpending, ?_, hacked⟩
    · exact hstream ▸ h.ordered
    · exact hstream ▸ h.positive
    · exact ⟨hgrows.fromStream hm, hhandle.stage_holds hstage,
        fun m' hm' => hgrows.fromStream (htodo m' hm')⟩
  | @returned _ s₁ m stage todo hproc hhandle =>
    obtain ⟨hgrows, hkeys, hgroup, hpending, hacked⟩ := h.handled hproc hhandle.handled
    have hp := h.process
    rw [hproc] at hp
    have hstream := hhandle.handled.stream
    refine ⟨hkeys, ?_, ?_, hgroup, hpending, ?_, hacked⟩
    · exact hstream ▸ h.ordered
    · exact hstream ▸ h.positive
    · exact fun m' hm' => hgrows.fromStream (hp.2.2 m' hm')
  | @raised _ s₁ m stage todo hproc hhandle =>
    obtain ⟨hgrows, hkeys, hgroup, hpending, hacked⟩ := h.handled hproc hhandle.handled
    have hstream := hhandle.handled.stream
    refine ⟨KeysDistinct.sublist hkeys (by simp [allRows, rolledBack]), ?_, ?_, hgroup, hpending,
      trivial, hacked⟩
    · exact hstream ▸ h.ordered
    · exact hstream ▸ h.positive
  | killed =>
    exact ⟨KeysDistinct.sublist h.keys (by simp [allRows, rolledBack]), h.ordered, h.positive,
      h.group, h.pending, trivial, h.acked⟩

theorem Reachable.invariant (h : Reachable A D readCount s) : Invariant A D s := by
  induction h with
  | initial h => exact h.invariant
  | step _ hstep ih => exact ih.step hstep

/-! ## Acknowledgements -/

/-- **An entry leaves the pending ones by an acknowledgement**, and is acknowledged where the
row of its interaction is committed already. -/
theorem Invariant.acks_step {actor : Actor} (h : Invariant A D s)
    (hstep : Step A D readCount actor s s') :
    (∀ a ∈ s'.acks, a ∈ s.acks ∨ AckedFor A D s a) ∧
      ∀ id ∈ s.group.pending, id ∈ s'.group.pending ∨ ∃ event, (id, event) ∈ s'.acks := by
  have hhandle : ∀ {m stage todo next} {s₁ : Consumer}, s.process = .handling m stage todo →
      HandleStep A D m stage s next s₁ →
      (∀ a ∈ s₁.acks, a ∈ s.acks ∨ AckedFor A D s a) ∧
        ∀ id ∈ s.group.pending, id ∈ s₁.group.pending ∨ ∃ event, (id, event) ∈ s₁.acks := by
    intro m stage todo next s₁ hproc hstep
    have hafter := (h.handled hproc hstep.handled).2.2.2.2
    obtain ⟨hacks, hgroup⟩ | ⟨event, rfl, hacks, hgroup⟩ := hstep.handled.acks
    · rw [hacks, hgroup]
      exact ⟨fun a ha => .inl ha, fun id hid => .inl hid⟩
    · -- this step commits nothing
      have hsame : s₁.rows = s.rows ∧ s₁.stream = s.stream := by
        cases hstep <;> exact ⟨rfl, rfl⟩
      constructor
      · intro a ha
        obtain ⟨⟨row, hrow, hid⟩, hfor⟩ := hafter a ha
        rw [hsame.1] at hrow
        rw [hsame.2] at hfor
        exact .inr ⟨⟨row, hrow, hid⟩, hfor⟩
      · intro id hid
        by_cases hm : id = m.id
        · refine .inr ⟨event, ?_⟩
          rw [hacks, hm]
          simp
        · rw [hgroup]
          exact .inl (List.mem_filter.mpr ⟨hid, decide_eq_true hm⟩)
  cases hstep with
  | handled hproc hstep | returned hproc hstep | raised hproc hstep =>
    have hend := hhandle hproc hstep
    exact hend
  | newRead | newLost =>
    exact ⟨fun a ha => .inl ha, fun id hid => .inl (List.mem_append_left _ hid)⟩
  | published | trimmed | otherInserted | otherCommitted | otherRolledBack | started | pageRead
    | pageEmpty | pageDone | readFailed | batchDone | taken | killed =>
    exact ⟨fun a ha => .inl ha, fun id hid => .inl hid⟩

/-! ## The drain -/

/-- The worker is in `_drain_own_pending`. -/
def Draining (s : Consumer) : Prop :=
  (∃ start, s.process = .drain start) ∨
  (∃ last messages, s.process = .messages (.page last messages)) ∨
  ∃ m stage last messages, s.process = .handling m stage (.page last messages)

/-- The entries a step takes up. -/
def Actor.visited : Actor → List EntryId
  | visit id => [id]
  | worker | death | other => []

/-- The steps of the worker. -/
def Actor.steps : Actor → ℕ
  | visit _ | worker => 1
  | death | other => 0

/-- A run of the drain from `s₀`, with the entries taken up and the steps of the worker, in
which `handle_message` returns on every entry. -/
inductive DrainRun (A : AppEnv) (D : EventDecoder) (readCount : ℕ) (s₀ : Consumer) :
    List EntryId → ℕ → Consumer → Prop
  | start : DrainRun A D readCount s₀ [] 0 s₀
  | step {visited : List EntryId} {n : ℕ} {s s' : Consumer} {actor : Actor}
      (h : DrainRun A D readCount s₀ visited n s) (hdraining : s.Draining)
      (hstep : Step A D readCount actor s s') (hreturns : actor ≠ .death) :
      DrainRun A D readCount s₀ (visited ++ actor.visited) (n + actor.steps) s'

/-- The steps `handle_message` may still take. -/
def stageWork : HandleStage → ℕ
  | .parse => 6
  | .insert _ => 5
  | .commit _ => 4
  | .refresh _ | .lookup _ => 3
  | .ack _ => 2

/-- What is left of the drain: the entries taken up and those to come are the ones that were
pending at first, in their order, and every step of the worker is paid for. -/
def DrainHolds (entries visited : List EntryId) (n : ℕ) (g : ConsumerGroup EntryId) :
    Process → Prop
  | .drain start => visited ++ g.after start = entries ∧ (∀ id ∈ visited, id ≤ start) ∧
      n + (1 + 9 * (g.after start).length) ≤ 1 + 9 * entries.length
  | .messages (.page last messages) =>
      visited ++ messages.map (·.id) ++ g.after last = entries ∧
      (∀ id ∈ visited ++ messages.map (·.id), id ≤ last) ∧
      n + (2 + 7 * messages.length + 9 * (g.after last).length) ≤ 1 + 9 * entries.length
  | .handling m stage (.page last messages) =>
      m.id ∈ visited ∧ visited ++ messages.map (·.id) ++ g.after last = entries ∧
      (∀ id ∈ visited ++ messages.map (·.id), id ≤ last) ∧
      n + (2 + stageWork stage + 7 * messages.length + 9 * (g.after last).length) ≤
        1 + 9 * entries.length
  | .live => visited = entries ∧ n ≤ 1 + 9 * entries.length
  | _ => False

/-- A page has the entries up to its last one. -/
theorem page_le_last {g : ConsumerGroup EntryId} (hg : g.WellFormed) {start last : EntryId}
    {init : List EntryId} {count : ℕ} (hpage : g.readPending start count = init ++ [last]) :
    ∀ id ∈ init ++ [last], id ≤ last := by
  have hordered : (init ++ [last]).Pairwise (· < ·) := by
    rw [← hpage]
    exact (hg.ordered.filter _).sublist (List.take_sublist _ _)
  intro id hid
  have hle := ConsumerGroup.le_getLastD hordered hid last
  simpa using hle

theorem HandleStep.work {m : Message} {stage stage' : HandleStage}
    (h : HandleStep A D m stage s (.stage stage') s') : stageWork stage' < stageWork stage := by
  cases h with
  | parsed | inserted | committed | refreshed | found => simp [stageWork]
  | duplicate h => rcases h with rfl | rfl <;> simp [stageWork]

theorem stageWork_pos (stage : HandleStage) : 0 < stageWork stage := by
  cases stage <;> simp [stageWork]

/-- The entry at hand is behind the cursor, so its acknowledgement moves no page. -/
theorem Handled.after {m : Message} {stage : HandleStage} (h : Handled m stage s s')
    {last : EntryId} (hle : m.id ≤ last) : s'.group.after last = s.group.after last := by
  obtain ⟨-, hgroup⟩ | ⟨event, -, -, hgroup⟩ := h.acks
  · rw [hgroup]
  · rw [hgroup, ConsumerGroup.after_ack hle]

/-- **A step of the drain.** -/
theorem DrainHolds.step {entries visited : List EntryId} {n : ℕ} {actor : Actor}
    (hg : s.group.WellFormed) (hdraining : s.Draining)
    (h : DrainHolds entries visited n s.group s.process) (hstep : Step A D readCount actor s s')
    (hreturns : actor ≠ .death) :
    DrainHolds entries (visited ++ actor.visited) (n + actor.steps) s'.group s'.process := by
  cases hstep with
  | published | trimmed | otherInserted | otherCommitted | otherRolledBack =>
    simpa [Actor.visited, Actor.steps] using h
  | started hproc | newRead hproc | newLost hproc | readFailed hproc | batchDone hproc =>
    unfold Draining at hdraining
    rw [hproc] at hdraining
    simp at hdraining
  | @pageRead _ start last init hproc hpage =>
    rw [hproc] at h
    obtain ⟨hentries, hle, hwork⟩ := h
    have hsplit := ConsumerGroup.page_append_after hg hpage
    have hids : ((init ++ [last]).map s.message).map (·.id) = init ++ [last] := by
      rw [List.map_map]
      exact List.map_id _
    have hlast : ∀ id ∈ init ++ [last], id ≤ last := page_le_last hg hpage
    refine ⟨?_, ?_, ?_⟩
    · rw [hids, List.append_assoc, hsplit]
      simpa [Actor.visited] using hentries
    · rw [hids]
      intro id hid
      simp only [Actor.visited, List.append_nil] at hid
      rcases List.mem_append.mp hid with hold | hnew
      · have hstart : start < last := by
          have hmem : last ∈ s.group.after start := by
            rw [← hsplit]
            simp
          exact (ConsumerGroup.mem_after.mp hmem).2
        exact le_of_lt (lt_of_le_of_lt (hle id hold) hstart)
      · exact hlast id hnew
    · have hlen := congrArg List.length hsplit
      simp only [List.length_append, List.length_cons, List.length_nil] at hlen
      simp only [Actor.steps, List.length_map, List.length_append, List.length_cons,
        List.length_nil]
      omega
  | @pageEmpty _ start hproc hpage =>
    rw [hproc] at h
    obtain ⟨hentries, -, hwork⟩ := h
    have hnone : s.group.after start = [] := by
      rcases List.take_eq_nil_iff.mp hpage with hcount | hnil
      · cases hcount
      · exact hnil
    rw [hnone] at hentries hwork
    refine ⟨by simpa [Actor.visited] using hentries, ?_⟩
    simp only [Actor.steps]
    omega
  | @pageDone _ last hproc =>
    rw [hproc] at h
    obtain ⟨hentries, hle, hwork⟩ := h
    refine ⟨by simpa [Actor.visited] using hentries, by simpa [Actor.visited] using hle, ?_⟩
    simp only [Actor.steps, List.length_nil] at hwork ⊢
    omega
  | @taken _ todo m rest hproc htodo =>
    cases todo with
    | batch messages =>
      unfold Draining at hdraining
      rw [hproc] at hdraining
      simp at hdraining
    | page last messages =>
      obtain rfl : messages = m :: rest := htodo
      rw [hproc] at h
      obtain ⟨hentries, hle, hwork⟩ := h
      refine ⟨by simp [Actor.visited], ?_, ?_, ?_⟩
      · simpa [Actor.visited] using hentries
      · simpa [Actor.visited] using hle
      · simp only [Actor.steps, List.length_cons, List.tail_cons, stageWork] at hwork ⊢
        omega
  | @handled _ s₁ m stage stage' todo hproc hhandle =>
    rw [hproc] at h
    cases todo with
    | batch messages => exact h.elim
    | page last messages =>
      obtain ⟨hm, hentries, hle, hwork⟩ := h
      have hafter := hhandle.handled.after (hle m.id (List.mem_append_left _ hm))
      have hless := hhandle.work
      refine ⟨by simpa [Actor.visited] using hm, ?_, by simpa [Actor.visited] using hle, ?_⟩
      · rw [hafter]
        simpa [Actor.visited] using hentries
      · rw [hafter]
        simp only [Actor.steps]
        omega
  | @returned _ s₁ m stage todo hproc hhandle =>
    rw [hproc] at h
    cases todo with
    | batch messages => exact h.elim
    | page last messages =>
      obtain ⟨hm, hentries, hle, hwork⟩ := h
      have hafter := hhandle.handled.after (hle m.id (List.mem_append_left _ hm))
      have hless := stageWork_pos stage
      refine ⟨?_, by simpa [Actor.visited] using hle, ?_⟩
      · rw [hafter]
        simpa [Actor.visited] using hentries
      · rw [hafter]
        simp only [Actor.steps]
        omega
  | raised | killed => exact absurd rfl hreturns

theorem DrainRun.reachable {s₀ : Consumer} {visited : List EntryId} {n : ℕ}
    (h : DrainRun A D readCount s₀ visited n s) (h₀ : Reachable A D readCount s₀) :
    Reachable A D readCount s := by
  induction h with
  | start => exact h₀
  | step _ _ hstep _ ih => exact ih.step hstep

/-- **The whole drain**: what was taken up, what is to come and the steps so far. -/
theorem DrainRun.holds {s₀ : Consumer} {visited : List EntryId} {n : ℕ}
    (h : DrainRun A D readCount s₀ visited n s) (h₀ : Reachable A D readCount s₀)
    (hstart : s₀.process = .drain ⊥) :
    DrainHolds s₀.group.pending visited n s.group s.process := by
  induction h with
  | start =>
    have hall : s₀.group.after ⊥ = s₀.group.pending := by
      refine List.filter_eq_self.mpr fun id hid => ?_
      obtain ⟨entry, hentry, rfl⟩ := List.mem_map.mp (h₀.invariant.pending id hid)
      exact decide_eq_true (h₀.invariant.positive entry hentry)
    rw [hstart]
    refine ⟨hall, ?_, ?_⟩
    · intro id hid
      cases hid
    · rw [hall]
      omega
  | step hrun hdraining hstep hreturns ih =>
    exact ih.step (hrun.reachable h₀).invariant.group hdraining hstep hreturns

/-- While it drains, the worker is not stuck, except in a `handle_message` that raises. -/
theorem draining_step (h : Invariant A D s) (hdraining : s.Draining) :
    (∃ actor s', Step A D readCount actor s s' ∧ actor.steps = 1) ∨
      ∃ m todo, s.process = .handling m .parse todo ∧
        ∀ uuid now, parseEvent A D m.data uuid now = .error .escaping := by
  rcases hdraining with ⟨start, hproc⟩ | ⟨last, messages, hproc⟩ | ⟨m, stage, last, messages, hproc⟩
  · rcases List.eq_nil_or_concat' (s.group.readPending start pendingCount) with
      hnil | ⟨init, last, hpage⟩
    · exact .inl ⟨_, _, .pageEmpty hproc hnil, rfl⟩
    · exact .inl ⟨_, _, .pageRead hproc hpage, rfl⟩
  · cases messages with
    | nil => exact .inl ⟨_, _, .pageDone hproc, rfl⟩
    | cons m rest => exact .inl ⟨_, _, .taken hproc rfl, rfl⟩
  · have hp := h.process
    rw [hproc] at hp
    cases stage with
    | parse =>
      by_cases hraises : ∀ uuid now, parseEvent A D m.data uuid now = .error .escaping
      · exact .inr ⟨m, _, hproc, hraises⟩
      push Not at hraises
      obtain ⟨uuid, now, hnot⟩ := hraises
      cases hparse : parseEvent A D m.data uuid now with
      | ok event => exact .inl ⟨_, _, .handled hproc (.parsed hparse), rfl⟩
      | error e =>
        cases e with
        | malformed => exact .inl ⟨_, _, .returned hproc (.malformed hparse), rfl⟩
        | escaping => exact absurd hparse hnot
    | insert event => exact .inl ⟨_, _, .returned hproc (.failed (.inl rfl)), rfl⟩
    | commit event =>
      obtain ⟨-, ⟨-, row, hmine, -⟩, -⟩ := hp
      exact .inl ⟨_, _, .handled hproc (.committed hmine), rfl⟩
    | refresh event => exact .inl ⟨_, _, .handled hproc .refreshed, rfl⟩
    | lookup event =>
      by_cases hfound : ∃ row ∈ s.rows, row.interactionId = event.interactionId
      · obtain ⟨row, hrow, hid⟩ := hfound
        exact .inl ⟨_, _, .handled hproc (.found hrow hid), rfl⟩
      · push Not at hfound
        exact .inl ⟨_, _, .returned hproc (.absent hfound), rfl⟩
    | ack event => exact .inl ⟨_, _, .returned hproc .acked, rfl⟩

theorem KeysDistinct.rows (h : s.KeysDistinct) : (s.rows.map (·.interactionId)).Nodup := by
  refine KeysDistinct.sublist h ?_
  unfold allRows
  rw [List.append_assoc]
  exact List.sublist_append_left _ _

theorem DrainHolds.begun {entries visited : List EntryId} {n : ℕ} {p : Process}
    (h : DrainHolds entries visited n s.group p) :
    visited <+: entries ∧ n ≤ 1 + 9 * entries.length := by
  match p, h with
  | .drain start, ⟨hentries, _, hwork⟩ =>
    exact ⟨⟨_, hentries⟩, by omega⟩
  | .messages (.page last messages), ⟨hentries, _, hwork⟩ =>
    rw [List.append_assoc] at hentries
    exact ⟨⟨_, hentries⟩, by omega⟩
  | .handling m stage (.page last messages), ⟨_, hentries, _, hwork⟩ =>
    rw [List.append_assoc] at hentries
    exact ⟨⟨_, hentries⟩, by omega⟩
  | .live, ⟨hentries, hwork⟩ => exact ⟨hentries ▸ List.prefix_rfl, hwork⟩

theorem DrainHolds.done {entries visited : List EntryId} {n : ℕ}
    (h : DrainHolds entries visited n s.group s.process) (hdone : ¬ s.Draining) :
    visited = entries := by
  unfold Draining at hdone
  match hproc : s.process, h with
  | .drain start, _ => exact absurd (.inl ⟨start, hproc⟩) hdone
  | .messages (.page last messages), _ => exact absurd (.inr (.inl ⟨last, messages, hproc⟩)) hdone
  | .handling m stage (.page last messages), _ =>
    exact absurd (.inr (.inr ⟨m, stage, last, messages, hproc⟩)) hdone
  | .live, ⟨hentries, _⟩ => exact hentries

/-- **Interactions are delivered once.** In every state of every run: an entry stops being
pending by an acknowledgement, which happens where a row of its interaction is committed
already; no interaction has two rows; and a drain takes up each entry that was pending at its
start once and in order, within a bounded number of steps of the worker, which can always
take another one until it is done, unless `handle_message` raises. -/
theorem interactions_delivered_once (h : Reachable A D readCount s) :
    (∀ a ∈ s.acks, AckedFor A D s a) ∧
    (∀ actor s', Step A D readCount actor s s' →
      (∀ a ∈ s'.acks, a ∈ s.acks ∨ AckedFor A D s a) ∧
        ∀ id ∈ s.group.pending, id ∈ s'.group.pending ∨ ∃ event, (id, event) ∈ s'.acks) ∧
    (s.rows.map (·.interactionId)).Nodup ∧ s.group.pending.Nodup ∧
    (s.process = .drain ⊥ → ∀ visited n s', DrainRun A D readCount s visited n s' →
      visited <+: s.group.pending ∧ n ≤ 1 + 9 * s.group.pending.length ∧
      (¬ s'.Draining → visited = s.group.pending) ∧
      (s'.Draining → (∃ actor s'', Step A D readCount actor s' s'' ∧ actor.steps = 1) ∨
        ∃ m todo, s'.process = .handling m .parse todo ∧
          ∀ uuid now, parseEvent A D m.data uuid now = .error .escaping)) := by
  have hinv := h.invariant
  refine ⟨hinv.acked, fun actor s' hstep => hinv.acks_step hstep, hinv.keys.rows,
    hinv.group.nodup, fun hstart visited n s' hrun => ?_⟩
  have hholds := hrun.holds h hstart
  exact ⟨hholds.begun.1, hholds.begun.2, hholds.done,
    draining_step (hrun.reachable h).invariant⟩

/-- A decoder that takes the text for the id. -/
def echoDecoder : EventDecoder where
  decode data _ now := .ok
    { interactionId := data
      timestamp := ⟨now, none⟩
      organizationId := 1
      userId := none
      sessionId := none
      traceId := none
      service := "rag"
      interactionType := "query"
      action := ""
      resourceType := none
      resourceId := none
      status := none
      decision := none
      metadata := [] }

/-- The event of the entry "i-1". -/
def echoEvent : InteractionEvent where
  interactionId := "i-1"
  timestamp := ⟨0, none⟩
  organizationId := 1
  userId := none
  sessionId := none
  traceId := none
  service := "rag"
  interactionType := "query"
  action := ""
  resourceType := none
  resourceId := none
  status := none
  decision := none
  metadata := []

/-- The worker died after the commit and before the acknowledgement. -/
def diedUnacked : Consumer where
  rows := [.ofEvent 1 echoEvent]
  others := []
  mine := none
  stream := [(toLex (1, 0), some "i-1")]
  trimmed := ⊥
  group := ⟨toLex (1, 0), [toLex (1, 0)]⟩
  process := .down
  acks := []

theorem diedUnacked_initial : diedUnacked.Initial where
  down := rfl
  idle := rfl
  keys := by simp [diedUnacked, allRows]
  ordered := List.pairwise_singleton _ _
  positive := by
    intro entry hentry
    obtain rfl := List.mem_singleton.mp hentry
    decide
  group := ⟨List.pairwise_singleton _ _, fun id hid => le_of_eq (List.mem_singleton.mp hid)⟩
  pending := fun id hid => hid
  fresh := rfl

/-- The entry as it is read again. -/
def redelivered : Message := ⟨toLex (1, 0), some "i-1"⟩

/-- The next start finds the row and acknowledges; its drain takes up the one entry, and is
done. -/
theorem redelivered_acked : ∃ visited n, ∃ s : Consumer,
    DrainRun AppEnv.symbolic echoDecoder 10 { diedUnacked with process := .drain ⊥ } visited n s ∧
    ¬ s.Draining ∧ visited = [toLex (1, 0)] ∧ n ≤ 10 ∧
    s.acks = [(toLex (1, 0), echoEvent)] ∧
    (∀ a ∈ s.acks, AckedFor AppEnv.symbolic echoDecoder s a) ∧
    (s.rows.map (·.interactionId)).Nodup := by
  let stateAt (p : Process) : Consumer := { diedUnacked with process := p }
  have h₀ : Reachable AppEnv.symbolic echoDecoder 10 diedUnacked := .initial diedUnacked_initial
  have h₁ : Reachable AppEnv.symbolic echoDecoder 10 (stateAt (.drain ⊥)) := h₀.step (.started rfl)
  have hpage : (stateAt (.drain ⊥)).group.readPending ⊥ pendingCount = [] ++ [toLex (1, 0)] := by
    decide
  have hread : ([] ++ [toLex (1, 0)]).map (stateAt (.drain ⊥)).message = [redelivered] := by decide
  have hparse : parseEvent AppEnv.symbolic echoDecoder (some "i-1") "" 0 = .ok echoEvent := rfl
  -- the page is read and its entry taken up
  have d₀ : DrainRun AppEnv.symbolic echoDecoder 10 (stateAt (.drain ⊥)) [] 0
      (stateAt (.drain ⊥)) := .start
  have d₁ := d₀.step (.inl ⟨_, rfl⟩) (.pageRead rfl hpage) nofun
  rw [hread] at d₁
  have d₂ := d₁.step (.inr (.inl ⟨_, _, rfl⟩)) (.taken rfl rfl) nofun
  -- its row is there, so it is acknowledged
  have d₃ := d₂.step (.inr (.inr ⟨_, _, _, _, rfl⟩)) (.handled rfl (.parsed hparse)) nofun
  have d₄ := d₃.step (.inr (.inr ⟨_, _, _, _, rfl⟩)) (.handled rfl (.duplicate (.inl rfl))) nofun
  have d₅ := d₄.step (.inr (.inr ⟨_, _, _, _, rfl⟩))
    (.handled rfl (.found (List.mem_singleton.mpr rfl) rfl)) nofun
  have d₆ := d₅.step (.inr (.inr ⟨_, _, _, _, rfl⟩)) (.returned rfl .acked) nofun
  -- nothing else is pending
  have d₇ := d₆.step (.inr (.inl ⟨_, _, rfl⟩)) (.pageDone rfl) nofun
  have d₈ := d₇.step (.inl ⟨_, rfl⟩) (.pageEmpty rfl rfl) nofun
  have hlive : ∀ s : Consumer, s.process = .live → ¬ s.Draining := by
    rintro s hs (⟨_, h⟩ | ⟨_, _, h⟩ | ⟨_, _, _, _, h⟩) <;> rw [hs] at h <;> cases h
  obtain ⟨-, hn, hdone, -⟩ := (interactions_delivered_once h₁).2.2.2.2 rfl _ _ _ d₈
  obtain ⟨hacked, -, hkeys, -⟩ := interactions_delivered_once (d₈.reachable h₁)
  exact ⟨_, _, _, d₈, hlive _ rfl, hdone (hlive _ rfl), hn, rfl, hacked, hkeys⟩

end Consumer

end OmniAuth
