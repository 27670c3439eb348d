import OmniAuth.Interaction.Service

/-!
# What the redaction reaches

`_redact_metadata` looks into dicts and copies everything else. Of what it reaches nothing
secret is left and nothing else is lost; an array is not reached, and what stands in it is
stored as it came.
-/

namespace OmniAuth

/-! ## Places in a value -/

/-- One step into a value: to the entry of a key, or to an item. -/
inductive JsonStep
  | key (k : String)
  | index (i : ℕ)
  deriving DecidableEq

/-- From the value one gets along the path to the other. -/
inductive Json.Reaches : Json → List JsonStep → Json → Prop
  | here (v : Json) : Json.Reaches v [] v
  | entry {entries : List (String × Json)} {k : String} {v w : Json} {path : List JsonStep}
      (hmem : (k, v) ∈ entries) (tail : Json.Reaches v path w) :
      Json.Reaches (.obj entries) (.key k :: path) w
  | item {items : List Json} {i : ℕ} {v w : Json} {path : List JsonStep}
      (hget : items[i]? = some v) (tail : Json.Reaches v path w) :
      Json.Reaches (.arr items) (.index i :: path) w

variable (A : AppEnv)

/-- No key along the path looks like that of a secret. -/
def Permitted (path : List JsonStep) : Prop := ∀ k, .key k ∈ path → isForbiddenKey A k = false

/-- No key does down to the first array. -/
def Surfaces : List JsonStep → Prop
  | [] => True
  | .key k :: path => isForbiddenKey A k = false ∧ Surfaces path
  | .index _ :: _ => True

/-- What stands at the end of a path after the redaction: in an array, what stood there. -/
def redactAt : List JsonStep → Json → Json
  | [], v => redactValue A v
  | .key _ :: path, v => redactAt path v
  | .index _ :: _, v => v

/-- **Nothing secret is left**: no object at any depth, in arrays as well, has such a key. -/
def NoSecrets (metadata : List (String × Json)) : Prop :=
  ∀ path v, (Json.obj metadata).Reaches path v → Permitted A path

/-- **Nothing else is lost**: what has no such key around it is still there, and the same if it
has none inside. -/
def KeepsRest (metadata stored : List (String × Json)) : Prop :=
  ∀ path v, (Json.obj metadata).Reaches path v → Permitted A path →
    ∃ v', (Json.obj stored).Reaches path v' ∧
      ((∀ path' w, v.Reaches path' w → Permitted A path') → v' = v)

/-- What stands in an array that is reached has no such key around it. -/
def ArraysPlain (metadata : List (String × Json)) : Prop :=
  ∀ path v, (Json.obj metadata).Reaches path v → Surfaces A path → Permitted A path

variable {A} {path : List JsonStep} {v w : Json} {metadata entries : List (String × Json)} {k : String}

theorem Permitted.surfaces (h : Permitted A path) : Surfaces A path := by
  induction path with
  | nil => trivial
  | cons step path ih =>
    cases step with
    | key k =>
      have hrest : Permitted A path := fun k' hk' => h k' (List.mem_cons_of_mem _ hk')
      exact ⟨h k (List.mem_cons_self ..), ih hrest⟩
    | index i => trivial

/-! ## What the redaction leaves -/

theorem mem_redactMetadata :
    (k, w) ∈ redactMetadata A entries ↔
      ∃ v, (k, v) ∈ entries ∧ isForbiddenKey A k = false ∧ w = redactValue A v := by
  induction entries with
  | nil =>
    unfold redactMetadata
    simp
  | cons entry rest ih =>
    obtain ⟨k', v'⟩ := entry
    unfold redactMetadata
    constructor
    · intro h
      split at h
      · obtain ⟨v, hmem, hkey, hw⟩ := ih.mp h
        exact ⟨v, List.mem_cons_of_mem _ hmem, hkey, hw⟩
      · rename_i hkey'
        rcases List.mem_cons.mp h with h | h
        · obtain ⟨rfl, rfl⟩ := Prod.mk.inj h
          exact ⟨v', List.mem_cons_self .., by simpa using hkey', rfl⟩
        · obtain ⟨v, hmem, hkey, hw⟩ := ih.mp h
          exact ⟨v, List.mem_cons_of_mem _ hmem, hkey, hw⟩
    · rintro ⟨v, hmem, hkey, rfl⟩
      rcases List.mem_cons.mp hmem with h | h
      · obtain ⟨rfl, rfl⟩ := Prod.mk.inj h
        rw [if_neg (by simp [hkey])]
        exact List.mem_cons_self ..
      · have hrest := ih.mpr ⟨v, h, hkey, rfl⟩
        split
        · exact hrest
        · exact List.mem_cons_of_mem _ hrest

/-- **After the redaction** the same places are reached, short of those behind a key that was
dropped. -/
theorem reaches_redactValue :
    (redactValue A v).Reaches path w ↔
      ∃ w₀, v.Reaches path w₀ ∧ Surfaces A path ∧ w = redactAt A path w₀ := by
  induction path generalizing v with
  | nil =>
    constructor
    · intro h
      have hw : w = redactValue A v := by
        generalize redactValue A v = r at h
        cases h
        rfl
      exact ⟨v, .here v, trivial, hw⟩
    · rintro ⟨w₀, h, -, rfl⟩
      cases h
      exact .here _
  | cons step path ih =>
    cases v with
    | obj entries =>
      have hvalue : redactValue A (.obj entries) = .obj (redactMetadata A entries) := by
        unfold redactValue
        rfl
      rw [hvalue]
      constructor
      · intro h
        cases h with
        | entry hmem tail =>
          obtain ⟨v, hv, hkey, rfl⟩ := mem_redactMetadata.mp hmem
          obtain ⟨w₀, hreach, hsurfaces, hw⟩ := ih.mp tail
          exact ⟨w₀, .entry hv hreach, ⟨hkey, hsurfaces⟩, hw⟩
      · rintro ⟨w₀, h, hsurfaces, rfl⟩
        cases h with
        | entry hmem tail =>
          exact .entry (mem_redactMetadata.mpr ⟨_, hmem, hsurfaces.1, rfl⟩)
            (ih.mpr ⟨w₀, tail, hsurfaces.2, rfl⟩)
    | arr items =>
      -- the array is copied
      have hvalue : redactValue A (.arr items) = .arr items := by
        unfold redactValue
        rfl
      rw [hvalue]
      constructor
      · intro h
        cases h with
        | item hget tail => exact ⟨w, .item hget tail, trivial, rfl⟩
      · rintro ⟨w₀, h, -, rfl⟩
        cases h with
        | item hget tail => exact .item hget tail
    | _ =>
      unfold redactValue
      exact ⟨nofun, fun ⟨_, h, _⟩ => nomatch h⟩

mutual

theorem redactValue_eq : ∀ v : Json, (∀ path w, v.Reaches path w → Permitted A path) →
    redactValue A v = v
  | .obj entries, h => by
    have hentries : redactMetadata A entries = entries := by
      refine redactMetadata_eq entries fun k v hmem => ⟨?_, fun path w hreach => ?_⟩
      · exact h [.key k] v (.entry hmem (.here v)) k (List.mem_singleton_self _)
      · exact fun k' hk' => h (.key k :: path) w (.entry hmem hreach) k' (List.mem_cons_of_mem _ hk')
    unfold redactValue
    rw [hentries]
  | .null, _ | .bool _, _ | .int _, _ | .float _, _ | .str _, _ | .arr _, _ => by
    unfold redactValue
    rfl

theorem redactMetadata_eq : ∀ entries : List (String × Json),
    (∀ k v, (k, v) ∈ entries → isForbiddenKey A k = false ∧
      ∀ path w, v.Reaches path w → Permitted A path) → redactMetadata A entries = entries
  | [], _ => by
    unfold redactMetadata
    rfl
  | (k, v) :: rest, h => by
    obtain ⟨hkey, hvalue⟩ := h k v (List.mem_cons_self ..)
    unfold redactMetadata
    rw [if_neg (by simp [hkey]), redactValue_eq v hvalue,
      redactMetadata_eq rest fun k' v' hmem => h k' v' (List.mem_cons_of_mem _ hmem)]

end

theorem redactAt_eq (h : ∀ path' w, v.Reaches path' w → Permitted A path') :
    redactAt A path v = v := by
  induction path with
  | nil => exact redactValue_eq v h
  | cons step path ih =>
    cases step with
    | key k => exact ih
    | index i => rfl

/-- **Nothing but secrets is lost**, whatever the metadata. -/
theorem redactMetadata_keepsRest (metadata : List (String × Json)) :
    KeepsRest A metadata (redactMetadata A metadata) := by
  intro path v hreach hpermitted
  have hstored : (redactValue A (.obj metadata)).Reaches path (redactAt A path v) :=
    reaches_redactValue.mpr ⟨v, hreach, hpermitted.surfaces, rfl⟩
  unfold redactValue at hstored
  exact ⟨_, hstored, redactAt_eq⟩

/-- **What is left is clean** where the arrays are. -/
theorem redactMetadata_noSecrets_iff (metadata : List (String × Json)) :
    NoSecrets A (redactMetadata A metadata) ↔ ArraysPlain A metadata := by
  have hreaches : ∀ {path : List JsonStep} {w : Json},
      (Json.obj (redactMetadata A metadata)).Reaches path w ↔
        ∃ w₀, (Json.obj metadata).Reaches path w₀ ∧ Surfaces A path ∧ w = redactAt A path w₀ := by
    intro path w
    rw [← reaches_redactValue]
    unfold redactValue
    rfl
  constructor
  · intro h path v hreach hsurfaces
    exact h path _ (hreaches.mpr ⟨v, hreach, hsurfaces, rfl⟩)
  · intro h path w hstored
    obtain ⟨v, hreach, hsurfaces, -⟩ := hreaches.mp hstored
    exact h path v hreach hsurfaces

/-! ## The table -/

/-- The stored value is redacted completely. -/
def RedactedTo (A : AppEnv) (metadata stored : List (String × Json)) : Prop :=
  NoSecrets A stored ∧ KeepsRest A metadata stored

theorem redactedTo_iff (metadata : List (String × Json)) :
    RedactedTo A metadata (redactMetadata A metadata) ↔ ArraysPlain A metadata := by
  rw [← redactMetadata_noSecrets_iff]
  exact ⟨And.left, fun h => ⟨h, redactMetadata_keepsRest metadata⟩⟩

theorem parseEvent_metadata {D : EventDecoder} {data : String} {uuid : String} {now : ℤ}
    {read event : InteractionEvent} (hread : D.decode data uuid now = .ok read)
    (h : parseEvent A D (some data) uuid now = .ok event) :
    event.metadata = redactMetadata A read.metadata := by
  unfold parseEvent at h
  obtain ⟨read', hread', h⟩ := ok_of_bind h
  obtain rfl := Except.ok.inj (hread.symm.trans hread')
  obtain ⟨timestamp, -, h⟩ := ok_of_bind h
  cases h
  rfl

/-- **The redaction is complete** where no key of a secret stands in an array that is reached,
and only there: of an event that was built here, and of one that was read from the stream. -/
theorem redaction_complete_iff (A : AppEnv) (id : ℕ) :
    (∀ (args : InteractionArgs) (uuid : String) (now : ℤ),
      RedactedTo A (args.metadata.getD [])
          (Interaction.ofEvent id (buildInteractionEvent A args uuid now)).eventMetadata ↔
        ArraysPlain A (args.metadata.getD [])) ∧
    ∀ (D : EventDecoder) (data uuid : String) (now : ℤ) (read event : InteractionEvent),
      D.decode data uuid now = .ok read → parseEvent A D (some data) uuid now = .ok event →
        (RedactedTo A read.metadata (Interaction.ofEvent id event).eventMetadata ↔
          ArraysPlain A read.metadata) := by
  refine ⟨fun args uuid now => redactedTo_iff _, ?_⟩
  intro D data uuid now read event hread h
  have hstored : (Interaction.ofEvent id event).eventMetadata = redactMetadata A read.metadata :=
    parseEvent_metadata hread h
  rw [hstored]
  exact redactedTo_iff _

/-! ## A secret in an array -/

/-- `{"items": [{"password": "hunter2"}]}` -/
def secretInArray : List (String × Json) :=
  [("items", .arr [.obj [("password", .str "hunter2")]])]

/-- The arguments of an event that carries it. -/
def argsWithSecret : InteractionArgs where
  organizationId := 1
  service := "rag"
  interactionType := "query"
  metadata := some secretInArray

theorem secretInArray_leaks : ¬ NoSecrets .symbolic secretInArray := by
  intro hclean
  have hreach : (Json.obj secretInArray).Reaches [.key "items", .index 0, .key "password"]
      (.str "hunter2") :=
    .entry (List.mem_singleton_self _) (.item rfl (.entry (List.mem_singleton_self _) (.here _)))
  have hkey := hclean _ _ hreach "password" (by decide)
  revert hkey
  decide +kernel

theorem redactMetadata_secretInArray :
    redactMetadata .symbolic secretInArray = secretInArray := by
  have hkey : isForbiddenKey .symbolic "items" = false := by decide +kernel
  simp [secretInArray, redactMetadata, redactValue, hkey]

/-- An event with such metadata is not redacted completely, whichever way it takes. -/
theorem redaction_partial :
    ¬ ArraysPlain .symbolic secretInArray ∧
      ¬ RedactedTo .symbolic secretInArray
        (Interaction.ofEvent 1 (buildInteractionEvent .symbolic argsWithSecret "i-1" 0)).eventMetadata ∧
      ∀ event, parseEvent .symbolic
          ⟨fun _ uuid now => .ok { buildInteractionEvent .symbolic argsWithSecret uuid now with
            metadata := secretInArray }⟩ (some "") "i-2" 0 = .ok event →
        ¬ RedactedTo .symbolic secretInArray (Interaction.ofEvent 2 event).eventMetadata := by
  have harrays : ¬ ArraysPlain .symbolic secretInArray := by
    rw [← redactMetadata_noSecrets_iff, redactMetadata_secretInArray]
    exact secretInArray_leaks
  refine ⟨harrays, fun h => harrays ?_, fun event hevent h => harrays ?_⟩
  · exact ((redaction_complete_iff .symbolic 1).1 argsWithSecret "i-1" 0).mp h
  · exact ((redaction_complete_iff .symbolic 2).2 _ "" "i-2" 0 _ event rfl hevent).mp h

/-- **It is stored**, with its key. -/
theorem redaction_misses_arrays :
    (Interaction.ofEvent 1 (buildInteractionEvent .symbolic argsWithSecret "i-1" 0)).eventMetadata =
        secretInArray ∧
      ¬ NoSecrets .symbolic (Interaction.ofEvent 1
        (buildInteractionEvent .symbolic argsWithSecret "i-1" 0)).eventMetadata := by
  have hstored : (Interaction.ofEvent 1
      (buildInteractionEvent .symbolic argsWithSecret "i-1" 0)).eventMetadata = secretInArray :=
    redactMetadata_secretInArray
  rw [hstored]
  exact ⟨rfl, secretInArray_leaks⟩

end OmniAuth
