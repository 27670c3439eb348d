import Mathlib
import OmniAuth.Audit.Json
import OmniAuth.Model.Sql

/-!
# The signature of an audit record

Ten fields of a row are written as canonical JSON and signed with HMAC-SHA-256. Nothing of
a field is lost on the way to the signed bytes but the order of its keys: a row verifies
only as long as its signed fields are the ones that were signed. The HMAC is a parameter.
-/

namespace OmniAuth

open Codec Json

/-! ## Values of fields -/

/-- `datetime.date` -/
structure Date where
  year : ℕ
  month : ℕ
  day : ℕ
  inRange : year < 10000 ∧ month < 13 ∧ day < 32

/-- A naive `datetime.datetime`. -/
structure DateTime where
  date : Date
  hour : ℕ
  minute : ℕ
  second : ℕ
  microsecond : ℕ
  inRange : hour < 24 ∧ minute < 60 ∧ second < 60 ∧ microsecond < 1000000

/-- What a field of a record may hold. A float is its `repr`, none for one that is not
finite; an aware datetime is its reading in UTC; `oddDict` has a key that is no string;
`other` is any type the service does not know. -/
inductive Value
  | none
  | bool (b : Bool)
  | int (n : ℤ)
  | float (text : Option String)
  | str (s : String)
  | datetime (t : DateTime)
  | awareDatetime (utc : DateTime) (offsetMinutes : ℤ)
  | date (d : Date)
  | dict (entries : List (String × Value))
  | oddDict
  | list (items : List Value)
  | tuple (items : List Value)
  | other (typeName : String)

def decimal (width n : ℕ) : List Char := digits hexDigit 10 width n

/-- `date.isoformat()` -/
def Date.isoformat (d : Date) : List Char :=
  decimal 4 d.year ++ '-' :: (decimal 2 d.month ++ '-' :: decimal 2 d.day)

/-- `datetime.isoformat(timespec="microseconds")` -/
def DateTime.isoformat (t : DateTime) : List Char :=
  t.date.isoformat ++ 'T' :: (decimal 2 t.hour ++ ':' :: (decimal 2 t.minute ++
    ':' :: (decimal 2 t.second ++ '.' :: decimal 6 t.microsecond)))

/-- The results of the entries, the first failure first. -/
def sequence : List (String × Except Err Json) → Except Err (List (String × Json))
  | [] => .ok []
  | (k, v) :: rest => do
      let v ← v
      let rest ← sequence rest
      return (k, v) :: rest

mutual

/-- `_normalize` -/
def normalize : Value → Except Err Json
  | .none => .ok .null
  | .str s => .ok (.str s)
  | .bool b => .ok (.bool b)
  | .int n => .ok (.int n)
  | .float (some text) => .ok (.float text)
  | .float Option.none => .error (.value "Non-finite values are not valid audit JSON")
  | .datetime t => .ok (.str (String.ofList t.isoformat))
  | .awareDatetime utc _ => .ok (.str (String.ofList utc.isoformat))
  | .date d => .ok (.str (String.ofList d.isoformat))
  | .oddDict => .error (.value "Audit JSON object keys must be strings")
  | .dict entries => do
      let entries ← sequence ((normalizeEntries entries).insertionSort fun e e' => e.1 ≤ e'.1)
      return .obj entries
  | .list items => do
      let items ← normalizeItems items
      return .arr items
  | .tuple items => do
      let items ← normalizeItems items
      return .arr items
  | .other typeName =>
      .error (.value s!"Unsupported audit integrity value type: {typeName}")

def normalizeItems : List Value → Except Err (List Json)
  | [] => .ok []
  | item :: rest => do
      let item ← normalize item
      let rest ← normalizeItems rest
      return item :: rest

/-- Every entry with what becomes of its value. -/
def normalizeEntries : List (String × Value) → List (String × Except Err Json)
  | [] => []
  | (k, v) :: rest => (k, normalize v) :: normalizeEntries rest

end

mutual

/-- A JSON value without floats: the values of a column of JSON, text or numbers. -/
def Value.Plain : Value → Prop
  | .none | .bool _ | .int _ | .str _ => True
  | .dict entries => (entries.map (·.1)).Nodup ∧ EntriesPlain entries
  | .list items => ItemsPlain items
  | .float _ | .datetime _ | .awareDatetime _ _ | .date _ | .oddDict | .tuple _ | .other _ => False

def ItemsPlain : List Value → Prop
  | [] => True
  | item :: rest => item.Plain ∧ ItemsPlain rest

def EntriesPlain : List (String × Value) → Prop
  | [] => True
  | (_, v) :: rest => v.Plain ∧ EntriesPlain rest

end

mutual

/-- Equal, up to the order of the keys of objects. -/
def Value.Same : Value → Value → Prop
  | .list items, .list items' => ItemsSame items items'
  | .dict entries, .dict entries' =>
      (entries.map (·.1)).Perm (entries'.map (·.1)) ∧ EntriesSame entries entries'
  | v, v' => v = v'

def ItemsSame : List Value → List Value → Prop
  | [], [] => True
  | v :: rest, v' :: rest' => v.Same v' ∧ ItemsSame rest rest'
  | _, _ => False

/-- Under each of these keys the other has the same value. -/
def EntriesSame : List (String × Value) → List (String × Value) → Prop
  | [], _ => True
  | (k, v) :: rest, entries' => (∃ v', (k, v') ∈ entries' ∧ v.Same v') ∧ EntriesSame rest entries'

end

/-! ## Records -/

/-- The columns of a row of `audit_events` that are signed, and the three of its
signature. -/
structure AuditRecord where
  eventType : Value
  actorUserId : Value
  targetUserId : Value
  organizationId : Value
  resourceType : Value
  resourceId : Value
  beforeState : Value
  afterState : Value
  eventMetadata : Value
  createdAt : Value
  integrityVersion : Option ℤ := none
  integrityAlgorithm : Option String := none
  integrityDigest : Option String := none

/-- `_SIGNED_FIELDS`, with their values. -/
def AuditRecord.signedFields (r : AuditRecord) : List (String × Value) :=
  [("event_type", r.eventType),
    ("actor_user_id", r.actorUserId),
    ("target_user_id", r.targetUserId),
    ("organization_id", r.organizationId),
    ("resource_type", r.resourceType),
    ("resource_id", r.resourceId),
    ("before_state", r.beforeState),
    ("after_state", r.afterState),
    ("event_metadata", r.eventMetadata),
    ("created_at", r.createdAt)]

/-- `json.dumps(…).encode("utf-8")` -/
def dumps (j : Json) : Except Err ByteArray :=
  if j.hasWideInt then
    .error (.value "Exceeds the limit (4300 digits) for integer string conversion")
  else
    .ok (String.ofList (render (sortKeys j))).toUTF8

def canonicalRecord (r : AuditRecord) : Except Err ByteArray := do
  let body ← sequence (normalizeEntries r.signedFields)
  dumps (.obj [("canonicalization", .str "omnibioai-auth-audit-v1"), ("record", .obj body)])

def integrityVersion : ℤ := 1

def integrityAlgorithm : String := "HMAC-SHA-256"

/-- `int(c, 16)` -/
def hexValue (c : Char) : Option ℕ :=
  if '0' ≤ c ∧ c ≤ '9' then some (c.toNat - '0'.toNat)
  else if 'a' ≤ c ∧ c ≤ 'f' then some (c.toNat - 'a'.toNat + 10)
  else if 'A' ≤ c ∧ c ≤ 'F' then some (c.toNat - 'A'.toNat + 10)
  else none

/-- `bytes.fromhex` -/
def fromHex : List Char → Option (List ℕ)
  | [] => some []
  | [_] => none
  | c :: d :: rest => do
      let high ← hexValue c
      let low ← hexValue d
      let rest ← fromHex rest
      return (high * 16 + low) :: rest

/-- `_key_bytes`; `settingsKey` is `AUTH_AUDIT_INTEGRITY_KEY`. -/
def keyBytes (settingsKey : String) (keyHex : Option String) : Except Err (List ℕ) :=
  let candidate := (keyHex.getD settingsKey).toList
  if candidate = [] ∨ ¬ candidate.all fun c => (hexValue c).isSome then
    .error (.runtime "Auth audit integrity key is missing or malformed")
  else
    match fromHex candidate with
    | none => .error (.runtime "Auth audit integrity key is malformed")
    | some key =>
        if key.length < 32 then
          .error (.runtime "Auth audit integrity key must contain at least 256 bits")
        else .ok key

inductive IntegrityResult
  | valid
  | invalid
  | legacyUnsigned
  | unsupportedVersion
  deriving DecidableEq

section

-- `hmac.new(key, message, hashlib.sha256).hexdigest()`
variable (hmac : List ℕ → ByteArray → String) (settingsKey : String)

def signRecord (r : AuditRecord) (keyHex : Option String) : Except Err String := do
  let key ← keyBytes settingsKey keyHex
  let message ← canonicalRecord r
  return hmac key message

def setIntegrity (r : AuditRecord) (keyHex : Option String) : Except Err AuditRecord := do
  let digest ← signRecord hmac settingsKey r keyHex
  return { r with
    integrityVersion := some integrityVersion
    integrityAlgorithm := some integrityAlgorithm
    integrityDigest := some digest }

/-- `re.fullmatch(r"[0-9a-f]{64}", digest)` -/
def isDigest (digest : String) : Bool :=
  digest.toList.length = 64 ∧ digest.toList.all fun c => ('0' ≤ c ∧ c ≤ '9') ∨ ('a' ≤ c ∧ c ≤ 'f')

def verifyRecord (r : AuditRecord) (keyHex : Option String) : Except Err IntegrityResult :=
  if r.integrityVersion = none ∧ r.integrityAlgorithm = none ∧ r.integrityDigest = none then
    .ok .legacyUnsigned
  else if r.integrityVersion ≠ some integrityVersion ∨
      r.integrityAlgorithm ≠ some integrityAlgorithm then
    .ok .unsupportedVersion
  else
    match r.integrityDigest with
    | none => .ok .invalid
    | some digest =>
        if isDigest digest then do
          let expected ← signRecord hmac settingsKey r keyHex
          return if expected = digest then .valid else .invalid
        else .ok .invalid

end

/-! ## What normalisation keeps -/

theorem sequence_eq {l : List (String × Except Err Json)} {es : List (String × Json)}
    (h : sequence l = .ok es) : l = es.map fun e => (e.1, .ok e.2) := by
  induction l generalizing es with
  | nil =>
    cases h
    rfl
  | cons e rest ih =>
    obtain ⟨k, v⟩ := e
    unfold sequence at h
    cases v with
    | error x => cases h
    | ok j =>
      cases hrest : sequence rest with
      | error x =>
        rw [hrest] at h
        cases h
      | ok es' =>
        rw [hrest] at h
        cases h
        rw [ih hrest]
        rfl

theorem normalize_dict {entries : List (String × Value)} {j : Json}
    (h : normalize (.dict entries) = .ok j) :
    ∃ es, j = .obj es ∧
      (normalizeEntries entries).Perm (es.map fun e => (e.1, .ok e.2)) := by
  unfold normalize at h
  cases hes : sequence ((normalizeEntries entries).insertionSort fun e e' => e.1 ≤ e'.1) with
  | error x =>
    rw [hes] at h
    cases h
  | ok es =>
    rw [hes] at h
    cases h
    refine ⟨es, rfl, ?_⟩
    rw [← sequence_eq hes]
    exact (List.perm_insertionSort _ _).symm

theorem normalize_list {items : List Value} {j : Json} (h : normalize (.list items) = .ok j) :
    ∃ js, j = .arr js ∧ normalizeItems items = .ok js := by
  unfold normalize at h
  cases hjs : normalizeItems items with
  | error x =>
    rw [hjs] at h
    cases h
  | ok js =>
    rw [hjs] at h
    cases h
    exact ⟨js, rfl, rfl⟩

theorem normalizeItems_cons {item : Value} {rest : List Value} {js : List Json}
    (h : normalizeItems (item :: rest) = .ok js) :
    ∃ j js', js = j :: js' ∧ normalize item = .ok j ∧ normalizeItems rest = .ok js' := by
  unfold normalizeItems at h
  cases hj : normalize item with
  | error x =>
    rw [hj] at h
    cases h
  | ok j =>
    cases hjs : normalizeItems rest with
    | error x =>
      rw [hj, hjs] at h
      cases h
    | ok js' =>
      rw [hj, hjs] at h
      cases h
      exact ⟨j, js', rfl, rfl, rfl⟩

theorem mem_normalizeEntries {l : List (String × Value)} {k : String} {r : Except Err Json} :
    (k, r) ∈ normalizeEntries l ↔ ∃ v, (k, v) ∈ l ∧ normalize v = r := by
  induction l with
  | nil => simp [normalizeEntries]
  | cons e rest ih =>
    obtain ⟨k', v'⟩ := e
    simp only [normalizeEntries, List.mem_cons, Prod.mk.injEq, ih]
    constructor
    · rintro (⟨rfl, rfl⟩ | ⟨v, hv, hr⟩)
      · exact ⟨v', .inl ⟨rfl, rfl⟩, rfl⟩
      · exact ⟨v, .inr hv, hr⟩
    · rintro ⟨v, ⟨rfl, rfl⟩ | hv, hr⟩
      · exact .inl ⟨rfl, hr.symm⟩
      · exact .inr ⟨v, hv, hr⟩

theorem map_fst_normalizeEntries (l : List (String × Value)) :
    (normalizeEntries l).map (·.1) = l.map (·.1) := by
  induction l with
  | nil => rfl
  | cons e rest ih => simp [normalizeEntries, ih]

theorem entriesPlain_mem {l : List (String × Value)} (h : EntriesPlain l) {k : String} {v : Value}
    (hv : (k, v) ∈ l) : v.Plain := by
  induction l with
  | nil => simp at hv
  | cons e rest ih =>
    rcases List.mem_cons.mp hv with rfl | hv
    · exact h.1
    · exact ih h.2 hv

/-- The entries of two dictionaries whose sorted texts agree, matched under their keys. -/
theorem entries_match {l l' : List (String × Value)} {es es' : List (String × Json)}
    (hl : (normalizeEntries l).Perm (es.map fun e => (e.1, .ok e.2)))
    (hl' : (normalizeEntries l').Perm (es'.map fun e => (e.1, .ok e.2)))
    (heq : (sortEntries es).Perm (sortEntries es')) {k : String} {v : Value} (hv : (k, v) ∈ l) :
    ∃ j v' j', normalize v = .ok j ∧ (k, v') ∈ l' ∧ normalize v' = .ok j' ∧
      sortKeys j = sortKeys j' := by
  have hin : (k, normalize v) ∈ es.map fun e => (e.1, (.ok e.2 : Except Err Json)) :=
    hl.mem_iff.mp (mem_normalizeEntries.mpr ⟨v, hv, rfl⟩)
  obtain ⟨⟨k₁, j⟩, hj, hkj⟩ := List.mem_map.mp hin
  obtain ⟨rfl, hvj⟩ := Prod.mk.inj hkj
  have hsorted : (k₁, sortKeys j) ∈ sortEntries es' :=
    heq.mem_iff.mp (mem_sortEntries.mpr ⟨j, hj, rfl⟩)
  obtain ⟨j', hj', hsame⟩ := mem_sortEntries.mp hsorted
  have hout : (k₁, (.ok j' : Except Err Json)) ∈ normalizeEntries l' :=
    hl'.mem_iff.mpr (List.mem_map.mpr ⟨(k₁, j'), hj', rfl⟩)
  obtain ⟨v', hv', hnorm⟩ := mem_normalizeEntries.mp hout
  exact ⟨j, v', j', hvj.symm, hv', hnorm, hsame.symm⟩

theorem keys_match {l l' : List (String × Value)} {es es' : List (String × Json)}
    (hl : (normalizeEntries l).Perm (es.map fun e => (e.1, .ok e.2)))
    (hl' : (normalizeEntries l').Perm (es'.map fun e => (e.1, .ok e.2)))
    (heq : (sortEntries es).Perm (sortEntries es')) :
    (l.map (·.1)).Perm (l'.map (·.1)) := by
  have hkeys : ∀ {l : List (String × Value)} {es : List (String × Json)},
      (normalizeEntries l).Perm (es.map fun e => (e.1, .ok e.2)) →
      (l.map (·.1)).Perm ((sortEntries es).map (·.1)) := by
    intro l es h
    have hmap := h.map (·.1)
    rw [map_fst_normalizeEntries, List.map_map] at hmap
    rw [map_fst_sortEntries]
    exact hmap
  exact (hkeys hl).trans ((heq.map (·.1)).trans (hkeys hl').symm)

mutual

/-- **What normalisation and the sorting of keys leave of a value** is the value, up to the
order of its keys. -/
theorem normalize_same : (v v' : Value) → v.Plain → v'.Plain → (j j' : Json) →
    normalize v = .ok j → normalize v' = .ok j' → sortKeys j = sortKeys j' → v.Same v' := by
  intro v v' hv hv' j j' hj hj' heq
  match v with
  | .none | .bool _ | .int _ | .str _ =>
    cases hj
    cases v' with
    | none | bool | int | str =>
      cases hj'
      simp_all [sortKeys, Value.Same]
    | dict entries =>
      obtain ⟨es, rfl, _⟩ := normalize_dict hj'
      simp [sortKeys] at heq
    | list items =>
      obtain ⟨js, rfl, _⟩ := normalize_list hj'
      simp [sortKeys] at heq
    | _ => exact hv'.elim
  | .list items =>
    obtain ⟨js, rfl, hjs⟩ := normalize_list hj
    cases v' with
    | none | bool | int | str =>
      cases hj'
      simp [sortKeys] at heq
    | dict entries =>
      obtain ⟨es, rfl, _⟩ := normalize_dict hj'
      simp [sortKeys] at heq
    | list items' =>
      obtain ⟨js', rfl, hjs'⟩ := normalize_list hj'
      have hitems : sortItems js = sortItems js' := by simpa [sortKeys] using heq
      exact items_same items items' hv hv' js js' hjs hjs' hitems
    | _ => exact hv'.elim
  | .dict entries =>
    obtain ⟨es, rfl, hes⟩ := normalize_dict hj
    cases v' with
    | none | bool | int | str =>
      cases hj'
      simp [sortKeys] at heq
    | list items =>
      obtain ⟨js, rfl, _⟩ := normalize_list hj'
      simp [sortKeys] at heq
    | dict entries' =>
      obtain ⟨es', rfl, hes'⟩ := normalize_dict hj'
      have hperm := sortEntries_perm heq
      refine ⟨keys_match hes hes' hperm, ?_⟩
      exact entries_same entries hv.2 entries' hv'.2 fun k v => entries_match hes hes' hperm
    | _ => exact hv'.elim
  | .float _ | .datetime _ | .awareDatetime _ _ | .date _ | .oddDict | .tuple _ | .other _ =>
    exact hv.elim

theorem items_same : (l l' : List Value) → ItemsPlain l → ItemsPlain l' → (js js' : List Json) →
    normalizeItems l = .ok js → normalizeItems l' = .ok js' → sortItems js = sortItems js' →
    ItemsSame l l' := by
  intro l l' hl hl' js js' hjs hjs' heq
  match l with
  | [] =>
    cases hjs
    cases l' with
    | nil => trivial
    | cons v' rest' =>
      obtain ⟨j', js', rfl, _, _⟩ := normalizeItems_cons hjs'
      simp [sortItems] at heq
  | v :: rest =>
    obtain ⟨j, js, rfl, hj, hrest⟩ := normalizeItems_cons hjs
    cases l' with
    | nil =>
      cases hjs'
      simp [sortItems] at heq
    | cons v' rest' =>
      obtain ⟨j', js', rfl, hj', hrest'⟩ := normalizeItems_cons hjs'
      have hboth : sortKeys j = sortKeys j' ∧ sortItems js = sortItems js' := by
        simpa [sortItems] using heq
      exact ⟨normalize_same v v' hl.1 hl'.1 j j' hj hj' hboth.1,
        items_same rest rest' hl.2 hl'.2 js js' hrest hrest' hboth.2⟩

theorem entries_same : (l : List (String × Value)) → EntriesPlain l → (l' : List (String × Value)) →
    EntriesPlain l' → (∀ k v, (k, v) ∈ l → ∃ j v' j', normalize v = .ok j ∧ (k, v') ∈ l' ∧
      normalize v' = .ok j' ∧ sortKeys j = sortKeys j') → EntriesSame l l' := by
  intro l hl l' hl' hmatch
  match l with
  | [] => trivial
  | (k, v) :: rest =>
    obtain ⟨j, v', j', hj, hmem, hj', heq⟩ := hmatch k v (by simp)
    refine ⟨⟨v', hmem, ?_⟩, ?_⟩
    · exact normalize_same v v' hl.1 (entriesPlain_mem hl' hmem) j j' hj hj' heq
    · exact entries_same rest hl.2 l' hl' fun k v hv => hmatch k v (by simp [hv])

end

mutual

/-- A value without floats is printed without floats. -/
theorem normalize_exact : (v : Value) → v.Plain → (j : Json) → normalize v = .ok j → j.Exact := by
  intro v hv j hj
  match v with
  | .none | .bool _ | .int _ | .str _ =>
    cases hj
    trivial
  | .list items =>
    obtain ⟨js, rfl, hjs⟩ := normalize_list hj
    exact normalizeItems_exact items hv js hjs
  | .dict entries =>
    obtain ⟨es, rfl, hes⟩ := normalize_dict hj
    refine entriesExact_iff.mpr fun k j hmem => ?_
    have hin : (k, (.ok j : Except Err Json)) ∈ normalizeEntries entries :=
      hes.mem_iff.mpr (List.mem_map.mpr ⟨(k, j), hmem, rfl⟩)
    exact normalizeEntries_exact entries hv.2 k j hin
  | .float _ | .datetime _ | .awareDatetime _ _ | .date _ | .oddDict | .tuple _ | .other _ =>
    exact hv.elim

theorem normalizeItems_exact : (l : List Value) → ItemsPlain l → (js : List Json) →
    normalizeItems l = .ok js → ItemsExact js := by
  intro l hl js hjs
  match l with
  | [] =>
    cases hjs
    trivial
  | v :: rest =>
    obtain ⟨j, js, rfl, hj, hrest⟩ := normalizeItems_cons hjs
    exact ⟨normalize_exact v hl.1 j hj, normalizeItems_exact rest hl.2 js hrest⟩

theorem normalizeEntries_exact : (l : List (String × Value)) → EntriesPlain l → (k : String) →
    (j : Json) → (k, .ok j) ∈ normalizeEntries l → j.Exact := by
  intro l hl k j hmem
  match l with
  | [] => exact absurd hmem (by simp [normalizeEntries])
  | (k', v) :: rest =>
    rcases List.mem_cons.mp hmem with heq | hmem
    · exact normalize_exact v hl.1 j (Prod.mk.inj heq).2.symm
    · exact normalizeEntries_exact rest hl.2 k j hmem

end

/-! ## Timestamps -/

theorem hexDigit_injective (m n : ℕ) (hm : m < 10) (hn : n < 10) (h : hexDigit m = hexDigit n) :
    m = n := by
  interval_cases m <;> interval_cases n <;> first | rfl | exact absurd h (by decide)

/-- Two decimal fields of one width, whatever follows. -/
theorem decimal_splits {width m n : ℕ} (hm : m < 10 ^ width) (hn : n < 10 ^ width)
    {r r' : List Char} (h : decimal width m ++ r = decimal width n ++ r') : m = n ∧ r = r' :=
  digits_splits hexDigit_injective width m n r r' hm hn trivial trivial h

theorem Date.isoformat_splits {d d' : Date} {r r' : List Char}
    (h : d.isoformat ++ r = d'.isoformat ++ r') : d = d' ∧ r = r' := by
  obtain ⟨year, month, day, hyear, hmonth, hday⟩ := d
  obtain ⟨year', month', day', hyear', hmonth', hday'⟩ := d'
  simp only [Date.isoformat, List.append_assoc, List.cons_append] at h
  obtain ⟨hy, h⟩ := decimal_splits (by omega) (by omega) h
  obtain ⟨hm, h⟩ := decimal_splits (by omega) (by omega) (List.cons.inj h).2
  obtain ⟨hd, hr⟩ := decimal_splits (by omega) (by omega) (List.cons.inj h).2
  subst hy hm hd
  exact ⟨rfl, hr⟩

/-- **No two datetimes share a text.** -/
theorem DateTime.isoformat_injective {t t' : DateTime} (h : t.isoformat = t'.isoformat) :
    t = t' := by
  obtain ⟨date, hour, minute, second, microsecond, hhour, hminute, hsecond, hmicro⟩ := t
  obtain ⟨date', hour', minute', second', microsecond', hhour', hminute', hsecond', hmicro'⟩ := t'
  simp only [DateTime.isoformat] at h
  obtain ⟨hdate, h⟩ := Date.isoformat_splits h
  obtain ⟨hh, h⟩ := decimal_splits (by omega) (by omega) (List.cons.inj h).2
  obtain ⟨hm, h⟩ := decimal_splits (by omega) (by omega) (List.cons.inj h).2
  obtain ⟨hs, h⟩ := decimal_splits (by omega) (by omega) (List.cons.inj h).2
  have hmicros : decimal 6 microsecond ++ [] = decimal 6 microsecond' ++ [] := by
    simpa using (List.cons.inj h).2
  obtain ⟨hu, -⟩ := decimal_splits (by omega) (by omega) hmicros
  subst hdate hh hm hs hu
  rfl

/-! ## Records -/

/-- The fields are JSON values without floats, `created_at` a naive datetime. -/
structure AuditRecord.Plain (r : AuditRecord) : Prop where
  createdAt : ∃ t, r.createdAt = .datetime t
  others : ∀ name v, (name, v) ∈ r.signedFields → name ≠ "created_at" → v.Plain

/-- **The ten signed fields are the same**, up to the order of the keys of objects. -/
def AuditRecord.SameSigned (r r' : AuditRecord) : Prop :=
  ∀ name v v', (name, v) ∈ r.signedFields → (name, v') ∈ r'.signedFields → v.Same v'

/-- The names of the signed fields are ten different ones. -/
theorem signedFields_unique (r : AuditRecord) {name : String} {v v' : Value}
    (hv : (name, v) ∈ r.signedFields) (hv' : (name, v') ∈ r.signedFields) : v = v' := by
  have hnodup : (r.signedFields.map (·.1)).Nodup := by
    simp only [AuditRecord.signedFields, List.map_cons, List.map_nil]
    decide
  have hpair := List.inj_on_of_nodup_map hnodup hv hv' rfl
  exact (Prod.mk.inj hpair).2

theorem canonicalRecord_eq {r : AuditRecord} {bytes : ByteArray}
    (h : canonicalRecord r = .ok bytes) :
    ∃ body, normalizeEntries r.signedFields = body.map (fun e => (e.1, .ok e.2)) ∧
      bytes = (String.ofList (render (sortKeys (.obj
        [("canonicalization", .str "omnibioai-auth-audit-v1"),
          ("record", .obj body)])))).toUTF8 := by
  unfold canonicalRecord at h
  cases hbody : sequence (normalizeEntries r.signedFields) with
  | error x =>
    rw [hbody] at h
    cases h
  | ok body =>
    rw [hbody] at h
    refine ⟨body, sequence_eq hbody, ?_⟩
    change dumps _ = _ at h
    unfold dumps at h
    split at h
    · cases h
    · exact (Except.ok.inj h).symm

/-- A signed field is printed without floats. -/
theorem AuditRecord.Plain.exact {r : AuditRecord} (hr : r.Plain) {body : List (String × Json)}
    (hbody : normalizeEntries r.signedFields = body.map (fun e => (e.1, .ok e.2))) :
    EntriesExact body := by
  refine entriesExact_iff.mpr fun k j hmem => ?_
  have hin : (k, (.ok j : Except Err Json)) ∈ normalizeEntries r.signedFields := by
    rw [hbody]
    exact List.mem_map.mpr ⟨(k, j), hmem, rfl⟩
  obtain ⟨v, hv, hj⟩ := mem_normalizeEntries.mp hin
  by_cases hname : k = "created_at"
  · obtain ⟨t, ht⟩ := hr.createdAt
    have hcreated : (k, Value.datetime t) ∈ r.signedFields := by
      simp [AuditRecord.signedFields, hname, ht]
    rw [signedFields_unique r hv hcreated] at hj
    cases hj
    trivial
  · exact normalize_exact v (hr.others k v hv hname) j hj

/-- **The signed bytes determine the signed fields.** -/
theorem canonicalRecord_same {r r' : AuditRecord} (hr : r.Plain) (hr' : r'.Plain)
    {bytes : ByteArray} (h : canonicalRecord r = .ok bytes) (h' : canonicalRecord r' = .ok bytes) :
    r.SameSigned r' := by
  obtain ⟨body, hbody, rfl⟩ := canonicalRecord_eq h
  obtain ⟨body', hbody', hbytes⟩ := canonicalRecord_eq h'
  -- the bytes, the text, the sorted JSON
  have htext := String.ofList_injective (String.toByteArray_inj.mp hbytes)
  have hexact : ∀ {r : AuditRecord} {body}, r.Plain →
      normalizeEntries r.signedFields = body.map (fun e => (e.1, .ok e.2)) →
      (sortKeys (.obj [("canonicalization", .str "omnibioai-auth-audit-v1"),
        ("record", .obj body)])).Exact := by
    intro r body hr hbody
    exact sortKeys_exact _ ⟨trivial, hr.exact hbody, trivial⟩
  have hjson := render_injective (hexact hr hbody) (hexact hr' hbody') htext
  have hperm : (sortEntries body).Perm (sortEntries body') := by
    have henvelope := sortEntries_perm hjson
    have hin : ("record", sortKeys (.obj body)) ∈ sortEntries
        [("canonicalization", .str "omnibioai-auth-audit-v1"), ("record", .obj body')] :=
      henvelope.mem_iff.mp (by simp [sortEntries])
    refine sortEntries_perm ?_
    simpa [sortEntries] using hin
  intro name v v' hv hv'
  obtain ⟨j, w, j', hj, hw, hj', hsame⟩ :=
    entries_match (.of_eq hbody) (.of_eq hbody') hperm hv
  rw [signedFields_unique r' hw hv'] at hj'
  by_cases hname : name = "created_at"
  · -- two datetimes and their texts
    obtain ⟨t, ht⟩ := hr.createdAt
    obtain ⟨t', ht'⟩ := hr'.createdAt
    have hvt : v = .datetime t :=
      signedFields_unique r hv (by simp [AuditRecord.signedFields, hname, ht])
    have hvt' : v' = .datetime t' :=
      signedFields_unique r' hv' (by simp [AuditRecord.signedFields, hname, ht'])
    subst hvt hvt'
    cases hj
    cases hj'
    have hiso : String.ofList t.isoformat = String.ofList t'.isoformat := by
      simpa [sortKeys] using hsame
    have htt' : t = t' := DateTime.isoformat_injective (String.ofList_injective hiso)
    simp [Value.Same, htt']
  · exact normalize_same v v' (hr.others name v hv hname) (hr'.others name v' hv' hname) j j' hj hj'
      hsame

/-! ## Rows -/

section

variable (hmac : List ℕ → ByteArray → String) (settingsKey : String)

theorem signRecord_eq {r : AuditRecord} {keyHex : Option String} {digest : String}
    (h : signRecord hmac settingsKey r keyHex = .ok digest) :
    ∃ key message, keyBytes settingsKey keyHex = .ok key ∧ canonicalRecord r = .ok message ∧
      digest = hmac key message := by
  unfold signRecord at h
  cases hkey : keyBytes settingsKey keyHex with
  | error x =>
    rw [hkey] at h
    cases h
  | ok key =>
    cases hmessage : canonicalRecord r with
    | error x =>
      rw [hkey, hmessage] at h
      cases h
    | ok message =>
      rw [hkey, hmessage] at h
      exact ⟨key, message, rfl, rfl, (Except.ok.inj h).symm⟩

/-- A row that verifies has the digest of its own fields. -/
theorem verifyRecord_valid {r : AuditRecord} {keyHex : Option String}
    (h : verifyRecord hmac settingsKey r keyHex = .ok .valid) :
    ∃ digest, r.integrityDigest = some digest ∧
      signRecord hmac settingsKey r keyHex = .ok digest := by
  unfold verifyRecord at h
  split at h
  · cases h
  split at h
  · cases h
  split at h
  · cases h
  rename_i digest hdigest
  split at h
  swap
  · cases h
  cases hsign : signRecord hmac settingsKey r keyHex with
  | error x =>
    rw [hsign] at h
    cases h
  | ok expected =>
    rw [hsign] at h
    have hequal : expected = digest := by
      by_contra hne
      have hresult : (if expected = digest then IntegrityResult.valid else .invalid) = .valid :=
        Except.ok.inj h
      rw [if_neg hne] at hresult
      cases hresult
    exact ⟨digest, hdigest, by rw [hequal]⟩

/-- A row as it was signed, and the same row later: the columns of the signature are the
ones that were written. -/
def AuditRecord.SignedAs (t r : AuditRecord) (keyHex : Option String) : Prop :=
  ∃ s, setIntegrity hmac settingsKey r keyHex = .ok s ∧
    t.integrityVersion = s.integrityVersion ∧ t.integrityAlgorithm = s.integrityAlgorithm ∧
    t.integrityDigest = s.integrityDigest

/-- The HMAC tells the texts of these two records apart, where they differ. -/
def Distinguishes (r t : AuditRecord) : Prop :=
  ∀ key message message', canonicalRecord r = .ok message → canonicalRecord t = .ok message' →
    hmac key message = hmac key message' → message = message'

/-- **The canonical form is injective**, so no altered row verifies. -/
theorem canonicalRecord_injective :
    (∀ r r' : AuditRecord, r.Plain → r'.Plain → ∀ bytes, canonicalRecord r = .ok bytes →
      canonicalRecord r' = .ok bytes → r.SameSigned r') ∧
    ∀ (r t : AuditRecord) (keyHex : Option String), r.Plain → t.Plain → Distinguishes hmac r t →
      t.SignedAs hmac settingsKey r keyHex → ¬ r.SameSigned t →
      verifyRecord hmac settingsKey t keyHex ≠ .ok .valid := by
  refine ⟨fun r r' hr hr' bytes h h' => canonicalRecord_same hr hr' h h', ?_⟩
  rintro r t keyHex hr ht hdistinct ⟨s, hs, -, -, hdigest⟩ haltered hvalid
  unfold setIntegrity at hs
  cases hsign : signRecord hmac settingsKey r keyHex with
  | error x =>
    rw [hsign] at hs
    cases hs
  | ok digest =>
    rw [hsign] at hs
    cases hs
    obtain ⟨digest', hdigest', hsign'⟩ := verifyRecord_valid hmac settingsKey hvalid
    have hequal : digest' = digest := Option.some.inj (hdigest'.symm.trans hdigest)
    obtain ⟨key, message, hkey, hmessage, hmac₁⟩ := signRecord_eq hmac settingsKey hsign
    obtain ⟨key', message', hkey', hmessage', hmac₂⟩ := signRecord_eq hmac settingsKey hsign'
    have hkeys : key' = key := Except.ok.inj (hkey'.symm.trans hkey)
    have hmessages : message = message' :=
      hdistinct key message message' hmessage hmessage' (by rw [← hmac₁, ← hequal, hmac₂, hkeys])
    exact haltered (canonicalRecord_same hr ht (hmessages ▸ hmessage) hmessage')

end

/-- A login, and the same row with another target. -/
def loginRecord (target : ℤ) (digest : Option String) : AuditRecord where
  eventType := .str "login_success"
  actorUserId := .int 7
  targetUserId := .int target
  organizationId := .none
  resourceType := .str "user"
  resourceId := .str "7"
  beforeState := .none
  afterState := .none
  eventMetadata := .dict [("ip", .str "10.0.0.1"), ("amr", .list [.str "pwd"])]
  createdAt := .datetime ⟨⟨2026, 1, 2, by decide⟩, 3, 4, 5, 6, by decide⟩
  integrityVersion := digest.map fun _ => integrityVersion
  integrityAlgorithm := digest.map fun _ => integrityAlgorithm
  integrityDigest := digest

theorem loginRecord_plain (target : ℤ) (digest : Option String) :
    (loginRecord target digest).Plain where
  createdAt := ⟨_, rfl⟩
  others := by
    intro name v hv hname
    simp only [loginRecord, AuditRecord.signedFields, List.mem_cons, Prod.mk.injEq,
      List.not_mem_nil, or_false] at hv
    rcases hv with ⟨-, rfl⟩ | ⟨-, rfl⟩ | ⟨-, rfl⟩ | ⟨-, rfl⟩ | ⟨-, rfl⟩ | ⟨-, rfl⟩ | ⟨-, rfl⟩ |
      ⟨-, rfl⟩ | ⟨-, rfl⟩ | ⟨rfl, -⟩
    case inr.inr.inr.inr.inr.inr.inr.inr.inr => exact absurd rfl hname
    all_goals simp [Value.Plain, EntriesPlain, ItemsPlain]

/-- The bytes that are signed for a login of user 7. -/
def loginMessage : ByteArray :=
  match canonicalRecord (loginRecord 7 none) with
  | .ok bytes => bytes
  | .error _ => ByteArray.empty

theorem canonicalRecord_login (digest : Option String) :
    canonicalRecord (loginRecord 7 digest) = .ok loginMessage := rfl

/-- One digest for that text and another for every other. -/
def loginHmac (_ : List ℕ) (message : ByteArray) : String :=
  String.ofList (List.replicate 64 (if message = loginMessage then 'a' else 'b'))

theorem loginHmac_distinguishes (r : AuditRecord) (digest : Option String) :
    Distinguishes loginHmac (loginRecord 7 digest) r := by
  intro key message message' hmessage hmessage' heq
  have hlogin : message = loginMessage :=
    Except.ok.inj (hmessage.symm.trans (canonicalRecord_login digest))
  by_contra hne
  have hother : ¬ message' = loginMessage := fun h => hne (hlogin.trans h.symm)
  unfold loginHmac at heq
  rw [if_pos hlogin, if_neg hother] at heq
  exact absurd (String.ofList_injective heq) (by decide)

theorem keyBytes_zeros :
    keyBytes (String.ofList (List.replicate 64 '0')) none = .ok (List.replicate 32 0) := by
  unfold keyBytes
  rw [Option.getD_none, String.toList_ofList]
  rfl

/-- **The row of a login, its target altered**, does not verify. -/
theorem altered_login_not_valid :
    verifyRecord loginHmac (String.ofList (List.replicate 64 '0'))
      (loginRecord 8 (some (loginHmac [] loginMessage))) none ≠ .ok .valid := by
  refine (canonicalRecord_injective loginHmac _).2 (loginRecord 7 none) _ none
    (loginRecord_plain 7 none) (loginRecord_plain 8 _) (loginHmac_distinguishes _ none) ?_ ?_
  · refine ⟨loginRecord 7 (some (loginHmac [] loginMessage)), ?_, rfl, rfl, rfl⟩
    unfold setIntegrity signRecord
    rw [keyBytes_zeros, canonicalRecord_login]
    rfl
  · intro hsame
    have h := hsame "target_user_id" (.int 7) (.int 8)
      (by simp [AuditRecord.signedFields, loginRecord])
      (by simp [AuditRecord.signedFields, loginRecord])
    simp [Value.Same] at h

end OmniAuth
