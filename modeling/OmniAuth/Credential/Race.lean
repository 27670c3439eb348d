import OmniAuth.Credential.References

/-!
# Calls that interleave

A call updates the row it has read, and the statement names the version it read it at. As
long as every such statement meets the row at that version, a row is what its id and its
version say, in every snapshot and in what every call has ever read.
-/

namespace OmniAuth

open Txn Prog

variable {A : AppEnv} {ι α : Type}

/-- Nothing is left of a revoked payload. -/
def IntegrationCredential.Sound (c : IntegrationCredential) : Prop :=
  c.status = .revoked → c.encryptedPayload = none

instance (c : IntegrationCredential) : Decidable c.Sound := inferInstanceAs (Decidable (_ → _))

/-- What a call has pending in the table. -/
inductive CredentialStage
  | idle
  | inserted (row : IntegrationCredential)
  | updated (row row' : IntegrationCredential)

namespace CredentialStage

/-- The row a call is about to commit. -/
def row? : CredentialStage → Option IntegrationCredential
  | idle => none
  | inserted row => some row
  | updated _ row' => some row'

/-- What the table is with what is pending. -/
def apply : CredentialStage → List IntegrationCredential → List IntegrationCredential
  | idle, rows => rows
  | inserted row, rows => rows ++ [row]
  | updated row row', rows => rows.map fun c => if c.id = row.id then row' else c

/-- The table is as the statement found it, as far as its row goes. -/
def Fits : CredentialStage → List IntegrationCredential → Prop
  | idle, _ => True
  | inserted row, rows => ∀ c ∈ rows, c.id ≠ row.id
  | updated row row', rows => row ∈ rows ∧ (∀ c ∈ rows, c.id = row.id → c = row) ∧
      row'.id = row.id ∧ row'.version = row.version + 1

def wrote (stage : CredentialStage) (seen : Database) : Stmt → CredentialStage
  | .credential (.insertIntegrationCredential row) => inserted row
  | .credential (.updateIntegrationCredential id columns) =>
      match seen.credentialById id with
      | some row => updated row (row.set columns)
      | none => stage
  | _ => stage

end CredentialStage

/-- A call between two of its steps: what it has pending, the rows it has ever read, those of
the open transaction, and the references it has read. -/
structure CredentialState where
  stage : CredentialStage
  knows : IntegrationCredential → Prop
  current : IntegrationCredential → Prop
  references : IntegrationCredentialReference → Prop

namespace CredentialState

def start : CredentialState := ⟨.idle, fun _ => False, fun _ => False, fun _ => False⟩

/-- The transaction is over. -/
def ended (q : CredentialState) : CredentialState := { q with stage := .idle, current := fun _ => False }

def read (q : CredentialState) (v : Database) : CredentialState :=
  { q with
    knows := fun c => q.knows c ∨ c ∈ v.integrationCredentials
    current := fun c => q.current c ∨ c ∈ v.integrationCredentials
    references := fun r => q.references r ∨ r ∈ v.integrationCredentialReferences }

/-- The statements of the calls: a write is of a row that was read, and sound; a reference is
to a row of the open transaction. -/
def Allows (q : CredentialState) : Stmt → Prop
  | .credential (.insertIntegrationCredential row) => q.stage = .idle ∧ row.Sound
  | .credential (.updateIntegrationCredential id columns) => q.stage = .idle ∧
      ∃ row, q.knows row ∧ row.id = id ∧ columns.version = some (row.version + 1) ∧
        (row.set columns).Sound
  | .credential (.insertCredentialReference r) => q.stage = .idle ∧
      ∃ c, q.knows c ∧ q.current c ∧ c.id = r.credentialId ∧ c.version = r.credentialVersion
  | .credential (.revokeCredentialReferences _ _) => True
  | stmt => stmt.Leaves Database.vault

end CredentialState

/-- **The discipline of the calls.** -/
def credentialing : Discipline AuthSig CredentialState where
  next q
    | .read v => q.read v
    | .wrote stmt seen _ => { q with stage := q.stage.wrote seen stmt }
    | .committed | .rolledBack | .commitFailed _ | .commitLost _ | .crashed _ => q.ended
    | _ => q
  sees _ _ := True
  may q
    | .read _ => q.stage = .idle
    | .wrote stmt _ _ => q.Allows stmt
    | _ => True

/-- **Nobody came between**: an update of a credential meets its row at the version its call
read it at. -/
def UpToDate (_ : Sys AuthSig ι α) (_ : ι) : Label AuthSig → Prop
  | .wrote (.credential (.updateIntegrationCredential id columns)) seen _ =>
      ∀ c ∈ seen.integrationCredentials, c.id = id → columns.version = some (c.version + 1)
  | _ => True

instance (s : Sys AuthSig ι α) (i : ι) (ℓ : Label AuthSig) : Decidable (UpToDate s i ℓ) := by
  unfold UpToDate
  split <;> infer_instance

/-! ## What is pending -/

namespace CredentialStage

variable {stage : CredentialStage} {rows : List IntegrationCredential}

/-- Rows that are pending are laid over any table that fits. -/
def Pends (stage : CredentialStage) (f : Database → Database) : Prop :=
  ∀ db : Database, stage.Fits db.integrationCredentials →
    (f db).integrationCredentials = stage.apply db.integrationCredentials

/-- What is pending adds one row, and moves at most that one on. -/
theorem mem_apply {c : IntegrationCredential} (hc : c ∈ stage.apply rows) :
    c ∈ rows ∨ stage.row? = some c := by
  cases stage with
  | idle => exact .inl hc
  | inserted row =>
    rcases List.mem_append.mp hc with hc | hc
    · exact .inl hc
    · exact .inr (congrArg some (List.mem_singleton.mp hc).symm)
  | updated row row' =>
    obtain ⟨c₀, hc₀, rfl⟩ := List.mem_map.mp hc
    by_cases hid : c₀.id = row.id
    · exact .inr (congrArg some (if_pos hid).symm)
    · rw [if_neg hid]
      exact .inl hc₀

/-- The pending row is there. -/
theorem row_mem_apply (hfits : stage.Fits rows) {row : IntegrationCredential}
    (hrow : stage.row? = some row) : row ∈ stage.apply rows := by
  cases stage with
  | idle => cases hrow
  | inserted row₀ =>
    obtain rfl := Option.some.inj hrow
    exact List.mem_append_right _ (List.mem_singleton.mpr rfl)
  | updated row₀ row' =>
    obtain rfl := Option.some.inj hrow
    refine List.mem_map.mpr ⟨row₀, hfits.1, ?_⟩
    rw [if_pos rfl]

/-- A row with another id stays. -/
theorem mem_apply_of_ne (hfits : stage.Fits rows) {c : IntegrationCredential} (hc : c ∈ rows)
    (hne : ∀ row, stage.row? = some row → c.id ≠ row.id) : c ∈ stage.apply rows := by
  cases stage with
  | idle => exact hc
  | inserted row => exact List.mem_append_left _ hc
  | updated row row' =>
    refine List.mem_map.mpr ⟨c, hc, if_neg ?_⟩
    rw [← hfits.2.2.1]
    exact hne row' rfl

/-- **No version goes back**: where the table has a row it has one as new afterwards. -/
theorem apply_newer (hfits : stage.Fits rows) {c : IntegrationCredential} (hc : c ∈ rows) :
    ∃ c' ∈ stage.apply rows, c'.id = c.id ∧ c.version ≤ c'.version := by
  by_cases hne : ∀ row, stage.row? = some row → c.id ≠ row.id
  · exact ⟨c, mem_apply_of_ne hfits hc hne, rfl, le_refl _⟩
  obtain ⟨row, hrow, hid⟩ : ∃ row, stage.row? = some row ∧ c.id = row.id := by
    simpa only [not_forall, not_not, exists_prop] using hne
  refine ⟨row, row_mem_apply hfits hrow, hid.symm, ?_⟩
  cases stage with
  | idle => cases hrow
  | inserted row₀ =>
    obtain rfl := Option.some.inj hrow
    exact absurd hid (hfits c hc)
  | updated row₀ row' =>
    obtain rfl := Option.some.inj hrow
    obtain ⟨-, hone, hid', hversion⟩ := hfits
    have hbase : c = row₀ := hone c hc (hid.trans hid')
    rw [hbase, hversion]
    exact Nat.le_succ _

/-- **The pending row is new**: no row that was known before has its id and its version. -/
theorem row_new (hfits : stage.Fits rows) {row c c₀ : IntegrationCredential}
    (hrow : stage.row? = some row) (hc₀ : c₀ ∈ rows) (hid : c₀.id = c.id)
    (hle : c.version ≤ c₀.version) (hsame : c.id = row.id) : c.version < row.version := by
  cases stage with
  | idle => cases hrow
  | inserted row₀ =>
    obtain rfl := Option.some.inj hrow
    exact absurd (hid.trans hsame) (hfits c₀ hc₀)
  | updated row₀ row' =>
    obtain rfl := Option.some.inj hrow
    obtain ⟨-, hone, hid', hversion⟩ := hfits
    have hbase : c₀ = row₀ := hone c₀ hc₀ (hid.trans (hsame.trans hid'))
    rw [hbase] at hle
    omega

theorem apply_keys (hfits : stage.Fits rows) (hkeys : (rows.map (·.id)).Nodup) :
    ((stage.apply rows).map (·.id)).Nodup := by
  cases stage with
  | idle => exact hkeys
  | inserted row =>
    show ((rows ++ [row]).map (·.id)).Nodup
    rw [List.map_append, List.map_singleton]
    refine List.nodup_append.mpr ⟨hkeys, by simp, ?_⟩
    rintro a ha b hb rfl
    obtain ⟨c, hc, hid⟩ := List.mem_map.mp ha
    exact hfits c hc (hid.trans (List.mem_singleton.mp hb))
  | updated row row' =>
    show ((rows.map fun c => if c.id = row.id then row' else c).map (·.id)).Nodup
    rw [List.map_map]
    refine (List.map_congr_left fun c _ => ?_) ▸ hkeys
    show c.id = (if c.id = row.id then row' else c).id
    split
    · rename_i hid
      rw [hid, hfits.2.2.1]
    · rfl

/-- A table into which somebody else has committed still fits, if the rows are apart. -/
theorem Fits.apply {other : CredentialStage} (h : stage.Fits rows) (hother : other.Fits rows)
    (hapart : ∀ row row', stage.row? = some row → other.row? = some row' → row.id ≠ row'.id) :
    stage.Fits (other.apply rows) := by
  cases stage with
  | idle => trivial
  | inserted row =>
    intro c hc
    rcases mem_apply hc with hc | hrow
    · exact h c hc
    · exact (hapart row c rfl hrow).symm
  | updated row row' =>
    obtain ⟨hmem, hone, hid, hversion⟩ := h
    refine ⟨mem_apply_of_ne hother hmem fun new hnew => ?_, fun c hc hsame => ?_, hid, hversion⟩
    · rw [← hid]
      exact hapart row' new rfl hnew
    · rcases mem_apply hc with hc | hrow
      · exact hone c hc hsame
      · exact absurd (hid.trans hsame.symm) (hapart row' c rfl hrow)

end CredentialStage

/-! ## The invariant -/

variable {s : Sys AuthSig ι α} {g : ι → CredentialState} {i : ι} {ℓ : Label AuthSig}

/-- One call beside the committed table. -/
structure Stands (db : Database) (conn : Conn AuthSig) (q : CredentialState) : Prop where
  pends : q.stage.Pends conn.pend
  fits : q.stage.Fits db.integrationCredentials
  held : ∀ row, q.stage.row? = some row → RowKey.integrationCredential row.id ∈ conn.held
  sound : ∀ row, q.stage.row? = some row → row.Sound
  current : ∀ c, q.current c → ∃ v, conn.snap = some v ∧ c ∈ v.integrationCredentials

/-- A call between two transactions. -/
theorem stands_idle {q : CredentialState} (db : Database) (hstage : q.stage = .idle)
    (hcurrent : ∀ c, ¬ q.current c) : Stands db (Conn.idle AuthSig) q := by
  have hnone : ∀ row, q.stage.row? ≠ some row := by
    intro row hrow
    rw [hstage] at hrow
    cases hrow
  refine ⟨fun _ _ => ?_, ?_, fun row hrow => absurd hrow (hnone row),
    fun row hrow => absurd hrow (hnone row), fun c hc => absurd hc (hcurrent c)⟩ <;> rw [hstage]
  · rfl
  · trivial

/-- A row that is committed, or in a snapshot, or was read by some call. -/
def KnownRow (s : Sys AuthSig ι α) (g : ι → CredentialState) (c : IntegrationCredential) : Prop :=
  c ∈ s.db.integrationCredentials ∨
    (∃ i v, (s.conn i).snap = some v ∧ c ∈ v.integrationCredentials) ∨ ∃ i, (g i).knows c

/-- **The invariant.** A row that is known is what its id and version say, and no newer than
what is committed. -/
structure Versioned (s : Sys AuthSig ι α) (g : ι → CredentialState) : Prop where
  keys : s.db.CredentialKeys
  sound : ∀ c ∈ s.db.integrationCredentials, c.Sound
  stands : ∀ i, Stands s.db (s.conn i) (g i)
  same : ∀ c c', KnownRow s g c → KnownRow s g c' → c.id = c'.id → c.version = c'.version → c = c'
  behind : ∀ c, KnownRow s g c →
    ∃ c₀ ∈ s.db.integrationCredentials, c₀.id = c.id ∧ c.version ≤ c₀.version

theorem versioned_start {db : Database} (hkeys : db.CredentialKeys)
    (hsound : ∀ c ∈ db.integrationCredentials, c.Sound) (now next : ℕ) (proc : ι → Op α) :
    Versioned (Sys.start db now next proc) fun _ => .start := by
  have hknown : ∀ c, KnownRow (Sys.start db now next proc) (fun _ => .start) c →
      c ∈ db.integrationCredentials := by
    rintro c (hc | ⟨_, _, h, -⟩ | ⟨_, h⟩)
    · exact hc
    · cases h
    · exact h.elim
  refine ⟨hkeys, hsound, fun i => stands_idle db rfl fun _ h => h, ?_, ?_⟩
  · intro c c' hc hc' hid _
    exact List.inj_on_of_nodup_map hkeys (hknown c hc) (hknown c' hc') hid
  · intro c hc
    exact ⟨c, hknown c hc, rfl, le_refl _⟩

variable [DecidableEq ι]

/-- What is known after a step that commits nothing was known before. -/
theorem Versioned.moves (h : Versioned s g) {q : CredentialState} (p : Op α)
    (hdb : s.dbAfter i ℓ = s.db) (hstands : Stands s.db (s.connAfter i ℓ) q)
    (hsnap : ∀ v, (s.connAfter i ℓ).snap = some v → v = (s.conn i).snap.getD s.db)
    (hknows : ∀ c, q.knows c →
      (g i).knows c ∨ c ∈ ((s.conn i).snap.getD s.db).integrationCredentials) :
    Versioned (s.after i ℓ p) (Function.update g i q) := by
  have hdb' : (s.after i ℓ p).db = s.db := hdb
  have hview : ∀ c ∈ ((s.conn i).snap.getD s.db).integrationCredentials, KnownRow s g c := by
    intro c hc
    cases hs : (s.conn i).snap with
    | none =>
      rw [hs] at hc
      exact .inl hc
    | some v =>
      rw [hs] at hc
      exact .inr (.inl ⟨i, v, hs, hc⟩)
  have hknown : ∀ c, KnownRow (s.after i ℓ p) (Function.update g i q) c → KnownRow s g c := by
    rintro c (hc | ⟨j, v, hv, hc⟩ | ⟨j, hj⟩)
    · exact .inl (hdb' ▸ hc)
    · by_cases hji : j = i
      · subst hji
        rw [Sys.after_conn_self] at hv
        rw [hsnap v hv] at hc
        exact hview c hc
      · rw [Sys.after_conn_of_ne _ _ _ hji] at hv
        exact .inr (.inl ⟨j, v, hv, hc⟩)
    · by_cases hji : j = i
      · subst hji
        rw [Function.update_self] at hj
        rcases hknows c hj with hk | hc
        · exact .inr (.inr ⟨j, hk⟩)
        · exact hview c hc
      · rw [Function.update_of_ne hji] at hj
        exact .inr (.inr ⟨j, hj⟩)
  refine ⟨hdb' ▸ h.keys, hdb' ▸ h.sound, ?_, fun c c' hc hc' => h.same c c' (hknown c hc)
    (hknown c' hc'), fun c hc => hdb' ▸ h.behind c (hknown c hc)⟩
  rw [hdb']
  exact Sys.forall_after hstands fun j _ => h.stands j

/-- **A commit** replaces one row by its next version. -/
theorem Versioned.commits (h : Versioned s g) (hx : s.Exclusive) {q : CredentialState}
    (p : Op α) (hdb : s.dbAfter i ℓ = s.latest i) (hconn : s.connAfter i ℓ = Conn.idle AuthSig)
    (hstage : q.stage = .idle) (hknows : q.knows = (g i).knows) (hcurrent : ∀ c, ¬ q.current c) :
    Versioned (s.after i ℓ p) (Function.update g i q) := by
  have hi := h.stands i
  have hrows : (s.after i ℓ p).db.integrationCredentials =
      (g i).stage.apply s.db.integrationCredentials := by
    show (s.dbAfter i ℓ).integrationCredentials = _
    rw [hdb]
    exact hi.pends s.db hi.fits
  have hknown : ∀ c, KnownRow (s.after i ℓ p) (Function.update g i q) c →
      KnownRow s g c ∨ (g i).stage.row? = some c := by
    rintro c (hc | ⟨j, v, hv, hc⟩ | ⟨j, hj⟩)
    · rw [hrows] at hc
      exact (CredentialStage.mem_apply hc).imp_left .inl
    · by_cases hji : j = i
      · subst hji
        rw [Sys.after_conn_self, hconn] at hv
        cases hv
      · rw [Sys.after_conn_of_ne _ _ _ hji] at hv
        exact .inl (.inr (.inl ⟨j, v, hv, hc⟩))
    · by_cases hji : j = i
      · subst hji
        rw [Function.update_self, hknows] at hj
        exact .inl (.inr (.inr ⟨j, hj⟩))
      · rw [Function.update_of_ne hji] at hj
        exact .inl (.inr (.inr ⟨j, hj⟩))
  -- the row that is committed is new to everybody
  have hnew : ∀ c row, KnownRow s g c → (g i).stage.row? = some row → c.id = row.id →
      c.version < row.version := by
    intro c row hc hrow hid
    obtain ⟨c₀, hc₀, hid₀, hle⟩ := h.behind c hc
    exact CredentialStage.row_new hi.fits hrow hc₀ hid₀ hle hid
  constructor
  · show ((s.after i ℓ p).db.integrationCredentials.map (·.id)).Nodup
    rw [hrows]
    exact CredentialStage.apply_keys hi.fits h.keys
  · intro c hc
    rw [hrows] at hc
    rcases CredentialStage.mem_apply hc with hc | hrow
    · exact h.sound c hc
    · exact hi.sound c hrow
  · refine Sys.forall_after ?_ fun j hj => ?_
    · rw [hconn]
      exact stands_idle _ hstage hcurrent
    · have hother := h.stands j
      refine ⟨hother.pends, ?_, hother.held, hother.sound, hother.current⟩
      rw [hrows]
      refine hother.fits.apply hi.fits fun row row' hrow hrow' hid => ?_
      exact hx j i hj _ (hother.held row hrow) (hid ▸ hi.held row' hrow')
  · intro c c' hc hc' hid hversion
    rcases hknown c hc with hc | hrow <;> rcases hknown c' hc' with hc' | hrow'
    · exact h.same c c' hc hc' hid hversion
    · have hlt := hnew c c' hc hrow' hid
      omega
    · have hlt := hnew c' c hc' hrow hid.symm
      omega
    · exact Option.some.inj (hrow.symm.trans hrow')
  · intro c hc
    rw [hrows]
    rcases hknown c hc with hc | hrow
    · obtain ⟨c₀, hc₀, hid, hle⟩ := h.behind c hc
      obtain ⟨c₁, hc₁, hid₁, hle₁⟩ := CredentialStage.apply_newer hi.fits hc₀
      exact ⟨c₁, hc₁, hid₁.trans hid, le_trans hle hle₁⟩
    · exact ⟨c, CredentialStage.row_mem_apply hi.fits hrow, rfl, le_refl _⟩

omit [DecidableEq ι] in
/-- **A statement keeps what a call has pending in order.** -/
theorem Versioned.wrote (h : Versioned s g) {stmt : Stmt} {seen : Database}
    {eff : Effect Database RowKey} (hen : s.Enabled i (.wrote stmt seen eff))
    (hok : UpToDate s i (.wrote stmt seen eff)) (hallows : (g i).Allows stmt) :
    Stands s.db (s.connAfter i (.wrote stmt seen eff))
      { g i with stage := (g i).stage.wrote seen stmt } := by
  obtain ⟨hseen, hden, -⟩ := hen
  obtain ⟨hpends, hfits, hheld, hsound, hcurrent⟩ := h.stands i
  have hlatest : seen.integrationCredentials = (g i).stage.apply s.db.integrationCredentials := by
    rw [hseen]
    exact hpends s.db hfits
  -- a statement that leaves the rows of the table alone
  have haside : (∀ db : Database, (eff.delta db).integrationCredentials = db.integrationCredentials) →
      (g i).stage.wrote seen stmt = (g i).stage →
      Stands s.db (s.connAfter i (.wrote stmt seen eff))
        { g i with stage := (g i).stage.wrote seen stmt } := by
    intro hleaves hstage
    rw [hstage]
    refine ⟨fun db hdb => (hleaves _).trans (hpends db hdb), hfits, fun row hrow => ?_, hsound,
      hcurrent⟩
    exact List.mem_append_right _ (hheld row hrow)
  have hbeside : stmt.Leaves Database.vault → (g i).stage.wrote seen stmt = (g i).stage →
      Stands s.db (s.connAfter i (.wrote stmt seen eff))
        { g i with stage := (g i).stage.wrote seen stmt } := fun hleaves =>
    haside fun db => congrArg Prod.fst (hleaves seen eff hden db)
  cases stmt with
  | credential stmt =>
    cases stmt with
    | insertIntegrationCredential row =>
      obtain ⟨hidle, hrow⟩ := hallows
      rw [hidle] at hpends hlatest
      simp only [denote, CredentialStmt.denote] at hden
      split at hden
      · cases hden
      rename_i hfree
      obtain rfl := Except.ok.inj hden
      refine ⟨fun db hdb => ?_, fun c hc hid => hfree ⟨c, ?_, .inl hid⟩, ?_, ?_, hcurrent⟩
      · show ((s.conn i).pend db).integrationCredentials ++ [row] = db.integrationCredentials ++ [row]
        rw [hpends db trivial]
        rfl
      · rw [hlatest]
        exact hc
      · rintro row' hrow'
        obtain rfl := Option.some.inj hrow'
        exact List.mem_append_left _ List.mem_cons_self
      · rintro row' hrow'
        obtain rfl := Option.some.inj hrow'
        exact hrow
    | updateIntegrationCredential id columns =>
      obtain ⟨hidle, row, hknows, rfl, hversion, hrow⟩ := hallows
      rw [hidle] at hpends hlatest
      obtain rfl := Except.ok.inj hden
      -- the row is there, at the version it was read at, so it is the row that was read
      obtain ⟨c₀, hc₀, hid₀, -⟩ := h.behind row (.inr (.inr ⟨i, hknows⟩))
      have hc₀' : c₀ ∈ seen.integrationCredentials := hlatest ▸ hc₀
      have hsame : c₀ = row := by
        refine h.same c₀ row (.inl hc₀) (.inr (.inr ⟨i, hknows⟩)) hid₀ ?_
        have hnext := hok c₀ hc₀' hid₀
        rw [hversion] at hnext
        have := Option.some.inj hnext
        omega
      subst hsame
      have hseenKeys : seen.CredentialKeys := by
        unfold Database.CredentialKeys
        rw [hlatest]
        exact h.keys
      have hfound : seen.credentialById c₀.id = some c₀ :=
        (Database.credentialById_eq_some hseenKeys).mpr ⟨hc₀', rfl⟩
      have hstage : (g i).stage.wrote seen
          (.credential (.updateIntegrationCredential c₀.id columns)) = .updated c₀ (c₀.set columns) := by
        simp only [CredentialStage.wrote, hfound]
      rw [hstage]
      refine ⟨fun db hdb => ?_, ⟨hc₀, fun c hc hid => ?_, rfl, ?_⟩, ?_, ?_, hcurrent⟩
      · show (((s.conn i).pend db).integrationCredentials.map _) = _
        rw [hpends db trivial]
        refine List.map_congr_left fun c hc => ?_
        by_cases hid : c.id = c₀.id
        · rw [if_pos hid, if_pos hid, hdb.2.1 c hc hid]
        · rw [if_neg hid, if_neg hid]
      · exact List.inj_on_of_nodup_map h.keys hc hc₀ hid
      · show columns.version.getD c₀.version = _
        rw [hversion]
        rfl
      · rintro row' hrow'
        obtain rfl := Option.some.inj hrow'
        exact List.mem_append_left _ List.mem_cons_self
      · rintro row' hrow'
        obtain rfl := Option.some.inj hrow'
        exact hrow
    | insertCredentialReference r =>
      refine haside (fun db => ?_) rfl
      simp only [denote, CredentialStmt.denote] at hden
      split at hden
      · cases hden
      obtain rfl := Except.ok.inj hden
      rfl
    | revokeCredentialReferences credentialId t =>
      refine haside (fun db => ?_) rfl
      obtain rfl := Except.ok.inj hden
      rfl
    | _ => exact hbeside hallows rfl
  | _ => exact hbeside hallows rfl

/-- **Every step keeps the invariant**, as long as nobody comes between. -/
theorem credentialing_keeps (post : ι → Except Err α → CredentialState → Prop) :
    credentialing.Keeps (UpToDate (ι := ι) (α := α)) post Versioned where
  sees _ _ _ _ := trivial
  after := by
    intro s g i ℓ p hx h hen hok _ hvouched
    obtain ⟨hpends, hfits, hheld, hsound, hcurrent⟩ := h.stands i
    have hold : ∀ v, (s.conn i).snap = some v → v = (s.conn i).snap.getD s.db := by
      intro v hv
      rw [hv]
      rfl
    -- a step after which the call stands where it did
    have hstill (hdb : s.dbAfter i ℓ = s.db) (hconn : s.connAfter i ℓ = s.conn i)
        (hnext : credentialing.next (g i) ℓ = g i) :
        Versioned (s.after i ℓ p) (Function.update g i (credentialing.next (g i) ℓ)) := by
      rw [hnext]
      refine h.moves p hdb ?_ ?_ fun c hc => .inl hc <;> rw [hconn]
      · exact h.stands i
      · exact hold
    -- a step that ends the transaction, and commits nothing
    have hlost (hdb : s.dbAfter i ℓ = s.db) (hconn : s.connAfter i ℓ = Conn.idle AuthSig)
        (hnext : credentialing.next (g i) ℓ = (g i).ended) :
        Versioned (s.after i ℓ p) (Function.update g i (credentialing.next (g i) ℓ)) := by
      rw [hnext]
      refine h.moves p hdb ?_ ?_ fun c hc => .inl hc <;> rw [hconn]
      · exact stands_idle s.db rfl fun _ h => h
      · intro v hv
        cases hv
    cases ℓ with
    | read v =>
      obtain rfl : v = s.view i := hen
      have hidle : (g i).stage = .idle := hvouched
      have hview : (s.view i).integrationCredentials =
          ((s.conn i).snap.getD s.db).integrationCredentials := by
        rw [hidle] at hpends
        exact hpends _ trivial
      refine h.moves p rfl ⟨hpends, hfits, hheld, hsound, ?_⟩ ?_ ?_
      · rintro c (hc | hc)
        · obtain ⟨v, hv, hc⟩ := hcurrent c hc
          exact ⟨_, rfl, hold v hv ▸ hc⟩
        · exact ⟨_, rfl, hview ▸ hc⟩
      · intro v hv
        exact (Option.some.inj hv).symm
      · rintro c (hc | hc)
        · exact .inl hc
        · exact .inr (hview ▸ hc)
    | wrote stmt seen eff =>
      exact h.moves p rfl (h.wrote hen hok hvouched) hold fun c hc => .inl hc
    | committed => exact h.commits hx p rfl rfl rfl rfl fun _ => id
    | commitLost x => exact h.commits hx p rfl rfl rfl rfl fun _ => id
    | rolledBack => exact hlost rfl rfl rfl
    | commitFailed x => exact hlost rfl rfl rfl
    | crashed x => exact hlost rfl rfl rfl
    | refused stmt seen x => exact hstill rfl rfl rfl
    | ticked t => exact hstill rfl rfl rfl
    | drew n => exact hstill rfl rfl rfl
    | emitted e => exact hstill rfl rfl rfl
    | faulted x => exact hstill rfl rfl rfl

end OmniAuth
