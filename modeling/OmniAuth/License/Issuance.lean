import OmniAuth.License.Holders
import Mathlib.Data.List.Pairwise

/-!
# Issuance requests

The record of a request is inserted first, under the key of its actor, and the licence, the
licences it supersedes and the record become visible in one commit. What a call has pending
is told by how far it has come; the locks it holds keep its key and its rows free until then.
-/

namespace OmniAuth

open Txn Prog

variable {A : AppEnv} {α β : Type}

/-! ## Records -/

namespace LicenseIssuanceRequest

def SameKey (q q' : LicenseIssuanceRequest) : Prop :=
  q.actorUserId = q'.actorUserId ∧ q.idempotencyKeyHash = q'.idempotencyKeyHash

/-- The record is under the key of the request. -/
def KeyOf (A : AppEnv) (r : IssueRequest) (q : LicenseIssuanceRequest) : Prop :=
  q.actorUserId = r.actorUserId ∧ q.idempotencyKeyHash = r.keyHash A

instance (A : AppEnv) (r : IssueRequest) (q : LicenseIssuanceRequest) : Decidable (q.KeyOf A r) :=
  inferInstanceAs (Decidable (_ ∧ _))

/-- The record is of the request. -/
def Of (A : AppEnv) (r : IssueRequest) (q : LicenseIssuanceRequest) : Prop :=
  q.KeyOf A r ∧ q.requestFingerprint = r.requestFingerprint A

/-- The record with the licence it names. -/
def naming (q : LicenseIssuanceRequest) (l : LicenseKey) : LicenseIssuanceRequest :=
  { q with licenseId := some l.id }

theorem KeyOf.sameKey {q q' : LicenseIssuanceRequest} {r : IssueRequest} (h : q.KeyOf A r)
    (h' : q'.KeyOf A r) : q.SameKey q' :=
  ⟨h.1.trans h'.1.symm, h.2.trans h'.2.symm⟩

end LicenseIssuanceRequest

namespace Database

/-- **Records in order**: one for each actor and key, and each names a licence of its own. -/
structure InOrder (db : Database) : Prop where
  apart : db.licenseIssuanceRequests.Pairwise fun q q' =>
    ¬ q.SameKey q' ∧ q.licenseId ≠ q'.licenseId
  named : ∀ q ∈ db.licenseIssuanceRequests, ∃ l ∈ db.licenseKeys, q.licenseId = some l.id

theorem InOrder.fades {db db' : Database} (ho : db.InOrder) (h : db.Fades db')
    (hreqs : db'.licenseIssuanceRequests = db.licenseIssuanceRequests) : db'.InOrder := by
  obtain ⟨f, hf, hfade⟩ := h
  refine ⟨by rw [hreqs]; exact ho.apart, fun q hq => ?_⟩
  rw [hreqs] at hq
  obtain ⟨l, hl, hnames⟩ := ho.named q hq
  rw [hf]
  exact ⟨f l, List.mem_map_of_mem hl, by rw [hnames, (hfade l).id]⟩

theorem InOrder.eq_of_sameKey {db : Database} (h : db.InOrder) {q q' : LicenseIssuanceRequest}
    (hq : q ∈ db.licenseIssuanceRequests) (hq' : q' ∈ db.licenseIssuanceRequests)
    (hkey : q.SameKey q') : q = q' := by
  by_contra hne
  have hsymm : Std.Symm fun q q' : LicenseIssuanceRequest =>
      ¬ q.SameKey q' ∧ q.licenseId ≠ q'.licenseId :=
    ⟨fun a b hab => ⟨fun hk => hab.1 ⟨hk.1.symm, hk.2.symm⟩, hab.2.symm⟩⟩
  exact (h.apart.forall hq hq' hne).1 hkey

/-- Nothing is under the key. -/
def Free (db : Database) : RowKey → Prop
  | .issuanceRequest id => ∀ q ∈ db.licenseIssuanceRequests, q.id ≠ id
  | .issuanceKey actorUserId hash => ∀ q ∈ db.licenseIssuanceRequests,
      ¬ (q.actorUserId = actorUserId ∧ q.idempotencyKeyHash = hash)
  | .licenseKey id => ∀ l ∈ db.licenseKeys, l.id ≠ id
  | _ => True

/-- **A whole issuance**: the record, the licence it names, and older licences no more than
they were. -/
structure Issues (r : IssueRequest) (A : AppEnv) (db db' : Database) : Prop where
  fresh : ∀ q ∈ db.licenseIssuanceRequests, ¬ q.KeyOf A r
  whole : ∃ (q : LicenseIssuanceRequest) (l : LicenseKey) (superseded : Database),
    q.Of A r ∧ q.licenseId = some l.id ∧ db.Free (.licenseKey l.id) ∧ db.Fades superseded ∧
    db'.licenseIssuanceRequests = db.licenseIssuanceRequests ++ [q] ∧
    db'.licenseKeys = superseded.licenseKeys ++ [l]

end Database

/-! ## How far a call has come -/

inductive IssueStage
  | idle
  | recorded (row : LicenseIssuanceRequest)
  | granted (row : LicenseIssuanceRequest) (license : LicenseKey)
  | linked (row : LicenseIssuanceRequest) (license : LicenseKey)
  | done (row : LicenseIssuanceRequest)

namespace IssueStage

/-- Nothing is pending. -/
def Settled : IssueStage → Prop
  | idle | done _ => True
  | _ => False

/-- The stage after a statement. -/
def wrote (stage : IssueStage) : Stmt → IssueStage
  | .account (.insertIssuanceRequest row) => recorded row
  | .account (.insertLicense license) =>
      match stage with
      | recorded row => granted row license
      | _ => stage
  | .account (.setIssuanceLicense _ _) =>
      match stage with
      | granted row license => linked row license
      | _ => stage
  | _ => stage

/-- The stage after a commit, and what it commits. -/
def committed : IssueStage → IssueStage
  | linked row license => done (row.naming license)
  | _ => idle

def commits : IssueStage → LicenseIssuanceRequest → Prop
  | linked row license => fun q => q = row.naming license
  | _ => fun _ => False

/-- The stage after a transaction that is lost. -/
def rolledBack : IssueStage → IssueStage
  | done row => done row
  | _ => idle

/-- The stage after a call to the database that failed. -/
def faulted : IssueStage → IssueStage
  | done _ => idle
  | stage => stage

/-- The statements of a stage. -/
def Allows (A : AppEnv) (r : IssueRequest) (stage : IssueStage) : Stmt → Prop
  | .account (.insertIssuanceRequest row) => stage = idle ∧ row.Of A r
  | .account (.revokeLicense _ _ _) => ∃ row, stage = recorded row
  | .account (.insertLicense _) => ∃ row, stage = recorded row
  | .account (.setIssuanceLicense id licenseId) =>
      ∃ row license, stage = granted row license ∧ id = row.id ∧ licenseId = license.id
  | stmt => stmt.BesideLicenses

/-- The record that is pending. -/
def rows : IssueStage → List LicenseIssuanceRequest
  | recorded row | granted row _ => [row]
  | linked row license => [row.naming license]
  | _ => []

/-- The licence that is pending. -/
def licenses : IssueStage → List LicenseKey
  | granted _ license | linked _ license => [license]
  | _ => []

/-- The keys a stage has taken. -/
def keys : IssueStage → List RowKey
  | recorded row => [.issuanceRequest row.id, .issuanceKey row.actorUserId row.idempotencyKeyHash]
  | granted row license | linked row license =>
      [.licenseKey license.id, .issuanceRequest row.id,
        .issuanceKey row.actorUserId row.idempotencyKeyHash]
  | _ => []

/-- What a connection has pending at the stage, where its keys are free. -/
def Pends (stage : IssueStage) (f : Database → Database) : Prop :=
  ∀ db : Database, (∀ k ∈ stage.keys, db.Free k) →
    (f db).licenseIssuanceRequests = db.licenseIssuanceRequests ++ stage.rows ∧
    ∃ superseded, db.Fades superseded ∧ (f db).licenseKeys = superseded.licenseKeys ++ stage.licenses

/-- The record of a stage is of the request. -/
def Records (A : AppEnv) (r : IssueRequest) : IssueStage → Prop
  | recorded row | granted row _ | linked row _ | done row => row.Of A r
  | idle => True

end IssueStage

/-- A record is inserted, or refused although nobody has the key of the request. -/
def Tries (A : AppEnv) (r : IssueRequest) : Label AuthSig → Prop
  | .wrote (.account (.insertIssuanceRequest _)) _ _ => True
  | .refused (.account (.insertIssuanceRequest _)) seen _ =>
      ∀ q ∈ seen.licenseIssuanceRequests, ¬ q.KeyOf A r
  | _ => False

/-- A call between two of its steps: its request, how far it has come, the records it knows
to be committed, those that have refused it, whether anything has failed, and whether it has
tried a record of its own under a key that was free. -/
structure IssueState where
  request : IssueRequest
  stage : IssueStage
  knows : LicenseIssuanceRequest → Prop
  lost : LicenseIssuanceRequest → Prop
  failed : Prop
  tried : Prop

/-- **The discipline of issuance.** -/
def issuing (A : AppEnv) : Discipline AuthSig IssueState where
  next q
    | .read v =>
        { q with knows := fun row => q.knows row ∨ q.stage.Settled ∧ row ∈ v.licenseIssuanceRequests }
    | .wrote stmt seen eff =>
        { q with
          stage := q.stage.wrote stmt
          tried := q.tried ∨ Tries A q.request (.wrote stmt seen eff) }
    | .refused stmt seen x =>
        { q with
          lost := fun row => q.lost row ∨ q.stage.Settled ∧ row ∈ seen.licenseIssuanceRequests
          tried := q.tried ∨ Tries A q.request (.refused stmt seen x) }
    | .committed =>
        { q with stage := q.stage.committed, knows := fun row => q.knows row ∨ q.stage.commits row }
    | .rolledBack =>
        { q with stage := q.stage.rolledBack, knows := fun row => q.knows row ∨ q.lost row }
    | .faulted _ => { q with stage := q.stage.faulted, failed := True }
    | .commitFailed _ | .commitLost _ | .crashed _ => { q with stage := .idle, failed := True }
    | _ => q
  sees q
    | .read v => q.stage.Settled →
        v.InOrder ∧ ∀ row, q.knows row → row ∈ v.licenseIssuanceRequests
    | _ => True
  may q
    | .wrote stmt _ _ => q.stage.Allows A q.request stmt
    | .committed => ∃ row license, q.stage = .linked row license
    | _ => True

/-! ## Steps -/

namespace IssueStage

variable {stage : IssueStage} {f : Database → Database} {r : IssueRequest} {stmt : Stmt}
  {seen db : Database} {eff : Effect Database RowKey}

/-- A statement beside the licences leaves the stage where it is. -/
theorem wrote_aside (h : stmt.BesideLicenses) : stage.wrote stmt = stage := by
  cases stmt with
  | account stmt => cases stmt <;> first | rfl | exact h.elim
  | _ => rfl

/-- **What a statement adds to what is pending.** -/
theorem Pends.wrote (h : stage.Pends f) (hallows : stage.Allows A r stmt)
    (hden : denote stmt seen = .ok eff) : (stage.wrote stmt).Pends (eff.delta ∘ f) := by
  have haside : stmt.BesideLicenses → (stage.wrote stmt).Pends (eff.delta ∘ f) := by
    intro hb
    rw [wrote_aside hb]
    intro db hfree
    obtain ⟨hrows, superseded, hfades, hlicenses⟩ := h db hfree
    have hsame := hb.issuance hden (f db)
    exact ⟨(congrArg Prod.snd hsame : _).trans hrows, superseded, hfades,
      (congrArg Prod.fst hsame : _).trans hlicenses⟩
  cases stmt with
  | account stmt =>
    cases stmt with
    | insertIssuanceRequest row =>
      obtain ⟨rfl, -⟩ := hallows
      simp only [denote, AccountStmt.denote] at hden
      split at hden
      · cases hden
      obtain rfl := Except.ok.inj hden
      intro db _
      obtain ⟨hrows, hlicenses⟩ := h db (by simp [keys])
      refine ⟨?_, hlicenses⟩
      show (f db).licenseIssuanceRequests ++ [row] = _
      rw [hrows]
      simp [rows, IssueStage.wrote]
    | revokeLicense id t reason =>
      obtain ⟨row, rfl⟩ := hallows
      obtain rfl := Except.ok.inj hden
      intro db hfree
      obtain ⟨hrows, superseded, hfades, hlicenses⟩ := h db hfree
      have hkeys : superseded.licenseKeys = (f db).licenseKeys := by
        rw [hlicenses]
        simp [licenses]
      refine ⟨hrows, superseded.updateLicense id (LicenseKey.revoke t reason),
        hfades.trans (superseded.fades_revoke id t reason), ?_⟩
      simp [Database.updateLicense, hkeys, licenses, IssueStage.wrote]
    | insertLicense license =>
      obtain ⟨row, rfl⟩ := hallows
      simp only [denote, AccountStmt.denote] at hden
      split at hden
      · cases hden
      obtain rfl := Except.ok.inj hden
      intro db hfree
      obtain ⟨hrows, superseded, hfades, hlicenses⟩ :=
        h db fun k hk => hfree k (List.mem_cons_of_mem _ hk)
      refine ⟨hrows, superseded, hfades, ?_⟩
      show (f db).licenseKeys ++ [license] = _
      rw [hlicenses]
      simp [licenses, IssueStage.wrote]
    | setIssuanceLicense id licenseId =>
      obtain ⟨row, license, rfl, rfl, rfl⟩ := hallows
      obtain rfl := Except.ok.inj hden
      intro db hfree
      obtain ⟨hrows, hlicenses⟩ := h db hfree
      have hother : ∀ q ∈ db.licenseIssuanceRequests, q.id ≠ row.id :=
        hfree (.issuanceRequest row.id) (by simp [keys, IssueStage.wrote])
      refine ⟨?_, hlicenses⟩
      show (f db).licenseIssuanceRequests.map _ = db.licenseIssuanceRequests ++ [row.naming license]
      rw [hrows]
      show (db.licenseIssuanceRequests ++ [row]).map _ = _
      rw [List.map_append, List.map_singleton, if_pos rfl]
      congr 1
      calc db.licenseIssuanceRequests.map _ = db.licenseIssuanceRequests.map (fun q => q) :=
            List.map_congr_left fun q hq => if_neg (hother q hq)
        _ = db.licenseIssuanceRequests := List.map_id _
    | _ => exact haside hallows
  | _ => exact haside hallows

/-- What is pending takes no row away. -/
theorem Pends.free_of (h : stage.Pends f) (hkeys : ∀ k ∈ stage.keys, db.Free k) {k : RowKey}
    (hk : (f db).Free k) : db.Free k := by
  obtain ⟨hrows, superseded, ⟨g, hg, hfade⟩, hlicenses⟩ := h db hkeys
  cases k with
  | issuanceRequest id =>
    intro q hq
    refine hk q ?_
    rw [hrows]
    exact List.mem_append_left _ hq
  | issuanceKey actorUserId hash =>
    intro q hq
    refine hk q ?_
    rw [hrows]
    exact List.mem_append_left _ hq
  | licenseKey id =>
    intro l hl
    rw [← (hfade l).id]
    refine hk (g l) ?_
    rw [hlicenses, hg]
    exact List.mem_append_left _ (List.mem_map_of_mem hl)
  | _ => trivial

/-- **What is pending is under the keys of its stage.** -/
theorem Pends.free (h : stage.Pends f) (hkeys : ∀ k ∈ stage.keys, db.Free k) {k : RowKey}
    (hk : k ∉ stage.keys) (hfree : db.Free k) : (f db).Free k := by
  obtain ⟨hrows, superseded, hfades, hlicenses⟩ := h db hkeys
  have hrow : ∀ q ∈ stage.rows, RowKey.issuanceRequest q.id ∈ stage.keys ∧
      RowKey.issuanceKey q.actorUserId q.idempotencyKeyHash ∈ stage.keys := by
    intro q hq
    cases stage with
    | recorded row =>
      obtain rfl := List.mem_singleton.mp hq
      simp [keys]
    | granted row license =>
      obtain rfl := List.mem_singleton.mp hq
      simp [keys]
    | linked row license =>
      obtain rfl := List.mem_singleton.mp hq
      simp [keys, LicenseIssuanceRequest.naming]
    | _ => cases hq
  have hlicense : ∀ l ∈ stage.licenses, RowKey.licenseKey l.id ∈ stage.keys := by
    intro l hl
    cases stage with
    | granted row license =>
      obtain rfl := List.mem_singleton.mp hl
      simp [keys]
    | linked row license =>
      obtain rfl := List.mem_singleton.mp hl
      simp [keys]
    | _ => cases hl
  cases k with
  | issuanceRequest id =>
    intro q hq hid
    rw [hrows, List.mem_append] at hq
    rcases hq with hq | hq
    · exact hfree q hq hid
    · exact hk (hid ▸ (hrow q hq).1)
  | issuanceKey actorUserId hash =>
    rintro q hq ⟨hactor, hhash⟩
    rw [hrows, List.mem_append] at hq
    rcases hq with hq | hq
    · exact hfree q hq ⟨hactor, hhash⟩
    · exact hk (hactor ▸ hhash ▸ (hrow q hq).2)
  | licenseKey id =>
    intro l hl hid
    rw [hlicenses, List.mem_append] at hl
    rcases hl with hl | hl
    · obtain ⟨l₀, hl₀, hfade⟩ := hfades.origin hl
      exact hfree l₀ hl₀ (hfade.id.symm.trans hid)
    · exact hk (hid ▸ hlicense l hl)
  | _ => trivial

/-- **The keys a statement takes** were free, and are locked. -/
theorem keys_wrote (hallows : stage.Allows A r stmt) (hden : denote stmt seen = .ok eff) {k : RowKey}
    (hk : k ∈ (stage.wrote stmt).keys) : k ∈ stage.keys ∨ k ∈ eff.locks ∧ seen.Free k := by
  have haside : stmt.BesideLicenses → k ∈ stage.keys ∨ k ∈ eff.locks ∧ seen.Free k := by
    intro hb
    rw [wrote_aside hb] at hk
    exact .inl hk
  cases stmt with
  | account stmt =>
    cases stmt with
    | insertIssuanceRequest row =>
      simp only [denote, AccountStmt.denote] at hden
      split at hden
      · cases hden
      rename_i hfree
      obtain rfl := Except.ok.inj hden
      refine .inr ⟨hk, ?_⟩
      rcases List.mem_pair.mp hk with rfl | rfl
      · exact fun q hq hid => hfree ⟨q, hq, .inl hid⟩
      · exact fun q hq hkey => hfree ⟨q, hq, .inr hkey⟩
    | revokeLicense id t reason =>
      obtain ⟨row, rfl⟩ := hallows
      exact .inl hk
    | insertLicense license =>
      obtain ⟨row, rfl⟩ := hallows
      simp only [denote, AccountStmt.denote] at hden
      split at hden
      · cases hden
      rename_i hfree
      obtain rfl := Except.ok.inj hden
      rcases List.mem_cons.mp hk with rfl | hk
      · exact .inr ⟨List.mem_cons_self, fun l hl hid => hfree ⟨l, hl, .inl hid⟩⟩
      · exact .inl hk
    | setIssuanceLicense id licenseId =>
      obtain ⟨row, license, rfl, rfl, rfl⟩ := hallows
      exact .inl hk
    | _ => exact haside hallows
  | _ => exact haside hallows

/-- Where nothing is pending, the records are those of the state below. -/
theorem Pends.settled (h : stage.Pends f) (hstage : stage.Settled) (db : Database) :
    (f db).licenseIssuanceRequests = db.licenseIssuanceRequests ∧ db.Fades (f db) := by
  have hnone : stage.rows = [] ∧ stage.licenses = [] ∧ stage.keys = [] := by
    cases stage <;> first | exact ⟨rfl, rfl, rfl⟩ | exact hstage.elim
  obtain ⟨hrows, hlicenses, hkeys⟩ := hnone
  obtain ⟨hreqs, superseded, hfades, hkept⟩ := h db (by rw [hkeys]; exact nofun)
  rw [hrows, List.append_nil] at hreqs
  rw [hlicenses, List.append_nil] at hkept
  exact ⟨hreqs, hfades.trans (Database.fades_of_eq hkept)⟩

/-- No statement finishes a call. -/
theorem wrote_done {row : LicenseIssuanceRequest} (h : stage.wrote stmt = done row) :
    stage = done row := by
  cases stmt with
  | account stmt =>
    cases stmt with
    | insertIssuanceRequest row => cases h
    | insertLicense license =>
      cases stage <;> first | cases h; done | exact h
    | setIssuanceLicense id licenseId =>
      cases stage <;> first | cases h; done | exact h
    | _ => exact h
  | _ => exact h

/-- The record of a stage stays that of the request. -/
theorem Records.wrote (h : stage.Records A r) (hallows : stage.Allows A r stmt) :
    (stage.wrote stmt).Records A r := by
  cases stmt with
  | account stmt =>
    cases stmt with
    | insertIssuanceRequest row => exact hallows.2
    | revokeLicense id t reason => exact h
    | insertLicense license =>
      obtain ⟨row, rfl⟩ := hallows
      exact h
    | setIssuanceLicense id licenseId =>
      obtain ⟨row, license, rfl, -⟩ := hallows
      exact h
    | _ => exact h
  | _ => exact h

/-- **What a commit makes of the store.** -/
theorem Pends.issues {row : LicenseIssuanceRequest} {license : LicenseKey}
    (h : (linked row license).Pends f) (hrow : row.Of A r)
    (hkeys : ∀ k ∈ (linked row license).keys, db.Free k) :
    db.Issues r A (f db) := by
  obtain ⟨hrows, superseded, hfades, hlicenses⟩ := h db hkeys
  have hfree : db.Free (.issuanceKey row.actorUserId row.idempotencyKeyHash) :=
    hkeys _ (by simp [keys])
  refine ⟨fun q hq hkey => hfree q hq (hkey.sameKey hrow.1), row.naming license, license,
    superseded, hrow, rfl, hkeys _ (by simp [keys]), hfades, hrows, hlicenses⟩

end IssueStage

theorem Database.Issues.inOrder {r : IssueRequest} {db db' : Database} (h : db.Issues r A db')
    (ho : db.InOrder) : db'.InOrder := by
  obtain ⟨hfresh, q, l, superseded, hof, hnames, hfree, ⟨f, hf, hfade⟩, hreqs, hkeys⟩ := h
  have hold : ∀ q' ∈ db.licenseIssuanceRequests, ¬ q'.SameKey q ∧ q'.licenseId ≠ q.licenseId := by
    intro q' hq'
    refine ⟨fun hkey => hfresh q' hq' ⟨hkey.1.trans hof.1.1, hkey.2.trans hof.1.2⟩, fun heq => ?_⟩
    obtain ⟨l', hl', hnames'⟩ := ho.named q' hq'
    rw [hnames', hnames] at heq
    exact hfree l' hl' (Option.some.inj heq)
  constructor
  · rw [hreqs]
    refine List.pairwise_append.mpr ⟨ho.apart, List.pairwise_singleton _ _, fun a ha b hb => ?_⟩
    rw [List.mem_singleton.mp hb]
    exact hold a ha
  · intro q' hq'
    rw [hreqs, List.mem_append, List.mem_singleton] at hq'
    rw [hkeys, hf]
    rcases hq' with hq' | rfl
    · obtain ⟨l', hl', hnames'⟩ := ho.named q' hq'
      refine ⟨f l', List.mem_append_left _ (List.mem_map_of_mem hl'), ?_⟩
      rw [hnames', (hfade l').id]
    · exact ⟨l, List.mem_append_right _ (List.mem_singleton.mpr rfl), hnames⟩

end OmniAuth
