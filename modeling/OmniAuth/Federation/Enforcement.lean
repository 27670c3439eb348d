import OmniAuth.Federation.Checked
import OmniAuth.Login.Entries
import OmniAuth.Mfa.SingleUse
import OmniAuth.Token.Blacklist
import OmniAuth.Txn.Evolution
import OmniAuth.Txn.Index

/-!
# Who is locked out by enforcement

An organization that enforces its own provider turns its members' passwords away, so the
services enforce only once a member has signed in through it. Nothing serialises that check
and the write after it. It holds nonetheless, for any number of logins and of changes made
at once and whatever fails: an identity is never deleted, and the check sees only identities
that are committed. So does it that what is stored has passed its checks. The DELETE of a
configuration is left out.
-/

namespace OmniAuth

open Txn Prog

variable {A : AppEnv}

/-! ## What a statement does to identities and configurations -/

/-- The identities a statement inserts. -/
def Stmt.identities : Stmt → List OAuthAccount
  | .account (.insertOAuthAccount row) => [row]
  | _ => []

/-- What a statement makes of the configurations of a protocol. -/
def Stmt.editIdps (saml : Bool) (stmt : Stmt) (configs : List IdpConfig) : List IdpConfig :=
  match stmt with
  | .org (.insertIdp saml' row) => if saml' = saml then configs ++ [row] else configs
  | .org (.updateIdp saml' id columns) =>
      if saml' = saml then configs.map fun c => if c.id = id then c.set columns else c
      else configs
  | _ => configs

section

variable {stmt : Stmt} {seen : Database} {eff : Effect Database RowKey}

theorem denote_oauthAccounts (h : denote stmt seen = .ok eff) (db : Database) :
    (eff.delta db).oauthAccounts = db.oauthAccounts ++ stmt.identities := by
  cases stmt with
  | credential stmt =>
    exact (CredentialStmt.keeps (·.oauthAccounts) (fun _ => rfl) h db).trans
      (List.append_nil _).symm
  | org stmt =>
    exact (OrgStmt.keeps (·.oauthAccounts) (fun _ => rfl) h db).trans (List.append_nil _).symm
  | account stmt =>
    cases stmt <;> simp only [denote, AccountStmt.denote] at h <;> (try split at h) <;> cases h <;>
      first | rfl | exact (List.append_nil _).symm
  | mfa stmt =>
    cases stmt <;> simp only [denote, MfaStmt.denote] at h <;> (try split at h) <;> cases h <;>
      exact (List.append_nil _).symm
  | _ =>
    simp only [denote] at h
    (try split at h) <;> cases h
    all_goals exact (List.append_nil _).symm

theorem Stmt.identities_inv (stmt : Stmt) :
    stmt.identities = [] ∨ ∃ row, stmt = .account (.insertOAuthAccount row) := by
  cases stmt with
  | account stmt =>
    cases stmt with
    | insertOAuthAccount row => exact .inr ⟨row, rfl⟩
    | _ => exact .inl rfl
  | _ => exact .inl rfl

/-- What an identity claims is free where it is inserted, and locked. -/
theorem denote_identity (h : denote stmt seen = .ok eff) {a : OAuthAccount}
    (ha : a ∈ stmt.identities) :
    (∀ k ∈ a.keys, k ∈ eff.locks) ∧ ∀ a' ∈ seen.oauthAccounts, ∀ k ∈ a'.keys, k ∉ a.keys := by
  rcases stmt.identities_inv with hnone | ⟨row, rfl⟩
  · rw [hnone] at ha
    cases ha
  · obtain rfl := List.mem_singleton.mp ha
    simp only [denote, AccountStmt.denote] at h
    split at h
    · cases h
    rename_i hfree
    obtain rfl := Except.ok.inj h
    exact ⟨fun k hk => List.mem_cons_of_mem _ hk,
      fun a' ha' k hk hk' => hfree ⟨a', ha', .inr ⟨k, hk, hk'⟩⟩⟩

theorem idpConfigs_map (saml saml' : Bool) (f : List IdpConfig → List IdpConfig) (db : Database) :
    (db.mapIdpConfigs saml' f).idpConfigs saml =
      if saml' = saml then f (db.idpConfigs saml) else db.idpConfigs saml := by
  cases saml <;> cases saml' <;> rfl

theorem denote_idpConfigs (h : denote stmt seen = .ok eff) (saml : Bool) (db : Database) :
    (eff.delta db).idpConfigs saml = stmt.editIdps saml (db.idpConfigs saml) := by
  cases stmt with
  | credential stmt => exact CredentialStmt.keeps (·.idpConfigs saml) (fun _ => rfl) h db
  | account stmt => exact AccountStmt.keeps (·.idpConfigs saml) (fun _ => rfl) h db
  | org stmt =>
    cases stmt with
    | insertIdp saml' row =>
      simp only [denote, OrgStmt.denote] at h
      split at h
      · cases h
      obtain rfl := Except.ok.inj h
      exact idpConfigs_map saml saml' _ db
    | updateIdp saml' id columns =>
      obtain rfl := Except.ok.inj h
      exact idpConfigs_map saml saml' _ db
    | _ =>
      simp only [denote, OrgStmt.denote] at h
      (try split at h) <;> cases h
      all_goals rfl
  | mfa stmt =>
    cases stmt <;> simp only [denote, MfaStmt.denote] at h <;> (try split at h) <;> cases h <;> rfl
  | _ =>
    simp only [denote] at h
    (try split at h) <;> cases h
    all_goals rfl

end

/-! ## The guard -/

theorem Database.hasCompletedIdpLogin_iff {saml : Bool} {db : Database} {configId : ℕ} :
    db.hasCompletedIdpLogin saml configId = true ↔
      ∃ a ∈ db.oauthAccounts, a.idpConfigId saml = some configId := by
  rw [Database.hasCompletedIdpLogin, decide_eq_true_iff]

/-- Identities are never deleted. -/
def accountsGrow : Evolution AuthSig where
  le db db' := Database.oauthAccounts db ⊆ Database.oauthAccounts db'
  refl _ := List.Subset.refl _
  trans := List.Subset.trans
  stmt := by
    intro stmt seen eff h db
    rw [denote_oauthAccounts h]
    exact List.subset_append_left _ _

/-- A completed login is not taken back. -/
theorem Database.hasCompletedIdpLogin_mono {db db' : Database}
    (h : db.oauthAccounts ⊆ db'.oauthAccounts) {saml : Bool} {configId : ℕ}
    (hdone : db.hasCompletedIdpLogin saml configId = true) :
    db'.hasCompletedIdpLogin saml configId = true := by
  obtain ⟨a, ha, hid⟩ := Database.hasCompletedIdpLogin_iff.mp hdone
  exact Database.hasCompletedIdpLogin_iff.mpr ⟨a, h ha, hid⟩

/-- **The invariant.** Identities are scoped as their provider is, configurations have passed
their checks, and one that is enforced has been signed in through. -/
structure Database.Federated (A : AppEnv) (db : Database) : Prop where
  identities : ∀ a ∈ db.oauthAccounts, a.WellScoped
  checked : ∀ saml, ∀ config ∈ db.idpConfigs saml, config.Checked A saml
  proven : ∀ saml, ∀ config ∈ db.idpConfigs saml, config.enforced = true →
    db.hasCompletedIdpLogin saml config.id = true

/-- The statement inserts well scoped identities, writes what is checked, and enforces what is
known to have been signed in through. -/
def Stmt.Guarded (A : AppEnv) (known : Bool → ℕ → Prop) : Stmt → Prop
  | .account (.insertOAuthAccount row) => row.WellScoped
  | .org (.insertIdp saml row) => row.enforced = false ∧ row.Checked A saml
  | .org (.updateIdp saml id columns) =>
      (columns.enforced = some true → known saml id) ∧ columns.Keep A saml
  | _ => True

theorem Stmt.Guarded.identities {known : Bool → ℕ → Prop} {stmt : Stmt} (h : stmt.Guarded A known) :
    ∀ a ∈ stmt.identities, a.WellScoped := by
  intro a ha
  cases stmt with
  | account stmt =>
    cases stmt with
    | insertOAuthAccount row =>
      obtain rfl := List.mem_singleton.mp ha
      exact h
    | _ => cases ha
  | _ => cases ha

/-- A configuration after a statement: one that was there, the one inserted, or one updated. -/
theorem Stmt.mem_editIdps {stmt : Stmt} {saml : Bool} {configs : List IdpConfig}
    {config : IdpConfig} (h : config ∈ stmt.editIdps saml configs) :
    config ∈ configs ∨ stmt = .org (.insertIdp saml config) ∨
      ∃ c ∈ configs, ∃ columns, stmt = .org (.updateIdp saml c.id columns) ∧
        config = c.set columns := by
  cases stmt with
  | org stmt =>
    cases stmt with
    | insertIdp saml' row =>
      simp only [Stmt.editIdps] at h
      split at h
      · rename_i hsaml
        obtain rfl := hsaml
        rcases List.mem_append.mp h with hc | hc
        · exact .inl hc
        · obtain rfl := List.mem_singleton.mp hc
          exact .inr (.inl rfl)
      · exact .inl h
    | updateIdp saml' id columns =>
      simp only [Stmt.editIdps] at h
      split at h
      · rename_i hsaml
        obtain rfl := hsaml
        obtain ⟨c, hc, rfl⟩ := List.mem_map.mp h
        split
        · rename_i hid
          obtain rfl := hid
          exact .inr (.inr ⟨c, hc, columns, rfl, rfl⟩)
        · exact .inl hc
      · exact .inl h
    | _ => exact .inl h
  | _ => exact .inl h

/-- A configuration that is enforced after a guarded statement was so before, or is known. -/
theorem Stmt.Guarded.enforced {known : Bool → ℕ → Prop} {stmt : Stmt} (h : stmt.Guarded A known)
    {saml : Bool} {configs : List IdpConfig} {config : IdpConfig}
    (hconfig : config ∈ stmt.editIdps saml configs) (hon : config.enforced = true) :
    (∃ c ∈ configs, c.id = config.id ∧ c.enforced = true) ∨ known saml config.id := by
  rcases Stmt.mem_editIdps hconfig with hc | rfl | ⟨c, hc, columns, rfl, rfl⟩
  · exact .inl ⟨config, hc, rfl, hon⟩
  · cases h.1.symm.trans hon
  · have hset : columns.enforced.getD c.enforced = true := hon
    cases he : columns.enforced with
    | none =>
      rw [he] at hset
      exact .inl ⟨c, hc, rfl, hset⟩
    | some e =>
      rw [he] at hset
      obtain rfl : e = true := hset
      exact .inr (h.1 he)

theorem Stmt.Guarded.checked {known : Bool → ℕ → Prop} {stmt : Stmt} (h : stmt.Guarded A known)
    {saml : Bool} {configs : List IdpConfig} (hconfigs : ∀ c ∈ configs, c.Checked A saml) :
    ∀ c ∈ stmt.editIdps saml configs, c.Checked A saml := by
  intro config hconfig
  rcases Stmt.mem_editIdps hconfig with hc | rfl | ⟨c, hc, columns, rfl, rfl⟩
  · exact hconfigs config hc
  · exact h.2
  · exact h.2 c (hconfigs c hc)

/-- **A guarded statement keeps the invariant**, wherever its change lands. -/
theorem Database.Federated.stmt {known : Bool → ℕ → Prop} {stmt : Stmt} {seen db : Database}
    {eff : Effect Database RowKey} (h : db.Federated A) (hden : denote stmt seen = .ok eff)
    (hstmt : stmt.Guarded A known)
    (hknown : ∀ saml id, known saml id → db.hasCompletedIdpLogin saml id = true) :
    (eff.delta db).Federated A := by
  have hgrow : db.oauthAccounts ⊆ (eff.delta db).oauthAccounts := accountsGrow.stmt hden db
  refine ⟨fun a ha => ?_, fun saml => ?_, fun saml config hconfig hon => ?_⟩
  · rw [denote_oauthAccounts hden] at ha
    rcases List.mem_append.mp ha with ha | ha
    · exact h.identities a ha
    · exact hstmt.identities a ha
  · rw [denote_idpConfigs hden]
    exact hstmt.checked (h.checked saml)
  · rw [denote_idpConfigs hden] at hconfig
    refine Database.hasCompletedIdpLogin_mono hgrow ?_
    rcases hstmt.enforced hconfig hon with ⟨c, hc, hid, hc'⟩ | hid
    · exact hid ▸ h.proven saml c hc hc'
    · exact hknown saml config.id hid

/-! ## Logins and changes at once -/

/-- A login inserts identities and knows nothing of the configurations. A change of one
inserts none, and knows the configurations it has seen signed in through. -/
inductive FederationStage
  | login
  | change (known : Bool → ℕ → Prop)

namespace FederationStage

def Knows : FederationStage → Bool → ℕ → Prop
  | login, _, _ => False
  | change known, saml, configId => known saml configId

/-- A change of a configuration, whatever it knows. -/
def Changes : FederationStage → Prop
  | login => False
  | change _ => True

def read (q : FederationStage) (v : Database) : FederationStage :=
  match q with
  | login => login
  | change known => change fun saml id => known saml id ∨ v.hasCompletedIdpLogin saml id = true

theorem Knows.read {q : FederationStage} {saml : Bool} {id : ℕ} (h : q.Knows saml id)
    (v : Database) : (q.read v).Knows saml id := by
  cases q with
  | login => exact h
  | change known => exact .inl h

end FederationStage

/-- What a request keeps to. -/
def federating (A : AppEnv) : Discipline AuthSig FederationStage where
  next
    | q, .read v => q.read v
    | q, _ => q
  sees _ _ := True
  may
    | q, .wrote stmt _ _ => Stmt.Guarded A q.Knows stmt ∧ (q.Changes → Stmt.identities stmt = [])
    | _, _ => True

variable {ι : Type}

/-- What the run keeps: what a request has pending keeps the invariant wherever it is
committed, as long as what the request knows is true there. -/
structure Federating (A : AppEnv) {α : Type} (s : Sys AuthSig ι α) (g : ι → FederationStage) :
    Prop where
  moves : accountsGrow.Pending s
  snapshots : accountsGrow.Snapshots s
  base : Database.Federated A s.db
  knows : ∀ i saml id, (g i).Knows saml id → Database.hasCompletedIdpLogin saml s.db id = true
  pending : ∀ i (db : Database), db.Federated A →
    (∀ saml id, (g i).Knows saml id → db.hasCompletedIdpLogin saml id = true) →
      Database.Federated A ((s.conn i).pend db)
  aside : ∀ i, (g i).Changes → ∀ db : Database,
    Database.oauthAccounts ((s.conn i).pend db) = db.oauthAccounts

variable {α : Type} {s s' : Sys AuthSig ι α} {g : ι → FederationStage} {i : ι} {ℓ : Label AuthSig}

/-- **What a change sees is committed**: it has no identity of its own. -/
theorem Federating.sees (h : Federating A s g) (hi : (g i).Changes) {saml : Bool} {id : ℕ}
    (hdone : Database.hasCompletedIdpLogin saml (s.view i) id = true) :
    Database.hasCompletedIdpLogin saml s.db id = true := by
  refine Database.hasCompletedIdpLogin_mono ?_ hdone
  show Database.oauthAccounts ((s.conn i).pend ((s.conn i).snap.getD s.db)) ⊆
    Database.oauthAccounts s.db
  rw [h.aside i hi]
  cases hsnap : (s.conn i).snap with
  | none => exact List.Subset.refl _
  | some v => exact h.snapshots i v hsnap

/-- What a request knows after a step is true where it was. -/
theorem Federating.knows_next (h : Federating A s g) (hen : s.Enabled i ℓ) {saml : Bool} {id : ℕ}
    (hk : ((federating A).next (g i) ℓ).Knows saml id) :
    Database.hasCompletedIdpLogin saml s.db id = true := by
  cases ℓ with
  | read v =>
    obtain rfl : v = s.view i := hen
    have hk : ((g i).read (s.view i)).Knows saml id := hk
    cases hq : g i with
    | login =>
      rw [hq] at hk
      exact hk.elim
    | change known =>
      rw [hq] at hk
      rcases hk with hk | hdone
      · exact h.knows i saml id (hq ▸ hk)
      · exact h.sees (hq ▸ trivial) hdone
  | _ => exact h.knows i saml id hk

/-- The changes a request has pending after a step. -/
theorem Federating.pending_next (h : Federating A s g) (hen : s.Enabled i ℓ)
    (hv : (federating A).Vouched (g i) ℓ) {db : Database} (hdb : db.Federated A)
    (hknown : ∀ saml id, ((federating A).next (g i) ℓ).Knows saml id →
      db.hasCompletedIdpLogin saml id = true) :
    Database.Federated A ((s.connAfter i ℓ).pend db) := by
  cases ℓ with
  | read v => exact h.pending i db hdb fun saml id hk => hknown saml id (hk.read v)
  | wrote stmt seen eff =>
    refine (h.pending i db hdb hknown).stmt hen.2.1 hv.1 fun saml id hk => ?_
    exact Database.hasCompletedIdpLogin_mono (h.moves i db) (hknown saml id hk)
  | committed => exact hdb
  | rolledBack => exact hdb
  | commitFailed x => exact hdb
  | commitLost x => exact hdb
  | crashed x => exact hdb
  | _ => exact h.pending i db hdb hknown

/-- A change inserts no identity. -/
theorem Federating.aside_next (h : Federating A s g) (hen : s.Enabled i ℓ)
    (hv : (federating A).Vouched (g i) ℓ) (hi : ((federating A).next (g i) ℓ).Changes)
    (db : Database) :
    Database.oauthAccounts ((s.connAfter i ℓ).pend db) = db.oauthAccounts := by
  have hchanges : (g i).Changes := by
    cases hq : g i with
    | login =>
      rw [hq] at hi
      cases ℓ <;> exact hi.elim
    | change known => trivial
  cases ℓ with
  | wrote stmt seen eff =>
    calc Database.oauthAccounts (eff.delta ((s.conn i).pend db))
        = Database.oauthAccounts ((s.conn i).pend db) ++ stmt.identities :=
          denote_oauthAccounts hen.2.1 _
      _ = Database.oauthAccounts ((s.conn i).pend db) := by rw [hv.2 hchanges, List.append_nil]
      _ = db.oauthAccounts := h.aside i hchanges db
  | committed => rfl
  | rolledBack => rfl
  | commitFailed x => rfl
  | commitLost x => rfl
  | crashed x => rfl
  | _ => exact h.aside i hchanges db

variable [DecidableEq ι]

/-- **Every step keeps it.** -/
theorem Federating.after (h : Federating A s g) (hen : s.Enabled i ℓ)
    (hv : (federating A).Vouched (g i) ℓ) (p : Prog AuthSig α) :
    Federating A (s.after i ℓ p) (Function.update g i ((federating A).next (g i) ℓ)) where
  moves := h.moves.after accountsGrow hen p
  snapshots := h.snapshots.after accountsGrow h.moves p
  base := by
    rw [Sys.after_db]
    cases ℓ with
    | committed => exact h.pending i s.db h.base (h.knows i)
    | commitLost x => exact h.pending i s.db h.base (h.knows i)
    | _ => exact h.base
  knows := by
    refine (Function.forall_update_iff g fun _ q => ∀ saml id, q.Knows saml id →
      Database.hasCompletedIdpLogin saml (s.after i ℓ p).db id = true).mpr
      ⟨fun saml id hk => ?_, fun j _ saml id hk => ?_⟩
    · exact Database.hasCompletedIdpLogin_mono (accountsGrow.after h.moves i ℓ p)
        (h.knows_next hen hk)
    · exact Database.hasCompletedIdpLogin_mono (accountsGrow.after h.moves i ℓ p)
        (h.knows j saml id hk)
  pending :=
    Sys.forall_after (P := fun (c : Conn AuthSig) (q : FederationStage) => ∀ db : Database,
      db.Federated A → (∀ saml id, q.Knows saml id → db.hasCompletedIdpLogin saml id = true) →
        Database.Federated A (c.pend db))
      (fun _ hdb hknown => h.pending_next hen hv hdb hknown) fun j _ => h.pending j
  aside :=
    Sys.forall_after (P := fun (c : Conn AuthSig) (q : FederationStage) => q.Changes →
      ∀ db : Database, Database.oauthAccounts (c.pend db) = db.oauthAccounts)
      (h.aside_next hen hv) fun j _ => h.aside j

theorem federating_keeps (ok : Sys AuthSig ι α → ι → Label AuthSig → Prop) :
    (federating A).Keeps ok (fun _ _ _ => True) (Federating A (α := α)) where
  sees := fun _ _ _ _ => trivial
  after := fun p _ h hen _ _ hv => h.after hen hv p

/-! ## What the requests keep to -/

section

variable {F : Prop} {β : Type} {q : FederationStage}

/-- A login. -/
theorem login_follows {o : Op β} (h : o.Within True (Executing (Stmt.Federated
    OAuthAccount.WellScoped))) :
    o.Follows (federating A) True (fun _ q => q = .login) .login := by
  refine h.follows ?_ ?_ rfl
  · rintro q ℓ rfl hℓ
    cases ℓ with
    | wrote stmt seen eff =>
      refine ⟨?_, False.elim⟩
      cases stmt with
      | account stmt => cases stmt <;> exact hℓ
      | org stmt => cases stmt <;> first | exact hℓ.elim | trivial
      | _ => trivial
    | _ => trivial
  · rintro q ℓ rfl -
    cases ℓ <;> rfl

/-- Statements of a change that enforce nothing. -/
def Stmt.Configures (A : AppEnv) : Stmt → Prop
  | .org (.insertIdp saml row) => row.enforced = false ∧ row.Checked A saml
  | .org (.updateIdp saml _ columns) => columns.enforced = none ∧ columns.Keep A saml
  | .insertAuditEvent _ => True
  | _ => False

theorem Stmt.Configures.guarded {stmt : Stmt} (h : stmt.Configures A) (known : Bool → ℕ → Prop) :
    stmt.Guarded A known ∧ stmt.identities = [] := by
  cases stmt with
  | org stmt =>
    cases stmt with
    | insertIdp saml row => exact ⟨h, rfl⟩
    | updateIdp saml id columns =>
      refine ⟨⟨fun hon => ?_, h.2⟩, rfl⟩
      rw [h.1] at hon
      cases hon
    | _ => exact h.elim
  | insertAuditEvent event => exact ⟨trivial, rfl⟩
  | _ => exact h.elim

theorem federating_changes (h : q.Changes) (ℓ : Label AuthSig) :
    ((federating A).next q ℓ).Changes := by
  cases q with
  | login => exact h.elim
  | change known => cases ℓ <;> trivial

theorem configures_may {ℓ : Label AuthSig} (hℓ : Executing (Stmt.Configures A) ℓ) :
    (federating A).may q ℓ := by
  cases ℓ with
  | wrote stmt seen eff => exact (hℓ.guarded q.Knows).imp_right fun hnone _ => hnone
  | _ => trivial

/-- The part of a change that enforces nothing. -/
theorem configures_follows {o : Op β} (h : o.Within True (Executing (Stmt.Configures A)))
    (hq : q.Changes) : o.Follows (federating A) True (fun _ q => q.Changes) q :=
  h.follows (fun _ _ _ hℓ => configures_may hℓ) (fun _ ℓ hq _ => federating_changes hq ℓ) hq

theorem changes_bind {γ : Type} {o : Op β} {k : β → Op γ}
    (h : o.Follows (federating A) True (fun _ q => q.Changes) q)
    (hk : ∀ a q', q'.Changes → (k a).Follows (federating A) True (fun _ q => q.Changes) q') :
    (o.bind k).Follows (federating A) True (fun _ q => q.Changes) q := by
  refine h.handle fun r q' hq' => ?_
  cases r with
  | ok a => exact hk a q' hq'
  | error x => exact hq'

theorem changes_orElse {o : Op β} {f : Err → Op β}
    (h : o.Follows (federating A) True (fun _ q => q.Changes) q)
    (hf : ∀ x q', q'.Changes → (f x).Follows (federating A) True (fun _ q => q.Changes) q') :
    (o.orElse f).Follows (federating A) True (fun _ q => q.Changes) q := by
  refine h.handle fun r q' hq' => ?_
  cases r with
  | ok a => exact hq'
  | error x => exact hf x q' hq'

end

/-! ### The services -/

section

variable {F : Prop} {saml : Bool}

theorem auditIdp_configures (saml : Bool) (eventType : AuditEventType) (config : IdpConfig)
    (actorUserId : Option ℕ) (before after metadata : List (String × String)) :
    (auditIdp saml eventType config actorUserId before after metadata).Within F
      (Executing (Stmt.Configures A)) :=
  logEvent_executing (fun _ => trivial) _

/-- The end of a change: its audit row, and the commit. -/
theorem recordIdp_configures (saml : Bool) (eventType : AuditEventType) (config : IdpConfig)
    (actorUserId : Option ℕ) (before after metadata : List (String × String))
    (written : IdpConfig) :
    ((auditIdp saml eventType config actorUserId before after metadata).bind fun _ =>
      (commitNow : Op Unit).bind fun _ => ret written).Within F
        (Executing (Stmt.Configures A)) :=
  (auditIdp_configures _ _ _ _ _ _ _).bind fun _ => commitNow_executing.bind fun _ => trivial

theorem refreshIdp_configures (saml : Bool) (id : ℕ) :
    (refreshIdp saml id).Within F (Executing (Stmt.Configures A)) := by
  refine (query_executing _).bind fun config => ?_
  split <;> trivial

theorem writeIdp_configures (config : IdpConfig) {columns : IdpColumns}
    (hon : columns.enforced = none) (hkeep : columns.Keep A saml) :
    (writeIdp saml config columns).Within F (Executing (Stmt.Configures A)) :=
  Within.bind (execute_executing ⟨hon, hkeep⟩) fun _ => refreshIdp_configures _ _

theorem setIdpOverride_configures (created : AuditEventType) (config : IdpConfig) (reason : String)
    (actorUserId : ℕ) :
    (setIdpOverride saml created config reason actorUserId).Within F
      (Executing (Stmt.Configures A)) := by
  refine time_executing.bind fun now => ?_
  refine (writeIdp_configures _ rfl (IdpColumns.keep_of_apart rfl rfl rfl)).bind fun written => ?_
  exact recordIdp_configures _ _ _ _ _ _ _ _

theorem clearIdpOverride_configures (removed : AuditEventType) (config : IdpConfig)
    (actorUserId : Option ℕ) :
    (clearIdpOverride saml removed config actorUserId).Within F
      (Executing (Stmt.Configures A)) := by
  have hend : ∀ written : IdpConfig, Within F (Executing (Stmt.Configures A))
      ((commitNow : Op Unit).bind fun _ => ret written) := fun written =>
    commitNow_executing.bind fun _ => trivial
  refine (writeIdp_configures _ rfl (IdpColumns.keep_of_apart rfl rfl rfl)).bind fun written => ?_
  dsimp only
  split
  · refine time_executing.bind fun now => (auditIdp_configures _ _ _ _ _ _ _).bind fun _ => ?_
    exact hend _
  · exact hend _

theorem encryptSecret_bind {β : Type} {clientSecret : String} {k : String → Op β}
    (hk : ∀ e, A.encrypt clientSecret = some e →
      (k e).Within F (Executing (Stmt.Configures A))) :
    ((encryptSecret A clientSecret).bind k).Within F (Executing (Stmt.Configures A)) := by
  unfold encryptSecret
  cases hencrypt : A.encrypt clientSecret with
  | none => trivial
  | some e => exact hk e hencrypt

theorem configureSso_configures (organizationId : ℕ) (r : SsoConfigRequest) (actorUserId : ℕ)
    (fetched : Except String DiscoveryDoc) :
    (configureSso A organizationId r actorUserId fetched).Within F
      (Executing (Stmt.Configures A)) := by
  refine (query_executing _).bind fun existing => ?_
  split
  · trivial
  split
  · trivial
  rename_i doc hdoc
  obtain ⟨-, -, hauthorization, htoken, hjwks⟩ := verifyOidcDiscovery_ok.mp hdoc
  refine time_executing.bind fun now => encryptSecret_bind fun encrypted hencrypted => ?_
  refine draw_executing.bind fun id => Within.bind (execute_executing ⟨rfl, ?_⟩) fun _ => ?_
  · exact ⟨nofun, fun _ => ⟨hauthorization, htoken, hjwks, _, hencrypted⟩, nofun⟩
  · exact recordIdp_configures _ _ _ _ _ _ _ _

theorem rediscover_bind {β : Type} {config : IdpConfig} {u : SsoConfigUpdate}
    {fetched : Except String DiscoveryDoc} {k : OidcColumns → Op β}
    (hk : ∀ columns, columns.Keep A → (k columns).Within F (Executing (Stmt.Configures A))) :
    ((rediscover A config u fetched).bind k).Within F (Executing (Stmt.Configures A)) := by
  unfold rediscover
  cases u.newIssuer config with
  | none => exact hk {} OidcColumns.keep_none
  | some issuer =>
    dsimp only
    cases hdoc : verifyOidcDiscovery A issuer fetched with
    | error x => trivial
    | ok doc =>
      exact time_executing.bind fun now => hk _ (OidcTrust.discovered_keep hdoc _ _)

theorem storedSecret_bind {β : Type} {given : Option String} {k : Option String → Op β}
    (hk : ∀ encrypted, (∀ e, encrypted = some e → ∃ clientSecret, A.encrypt clientSecret = some e) →
      (k encrypted).Within F (Executing (Stmt.Configures A))) :
    ((storedSecret A given).bind k).Within F (Executing (Stmt.Configures A)) := by
  cases given with
  | none => exact hk none nofun
  | some clientSecret =>
    have hbind : (storedSecret A (some clientSecret)).bind k =
        (encryptSecret A clientSecret).bind fun e => k (some e) := bind_bind _ _ _
    rw [hbind]
    refine encryptSecret_bind fun e he => hk (some e) fun e' he' => ⟨clientSecret, ?_⟩
    rwa [← Option.some.inj he']

theorem updateSsoConfig_configures (config : IdpConfig) (actorUserId : ℕ) (u : SsoConfigUpdate)
    (fetched : Except String DiscoveryDoc) :
    (updateSsoConfig A config actorUserId u fetched).Within F (Executing (Stmt.Configures A)) := by
  have hactive : ∀ s, (u.newIssuer config).map (fun _ => IdpStatus.active) = some s →
      s = .active := by
    intro s hs
    obtain ⟨issuer, -, rfl⟩ := Option.map_eq_some_iff.mp hs
    rfl
  refine rediscover_bind fun columns hkeep => storedSecret_bind fun encrypted henc => ?_
  refine time_executing.bind fun now => ?_
  refine (writeIdp_configures _ rfl (updateSso_keep (hkeep.client _ henc) hactive _ _ _)).bind
    fun written => ?_
  exact recordIdp_configures _ _ _ _ _ _ _ _

theorem createSamlConfig_configures (organizationId : ℕ) (r : SamlConfigRequest)
    (actorUserId : ℕ) :
    (createSamlConfig A organizationId r actorUserId).Within F (Executing (Stmt.Configures A)) := by
  refine (query_executing _).bind fun existing => ?_
  split
  · trivial
  split
  · trivial
  rename_i hvalid
  obtain ⟨hentity, hsso, hcertificate, hslo⟩ := SamlConfigRequest.validate_ok.mp hvalid
  refine time_executing.bind fun now => draw_executing.bind fun id => ?_
  refine Within.bind (execute_executing ⟨rfl, ?_⟩) fun _ => ?_
  · exact ⟨nofun, nofun, fun _ => ⟨hentity, hsso, hcertificate, hslo⟩⟩
  · exact recordIdp_configures _ _ _ _ _ _ _ _

theorem updateSamlConfig_configures (config : IdpConfig) (actorUserId : ℕ) (u : SamlConfigUpdate) :
    (updateSamlConfig A config actorUserId u).Within F (Executing (Stmt.Configures A)) := by
  unfold updateSamlConfig
  split
  · trivial
  rename_i hvalid
  refine time_executing.bind fun now => ?_
  refine (writeIdp_configures _ rfl (updateSaml_keep hvalid config _ _ _ _)).bind fun written => ?_
  exact recordIdp_configures _ _ _ _ _ _ _ _

/-- **The check and the write.** Enforcement is switched on only for a configuration the
check saw signed in through. -/
theorem setIdpEnforced_follows {q : FederationStage} (hq : q.Changes) (protocol : String)
    (changed : AuditEventType) {config : IdpConfig} {enforced : Bool} (actorUserId : ℕ)
    (hne : config.enforced ≠ enforced) :
    (setIdpEnforced saml protocol changed config enforced actorUserId).Follows (federating A) True
      (fun _ q => q.Changes) q := by
  refine follows_query_bind.mpr ⟨fun v _ => ⟨trivial, ?_⟩, fun _ _ => hq⟩
  have hq' : ((federating A).next q (.read v)).Changes := federating_changes hq _
  dsimp only
  split
  · exact hq'
  rename_i hcheck
  have hknown : enforced = true → ((federating A).next q (.read v)).Knows saml config.id := by
    intro hon
    have hoff : config.enforced = false := by
      rw [hon] at hne
      exact Bool.eq_false_iff.mpr hne
    have hdone : v.hasCompletedIdpLogin saml config.id = true :=
      Bool.eq_true_of_not_eq_false fun hnot => hcheck ⟨hon, hoff, hnot⟩
    cases q with
    | login => exact hq.elim
    | change known => exact .inr hdone
  refine follows_time_bind.mpr fun now _ => ?_
  -- the enforcement changes, so the change is logged
  refine follows_returning_bind.mpr ⟨fun seen eff _ _ => ⟨⟨⟨fun hon => ?_, ?_⟩, fun _ => rfl⟩, ?_⟩,
    fun _ _ _ _ => ⟨trivial, hq'⟩, fun _ _ => hq'⟩
  · exact hknown (Option.some.inj hon)
  · exact IdpColumns.keep_of_apart rfl rfl rfl
  · refine configures_follows ((refreshIdp_configures _ _).bind fun written => ?_) hq'
    exact recordIdp_configures _ _ _ _ _ _ _ _

end

/-! ### The routes -/

theorem getIdpOr404_configures {F : Prop} (saml : Bool) (organizationId : ℕ) :
    (getIdpOr404 saml organizationId).Within F (Executing (Stmt.Configures A)) := by
  refine (query_executing _).bind fun config => ?_
  split <;> trivial

theorem patchIdp_follows {q : FederationStage} (hq : q.Changes) (saml : Bool)
    {update : IdpConfig → Op IdpConfig} {setEnforced : IdpConfig → Bool → ℕ → Op IdpConfig}
    (hupdate : ∀ config, (update config).Within True (Executing (Stmt.Configures A)))
    (organizationId actorUserId : ℕ) (enforced : Option Bool)
    (hset : ∀ q' : FederationStage, q'.Changes → ∀ config enforced, config.enforced ≠ enforced →
      (setEnforced config enforced actorUserId).Follows (federating A) True
        (fun _ q => q.Changes) q') :
    (patchIdp saml update setEnforced organizationId actorUserId enforced).Follows
      (federating A) True (fun _ q => q.Changes) q := by
  refine changes_bind (configures_follows (getIdpOr404_configures _ _) hq) fun config q₁ hq₁ => ?_
  refine changes_orElse ?_ fun x q₂ hq₂ => hq₂
  refine changes_bind (configures_follows (hupdate config) hq₁) fun updated q₂ hq₂ => ?_
  refine changes_bind (configures_follows (refreshIdp_configures _ _) hq₂) fun config q₃ hq₃ => ?_
  split
  · exact hq₃
  · rename_i e he
    have hne : e ≠ config.enforced := by
      simpa using (Option.filter_eq_some_iff.mp he).2
    exact hset q₃ hq₃ config e hne.symm

theorem IdpRequest.follows (r : IdpRequest) {q : FederationStage} (hq : q.Changes) :
    (r.op A).Follows (federating A) True (fun _ q => q.Changes) q := by
  have hraise : ∀ {o : Op IdpConfig}, o.Within True (Executing (Stmt.Configures A)) →
      (o.orElse fun x => raise (idpAnswer 409 x)).Follows (federating A) True (fun _ q => q.Changes)
        q := fun h => configures_follows (h.orElse fun _ => trivial) hq
  cases r with
  | createSso organizationId actorUserId r fetched => exact hraise (configureSso_configures _ _ _ _)
  | createSaml organizationId actorUserId r => exact hraise (createSamlConfig_configures _ _ _)
  | updateSso organizationId actorUserId u enforced fetched =>
    exact patchIdp_follows hq false (fun config => updateSsoConfig_configures config _ _ _) _ _ _
      fun q' hq' config e hne => setIdpEnforced_follows hq' _ _ _ hne
  | updateSaml organizationId actorUserId u enforced =>
    exact patchIdp_follows hq true (fun config => updateSamlConfig_configures config _ _) _ _ _
      fun q' hq' config e hne => setIdpEnforced_follows hq' _ _ _ hne
  | overrideSso organizationId actorUserId reason =>
    exact configures_follows ((getIdpOr404_configures _ _).bind fun config =>
      setIdpOverride_configures _ _ _ _) hq
  | clearSso organizationId actorUserId =>
    exact configures_follows ((getIdpOr404_configures _ _).bind fun config =>
      clearIdpOverride_configures _ _ _) hq
  | overrideSaml organizationId actorUserId reason =>
    exact configures_follows ((getIdpOr404_configures _ _).bind fun config =>
      setIdpOverride_configures _ _ _ _) hq
  | clearSaml organizationId actorUserId =>
    exact configures_follows ((getIdpOr404_configures _ _).bind fun config =>
      clearIdpOverride_configures _ _ _) hq

/-! ## Every run -/

variable (A) in
/-- A login, or a change of how an organization's members sign in. -/
inductive FederationCall
  | login (call : LoginCall A)
  | idp (r : IdpRequest)

/-- The call as its route makes it: the session is closed at its end. -/
def FederationCall.op : FederationCall A → Op Unit
  | login call => (call.op.bind fun _ => ret ()).close
  | idp r => ((r.op A).bind fun _ => ret ()).close

def FederationCall.stage : FederationCall A → FederationStage
  | login _ => .login
  | idp _ => .change fun _ _ => False

/-- The identity of a link confirmation is one a callback asked for. -/
def FederationCall.Vouched : FederationCall A → Prop
  | login call => call.Vouched
  | idp _ => True

theorem FederationCall.follows (call : FederationCall A) (hv : call.Vouched) :
    call.op.Follows (federating A) True (fun _ _ => True) call.stage := by
  cases call with
  | login call =>
    refine Follows.close (Follows.mono (login_follows ?_) fun _ _ _ => trivial)
    exact (call.federated hv).bind fun _ => trivial
  | idp r =>
    have hfollows := r.follows (A := A) (q := .change fun _ _ => False) trivial
    have hend := changes_bind (k := fun _ => ret ()) hfollows fun _ _ hq => hq
    exact Follows.close (hend.mono fun _ _ _ => trivial)

/-- **Every run keeps the invariant.** -/
theorem federated_run {ok : Sys AuthSig ι Unit → ι → Label AuthSig → Prop} {db : Database}
    {now next : ℕ} {calls : ι → FederationCall A} {s : Sys AuthSig ι Unit} (hdb : db.Federated A)
    (hv : ∀ i, (calls i).Vouched)
    (hrun : Sys.Run True ok (Sys.start db now next fun i => (calls i).op) s) :
    Database.Federated A s.db := by
  have hknows : ∀ (call : FederationCall A) saml id, ¬ call.stage.Knows saml id := by
    intro call saml id hk
    cases call <;> exact hk
  have hstart : Federating A (Sys.start db now next fun i => (calls i).op)
      (fun i => (calls i).stage) :=
    ⟨accountsGrow.pending_start _ _ _ _, accountsGrow.snapshots_start _ _ _ _, hdb,
      fun i saml id hk => absurd hk (hknows _ _ _), fun i db hdb _ => hdb, fun i _ db => rfl⟩
  obtain ⟨-, g, hfed, -⟩ := Follows.run (federating_keeps ok) (fun _ _ _ _ => trivial)
    (Sys.exclusive_start _ _ _ _) hstart (fun i => (calls i).follows (hv i)) hrun
  exact hfed.base

/-! ## One row an identity -/

/-- The provider of the identities of a protocol. -/
def idpProvider (saml : Bool) : String := if saml then "saml" else "oidc"

theorem OAuthAccount.WellScoped.provider {a : OAuthAccount} (h : a.WellScoped) {saml : Bool}
    {configId : ℕ} (hid : a.idpConfigId saml = some configId) : a.provider = idpProvider saml := by
  cases saml with
  | false =>
    have hsso : a.organizationSsoConfigId = some configId := hid
    rcases h with ⟨-, hnone, -⟩ | ⟨hprovider, -⟩ | ⟨-, hnone, -⟩
    · cases hnone.symm.trans hsso
    · exact hprovider
    · cases hnone.symm.trans hsso
  | true =>
    have hsaml : a.organizationSamlConfigId = some configId := hid
    rcases h with ⟨-, -, hnone⟩ | ⟨-, -, hnone⟩ | ⟨hprovider, -⟩
    · cases hnone.symm.trans hsaml
    · cases hnone.symm.trans hsaml
    · exact hprovider

/-- An identity answers for a configuration through the key of it. -/
theorem OAuthAccount.key_mem {a : OAuthAccount} {saml : Bool} {configId : ℕ}
    (hid : a.idpConfigId saml = some configId) :
    RowKey.identity a.provider a.providerUserId saml configId ∈ a.keys := by
  cases saml with
  | false =>
    have hsso : a.organizationSsoConfigId = some configId := hid
    refine List.mem_append_left _ (List.mem_map_of_mem ?_)
    rw [hsso]
    exact List.mem_singleton_self _
  | true =>
    have hsaml : a.organizationSamlConfigId = some configId := hid
    refine List.mem_append_right _ (List.mem_map_of_mem ?_)
    rw [hsaml]
    exact List.mem_singleton_self _

theorem OAuthAccount.keys_nodup (a : OAuthAccount) : a.keys.Nodup := by
  unfold OAuthAccount.keys
  cases a.organizationSsoConfigId <;> cases a.organizationSamlConfigId <;> simp

/-- **The identities of the configurations**, a unique index that never lets go. -/
def identityKeys : Index AuthSig RowKey Unit where
  entries db := (Database.oauthAccounts db).flatMap fun a => a.keys.map fun k => (k, ())
  lock := id
  stmt := by
    intro stmt seen eff h
    refine ⟨fun _ => true, stmt.identities.flatMap fun a => a.keys.map fun k => (k, ()),
      fun db => ?_, fun e he => ?_, ?_⟩
    · rw [denote_oauthAccounts h, List.flatMap_append, List.filter_true]
    · obtain ⟨a, ha, hkey⟩ := List.mem_flatMap.mp he
      obtain ⟨k, hk, rfl⟩ := List.mem_map.mp hkey
      obtain ⟨hlocks, hfree⟩ := denote_identity h ha
      refine ⟨hlocks k hk, fun hmem => ?_⟩
      obtain ⟨e', he', rfl⟩ := List.mem_map.mp hmem
      obtain ⟨a', ha', hkey'⟩ := List.mem_flatMap.mp he'
      obtain ⟨k', hk', rfl⟩ := List.mem_map.mp hkey'
      exact hfree a' ha' k' hk' hk
    · rcases stmt.identities_inv with hnone | ⟨row, rfl⟩
      · rw [hnone]
        exact List.nodup_nil
      · simpa [Stmt.identities, Function.comp_def] using row.keys_nodup

/-- The rows that answer for an identity of a configuration. -/
def Database.identitiesOf (db : Database) (saml : Bool) (provider providerUserId : String)
    (configId : ℕ) : List OAuthAccount :=
  db.oauthAccounts.filter fun a => a.provider = provider ∧ a.providerUserId = providerUserId ∧
    a.idpConfigId saml = some configId

theorem identityKeys_unique {db : Database} (h : identityKeys.Unique db) (saml : Bool)
    (provider providerUserId : String) (configId : ℕ) :
    (db.identitiesOf saml provider providerUserId configId).length ≤ 1 := by
  have hkeys : (db.oauthAccounts.flatMap OAuthAccount.keys).Nodup := by
    have hfst : (identityKeys.entries db).map Prod.fst =
        db.oauthAccounts.flatMap OAuthAccount.keys := by
      simp [identityKeys, List.map_flatMap, Function.comp_def]
    exact hfst ▸ h
  have hapart := (List.nodup_flatMap.mp hkeys).2
  refine length_filter_le_one (hapart.imp fun hdisjoint ha hb => ?_)
  obtain ⟨rfl, rfl, hid⟩ := ha
  obtain ⟨hprovider, huser, hid'⟩ := hb
  refine hdisjoint (OAuthAccount.key_mem hid) ?_
  rw [← hprovider, ← huser]
  exact OAuthAccount.key_mem hid'

/-- **Nobody is locked out.** Whatever logins and changes are made at once and whatever fails:
identities are scoped as their provider is, one row at most answers for an identity of a
configuration, configurations have passed their checks, and one that is enforced has been
signed in through. -/
theorem federation_run {ok : Sys AuthSig ι Unit → ι → Label AuthSig → Prop} {db : Database}
    {now next : ℕ} {calls : ι → FederationCall A} {s : Sys AuthSig ι Unit} (hdb : db.Federated A)
    (hkeys : identityKeys.Unique db) (hv : ∀ i, (calls i).Vouched)
    (hrun : Sys.Run True ok (Sys.start db now next fun i => (calls i).op) s) :
    (∀ a ∈ Database.oauthAccounts s.db, a.WellScoped) ∧
      (∀ saml provider providerUserId configId,
        (Database.identitiesOf s.db saml provider providerUserId configId).length ≤ 1) ∧
      ∀ saml, ∀ config ∈ Database.idpConfigs saml s.db, config.Checked A saml ∧
        (config.enforced = true → ∃ a ∈ Database.oauthAccounts s.db, a.provider = idpProvider saml ∧
          a.idpConfigId saml = some config.id) := by
  have hfed := federated_run hdb hv hrun
  obtain ⟨hholds, -⟩ := (identityKeys.holds_start hkeys now next _).run
    (Sys.exclusive_start _ _ _ _) hrun
  refine ⟨hfed.identities, fun saml provider providerUserId configId =>
    identityKeys_unique hholds.base saml provider providerUserId configId,
    fun saml config hconfig => ⟨hfed.checked saml config hconfig, fun hon => ?_⟩⟩
  obtain ⟨a, ha, hid⟩ := Database.hasCompletedIdpLogin_iff.mp (hfed.proven saml config hconfig hon)
  exact ⟨a, ha, (hfed.identities a ha).provider hid, hid⟩

/-! ## The token of a link -/

/-- The token a callback issues for a well scoped identity vouches for it. -/
theorem issueLinkConfirmation_vouched (hJ : A.jose.Lawful) {user : User} {identity : Identity}
    (hidentity : ∀ id userId, (identity.account id userId).WellScoped) {idpOrgId : Option ℕ}
    {w w' : World} {linkToken : A.Token}
    (h : (issueLinkConfirmation A user identity idpOrgId).Exec w (.ok linkToken) w')
    (password : String) : LoginCall.Vouched (.linkConfirm ⟨linkToken, password⟩) := by
  intro now claims id userId hdecode
  unfold issueLinkConfirmation assertSingleIdpScope at h
  split at h
  · cases (h : _ ∧ _).1
  obtain ⟨t, -, htoken, -⟩ := h
  obtain rfl := Except.ok.inj htoken
  unfold decodeLink at hdecode
  split at hdecode
  · cases hdecode
  rename_i payload hpayload
  split at hdecode
  · cases hdecode
  obtain ⟨rfl, -⟩ := decodeToken_sign_ok hJ hpayload
  obtain rfl := Except.ok.inj hdecode
  exact hidentity id userId

end OmniAuth
