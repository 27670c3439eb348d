import OmniAuth.Credential.Service
import OmniAuth.Session.Steps

/-!
# Credential references

Every call that touches a credential moves its version on. So a reference, which keeps the
version it was issued for, opens the row it was issued for or nothing.
-/

namespace OmniAuth

open Txn Prog

variable {A : AppEnv} {F : Prop} {w w' : World}

/-! ## Reading -/

theorem integrationUserId_within (user : Claims) :
    (integrationUserId user).Within F (Reading F) := by
  unfold integrationUserId
  split <;> trivial

theorem requireManageOrg_within (administer : Bool) (membership : OrganizationMembership) :
    (requireManageOrg administer membership).Within F (Reading F) := by
  unfold requireManageOrg
  split
  · refine (query_within _).bind fun permissions => ?_
    show (if _ then _ else _ : Op Unit).Within F _
    split <;> trivial
  · trivial

theorem requireOrgContext_within (user : Claims) (administer : Bool) :
    (requireOrgContext user administer).Within F (Reading F) := by
  refine (integrationUserId_within user).bind fun userId => ?_
  refine (query_within _).bind fun membership => ?_
  cases activeOrgId user with
  | none => trivial
  | some orgId =>
    cases membership with
    | none => trivial
    | some membership => exact (requireManageOrg_within _ _).bind fun _ => trivial

theorem requirePolicy_within (policy : Option ProviderPolicy) :
    (requirePolicy policy).Within F (Reading F) := by
  cases policy <;> trivial

theorem requireScope_within (policy : ProviderPolicy) (scope : CredentialScope) :
    (requireScope policy scope).Within F (Reading F) := by
  unfold requireScope
  split <;> trivial

theorem raising_within {α : Type} (result : Except Err α) :
    (raising result).Within F (Reading F) := by
  cases result <;> trivial

theorem credentialOwner_within (scope : CredentialScope) (user : Claims) (administerOrg : Bool) :
    (credentialOwner scope user administerOrg).Within F (Reading F) := by
  refine (integrationUserId_within user).bind fun userId => ?_
  cases scope with
  | organization => exact (requireOrgContext_within _ _).bind fun _ => trivial
  | _ => trivial

theorem queryOwner_within (providerId : String) (scope : CredentialScope) (user : Claims) :
    (queryOwner providerId scope user).Within F (Reading F) :=
  (credentialOwner_within _ _ _).bind fun _ => query_within _

theorem sealCredential_within (payload : List (String × String))
    (displayMetadata : Option (List (String × String))) :
    (sealCredential A payload displayMetadata).Within F (Reading F) := by
  unfold sealCredential
  split
  · trivial
  · exact (raising_within _).bind fun _ => trivial

theorem refreshCredential_within (id : ℕ) : (refreshCredential id).Within F (Reading F) := by
  refine (query_within _).bind fun row => ?_
  cases row <;> trivial

theorem requireBinding_within (consumer purpose : String) :
    (requireBinding consumer purpose).Within F (Reading F) := by
  unfold requireBinding
  split <;> trivial

theorem requireSubject_within (r : IntegrationCredentialReference) :
    (requireSubject r).Within F (Reading F) := by
  unfold requireSubject
  split
  · trivial
  · refine (query_within _).bind fun membership => ?_
    show (if _ then _ else _ : Op Unit).Within F _
    split <;> trivial

/-! ## What moves -/

/-- The two tables. -/
def Database.vault (db : Database) :
    List IntegrationCredential × List IntegrationCredentialReference :=
  (db.integrationCredentials, db.integrationCredentialReferences)

theorem leaves_vault_audit (event : AuditEvent) :
    (Stmt.insertAuditEvent event).Leaves Database.vault := by
  rintro seen eff h db
  obtain rfl := Except.ok.inj h
  rfl

theorem logEvent_leaves (event : AuditEvent) :
    (logEvent event false).Within F (Inside (Stmt.Leaves Database.vault)) :=
  logEvent_inside event leaves_vault_audit

/-- Ids are keys. -/
def Database.CredentialKeys (db : Database) : Prop := (db.integrationCredentials.map (·.id)).Nodup

theorem Database.credentialById_eq_some {db : Database} (hkeys : db.CredentialKeys)
    {c : IntegrationCredential} {id : ℕ} :
    db.credentialById id = some c ↔ c ∈ db.integrationCredentials ∧ c.id = id := by
  constructor
  · intro h
    exact ⟨List.mem_of_find?_eq_some h, by simpa using List.find?_some h⟩
  · rintro ⟨hc, rfl⟩
    cases hfind : db.credentialById c.id with
    | none =>
      have hnone := List.find?_eq_none.mp hfind c hc
      simp at hnone
    | some c' =>
      have hid : c'.id = c.id := by simpa using List.find?_some hfind
      have hc' : c' ∈ db.integrationCredentials := List.mem_of_find?_eq_some hfind
      rw [List.inj_on_of_nodup_map hkeys hc' hc hid]

/-- A row stays, or its version moves on. -/
def Advances (before after : Option IntegrationCredential) : Prop :=
  after = before ∨ ∃ c', after = some c' ∧ ∀ c, before = some c → c.version < c'.version

theorem Advances.trans {a b c : Option IntegrationCredential} (h : Advances a b)
    (h' : Advances b c) : Advances a c := by
  rcases h with rfl | ⟨row, rfl, hrow⟩
  · exact h'
  · rcases h' with rfl | ⟨row', rfl, hrow'⟩
    · exact .inr ⟨row, rfl, hrow⟩
    · exact .inr ⟨row', rfl, fun c hc => lt_trans (hrow c hc) (hrow' row rfl)⟩

/-- The reference is what `r` was, or revoked. -/
def IntegrationCredentialReference.FadesTo (r r' : IntegrationCredentialReference) : Prop :=
  r' = r ∨ ∃ t, r' = { r with revokedAt := some t }

/-- What the calls may do to the two tables, short of a new reference. -/
structure Database.Moves (db db' : Database) : Prop where
  keys : db'.CredentialKeys
  rows : ∀ id, Advances (db.credentialById id) (db'.credentialById id)
  references : ∀ r' ∈ db'.integrationCredentialReferences,
    ∃ r ∈ db.integrationCredentialReferences, r.FadesTo r'

theorem Database.moves_of_vault {db db' : Database} (hkeys : db.CredentialKeys)
    (h : db'.vault = db.vault) : db.Moves db' := by
  have hrows : db'.integrationCredentials = db.integrationCredentials := congrArg Prod.fst h
  have hrefs : db'.integrationCredentialReferences = db.integrationCredentialReferences :=
    congrArg Prod.snd h
  refine ⟨?_, fun id => .inl ?_, fun r hr => ⟨r, hrefs ▸ hr, .inl rfl⟩⟩
  · unfold Database.CredentialKeys
    rw [hrows]
    exact hkeys
  · unfold Database.credentialById
    rw [hrows]

theorem Database.Moves.trans {db db' db'' : Database} (h : db.Moves db') (h' : db'.Moves db'') :
    db.Moves db'' := by
  refine ⟨h'.keys, fun id => (h.rows id).trans (h'.rows id), fun r'' hr'' => ?_⟩
  obtain ⟨r', hr', hfade'⟩ := h'.references r'' hr''
  obtain ⟨r, hr, hfade⟩ := h.references r' hr'
  refine ⟨r, hr, ?_⟩
  rcases hfade' with rfl | ⟨t, rfl⟩
  · exact hfade
  · rcases hfade with rfl | ⟨t', rfl⟩ <;> exact .inr ⟨t, rfl⟩

@[simp] theorem IntegrationCredential.set_id (columns : CredentialColumns)
    (c : IntegrationCredential) : (c.set columns).id = c.id := rfl

theorem Database.updateCredential_keys {db : Database} {id : ℕ} {columns : CredentialColumns}
    (hkeys : db.CredentialKeys) :
    (db.updateCredential id (IntegrationCredential.set columns)).CredentialKeys := by
  unfold Database.CredentialKeys Database.updateCredential
  rw [List.map_map]
  refine (List.map_congr_left fun c _ => ?_) ▸ hkeys
  show c.id = (if c.id = id then c.set columns else c).id
  split <;> rfl

theorem Database.credentialById_update (db : Database) (rowId : ℕ) (columns : CredentialColumns)
    (id : ℕ) :
    (db.updateCredential rowId (IntegrationCredential.set columns)).credentialById id =
      (db.credentialById id).map fun c => if c.id = rowId then c.set columns else c := by
  unfold Database.credentialById Database.updateCredential
  rw [List.find?_map]
  congr 2
  funext c
  show decide ((if c.id = rowId then c.set columns else c).id = id) = decide (c.id = id)
  split <;> rfl

/-- `row` is there now, and of a later version than what had its id. -/
def Database.Outdates (db : Database) (row : IntegrationCredential) (db' : Database) : Prop :=
  db'.credentialById row.id = some row ∧
    ∀ c, db.credentialById row.id = some c → c.version < row.version

/-- **An update moves the version on** of the row it was computed from. -/
theorem Database.outdates_update {db : Database} (hkeys : db.CredentialKeys)
    {row : IntegrationCredential} (hrow : row ∈ db.integrationCredentials)
    {columns : CredentialColumns} (hversion : columns.version = some (row.version + 1)) :
    db.Outdates (row.set columns)
      (db.updateCredential row.id (IntegrationCredential.set columns)) := by
  have hfound : db.credentialById row.id = some row :=
    (Database.credentialById_eq_some hkeys).mpr ⟨hrow, rfl⟩
  refine ⟨?_, fun c hc => ?_⟩
  · rw [IntegrationCredential.set_id, Database.credentialById_update, hfound]
    simp
  · rw [IntegrationCredential.set_id, hfound] at hc
    obtain rfl := Option.some.inj hc
    show row.version < columns.version.getD row.version
    rw [hversion]
    exact Nat.lt_succ_self _

theorem Database.moves_update {db : Database} (hkeys : db.CredentialKeys)
    {row : IntegrationCredential} (hrow : row ∈ db.integrationCredentials)
    {columns : CredentialColumns} (hversion : columns.version = some (row.version + 1)) :
    db.Moves (db.updateCredential row.id (IntegrationCredential.set columns)) := by
  refine ⟨Database.updateCredential_keys hkeys, fun id => ?_, fun r hr => ⟨r, hr, .inl rfl⟩⟩
  by_cases hsame : id = row.id
  · subst hsame
    obtain ⟨hnow, hlater⟩ := Database.outdates_update hkeys hrow hversion
    exact .inr ⟨_, hnow, hlater⟩
  · rw [Database.credentialById_update]
    cases hfind : db.credentialById id with
    | none => exact .inl rfl
    | some c =>
      obtain ⟨_, hid⟩ := (Database.credentialById_eq_some hkeys).mp hfind
      have hother : c.id ≠ row.id := fun h => hsame (hid.symm.trans h)
      exact .inl (by simp [hother])

theorem Database.moves_insert {db : Database} (hkeys : db.CredentialKeys)
    {row : IntegrationCredential} (hfresh : ∀ c ∈ db.integrationCredentials, c.id ≠ row.id) :
    db.Moves { db with integrationCredentials := db.integrationCredentials ++ [row] } := by
  have hnew : row.id ∉ db.integrationCredentials.map (·.id) := by
    intro h
    obtain ⟨c, hc, hid⟩ := List.mem_map.mp h
    exact hfresh c hc hid
  refine ⟨?_, fun id => ?_, fun r hr => ⟨r, hr, .inl rfl⟩⟩
  · unfold Database.CredentialKeys
    rw [List.map_append, List.map_singleton]
    exact List.nodup_append.mpr ⟨hkeys, by simp, by
      rintro a ha b hb rfl
      rw [List.mem_singleton] at hb
      exact hnew (hb ▸ ha)⟩
  · unfold Database.credentialById
    rw [List.find?_append]
    cases hfind : db.integrationCredentials.find? (·.id = id) with
    | some c => exact .inl rfl
    | none =>
      cases hone : [row].find? (·.id = id) with
      | none => exact .inl rfl
      | some c => exact .inr ⟨c, rfl, fun _ h => by cases h⟩

theorem Database.outdates_insert {db : Database} {row : IntegrationCredential}
    (hfresh : ∀ c ∈ db.integrationCredentials, c.id ≠ row.id) :
    db.Outdates row
      { db with integrationCredentials := db.integrationCredentials ++ [row] } := by
  have hnone : db.credentialById row.id = none :=
    List.find?_eq_none.mpr fun c hc => by simpa using hfresh c hc
  refine ⟨?_, fun c hc => ?_⟩
  · show (db.integrationCredentials ++ [row]).find? _ = some row
    rw [List.find?_append, show db.integrationCredentials.find? (·.id = row.id) = none from hnone]
    simp
  · rw [hnone] at hc
    cases hc

theorem Database.moves_revokeReferences {db : Database} (hkeys : db.CredentialKeys)
    (credentialId t : ℕ) :
    db.Moves { db with integrationCredentialReferences :=
      db.integrationCredentialReferences.map fun r =>
        if r.credentialId = credentialId ∧ r.revokedAt = none then
          { r with revokedAt := some t } else r } := by
  refine ⟨hkeys, fun id => .inl rfl, fun r' hr' => ?_⟩
  obtain ⟨r, hr, rfl⟩ := List.mem_map.mp hr'
  refine ⟨r, hr, ?_⟩
  show r.FadesTo (if r.credentialId = credentialId ∧ r.revokedAt = none then
    { r with revokedAt := some t } else r)
  split
  · exact .inr ⟨t, rfl⟩
  · exact .inl rfl

/-! ## Setting and revoking -/

/-- What a write of a credential comes to: it moves the tables on, and the row it returns. -/
structure Database.Writes (db : Database) (t : ℕ) (r : Except Err IntegrationCredential)
    (w' : World) : Prop where
  moves : db.Moves w'.base
  now : t ≤ w'.now
  outdates : ∀ row, r = .ok row → db.Outdates row w'.base

theorem Database.Writes.refused {db : Database} {t : ℕ} (hkeys : db.CredentialKeys) (x : Err)
    (w' : World) (h : Rests db t w') : db.Writes t (.error x) w' := by
  refine ⟨?_, h.now, nofun⟩
  rw [h.base]
  exact Database.moves_of_vault hkeys rfl

/-- The end of a write: its audit row, the commit, and the row read back. -/
theorem recordCredential_ends {db : Database} {event : AuditEvent} {c : IntegrationCredential}
    (hbase : w.base = db) (hkeys : db.CredentialKeys) (hmoves : db.Moves w.cur)
    (hrow : db.Outdates c w.cur) :
    (Prog.bind (logEvent event false) fun _ =>
      commitNow.bind fun _ => refreshCredential c.id).Ends w (db.Writes w.now) := by
  refine ends_leaving_bind (logEvent_leaves event) (fun _ w₁ hbase₁ hvault hnow => ?_)
    fun x w₁ hbase₁ hnow => ⟨?_, hnow, nofun⟩
  · have hcommitted : db.Moves w₁.cur := hmoves.trans (Database.moves_of_vault hmoves.keys hvault)
    have hread : w₁.cur.credentialById c.id = some c := by
      unfold Database.credentialById
      rw [show w₁.cur.integrationCredentials = w.cur.integrationCredentials from
        congrArg Prod.fst hvault]
      exact hrow.1
    refine ends_commitNow_bind.mpr (ends_query_bind.mpr ?_)
    dsimp only
    rw [hread]
    refine ends_ret.mpr ⟨hcommitted, hnow, ?_⟩
    rintro _ ⟨⟩
    exact ⟨hread, hrow.2⟩
  · rw [hbase₁, hbase]
    exact Database.moves_of_vault hkeys rfl

/-- **The flush** inserts a row or moves one on. -/
theorem flushCredential_ends {providerId : String} {scope : CredentialScope}
    {owner : CredentialOwner} {input : CredentialInput} {actorId now : ℕ}
    {row : Option IntegrationCredential} (hkeys : w.cur.CredentialKeys)
    (hrow : ∀ c, row = some c → c ∈ w.cur.integrationCredentials) :
    (flushCredential providerId scope owner input actorId now row).Ends w fun r w' =>
      w'.base = w.base ∧ w.now ≤ w'.now ∧ ∀ id, r = .ok id → w.cur.Moves w'.cur ∧
        ∃ c, c.id = id ∧ w.cur.Outdates c w'.cur := by
  cases row with
  | some c =>
    refine ends_returning_bind.mpr ⟨fun eff heff => ?_, nofun⟩
    obtain rfl := Except.ok.inj heff
    refine ends_ret.mpr ⟨rfl, le_refl _, ?_⟩
    rintro _ ⟨⟩
    exact ⟨Database.moves_update hkeys (hrow c rfl) rfl, _, IntegrationCredential.set_id _ c,
      Database.outdates_update hkeys (hrow c rfl) rfl⟩
  | none =>
    refine ends_draw_bind.mpr ?_
    refine ends_returning_bind.mpr ⟨fun eff heff => ?_, fun x _ => ⟨rfl, le_refl _, nofun⟩⟩
    simp only [denote, CredentialStmt.denote] at heff
    split at heff
    · cases heff
    rename_i hfree
    obtain rfl := Except.ok.inj heff
    refine ends_ret.mpr ⟨rfl, le_refl _, ?_⟩
    rintro _ ⟨⟩
    have hfresh : ∀ c ∈ w.cur.integrationCredentials, c.id ≠ w.next := by
      intro c hc hid
      exact hfree ⟨c, hc, .inl hid⟩
    exact ⟨Database.moves_insert hkeys hfresh, _, rfl, Database.outdates_insert hfresh⟩

/-- **`set_credential`** -/
theorem setCredential_ends (providerId : String) (scope : CredentialScope)
    (credentials : List (String × String)) (displayMetadata : Option (List (String × String)))
    (user : Claims) (policy : Option ProviderPolicy) (hidle : w.cur = w.base)
    (hkeys : w.base.CredentialKeys) :
    (setCredential A providerId scope credentials displayMetadata user policy).Ends w
      (w.base.Writes w.now) := by
  unfold setCredential
  refine ends_reading_bind (requirePolicy_within policy) ⟨rfl, hidle, le_refl _⟩
    (fun policy _ h => ?_) (.refused hkeys)
  refine ends_reading_bind (requireScope_within policy scope) h (fun _ _ h => ?_) (.refused hkeys)
  refine ends_reading_bind (credentialOwner_within _ _ _) h (fun owner _ h => ?_) (.refused hkeys)
  refine ends_reading_bind (raising_within _) h (fun payload _ h => ?_) (.refused hkeys)
  refine ends_reading_bind (integrationUserId_within _) h (fun actorId w₁ h => ?_) (.refused hkeys)
  refine ends_query_bind.mpr ?_
  refine ends_time_bind.mpr fun t ht => ?_
  refine ends_reading_bind (sealCredential_within _ _) ⟨h.base, h.cur, le_trans h.now ht⟩
    (fun input w₂ h₂ => ?_) (.refused hkeys)
  refine ends_handle.mpr ((flushCredential_ends (h₂.cur ▸ hkeys) fun c hc => ?_).mono ?_)
  · -- the row that was looked up is still there
    rw [h₂.cur, ← h.cur]
    exact List.mem_of_find?_eq_some hc
  · rintro (x | id) w₃ ⟨hbase, hnow, hflush⟩
    · refine ends_raise.mpr ⟨?_, le_trans h₂.now hnow, nofun⟩
      rw [hbase.trans h₂.base]
      exact Database.moves_of_vault hkeys rfl
    · obtain ⟨hmoves, row, rfl, hrow⟩ := hflush id rfl
      rw [h₂.cur] at hmoves hrow
      refine (recordCredential_ends (hbase.trans h₂.base) hkeys hmoves hrow).mono ?_
      rintro r w' ⟨hmoved, hnow', houtdates⟩
      exact ⟨hmoved, le_trans h₂.now (le_trans hnow hnow'), houtdates⟩

/-- **`revoke_credential`** -/
theorem revokeCredential_ends (providerId : String) (scope : CredentialScope) (user : Claims)
    (policy : Option ProviderPolicy) (hidle : w.cur = w.base) (hkeys : w.base.CredentialKeys) :
    (revokeCredential providerId scope user policy).Ends w
      (w.base.Writes w.now) := by
  unfold revokeCredential
  refine ends_reading_bind (requirePolicy_within policy) ⟨rfl, hidle, le_refl _⟩
    (fun policy _ h => ?_) (.refused hkeys)
  refine ends_reading_bind (requireScope_within policy scope) h (fun _ _ h => ?_) (.refused hkeys)
  refine ends_reading_bind (credentialOwner_within _ _ _) h (fun owner w₁ h => ?_) (.refused hkeys)
  refine ends_query_bind.mpr ?_
  split
  · exact ends_raise.mpr (.refused hkeys _ _ h)
  rename_i row hrow
  unfold revokeRow
  refine ends_time_bind.mpr fun t ht => ?_
  have h₁ : Rests w.base w.now { w₁ with now := t } := ⟨h.base, h.cur, le_trans h.now ht⟩
  refine ends_reading_bind (integrationUserId_within _) h₁ (fun actorId w₂ h₂ => ?_) (.refused hkeys)
  refine ends_returning_bind.mpr ⟨fun eff heff => ?_, nofun⟩
  obtain rfl := Except.ok.inj heff
  refine ends_returning_bind.mpr ⟨fun eff heff => ?_, nofun⟩
  obtain rfl := Except.ok.inj heff
  have hmem : row ∈ w.base.integrationCredentials := h.cur ▸ List.mem_of_find?_eq_some hrow
  have hupdated : w.base.Moves
      (w.base.updateCredential row.id (IntegrationCredential.set (row.revoking actorId t))) :=
    Database.moves_update hkeys hmem rfl
  have houtdated : w.base.Outdates (row.set (row.revoking actorId t))
      (w.base.updateCredential row.id (IntegrationCredential.set (row.revoking actorId t))) :=
    Database.outdates_update hkeys hmem rfl
  have hmoves := hupdated.trans (Database.moves_revokeReferences hupdated.keys row.id t)
  refine (recordCredential_ends (c := row.set (row.revoking actorId t)) ?_ hkeys ?_ ?_).mono ?_
  · exact h₂.base
  · rw [h₂.cur]
    exact hmoves
  · rw [h₂.cur]
    exact houtdated
  · rintro r w' ⟨hmoved, hnow', houtdates⟩
    exact ⟨hmoved, le_trans h₂.now hnow', houtdates⟩

/-! ## References -/

theorem requireOrgContext_ends (user : Claims) (administer : Bool) :
    (requireOrgContext user administer).Ends w fun r _ =>
      ∀ orgId, r = .ok orgId → activeOrgId user = some orgId := by
  have herr : ∀ (x : Err) (orgId : ℕ), Except.error x = .ok orgId → activeOrgId user = some orgId :=
    fun _ _ h => by cases h
  refine Ends.bind (M := fun _ _ => True) ?_ fun userId w₁ _ => ?_
  · rintro (x | userId) w' - <;> first | exact herr x | trivial
  refine ends_query_bind.mpr ?_
  cases activeOrgId user with
  | none => exact ends_raise.mpr fun orgId h => by cases h
  | some orgId =>
    cases w₁.cur.integrationMembership userId (some orgId) with
    | none => exact ends_raise.mpr fun orgId h => by cases h
    | some membership =>
      refine Ends.bind (M := fun _ _ => True) ?_ fun _ w₂ _ => ?_
      · rintro (x | _) w' -
        · exact fun orgId h => by cases h
        · trivial
      · refine ends_ret.mpr fun orgId' h => ?_
        exact congrArg some (Except.ok.inj h)

/-- The owner of a credential is a user, or the organization the user is in. -/
theorem credentialOwner_ends (scope : CredentialScope) (user : Claims) (administerOrg : Bool) :
    (credentialOwner scope user administerOrg).Ends w fun r _ => ∀ owner, r = .ok owner →
      scope = .user ∨ scope = .organization ∧ activeOrgId user ≠ none := by
  refine Ends.bind (M := fun _ _ => True) ?_ fun userId w₁ _ => ?_
  · rintro (x | userId) w' -
    · exact fun owner h => by cases h
    · trivial
  cases scope with
  | user => exact ends_ret.mpr fun _ _ => .inl rfl
  | organization =>
    refine Ends.bind (M := fun _ _ => activeOrgId user ≠ none) ?_ fun orgId w₂ horg => ?_
    · refine (requireOrgContext_ends user administerOrg).mono fun r _ hr => ?_
      cases r with
      | error x => exact fun owner h => by cases h
      | ok orgId =>
        show activeOrgId user ≠ none
        rw [hr orgId rfl]
        exact Option.some_ne_none _
    · exact ends_ret.mpr fun _ _ => .inr ⟨rfl, horg⟩
  | _ => exact ends_raise.mpr fun owner h => by cases h

/-- The row a reference may be issued for. -/
def Database.Selects (db : Database) (user : Claims) (row : IntegrationCredential) : Prop :=
  row ∈ db.integrationCredentials ∧
    (row.scope = .user ∨ row.scope = .organization ∧ activeOrgId user ≠ none)

theorem queryOwner_ends {db : Database} {t : ℕ} (providerId : String) (scope : CredentialScope)
    (user : Claims) (hw : Rests db t w) :
    (queryOwner providerId scope user).Ends w fun r w' =>
      Rests db t w' ∧ ∀ row, r = .ok (some row) → db.Selects user row := by
  refine Ends.and (ends_reading (queryOwner_within _ _ _) hw) ?_
  refine ends_handle.mpr ?_
  refine ((ends_reading (credentialOwner_within _ _ _) hw).and
    (credentialOwner_ends scope user false)).mono ?_
  rintro (x | owner) w₁ ⟨hw₁, howner⟩
  · exact ends_raise.mpr fun row h => by cases h
  · rintro r w' ⟨rfl, rfl⟩ row h
    have hrow : w'.cur.credentialOf providerId scope owner.key = some row := Except.ok.inj h
    have hscope : row.scope = scope := by
      have hfound := List.find?_some hrow
      simp only [decide_eq_true_eq] at hfound
      exact hfound.2.1
    rw [hw₁.cur] at hrow
    refine ⟨List.mem_of_find?_eq_some hrow, ?_⟩
    rw [hscope]
    exact howner owner rfl

/-- **What a resolution policy selects** belongs to the user or to an organization of the
user. -/
theorem selectCredential_ends {db : Database} {t : ℕ} (providerId : String) (user : Claims)
    (policy : List CredentialScope) (hw : Rests db t w) :
    (selectCredential providerId user policy).Ends w fun r w' =>
      Rests db t w' ∧ ∀ row, r = .ok (.selected row) → db.Selects user row := by
  induction policy generalizing w with
  | nil => exact ends_ret.mpr ⟨hw, fun row h => by cases h⟩
  | cons scope rest ih =>
    have howner : scope ≠ .anonymous → scope ≠ .platform →
        (selectCredential providerId user (scope :: rest)).Ends w fun r w' =>
          Rests db t w' ∧ ∀ row, r = .ok (.selected row) → db.Selects user row := by
      intro hanonymous hplatform
      rw [selectCredential_owner hanonymous hplatform]
      refine Ends.bind (M := fun candidate w' =>
        Rests db t w' ∧ ∀ row, candidate = some row → db.Selects user row) ?_ ?_
      · refine Ends.orElse (M := fun _ w' => Rests db t w')
          ((queryOwner_ends providerId scope user hw).mono ?_) ?_
        · rintro (x | candidate) w' ⟨hw', hrow⟩
          · exact hw'
          · exact ⟨hw', fun row h => hrow row (congrArg _ h)⟩
        · intro x w' hw'
          split
          · exact ends_ret.mpr ⟨hw', fun _ h => by cases h⟩
          · exact ends_raise.mpr ⟨hw', fun row h => by cases h⟩
      · rintro candidate w' ⟨hw', hrow⟩
        cases candidate with
        | none => exact ih hw'
        | some row =>
          show (if row.status = .active then _ else _ : Op Resolution).Ends w' _
          split
          · refine ends_ret.mpr ⟨hw', fun row' h => ?_⟩
            obtain rfl := Resolution.selected.inj (Except.ok.inj h)
            exact hrow row rfl
          · exact ih hw'
    cases scope with
    | anonymous => exact ends_ret.mpr ⟨hw, fun row h => by cases h⟩
    | platform => exact ih hw
    | user => exact howner (by simp) (by simp)
    | organization => exact howner (by simp) (by simp)
    | other value => exact howner (by simp) (by simp)

/-- What a reference says of the row it is issued for, and of the call that issues it. -/
structure IntegrationCredentialReference.IssuedFor (A : AppEnv) (user : Claims)
    (c : IntegrationCredential) (answer : ReferenceAnswer) (r : IntegrationCredentialReference) :
    Prop where
  credentialId : r.credentialId = c.id
  credentialVersion : r.credentialVersion = c.version
  subject : user.sub = some (.user r.subjectUserId)
  owned : c.scope = .user ∨ c.scope = .organization ∧ r.organizationId ≠ none
  token : ∃ n, answer.credentialRef = some (A.referenceToken n) ∧
    r.tokenHash = A.referenceHash (A.referenceToken n)
  expires : answer.expiresAt = some r.expiresAt

/-- The call has left a new reference, to a row that is there. -/
def Database.IssuesReference (A : AppEnv) (db : Database) (providerId consumer purpose : String) (user : Claims)
    (answer : ReferenceAnswer) (db' : Database) : Prop :=
  ∃ r, ∃ c ∈ db.integrationCredentials, r.IssuedFor A user c answer ∧ r.providerId = providerId ∧
    r.consumer = consumer ∧ r.purpose = purpose ∧
    db'.vault = (db.integrationCredentials, db.integrationCredentialReferences ++ [r])

/-- **`issue_reference`** -/
theorem issueReference_ends (providerId consumer purpose : String) (user : Claims)
    (policy : Option ProviderPolicy) (hidle : w.cur = w.base) (hkeys : w.base.CredentialKeys) :
    (issueReference A providerId consumer purpose user policy).Ends w fun r w' =>
      w.now ≤ w'.now ∧ ((w.base.Moves w'.base ∧ ∀ answer, r = .ok answer →
          answer.credentialRef = none) ∨
        ∃ answer, r = .ok answer ∧
          w.base.IssuesReference A providerId consumer purpose user answer w'.base) := by
  have hread : ∀ (x : Err) (w' : World), Rests w.base w.now w' → w.now ≤ w'.now ∧
      ((w.base.Moves w'.base ∧ ∀ answer : ReferenceAnswer, Except.error x = .ok answer →
          answer.credentialRef = none) ∨
        ∃ answer : ReferenceAnswer, Except.error x = .ok answer ∧
          w.base.IssuesReference A providerId consumer purpose user answer w'.base) := by
    rintro x w' ⟨hbase, -, hnow⟩
    rw [hbase]
    exact ⟨hnow, .inl ⟨Database.moves_of_vault hkeys rfl, fun _ h => by cases h⟩⟩
  unfold issueReference
  refine ends_reading_bind (requireBinding_within consumer purpose) ⟨rfl, hidle, le_refl _⟩
    (fun _ _ h => ?_) hread
  refine ends_reading_bind (requirePolicy_within policy) h (fun policy w₀ h => ?_) hread
  refine Ends.bind (M := fun userId w' => Rests w.base w.now w' ∧ user.sub = some (.user userId))
    ?_ ?_
  · unfold integrationUserId
    split
    · rename_i userId hsub
      exact ends_ret.mpr ⟨h, hsub⟩
    · exact ends_raise.mpr (hread _ _ h)
  rintro userId w₁ ⟨h, hsub⟩
  refine Ends.bind (M := fun resolution w' => Rests w.base w.now w' ∧
    ∀ row, resolution = .selected row → w.base.Selects user row) ?_ ?_
  · refine (selectCredential_ends providerId user _ h).mono ?_
    rintro (x | resolution) w' ⟨hw', hrow⟩
    · exact hread x w' hw'
    · exact ⟨hw', fun row hr => hrow row (congrArg _ hr)⟩
  rintro resolution w₂ ⟨h, hrow⟩
  cases resolution with
  | anonymous =>
    refine ends_ret.mpr ⟨h.now, .inl ⟨?_, ?_⟩⟩
    · rw [h.base]
      exact Database.moves_of_vault hkeys rfl
    · rintro answer hanswer
      obtain rfl := Except.ok.inj hanswer
      rfl
  | nothing => exact ends_raise.mpr (hread _ _ h)
  | selected row =>
    obtain ⟨hmem, howned⟩ := hrow row rfl
    refine ends_draw_bind.mpr ?_
    refine ends_time_bind.mpr fun t ht => ?_
    refine ends_draw_bind.mpr ?_
    refine ends_returning_bind.mpr ⟨fun eff heff => ?_, fun x _ => ?_⟩
    · simp only [denote, CredentialStmt.denote] at heff
      split at heff
      · cases heff
      obtain rfl := Except.ok.inj heff
      refine ends_leaving_bind (logEvent_leaves _) (fun _ w₃ hbase hvault hnow => ?_)
        fun x w₃ hbase hnow => ?_
      · refine ends_commitNow_bind.mpr (ends_ret.mpr ⟨le_trans h.now (le_trans ht hnow), .inr ?_⟩)
        refine ⟨_, rfl, row.reference A providerId consumer purpose userId (activeOrgId user) w₂.next
          (t + A.integrationCredentialReferenceTtlSeconds * 1000000) (w₂.next + 1), row, hmem,
          ⟨rfl, rfl, hsub, howned, ⟨_, rfl, rfl⟩, rfl⟩, rfl, rfl, rfl, hvault.trans ?_⟩
        show (w₂.cur.integrationCredentials, w₂.cur.integrationCredentialReferences ++ [_]) = _
        rw [h.cur]
      · have hnow' : w.now ≤ w₃.now := le_trans h.now (le_trans ht hnow)
        refine ⟨hnow', .inl ⟨?_, fun _ hx => by cases hx⟩⟩
        rw [hbase, h.base]
        exact Database.moves_of_vault hkeys rfl
    · exact hread x _ ⟨h.base, h.cur, le_trans h.now ht⟩

/-- What `resolve_reference` has found when it gives a payload out. -/
structure Database.Opens (A : AppEnv) (db : Database) (credentialRef providerId consumer purpose : String)
    (t : ℕ) (r : IntegrationCredentialReference) (c : IntegrationCredential)
    (answer : PayloadAnswer) : Prop where
  reference : r ∈ db.integrationCredentialReferences
  hash : r.tokenHash = A.referenceHash credentialRef
  usable : r.Usable providerId consumer purpose t
  credential : db.credentialById r.credentialId = some c
  meets : c.Meets r providerId
  subject : ∀ orgId, r.organizationId = some orgId →
    ∃ m, db.activeMembership r.subjectUserId orgId = some m
  organization : c.scope = .organization → c.organizationId = r.organizationId
  payload : c.payload A = some answer.credentials

/-- The audit row of a call that does nothing else, committed or not. -/
theorem logCommitted_ends {db : Database} {t : ℕ} (event : AuditEvent) (hw : Rests db t w) :
    (logEvent event true).Ends w fun _ w' => w'.base.vault = db.vault ∧ t ≤ w'.now := by
  refine ends_time_bind.mpr fun s hs => ?_
  refine ends_returning_bind.mpr ⟨fun eff heff => ?_, fun x _ => ?_⟩
  · have hleaves := leaves_vault_audit _ w.cur _ heff w.cur
    refine Ends.orElse (M := fun _ _ => False) ?_ fun _ _ h => h.elim
    refine ends_commitNow.mpr ⟨?_, le_trans hw.now hs⟩
    show (eff.delta w.cur).vault = db.vault
    rw [hleaves, hw.cur]
  · exact ⟨congrArg Database.vault hw.base, le_trans hw.now hs⟩

/-- **`resolve_reference`** -/
theorem resolveReference_ends (credentialRef providerId consumer purpose : String)
    (hidle : w.cur = w.base) :
    (resolveReference A credentialRef providerId consumer purpose).Ends w fun res w' =>
      w'.base.vault = w.base.vault ∧ w.now ≤ w'.now ∧ ∀ answer, res = .ok answer →
        ∃ r c t, w.now ≤ t ∧ t ≤ w'.now ∧
          w.base.Opens A credentialRef providerId consumer purpose t r c answer := by
  have hread : ∀ (x : Err) (w' : World), Rests w.base w.now w' →
      w'.base.vault = w.base.vault ∧ w.now ≤ w'.now ∧ ∀ answer : PayloadAnswer,
        Except.error x = .ok answer → ∃ r c t, w.now ≤ t ∧ t ≤ w'.now ∧
          w.base.Opens A credentialRef providerId consumer purpose t r c answer :=
    fun x w' h => ⟨congrArg _ h.base, h.now, fun _ hx => by cases hx⟩
  unfold resolveReference
  refine ends_query_bind.mpr (ends_time_bind.mpr fun t ht => ?_)
  have h : Rests w.base t { w with now := t } := ⟨rfl, hidle, le_refl t⟩
  have hlate : ∀ (x : Err) (w' : World), Rests w.base t w' → _ := fun x w' h =>
    hread x w' ⟨h.base, h.cur, le_trans ht h.now⟩
  split
  · exact ends_raise.mpr (hlate _ _ h)
  rename_i r hr
  rw [hidle] at hr
  split
  swap
  · exact ends_raise.mpr (hlate _ _ h)
  rename_i husable
  unfold resolveUsable
  refine ends_query_bind.mpr ?_
  split
  · exact ends_raise.mpr (hlate _ _ h)
  rename_i c hc
  rw [show ({ w with now := t } : World).cur = w.base from hidle] at hc
  split
  swap
  · exact ends_raise.mpr (hlate _ _ h)
  rename_i hmeets
  refine Ends.bind (M := fun _ w' => Rests w.base t w' ∧ ∀ orgId, r.organizationId = some orgId →
    ∃ m, w.base.activeMembership r.subjectUserId orgId = some m) ?_ ?_
  · unfold requireSubject
    split
    · rename_i hnone
      exact ends_ret.mpr ⟨h, fun orgId horg => by rw [hnone] at horg; cases horg⟩
    · rename_i orgId horg
      refine ends_query_bind.mpr ?_
      split
      · exact ends_raise.mpr (hlate _ _ h)
      · rename_i hsome
        refine ends_ret.mpr ⟨h, fun orgId' horg' => ?_⟩
        obtain rfl := Option.some.inj (horg.symm.trans horg')
        rw [show ({ w with now := t } : World).cur = w.base from hidle] at hsome
        exact Option.ne_none_iff_exists'.mp hsome
  rintro _ w₁ ⟨h, hsubject⟩
  unfold openCredential
  split
  · exact ends_raise.mpr (hlate _ _ h)
  rename_i horganization
  split
  · exact ends_raise.mpr (hlate _ _ h)
  rename_i payload hpayload
  refine Ends.bind (M := fun _ (w' : World) => w'.base.vault = w.base.vault ∧ t ≤ w'.now) ?_ ?_
  · refine (logCommitted_ends _ h).mono ?_
    rintro (x | _) w' ⟨hvault, hnow⟩
    · exact ⟨hvault, le_trans ht hnow, fun _ hx => by cases hx⟩
    · exact ⟨hvault, hnow⟩
  · rintro _ w₂ ⟨hvault, hnow⟩
    refine ends_ret.mpr ⟨hvault, le_trans ht hnow, fun answer hanswer => ?_⟩
    obtain rfl := Except.ok.inj hanswer
    refine ⟨r, c, t, ht, hnow, List.mem_of_find?_eq_some hr, ?_, husable, hc, hmeets, hsubject,
      fun hscope => ?_, hpayload⟩
    · simpa using List.find?_some hr
    · by_contra hne
      exact horganization ⟨hscope, hne⟩

end OmniAuth
