import OmniAuth.License.Steps

/-!
# One active licence a holder

An issuance revokes the licences its holder has active before it makes a new one, and
time, revocations and calls that fail make no licence active. A renewal does: it moves the
end of a licence that may have expired, whatever the holder was given since.
-/

namespace OmniAuth

open Txn Prog

variable {A : AppEnv} {w w' : World}

/-! ## Licences that fade -/

theorem Database.mem_activeLicenses {db : Database} {userId organizationId now : ℕ}
    {l : LicenseKey} :
    l ∈ db.activeLicenses userId organizationId now ↔
      l ∈ db.licenseKeys ∧ l.HeldBy userId organizationId ∧ l.Active now := by
  simp [Database.activeLicenses]

/-- An active licence was active before. -/
theorem LicenseKey.Active.earlier {l : LicenseKey} {t t' : ℕ} (h : l.Active t') (ht : t ≤ t') :
    l.Active t := by
  refine ⟨h.1, h.2.imp_right fun hsome => ?_⟩
  cases hexp : l.expiresAt with
  | none =>
    rw [hexp] at hsome
    cases hsome
  | some e =>
    rw [hexp] at hsome
    have hlt : t' < e := of_decide_eq_true hsome
    have hlt' : t < e := by omega
    exact decide_eq_true hlt'

/-- The licence is what `l` was, or less. -/
structure LicenseKey.FadesTo (l l' : LicenseKey) : Prop where
  id : l'.id = l.id
  holder : ∀ userId organizationId, l'.HeldBy userId organizationId →
    l.HeldBy userId organizationId
  active : ∀ t, l'.Active t → l.Active t
  revoked : l.revokedAt.isSome → l'.revokedAt.isSome

theorem LicenseKey.FadesTo.refl (l : LicenseKey) : l.FadesTo l :=
  ⟨rfl, fun _ _ h => h, fun _ h => h, fun h => h⟩

theorem LicenseKey.fadesTo_revoke (l : LicenseKey) (t : ℕ) (reason : Option String) :
    l.FadesTo (l.revoke t reason) :=
  ⟨rfl, fun _ _ h => h, fun _ h => (nomatch h.1), fun _ => rfl⟩

/-- Every licence is what one was, or less. -/
def Database.Fades (db db' : Database) : Prop :=
  ∃ f : LicenseKey → LicenseKey, db'.licenseKeys = db.licenseKeys.map f ∧ ∀ l : LicenseKey, l.FadesTo (f l)

theorem Database.fades_of_eq {db db' : Database} (h : db'.licenseKeys = db.licenseKeys) :
    db.Fades db' :=
  ⟨id, by rw [h, List.map_id], LicenseKey.FadesTo.refl⟩

theorem Database.Fades.trans {db db' db'' : Database} (h : db.Fades db') (h' : db'.Fades db'') :
    db.Fades db'' := by
  obtain ⟨f, hf, hfade⟩ := h
  obtain ⟨g, hg, hgade⟩ := h'
  refine ⟨g ∘ f, by rw [hg, hf, List.map_map], fun l => ?_⟩
  have h₁ := hfade l
  have h₂ := hgade (f l)
  exact ⟨h₂.id.trans h₁.id, fun u o h => h₁.holder u o (h₂.holder u o h),
    fun t h => h₁.active t (h₂.active t h), fun h => h₂.revoked (h₁.revoked h)⟩

theorem Database.fades_revoke (db : Database) (id t : ℕ) (reason : Option String) :
    db.Fades (db.updateLicense id (LicenseKey.revoke t reason)) := by
  refine ⟨fun l => if l.id = id then l.revoke t reason else l, rfl, fun l => ?_⟩
  show l.FadesTo (if l.id = id then l.revoke t reason else l)
  split
  · exact l.fadesTo_revoke t reason
  · exact .refl l

/-- Where a row came from. -/
theorem Database.Fades.origin {db db' : Database} (h : db.Fades db') {l' : LicenseKey}
    (hl' : l' ∈ db'.licenseKeys) : ∃ l ∈ db.licenseKeys, l.FadesTo l' := by
  obtain ⟨f, hf, hfade⟩ := h
  rw [hf] at hl'
  obtain ⟨l, hl, rfl⟩ := List.mem_map.mp hl'
  exact ⟨l, hl, hfade l⟩

theorem Database.Fades.ids {db db' : Database} (h : db.Fades db') :
    db'.licenseKeys.map (·.id) = db.licenseKeys.map (·.id) := by
  obtain ⟨f, hf, hfade⟩ := h
  rw [hf, List.map_map]
  exact List.map_congr_left fun l _ => (hfade l).id

/-! ## The invariant -/

/-- No holder has two licences that are active at `now`. -/
def Database.OneActive (db : Database) (now : ℕ) : Prop :=
  ∀ userId organizationId, (db.activeLicenses userId organizationId now).length ≤ 1

/-- Keys are unique, and the active licences of a holder share theirs. -/
structure Database.Licensed (db : Database) (now : ℕ) : Prop where
  ids : (db.licenseKeys.map (·.id)).Nodup
  one : ∀ userId organizationId, ∀ l ∈ db.activeLicenses userId organizationId now,
    ∀ l' ∈ db.activeLicenses userId organizationId now, l.id = l'.id

theorem Database.Licensed.oneActive {db : Database} {now : ℕ} (h : db.Licensed now) :
    db.OneActive now := by
  intro userId organizationId
  have hsub : ((db.activeLicenses userId organizationId now).map (·.id)).Nodup :=
    h.ids.sublist (List.filter_sublist.map _)
  have hone := h.one userId organizationId
  match hact : db.activeLicenses userId organizationId now with
  | [] => simp
  | [l] => simp
  | l :: l' :: rest =>
    rw [hact] at hsub hone
    have heq : l.id = l'.id := hone l (by simp) l' (by simp)
    simp [heq] at hsub

/-- **Time and fading keep it.** -/
theorem Database.Licensed.fades {db db' : Database} {t t' : ℕ} (h : db.Licensed t)
    (hf : db.Fades db') (ht : t ≤ t') : db'.Licensed t' := by
  refine ⟨by rw [hf.ids]; exact h.ids, fun userId organizationId => ?_⟩
  have hback : ∀ l' ∈ db'.activeLicenses userId organizationId t',
      ∃ l ∈ db.activeLicenses userId organizationId t, l'.id = l.id := by
    intro l' hl'
    obtain ⟨hmem, hheld, hactive⟩ := Database.mem_activeLicenses.mp hl'
    obtain ⟨l, hl, hfade⟩ := hf.origin hmem
    have hheld' := hfade.holder _ _ hheld
    have hactive' := (hfade.active _ hactive).earlier ht
    exact ⟨l, Database.mem_activeLicenses.mpr ⟨hl, hheld', hactive'⟩, hfade.id⟩
  intro l hl l' hl'
  obtain ⟨l₁, hl₁, hid₁⟩ := hback l hl
  obtain ⟨l₂, hl₂, hid₂⟩ := hback l' hl'
  rw [hid₁, hid₂]
  exact h.one _ _ l₁ hl₁ l₂ hl₂

theorem Database.Licensed.keeps {db db' : Database} {t t' : ℕ} (h : db.Licensed t)
    (hsame : db'.licenseKeys = db.licenseKeys) (ht : t ≤ t') : db'.Licensed t' :=
  h.fades (Database.fades_of_eq hsame) ht

/-- **A new licence keeps it** where its holder has none active. -/
theorem Database.Licensed.insert {db db' : Database} {t : ℕ} {row : LicenseKey}
    {userId organizationId : ℕ} (h : db.Licensed t)
    (hnone : db.activeLicenses userId organizationId t = [])
    (hrow : row.HeldBy userId organizationId) (hid : ∀ l ∈ db.licenseKeys, l.id ≠ row.id)
    (hdb : db'.licenseKeys = db.licenseKeys ++ [row]) : db'.Licensed t := by
  have hmem : ∀ (u o : ℕ) (l : LicenseKey), l ∈ db'.activeLicenses u o t →
      l ∈ db.activeLicenses u o t ∨ l = row ∧ u = userId ∧ o = organizationId := by
    intro u o l hl
    obtain ⟨hl, hheld, hactive⟩ := Database.mem_activeLicenses.mp hl
    rw [hdb, List.mem_append, List.mem_singleton] at hl
    rcases hl with hl | rfl
    · exact .inl (Database.mem_activeLicenses.mpr ⟨hl, hheld, hactive⟩)
    · have hu := Option.some.inj (hheld.1.symm.trans hrow.1)
      have ho := Option.some.inj (hheld.2.symm.trans hrow.2)
      exact .inr ⟨rfl, hu, ho⟩
  constructor
  · have hnew : row.id ∉ db.licenseKeys.map (·.id) := by
      intro hin
      obtain ⟨l, hl, heq⟩ := List.mem_map.mp hin
      exact hid l hl heq
    rw [hdb, List.map_append, List.map_singleton]
    exact List.nodup_append.mpr ⟨h.ids, by simp, by
      rintro a ha b hb rfl
      exact hnew (by rwa [List.mem_singleton.mp hb] at ha)⟩
  · intro u o l hl l' hl'
    rcases hmem u o l hl with hold | ⟨rfl, rfl, rfl⟩
    · rcases hmem u o l' hl' with hold' | ⟨rfl, rfl, rfl⟩
      · exact h.one u o l hold l' hold'
      · rw [hnone] at hold
        cases hold
    · rcases hmem u o l' hl' with hold' | ⟨rfl, -, -⟩
      · rw [hnone] at hold'
        cases hold'
      · rfl

/-- **A renewal keeps it** where no other licence of the holder is active. -/
theorem Database.Licensed.renew {db : Database} {t id expiresAt at' : ℕ} (h : db.Licensed t)
    (halone : ∀ l ∈ db.licenseKeys, l.id = id → ∀ l' ∈ db.licenseKeys, l'.id ≠ id →
      ∀ userId organizationId, l.HeldBy userId organizationId →
        l'.HeldBy userId organizationId → ¬ l'.Active t) :
    (db.updateLicense id (LicenseKey.renew expiresAt at')).Licensed t := by
  have hids : (db.updateLicense id (LicenseKey.renew expiresAt at')).licenseKeys.map (·.id) =
      db.licenseKeys.map (·.id) := by
    simp only [Database.updateLicense, List.map_map]
    refine List.map_congr_left fun l _ => ?_
    show (if l.id = id then l.renew expiresAt at' else l).id = l.id
    split <;> rfl
  have hmem : ∀ (u o : ℕ) (l : LicenseKey), l ∈ (db.updateLicense id (LicenseKey.renew expiresAt at')).activeLicenses
      u o t → (∃ l₀ ∈ db.licenseKeys, l₀.id = id ∧ l₀.HeldBy u o ∧ l.id = id) ∨
        (l ∈ db.activeLicenses u o t ∧ l.id ≠ id) := by
    intro u o l hl
    obtain ⟨hl, hheld, hactive⟩ := Database.mem_activeLicenses.mp hl
    obtain ⟨l₀, hl₀, rfl⟩ := List.mem_map.mp hl
    by_cases hid : l₀.id = id
    · simp only [if_pos hid] at hheld ⊢
      exact .inl ⟨l₀, hl₀, hid, hheld, hid⟩
    · simp only [if_neg hid] at hheld hactive ⊢
      exact .inr ⟨Database.mem_activeLicenses.mpr ⟨hl₀, hheld, hactive⟩, hid⟩
  -- an active licence of the same holder beside the renewed one is what the condition excludes
  have hclash : ∀ (u o : ℕ) (l l' : LicenseKey), (∃ l₀ ∈ db.licenseKeys, l₀.id = id ∧ l₀.HeldBy u o ∧ l.id = id) →
      l' ∈ db.activeLicenses u o t → l'.id ≠ id → False := by
    rintro u o l l' ⟨l₀, hl₀, hid, hheld, -⟩ hl' hne
    obtain ⟨hmem', hheld', hactive'⟩ := Database.mem_activeLicenses.mp hl'
    exact halone l₀ hl₀ hid l' hmem' hne u o hheld hheld' hactive'
  refine ⟨by rw [hids]; exact h.ids, fun u o l hl l' hl' => ?_⟩
  rcases hmem u o l hl with hrenewed | ⟨hold, hne⟩
  · rcases hmem u o l' hl' with ⟨_, _, _, _, hid'⟩ | ⟨hold', hne'⟩
    · obtain ⟨_, _, _, _, hid⟩ := hrenewed
      rw [hid, hid']
    · exact (hclash u o l l' hrenewed hold' hne').elim
  · rcases hmem u o l' hl' with hrenewed' | ⟨hold', -⟩
    · exact (hclash u o l' l hrenewed' hold hne).elim
    · exact h.one u o l hold l' hold'

/-! ## The calls -/

/-- The loop revokes the rows it is given. -/
theorem supersede_ends (owner : User) (organizationId actorUserId now : ℕ)
    (rows : List LicenseKey) :
    (supersede owner organizationId actorUserId now rows).Ends w fun r w' =>
      w'.base = w.base ∧ w.now ≤ w'.now ∧ (r = .ok () → w.cur.Fades w'.cur ∧
        ∀ l ∈ w'.cur.licenseKeys, l.id ∈ rows.map (·.id) → l.revokedAt.isSome) := by
  induction rows generalizing w with
  | nil =>
    refine ends_ret.mpr ⟨rfl, le_refl _, fun _ => ⟨Database.fades_of_eq rfl, ?_⟩⟩
    intro l _ hid
    simp at hid
  | cons previous rest ih =>
    unfold supersede
    refine ends_returning_bind.mpr ⟨fun eff heff => ?_, nofun⟩
    obtain rfl := Except.ok.inj heff
    refine ends_aside (aside_logEvent _) (fun _ w₁ hbase hcur hnow => ?_)
      fun x w₁ hbase hnow => ⟨hbase, hnow, nofun⟩
    have hlicenses : w₁.cur.licenseKeys = (w.cur.updateLicense previous.id
        (LicenseKey.revoke now (some "replaced_by_manual_issuance"))).licenseKeys :=
      congrArg Prod.fst hcur
    have hfirst := (w.cur.fades_revoke previous.id now (some "replaced_by_manual_issuance")).trans
      (Database.fades_of_eq hlicenses)
    refine ih.mono ?_
    rintro r w' ⟨hbase', hnow', hdone⟩
    refine ⟨hbase'.trans hbase, le_trans hnow hnow', fun hr => ?_⟩
    obtain ⟨hfades, hrows⟩ := hdone hr
    refine ⟨hfirst.trans hfades, fun l hl hid => ?_⟩
    rw [List.map_cons, List.mem_cons] at hid
    rcases hid with hid | hid
    · -- the row was revoked first, and faded from there
      obtain ⟨l₁, hl₁, hfade⟩ := hfades.origin hl
      rw [hlicenses] at hl₁
      obtain ⟨l₀, -, rfl⟩ := List.mem_map.mp hl₁
      have hid₀ : l₀.id = previous.id := by
        rw [← hid, hfade.id]
        split <;> rfl
      refine hfade.revoked ?_
      rw [if_pos hid₀]
      rfl
    · exact hrows l hl hid

/-- The new licence, or none. -/
theorem createManualLicense_ends (owner : User) (organizationId expiresDays : ℕ)
    (recipientName : String) (attempts : ℕ) :
    (createManualLicense A owner organizationId expiresDays recipientName attempts).Ends w
      fun r w' => w'.base = w.base ∧ w.now ≤ w'.now ∧ ∀ answer, r = .ok answer →
        answer.1.HeldBy owner.id organizationId ∧
        (∀ l ∈ w.cur.licenseKeys, l.id ≠ answer.1.id) ∧
        w'.cur.licenseKeys = w.cur.licenseKeys ++ [answer.1] := by
  unfold createManualLicense
  refine ends_aside (generateKey_aside attempts) ?_
    fun x w₁ hbase hnow => ⟨hbase, hnow, fun _ h => by cases h⟩
  rintro ⟨key, digest⟩ w₁ hbase hcur hnow
  have hlicenses : w₁.cur.licenseKeys = w.cur.licenseKeys := congrArg Prod.fst hcur
  refine ends_time_bind.mpr fun t ht => ?_
  refine ends_draw_bind.mpr ?_
  refine ends_returning_bind.mpr ⟨fun eff heff => ?_,
    fun x _ => ⟨hbase, le_trans hnow ht, fun _ h => by cases h⟩⟩
  simp only [denote, AccountStmt.denote] at heff
  split at heff
  · cases heff
  rename_i hfree
  obtain rfl := Except.ok.inj heff
  refine ends_ret.mpr ⟨hbase, le_trans hnow ht, ?_⟩
  rintro answer hanswer
  obtain rfl := Except.ok.inj hanswer
  refine ⟨⟨rfl, rfl⟩, fun l hl hid => hfree ⟨l, ?_, .inl hid⟩, ?_⟩
  · exact hlicenses ▸ hl
  · show w₁.cur.licenseKeys ++ [_] = w.cur.licenseKeys ++ [_]
    rw [hlicenses]

/-- **The licence is granted** to a holder who has none active. -/
theorem grantLicense_ends (r : IssueRequest) (issuanceId : ℕ) (owner : User) (attempts : ℕ)
    (hcur : w.cur.Licensed w.now)
    (hnone : w.cur.activeLicenses owner.id r.organizationId w.now = []) :
    (grantLicense A r issuanceId owner attempts).Ends w fun _ w' =>
      w.now ≤ w'.now ∧ (w'.base = w.base ∨ w'.base.Licensed w'.now) := by
  unfold grantLicense
  refine ends_handle.mpr ((createManualLicense_ends owner _ _ _ attempts).mono ?_)
  rintro (x | ⟨license, key⟩) w₁ ⟨hbase, hnow, hdone⟩
  · exact ends_raise.mpr ⟨hnow, .inl hbase⟩
  obtain ⟨hheld, hfresh, hinsert⟩ := hdone _ rfl
  have hlater : w.cur.Licensed w₁.now := hcur.keeps rfl hnow
  have hnone₁ : w.cur.activeLicenses owner.id r.organizationId w₁.now = [] := by
    refine List.eq_nil_iff_forall_not_mem.mpr fun l hl => ?_
    obtain ⟨hmem, hheld, hactive⟩ := Database.mem_activeLicenses.mp hl
    have hbefore : l ∈ w.cur.activeLicenses owner.id r.organizationId w.now :=
      Database.mem_activeLicenses.mpr ⟨hmem, hheld, hactive.earlier hnow⟩
    rw [hnone] at hbefore
    cases hbefore
  have hgranted : w₁.cur.Licensed w₁.now := hlater.insert hnone₁ hheld hfresh hinsert
  refine ends_returning_bind.mpr ⟨fun eff heff => ?_, nofun⟩
  obtain rfl := Except.ok.inj heff
  refine ends_aside (aside_logEvent _) (fun _ w₂ hbase₂ hcur₂ hnow₂ => ?_)
    fun x w₂ hbase₂ hnow₂ => ⟨le_trans hnow hnow₂, .inl (hbase₂.trans hbase)⟩
  have hlicenses : w₂.cur.licenseKeys = w₁.cur.licenseKeys := congrArg Prod.fst hcur₂
  refine ends_commitNow_bind.mpr ?_
  -- what is committed now is what was granted, and the rest only reads
  have hcommitted : w₂.cur.Licensed w₂.now := hgranted.keeps hlicenses hnow₂
  refine ends_aside (refreshLicense_aside license.id) (fun row w₃ hbase₃ _ hnow₃ => ?_)
    fun x w₃ hbase₃ hnow₃ => ?_
  · refine ends_ret.mpr ⟨le_trans hnow (le_trans hnow₂ hnow₃), .inr ?_⟩
    rw [hbase₃]
    exact hcommitted.keeps rfl hnow₃
  · refine ⟨le_trans hnow (le_trans hnow₂ hnow₃), .inr ?_⟩
    rw [hbase₃]
    exact hcommitted.keeps rfl hnow₃

/-- After the lock, every active licence of the holder is superseded. -/
theorem replaceLicense_ends (r : IssueRequest) (issuanceId : ℕ) (owner : User)
    (membership : OrganizationMembership) (roles : PersonaRoles) (attempts : ℕ)
    (hcur : w.cur.Licensed w.now) :
    (replaceLicense A r issuanceId owner membership roles attempts).Ends w fun _ w' =>
      w.now ≤ w'.now ∧ (w'.base = w.base ∨ w'.base.Licensed w'.now) := by
  unfold replaceLicense
  refine ends_time_bind.mpr fun t ht => ?_
  refine ends_returning_bind.mpr ⟨fun eff heff => ?_, nofun⟩
  obtain rfl := Except.ok.inj heff
  split
  · exact ends_raise.mpr ⟨ht, .inl rfl⟩
  refine ends_aside (changeRoles_aside _ _ _ _) (fun _ w₁ hbase₁ hcur₁ hnow₁ => ?_)
    fun x w₁ hbase₁ hnow₁ => ⟨le_trans ht hnow₁, .inl hbase₁⟩
  have hlicenses : w₁.cur.licenseKeys = w.cur.licenseKeys := congrArg Prod.fst hcur₁
  refine ends_handle.mpr ((supersede_ends _ _ _ _ _).mono ?_)
  rintro (x | ⟨⟩) w₂ ⟨hbase₂, hnow₂, hdone⟩
  · exact ends_raise.mpr ⟨le_trans ht (le_trans hnow₁ hnow₂), .inl (hbase₂.trans hbase₁)⟩
  obtain ⟨hfades, hrevoked⟩ := hdone rfl
  have hfades' : w.cur.Fades w₂.cur := (Database.fades_of_eq hlicenses).trans hfades
  have hlate : t ≤ w₂.now := le_trans hnow₁ hnow₂
  have hcur₂ : w₂.cur.Licensed w₂.now := hcur.fades hfades' (le_trans ht hlate)
  have hnone : w₂.cur.activeLicenses owner.id r.organizationId w₂.now = [] := by
    refine List.eq_nil_iff_forall_not_mem.mpr fun l hl => ?_
    obtain ⟨hmem, hheld, hactive⟩ := Database.mem_activeLicenses.mp hl
    -- it was active when the rows were locked, so it is one of those the loop revoked
    obtain ⟨l₀, hl₀, hfade⟩ := hfades'.origin hmem
    have hactive₀ := (hfade.active _ hactive).earlier hlate
    have hlocked : l₀ ∈ w.cur.activeLicenses owner.id r.organizationId t :=
      Database.mem_activeLicenses.mpr ⟨hl₀, hfade.holder _ _ hheld, hactive₀⟩
    have hgone := hrevoked l hmem (List.mem_map.mpr ⟨l₀, hlocked, hfade.id.symm⟩)
    rw [hactive.1] at hgone
    cases hgone
  refine (grantLicense_ends r issuanceId owner attempts hcur₂ hnone).mono ?_
  rintro _ w' ⟨hnow, hend⟩
  exact ⟨le_trans ht (le_trans hlate hnow), hend.imp_left fun h => h.trans (hbase₂.trans hbase₁)⟩

/-- **An issuance keeps the invariant.** -/
theorem issueLicense_ends (r : IssueRequest) (attempts : ℕ) (hidle : w.cur = w.base)
    (h : w.base.Licensed w.now) :
    (issueLicense A r attempts).Ends w fun _ w' => w'.base.Licensed w'.now := by
  have hsame : ∀ w' : World, w'.base = w.base → w.now ≤ w'.now → w'.base.Licensed w'.now := by
    intro w' hbase hnow
    rw [hbase]
    exact h.keeps rfl hnow
  unfold issueLicense
  refine ends_aside (checkRequest_aside r) (fun _ w₁ hbase₁ hcur₁ hnow₁ => ?_)
    fun x w₁ hbase₁ hnow₁ => hsame w₁ hbase₁ hnow₁
  refine ends_query_bind.mpr ?_
  split
  · rename_i existing _
    refine (aside_ends (replayIssuance_aside r existing)).mono ?_
    rintro _ w' ⟨hbase, -, hnow⟩
    exact hsame w' (hbase.trans hbase₁) (le_trans hnow₁ hnow)
  · unfold issueNew
    refine ends_draw_bind.mpr ?_
    refine ends_returning_bind.mpr ⟨fun eff heff => ?_, fun x _ => hsame _ hbase₁ hnow₁⟩
    simp only [denote, AccountStmt.denote] at heff
    split at heff
    · cases heff
    obtain rfl := Except.ok.inj heff
    refine ends_aside (lockHolder_aside _ _) ?_
      fun x w₂ hbase₂ hnow₂ => hsame w₂ (hbase₂.trans hbase₁) (le_trans hnow₁ hnow₂)
    rintro ⟨owner, membership⟩ w₂ hbase₂ hcur₂ hnow₂
    refine ends_aside (personaRoles_aside _ _ _) ?_ fun x w₃ hbase₃ hnow₃ =>
      hsame w₃ (hbase₃.trans (hbase₂.trans hbase₁)) (le_trans hnow₁ (le_trans hnow₂ hnow₃))
    intro roles w₃ hbase₃ hcur₃ hnow₃
    have hbase : w₃.base = w.base := hbase₃.trans (hbase₂.trans hbase₁)
    have hnow : w.now ≤ w₃.now := le_trans hnow₁ (le_trans hnow₂ hnow₃)
    split
    · exact ends_raise.mpr (hsame w₃ hbase hnow)
    have hlicenses : w₃.cur.licenseKeys = w.base.licenseKeys := by
      have h₁ : w₁.cur.licenseKeys = w.cur.licenseKeys := congrArg Prod.fst hcur₁
      have h₂ : w₂.cur.licenseKeys = w₁.cur.licenseKeys := congrArg Prod.fst hcur₂
      have h₃ : w₃.cur.licenseKeys = w₂.cur.licenseKeys := congrArg Prod.fst hcur₃
      rw [h₃, h₂, h₁, hidle]
    refine (replaceLicense_ends r _ owner membership roles attempts
      (h.keeps hlicenses hnow)).mono ?_
    rintro _ w' ⟨hnow', hend | hend⟩
    · exact hsame w' (hend.trans hbase) (le_trans hnow hnow')
    · exact hend

/-- A change to one licence, audited and committed. -/
theorem recordLicense_ends {event : AuditEvent} {licenseId : ℕ} (post : ℕ → Prop)
    (hcur : ∀ t, w.now ≤ t → post t → w.cur.Licensed t) (hbase : w.base.Licensed w.now) :
    (Prog.bind (logEvent event false) fun _ => commitNow.bind fun _ => refreshLicense licenseId).Ends
      w fun _ w' => post w'.now → w'.base.Licensed w'.now := by
  refine ends_aside (aside_logEvent _) (fun _ w₁ hbase₁ hcur₁ hnow₁ => ?_)
    fun x w₁ hbase₁ hnow₁ _ => by rw [hbase₁]; exact hbase.keeps rfl hnow₁
  have hlicenses : w₁.cur.licenseKeys = w.cur.licenseKeys := congrArg Prod.fst hcur₁
  refine ends_commitNow_bind.mpr ((aside_ends (refreshLicense_aside licenseId)).mono ?_)
  rintro _ w' ⟨hbase₂, -, hnow₂⟩ hpost
  rw [hbase₂]
  exact (hcur _ (le_trans hnow₁ hnow₂) hpost).keeps hlicenses (le_refl _)

/-- **A revocation keeps it.** -/
theorem revokeLicense_ends (row : LicenseKey) (actorUserId : ℕ) (reason : String)
    (hcur : w.cur.Licensed w.now) (hbase : w.base.Licensed w.now) :
    (revokeLicense row actorUserId reason).Ends w fun _ w' => w'.base.Licensed w'.now := by
  unfold revokeLicense
  split
  · exact ends_ret.mpr hbase
  refine ends_time_bind.mpr fun t ht => ends_time_bind.mpr fun t' ht' => ?_
  refine ends_returning_bind.mpr ⟨fun eff heff => ?_, nofun⟩
  obtain rfl := Except.ok.inj heff
  have hnow : w.now ≤ t' := le_trans ht ht'
  refine (recordLicense_ends (fun _ => True) (fun s hs _ => ?_) ?_).mono
    fun _ w' hend => hend trivial
  · exact hcur.fades (w.cur.fades_revoke row.id t' reason) (le_trans hnow hs)
  · exact hbase.keeps rfl hnow

/-- No other licence of the holder is active when the licence `id` is renewed at `t`. -/
def Database.RenewsAlone (A : AppEnv) (db : Database) (id validityDays t : ℕ) : Prop :=
  validityDays ∈ A.licenseAllowedValidityDays →
    ∀ l ∈ db.licenseKeys, l.id = id → l.revokedAt = none →
      ∀ l' ∈ db.licenseKeys, l'.id ≠ id → ∀ userId organizationId,
        l.HeldBy userId organizationId → l'.HeldBy userId organizationId → ¬ l'.Active t

/-- **A renewal keeps it** where it is alone. -/
theorem renewLicense_ends (timestamp : ℕ → String) (row : LicenseKey)
    (actorUserId validityDays : ℕ) (hrow : row ∈ w.cur.licenseKeys) (hcur : w.cur.Licensed w.now)
    (hbase : w.base.Licensed w.now) :
    (renewLicense A timestamp row actorUserId validityDays).Ends w fun _ w' =>
      w.cur.RenewsAlone A row.id validityDays w'.now → w'.base.Licensed w'.now := by
  unfold renewLicense requireValidity
  split
  · exact ends_raise.mpr fun _ => hbase
  split
  · exact ends_raise.mpr fun _ => hbase
  rename_i hallowed
  show (if row.revokedAt.isSome then _ else _ : Op LicenseKey).Ends w _
  split
  · exact ends_raise.mpr fun _ => hbase
  rename_i hunrevoked
  refine ends_time_bind.mpr fun t ht => ?_
  refine ends_returning_bind.mpr ⟨fun eff heff => ?_, nofun⟩
  obtain rfl := Except.ok.inj heff
  refine recordLicense_ends (w.cur.RenewsAlone A row.id validityDays) (fun s hs halone => ?_)
    (hbase.keeps rfl ht)
  refine (hcur.keeps rfl (le_trans ht hs)).renew fun l hl hid l' hl' hne u o hheld hheld' => ?_
  -- keys are unique, so the licence is the one that was read
  have hsame : l = row := List.inj_on_of_nodup_map hcur.ids hl hrow hid
  have hopen : l.revokedAt = none := by
    rw [hsame]
    simpa using hunrevoked
  exact halone (by simpa using hallowed) l hl hid hopen l' hl' hne u o hheld hheld'

/-- What a call with the locked row leaves is what the call by id leaves. -/
theorem withLicense_ends {licenseId : ℕ} {f : LicenseKey → Op LicenseKey}
    {post : Except Err LicenseKey → World → Prop}
    (hnone : post (.error (.http 404 "License not found")) w)
    (hf : ∀ row, row ∈ w.cur.licenseKeys → row.id = licenseId → (f row).Ends w post) :
    (withLicense licenseId f).Ends w post := by
  unfold withLicense lockLicense
  refine ends_returning_bind.mpr ⟨fun eff heff => ?_, nofun⟩
  obtain rfl := Except.ok.inj heff
  split
  · exact ends_raise.mpr hnone
  · rename_i row hrow
    exact hf row (List.mem_of_find?_eq_some hrow) (by simpa using List.find?_some hrow)

/-! ## Runs -/

/-- **Sequential runs** from an empty table: issuances, revocations and renewals, each in a
session of its own, and between them anything that leaves the licences alone, time
included. Every renewal meets `ok` at the time it ends. -/
inductive LicenseRun (A : AppEnv) (timestamp : ℕ → String)
    (ok : Database → ℕ → ℕ → ℕ → Prop) : World → Prop
  | start {w : World} : w.cur = w.base → w.base.licenseKeys = [] → LicenseRun A timestamp ok w
  | issue {w w' : World} (r : IssueRequest) (attempts : ℕ) {answer} : LicenseRun A timestamp ok w →
      (issueLicense A r attempts).close.Exec w answer w' → LicenseRun A timestamp ok w'
  | revoke {w w' : World} (licenseId actorUserId : ℕ) (reason : String) {answer} :
      LicenseRun A timestamp ok w → (revokeById licenseId actorUserId reason).close.Exec w answer w' →
      LicenseRun A timestamp ok w'
  | renew {w w' : World} (licenseId actorUserId validityDays : ℕ) {answer} : LicenseRun A timestamp ok w →
      (renewById A timestamp licenseId actorUserId validityDays).close.Exec w answer w' →
      ok w.base licenseId validityDays w'.now → LicenseRun A timestamp ok w'
  | elsewhere {w w' : World} : LicenseRun A timestamp ok w → w'.cur = w'.base →
      w'.base.licenseKeys = w.base.licenseKeys → w.now ≤ w'.now → LicenseRun A timestamp ok w'

/-- The invariant of the runs whose renewals are alone. -/
theorem LicenseRun.licensed {timestamp : ℕ → String}
    (h : LicenseRun A timestamp (Database.RenewsAlone A) w) :
    w.cur = w.base ∧ w.base.Licensed w.now := by
  induction h with
  | @start w hidle hempty =>
    refine ⟨hidle, by simp [hempty], fun u o l hl => ?_⟩
    rw [Database.mem_activeLicenses, hempty] at hl
    cases hl.1
  | @issue w w' r attempts answer _ hexec ih =>
    obtain ⟨hidle, hlicensed⟩ := ih
    obtain ⟨w₁, hissue, rfl⟩ := exec_close.mp hexec
    exact ⟨rfl, issueLicense_ends r attempts hidle hlicensed _ w₁ hissue⟩
  | @revoke w w' licenseId actorUserId reason answer _ hexec ih =>
    obtain ⟨hidle, hlicensed⟩ := ih
    obtain ⟨w₁, hrevoke, rfl⟩ := exec_close.mp hexec
    have hcur : w.cur.Licensed w.now := hidle ▸ hlicensed
    have hends : (revokeById licenseId actorUserId reason).Ends w
        fun _ w' => w'.base.Licensed w'.now :=
      withLicense_ends hlicensed fun row _ _ =>
        revokeLicense_ends row actorUserId reason hcur hlicensed
    exact ⟨rfl, hends _ w₁ hrevoke⟩
  | @renew w w' licenseId actorUserId validityDays answer _ hexec halone ih =>
    obtain ⟨hidle, hlicensed⟩ := ih
    obtain ⟨w₁, hrenew, rfl⟩ := exec_close.mp hexec
    have hcur : w.cur.Licensed w.now := hidle ▸ hlicensed
    have hends : (renewById A timestamp licenseId actorUserId validityDays).Ends w fun _ w' =>
        w.cur.RenewsAlone A licenseId validityDays w'.now → w'.base.Licensed w'.now := by
      refine withLicense_ends (fun _ => hlicensed) ?_
      rintro row hrow rfl
      have hrenewed := renewLicense_ends (A := A) timestamp row actorUserId validityDays hrow hcur
        hlicensed
      -- an error is passed on, and its rollback touches nothing that is committed
      refine Ends.orElse (M := fun _ (w' : World) => w.cur.RenewsAlone A row.id validityDays w'.now →
        w'.base.Licensed w'.now) (hrenewed.mono ?_) ?_
      · rintro (x | l) w' hend <;> exact hend
      · intro x w' hend
        split
        · exact ends_rollbackNow_bind.mpr (ends_raise.mpr hend)
        · exact ends_raise.mpr hend
    exact ⟨rfl, hends _ w₁ hrenew (hidle ▸ halone)⟩
  | elsewhere _ hidle hsame hnow ih =>
    exact ⟨hidle, ih.2.keeps hsame hnow⟩

/-- **One active licence a holder**, in every state a run reaches whose renewals are alone. -/
theorem licenses_one_active {timestamp : ℕ → String}
    (h : LicenseRun A timestamp (Database.RenewsAlone A) w) : w.base.OneActive w.now :=
  h.licensed.2.oneActive

/-! ## A renewal after the next issuance -/

/-- A member of an organization, with the roles an application user comes with. -/
def licensee : Database := { Database.empty with
  users := [{ id := 1, email := some "ada@lab.org", status := .active, roleIds := [1] }]
  roles := [{ id := 1, name := "user", organizationId := none, permissions := [] },
    { id := 2, name := "org_member", organizationId := none, permissions := [] }]
  memberships := [{ id := 1, organizationId := 5, userId := 1, status := .active, roleIds := [2] }] }

/-- Thirty days for the member, under a key of its own. -/
def monthly (idempotencyKey : String) : IssueRequest where
  actorUserId := 9
  idempotencyKey := idempotencyKey
  fullName := "Ada"
  email := "ada@lab.org"
  persona := .applicationUser
  validityDays := 30
  organizationId := 5
  confirmRoleChange := false
  confirmReplaceExisting := false

/-- The licence 12 is issued, and a month goes by. -/
def firstIssued : World :=
  ((issueLicense .symbolic (monthly "first-month-of-ada") 3).close.run
    ⟨licensee, licensee, 0, 10, []⟩).2

def monthLater : World := { firstIssued with now := days 31 }

/-- The licence 15 is issued. -/
def secondIssued : World :=
  ((issueLicense .symbolic (monthly "second-month-of-ada") 3).close.run monthLater).2

def firstRenewed (w : World) : World := ((renewById .symbolic toString 12 9 30).close.run w).2

theorem firstIssued_run (ok : Database → ℕ → ℕ → ℕ → Prop) :
    LicenseRun .symbolic toString ok monthLater := by
  have hstart : LicenseRun .symbolic toString ok ⟨licensee, licensee, 0, 10, []⟩ :=
    .start rfl rfl
  have hissued : LicenseRun .symbolic toString ok firstIssued :=
    .issue (monthly "first-month-of-ada") 3 hstart (exec_run _ _)
  exact .elsewhere hissued (by decide) rfl (by decide)

/-- An expired licence is renewed, the only one of its holder. -/
theorem licenses_one_active_renewed :
    LicenseRun .symbolic toString (Database.RenewsAlone .symbolic) (firstRenewed monthLater) ∧
      (firstRenewed monthLater).base.OneActive (firstRenewed monthLater).now := by
  have hids : monthLater.base.licenseKeys.map (·.id) = [12] := by decide
  have hrun : LicenseRun .symbolic toString (Database.RenewsAlone .symbolic)
      (firstRenewed monthLater) := by
    refine .renew 12 9 30 (firstIssued_run _) (exec_run _ _) fun _ l hl hid _ l' hl' hne => ?_
    have hother : l'.id ∈ monthLater.base.licenseKeys.map (·.id) := List.mem_map_of_mem hl'
    rw [hids, List.mem_singleton] at hother
    exact absurd hother hne
  exact ⟨hrun, licenses_one_active hrun⟩

/-- **Two active licences.** The first is renewed after the second was issued. -/
theorem licenses_one_active_violated :
    LicenseRun .symbolic toString (fun _ _ _ _ => True) (firstRenewed secondIssued) ∧
      ¬ (firstRenewed secondIssued).base.OneActive (firstRenewed secondIssued).now := by
  constructor
  · have hsecond : LicenseRun .symbolic toString (fun _ _ _ _ => True) secondIssued :=
      .issue (monthly "second-month-of-ada") 3 (firstIssued_run _) (exec_run _ _)
    exact .renew 12 9 30 hsecond (exec_run _ _) trivial
  · intro hone
    have htwo : ((firstRenewed secondIssued).base.activeLicenses 1 5
        (firstRenewed secondIssued).now).length = 2 := by decide
    have hle := hone 1 5
    omega

end OmniAuth
