import OmniAuth.License.Race

/-!
# What an issue request keeps to

Every issue request keeps to the discipline of issuance, whatever the database lets it see
and whatever fails. One that finds the record of its key answers from it.
-/

namespace OmniAuth

open Txn Prog

variable {A : AppEnv} {α β : Type} {q q' : IssueState} {r : IssueRequest}

/-! ## What a call keeps to -/

/-- The call goes on from `q`: it has forgotten nothing. -/
structure IssueState.Since (q' q : IssueState) : Prop where
  request : q'.request = q.request
  knows : ∀ row, q.knows row → q'.knows row
  failed : q.failed → q'.failed
  tried : q.tried → q'.tried

theorem IssueState.Since.refl (q : IssueState) : q.Since q := ⟨rfl, fun _ h => h, id, id⟩

theorem IssueState.Since.trans {q₁ q₂ q₃ : IssueState} (h : q₂.Since q₁) (h' : q₃.Since q₂) :
    q₃.Since q₁ :=
  ⟨h'.request.trans h.request, fun row hrow => h'.knows row (h.knows row hrow),
    fun hf => h'.failed (h.failed hf), fun ht => h'.tried (h.tried ht)⟩

/-- No step forgets anything. -/
theorem issuing_since (q : IssueState) (ℓ : Label AuthSig) : ((issuing A).next q ℓ).Since q := by
  cases ℓ with
  | read v => exact ⟨rfl, fun _ h => .inl h, id, id⟩
  | wrote stmt seen eff => exact ⟨rfl, fun _ h => h, id, .inl⟩
  | refused stmt seen x => exact ⟨rfl, fun _ h => h, id, .inl⟩
  | committed => exact ⟨rfl, fun _ h => .inl h, id, id⟩
  | rolledBack => exact ⟨rfl, fun _ h => .inl h, id, id⟩
  | faulted x => exact ⟨rfl, fun _ h => h, fun _ => trivial, id⟩
  | commitFailed x => exact ⟨rfl, fun _ h => h, fun _ => trivial, id⟩
  | commitLost x => exact ⟨rfl, fun _ h => h, fun _ => trivial, id⟩
  | crashed x => exact ⟨rfl, fun _ h => h, fun _ => trivial, id⟩
  | _ => exact ⟨rfl, fun _ h => h, id, id⟩

theorem IssueStage.allows_aside {stage : IssueStage} {stmt : Stmt} (h : stmt.BesideLicenses) :
    stage.Allows A r stmt := by
  cases stmt with
  | account stmt => cases stmt <;> first | exact h | exact h.elim
  | _ => exact h

/-- **Steps that leave a call where it stands**, and what comes after them. -/
theorem inside_follows {P : Stmt → Prop} {o : Op α} {k : α → Op β}
    {post : Except Err β → IssueState → Prop} (h : o.Within True (Inside P))
    (hP : ∀ stmt, P stmt → q.stage.Allows A q.request stmt ∧ q.stage.wrote stmt = q.stage)
    (hdone : ∀ row, q.stage ≠ .done row)
    (hk : ∀ a q', q'.Since q → q'.stage = q.stage → (k a).Follows (issuing A) True post q')
    (hx : ∀ x q', q'.Since q → q'.stage = q.stage → post (.error x) q') :
    (Prog.bind o k).Follows (issuing A) True post q := by
  refine h.follows_bind (T := fun q' => q'.Since q ∧ q'.stage = q.stage) ?_ ?_ ⟨.refl q, rfl⟩
    (fun a q' hq' => hk a q' hq'.1 hq'.2) fun x q' hq' => hx x q' hq'.1 hq'.2
  · rintro q' ℓ ⟨hsince, hstage⟩ hℓ
    cases ℓ with
    | wrote stmt seen eff =>
      have hallows := (hP stmt hℓ).1
      rwa [← hstage, ← hsince.request] at hallows
    | committed => exact hℓ.elim
    | _ => trivial
  · rintro q' ℓ ⟨hsince, hstage⟩ hℓ
    refine ⟨hsince.trans (issuing_since q' ℓ), ?_⟩
    cases ℓ with
    | wrote stmt seen eff =>
      show q'.stage.wrote stmt = q.stage
      rw [hstage, (hP stmt hℓ).2]
    | faulted x =>
      show q'.stage.faulted = q.stage
      rw [hstage]
      cases hq : q.stage with
      | done row => exact absurd hq (hdone row)
      | _ => rfl
    | committed => exact hℓ.elim
    | rolledBack => exact hℓ.elim
    | commitFailed x => exact hℓ.elim
    | commitLost x => exact hℓ.elim
    | crashed x => exact hℓ.elim
    | _ => exact hstage

theorem aside_follows {o : Op α} {k : α → Op β} {post : Except Err β → IssueState → Prop}
    (h : o.Within True Aside) (hdone : ∀ row, q.stage ≠ .done row)
    (hk : ∀ a q', q'.Since q → q'.stage = q.stage → (k a).Follows (issuing A) True post q')
    (hx : ∀ x q', q'.Since q → q'.stage = q.stage → post (.error x) q') :
    (Prog.bind o k).Follows (issuing A) True post q :=
  inside_follows h (fun _ hstmt => ⟨IssueStage.allows_aside hstmt, IssueStage.wrote_aside hstmt⟩)
    hdone hk hx

/-- A call that has failed is not done. -/
def Unfinished (q : IssueState) : Prop := ∀ row, q.stage ≠ .done row

theorem unfinished_faulted (q : IssueState) (x : Err) :
    Unfinished ((issuing A).next q (.faulted x)) := by
  intro row hrow
  have hstage : q.stage.faulted = .done row := hrow
  cases hq : q.stage <;> rw [hq] at hstage <;> cases hstage

/-! ## The parts of an issuance -/

/-- Revocations by the loop, and what is beside the licences. -/
def Stmt.Supersedes : Stmt → Prop
  | .account (.revokeLicense _ _ _) => True
  | stmt => stmt.BesideLicenses

theorem supersede_within (owner : User) (organizationId actorUserId now : ℕ)
    (rows : List LicenseKey) :
    (supersede owner organizationId actorUserId now rows).Within True (Inside Stmt.Supersedes) := by
  induction rows with
  | nil => trivial
  | cons previous rest ih =>
    unfold supersede
    refine Within.bind (execute_inside trivial) fun _ => ?_
    exact (logEvent_inside _ fun _ => trivial).bind fun _ => ih

/-- The licence is inserted under the record. -/
theorem createManualLicense_follows {row : LicenseIssuanceRequest}
    (hstage : q.stage = .recorded row) (owner : User) (organizationId expiresDays : ℕ)
    (recipientName : String) (attempts : ℕ) :
    (createManualLicense A owner organizationId expiresDays recipientName attempts).Follows
      (issuing A) True (fun res q' => q'.Since q ∧ match res with
        | .ok answer => q'.stage = .granted row answer.1
        | .error _ => Unfinished q') q := by
  have hopen : ∀ q' : IssueState, q'.stage = q.stage → Unfinished q' := by
    intro q' hq' row' hrow'
    rw [hq', hstage] at hrow'
    cases hrow'
  unfold createManualLicense
  refine aside_follows (generateKey_aside attempts) (hopen q rfl) ?_
    fun x q' hsince hq' => ⟨hsince, hopen q' hq'⟩
  rintro ⟨key, digest⟩ q₁ hsince hq₁
  refine follows_time_bind.mpr fun t _ => follows_draw_bind.mpr fun id _ => ?_
  refine follows_returning_bind.mpr ⟨fun seen eff _ _ => ⟨⟨row, hq₁.trans hstage⟩, ?_⟩,
    fun seen x _ _ => ⟨trivial, hsince.trans (issuing_since q₁ (.refused _ seen x)), hopen q₁ hq₁⟩,
    fun _ x => ⟨hsince.trans (issuing_since q₁ (.faulted x)), unfinished_faulted q₁ x⟩⟩
  refine ⟨hsince.trans (issuing_since q₁ (.wrote _ seen eff)), ?_⟩
  have hrecorded : q₁.stage = .recorded row := hq₁.trans hstage
  simp only [issuing, hrecorded]
  rfl

/-- What a call answers: from its own commit with the key, or from a record with none. -/
def Answers (A : AppEnv) (r : IssueRequest) (answer : Issued) (q : IssueState) : Prop :=
  ∃ row, q.knows row ∧ row.Of A r ∧ row.licenseId = some answer.license.id ∧
    answer.replayed = answer.key.isNone ∧ (answer.key.isSome → q.stage = .done row)

/-- Where a call stands when its service function ends. -/
def IssueEnds (A : AppEnv) (r : IssueRequest) (q : IssueState) (res : Except Err Issued)
    (q' : IssueState) : Prop :=
  q'.Since q ∧ match res with
    | .ok answer => Answers A r answer q' ∧ q'.stage.Settled
    | .error _ => Unfinished q'

theorem Database.InOrder.found {db : Database} {row : LicenseIssuanceRequest} {id : ℕ}
    (h : db.InOrder) (hrow : row ∈ db.licenseIssuanceRequests) (hid : row.licenseId = some id) :
    ∃ l, db.licenseById id = some l ∧ l.id = id := by
  obtain ⟨l, hl, hnames⟩ := h.named row hrow
  have hlid : l.id = id := Option.some.inj (hnames.symm.trans hid)
  have hsome : (db.licenseKeys.find? (·.id = id)).isSome := by
    rw [List.find?_isSome]
    exact ⟨l, hl, by simpa using hlid⟩
  obtain ⟨l', hl'⟩ := Option.isSome_iff_exists.mp hsome
  exact ⟨l', hl', by simpa using List.find?_some hl'⟩

/-- A licence that a known record names is read again. -/
theorem readLicense_follows {row : LicenseIssuanceRequest} {id : ℕ} {k : Option LicenseKey → Op α}
    {post : Except Err α → IssueState → Prop} (hsettled : q.stage.Settled) (hknows : q.knows row)
    (hid : row.licenseId = some id)
    (hk : ∀ l q', q'.Since q → q'.stage = q.stage → l.id = id →
      (k (some l)).Follows (issuing A) True post q')
    (hx : ∀ x, post (.error x) ((issuing A).next q (.faulted x))) :
    (Prog.bind (query fun db : Database => db.licenseById id) k).Follows (issuing A) True post q := by
  refine follows_query_bind.mpr ⟨fun v hsees => ⟨trivial, ?_⟩, fun _ x => hx x⟩
  obtain ⟨horder, hknown⟩ := hsees hsettled
  obtain ⟨l, hl, hlid⟩ := horder.found (hknown row hknows) hid
  rw [hl]
  exact hk l _ (issuing_since q (.read v)) rfl hlid

theorem grantLicense_follows {row : LicenseIssuanceRequest} (hstage : q.stage = .recorded row)
    (hof : row.Of A r) (owner : User) (attempts : ℕ) :
    (grantLicense A r row.id owner attempts).Follows (issuing A) True (IssueEnds A r q) q := by
  unfold grantLicense
  refine (createManualLicense_follows hstage owner _ _ _ attempts).handle ?_
  rintro (x | ⟨license, key⟩) q₁ ⟨hsince, hq₁⟩
  · exact ⟨hsince, hq₁⟩
  refine follows_returning_bind.mpr ⟨fun seen eff _ _ => ⟨⟨row, license, hq₁, rfl, rfl⟩, ?_⟩,
    fun seen x _ _ => ⟨trivial, hsince.trans (issuing_since q₁ (.refused _ seen x)),
      fun row' hrow' => nomatch hq₁.symm.trans hrow'⟩,
    fun _ x => ⟨hsince.trans (issuing_since q₁ (.faulted x)), unfinished_faulted q₁ x⟩⟩
  have hlinked : (q₁.stage.wrote (.account (.setIssuanceLicense row.id license.id))) =
      .linked row license := by
    rw [hq₁]
    rfl
  have hsince := hsince.trans (issuing_since (A := A) q₁
    (.wrote (.account (.setIssuanceLicense row.id license.id)) seen eff))
  refine aside_follows (aside_logEvent _) (fun row' hrow' => nomatch hlinked.symm.trans hrow')
    (fun _ q₂ hsince₂ hq₂ => ?_) fun x q₂ hsince₂ hq₂ => ⟨hsince.trans hsince₂,
      fun row' hrow' => nomatch (hq₂.trans hlinked).symm.trans hrow'⟩
  have hstage₂ : q₂.stage = .linked row license := hq₂.trans hlinked
  have hsince₂ : q₂.Since q := hsince.trans hsince₂
  refine follows_commitNow_bind.mpr ⟨fun _ => ⟨⟨row, license, hstage₂⟩, ?_⟩, fun _ x =>
    ⟨⟨hsince₂.trans (issuing_since q₂ (.commitFailed x)), nofun⟩, ⟨row, license, hstage₂⟩,
      ⟨hsince₂.trans (issuing_since q₂ (.commitLost x)), nofun⟩⟩⟩
  -- from here on the record is committed, and what is left only reads
  have hdone : (q₂.stage.committed) = .done (row.naming license) := by
    rw [hstage₂]
    rfl
  have hcommits : q₂.stage.commits (row.naming license) := by
    rw [hstage₂]
    rfl
  have hknows : ((issuing A).next q₂ .committed).knows (row.naming license) := Or.inr hcommits
  have hsince₃ := hsince₂.trans (issuing_since (A := A) q₂ .committed)
  have hsettled : (q₂.stage.committed).Settled := by
    rw [hdone]
    trivial
  have hread : (refreshLicense license.id).Follows (issuing A) True (fun res q' =>
      q'.Since q ∧ match res with
        | .ok l => l.id = license.id ∧ q'.stage = .done (row.naming license) ∧
            q'.knows (row.naming license)
        | .error _ => Unfinished q') ((issuing A).next q₂ .committed) := by
    unfold refreshLicense
    refine readLicense_follows hsettled hknows rfl (fun l q' hsince' hq' hl => ?_) fun x => ?_
    · exact ⟨hsince₃.trans hsince', hl, hq'.trans hdone, hsince'.knows _ hknows⟩
    · exact ⟨hsince₃.trans (issuing_since _ (.faulted x)), unfinished_faulted _ x⟩
  refine hread.handle ?_
  rintro (x | l) q₄ ⟨hsince₄, hq₄⟩
  · exact ⟨hsince₄, hq₄⟩
  · obtain ⟨hl, hstage₄, hknows₄⟩ := hq₄
    refine ⟨hsince₄, ⟨row.naming license, hknows₄, hof, ?_, rfl, fun _ => hstage₄⟩, ?_⟩
    · exact congrArg some hl.symm
    · rw [hstage₄]
      trivial

theorem replaceLicense_follows {row : LicenseIssuanceRequest} (hstage : q.stage = .recorded row)
    (hof : row.Of A r) (owner : User) (membership : OrganizationMembership) (roles : PersonaRoles)
    (attempts : ℕ) :
    (replaceLicense A r row.id owner membership roles attempts).Follows (issuing A) True
      (IssueEnds A r q) q := by
  have hopen : ∀ q' : IssueState, q'.stage = q.stage → Unfinished q' := by
    intro q' hq' row' hrow'
    exact nomatch (hq'.trans hstage).symm.trans hrow'
  unfold replaceLicense
  refine aside_follows aside_time (hopen q rfl) (fun now q₁ hsince₁ hq₁ => ?_)
    fun x q₁ hsince₁ hq₁ => ⟨hsince₁, hopen q₁ hq₁⟩
  refine aside_follows (aside_lock trivial) (hopen q₁ hq₁) (fun active q₂ hsince₂ hq₂ => ?_)
    fun x q₂ hsince₂ hq₂ => ⟨hsince₁.trans hsince₂, hopen q₂ (hq₂.trans hq₁)⟩
  have hq₂ := hq₂.trans hq₁
  have hsince₂ := hsince₁.trans hsince₂
  split
  · exact ⟨hsince₂, hopen q₂ hq₂⟩
  refine aside_follows (changeRoles_aside _ _ _ _) (hopen q₂ hq₂) (fun _ q₃ hsince₃ hq₃ => ?_)
    fun x q₃ hsince₃ hq₃ => ⟨hsince₂.trans hsince₃, hopen q₃ (hq₃.trans hq₂)⟩
  have hq₃ := hq₃.trans hq₂
  have hsince₃ := hsince₂.trans hsince₃
  refine inside_follows (supersede_within _ _ _ _ _) ?_ (hopen q₃ hq₃)
    (fun _ q₄ hsince₄ hq₄ => ?_) fun x q₄ hsince₄ hq₄ =>
      ⟨hsince₃.trans hsince₄, hopen q₄ (hq₄.trans hq₃)⟩
  · intro stmt hstmt
    cases stmt with
    | account stmt =>
      cases stmt with
      | revokeLicense id t reason => exact ⟨⟨row, hq₃.trans hstage⟩, rfl⟩
      | _ => exact ⟨IssueStage.allows_aside hstmt, IssueStage.wrote_aside hstmt⟩
    | _ => exact ⟨IssueStage.allows_aside hstmt, IssueStage.wrote_aside hstmt⟩
  · have hstage₄ : q₄.stage = .recorded row := (hq₄.trans hq₃).trans hstage
    refine (grantLicense_follows hstage₄ hof owner attempts).mono ?_
    rintro res q' ⟨hsince', hends⟩
    exact ⟨(hsince₃.trans hsince₄).trans hsince', hends⟩

theorem issueNew_follows (hstage : q.stage = .idle) (hrequest : q.request = r) (attempts : ℕ) :
    (issueNew A r attempts).Follows (issuing A) True (IssueEnds A r q) q := by
  have hidle : ∀ q' : IssueState, q'.stage = q.stage → Unfinished q' := by
    intro q' hq' row' hrow'
    exact nomatch (hq'.trans hstage).symm.trans hrow'
  unfold issueNew
  refine aside_follows aside_draw (hidle q rfl) (fun id q₁ hsince₁ hq₁ => ?_)
    fun x q₁ hsince₁ hq₁ => ⟨hsince₁, hidle q₁ hq₁⟩
  let row : LicenseIssuanceRequest :=
    { id := id
      actorUserId := r.actorUserId
      idempotencyKeyHash := r.keyHash A
      requestFingerprint := r.requestFingerprint A }
  have hof : row.Of A r := ⟨⟨rfl, rfl⟩, rfl⟩
  refine follows_returning_bind.mpr ⟨fun seen eff _ _ => ⟨⟨hq₁.trans hstage, ?_⟩, ?_⟩,
    fun seen x _ _ => ⟨trivial, hsince₁.trans (issuing_since q₁ (.refused _ seen x)), hidle q₁ hq₁⟩,
    fun _ x => ⟨hsince₁.trans (issuing_since q₁ (.faulted x)), unfinished_faulted q₁ x⟩⟩
  · rw [hsince₁.request, hrequest]
    exact hof
  have hsince₂ := hsince₁.trans
    (issuing_since (A := A) q₁ (.wrote (.account (.insertIssuanceRequest row)) seen eff))
  have hopen : ∀ q' : IssueState, q'.stage = .recorded row → Unfinished q' := by
    intro q' hq' row' hrow'
    exact nomatch hq'.symm.trans hrow'
  refine aside_follows (lockHolder_aside _ _) (hopen _ rfl) ?_
    fun x q₃ hsince₃ hq₃ => ⟨hsince₂.trans hsince₃, hopen q₃ hq₃⟩
  rintro ⟨owner, membership⟩ q₃ hsince₃ hq₃
  refine aside_follows (personaRoles_aside _ _ _) (hopen q₃ hq₃) (fun roles q₄ hsince₄ hq₄ => ?_)
    fun x q₄ hsince₄ hq₄ => ⟨(hsince₂.trans hsince₃).trans hsince₄, hopen q₄ (hq₄.trans hq₃)⟩
  have hsince₄ := (hsince₂.trans hsince₃).trans hsince₄
  have hstage₄ : q₄.stage = .recorded row := hq₄.trans hq₃
  split
  · exact ⟨hsince₄, hopen q₄ hstage₄⟩
  · refine (replaceLicense_follows hstage₄ hof owner membership roles attempts).mono ?_
    rintro res q' ⟨hsince', hends⟩
    exact ⟨hsince₄.trans hsince', hends⟩

/-- **A replay** is answered from the record. -/
theorem replayIssuance_follows (hstage : q.stage = .idle) {existing : LicenseIssuanceRequest}
    (hknows : q.knows existing) (hkey : existing.KeyOf A r) :
    (replayIssuance A r existing).Follows (issuing A) True (IssueEnds A r q) q := by
  have hidle : ∀ q' : IssueState, q'.stage = q.stage → Unfinished q' := by
    intro q' hq' row' hrow'
    exact nomatch (hq'.trans hstage).symm.trans hrow'
  have hsettled : q.stage.Settled := by
    rw [hstage]
    trivial
  unfold replayIssuance
  split
  · exact ⟨.refl q, hidle q rfl⟩
  rename_i hsame
  have hsame : existing.requestFingerprint = r.requestFingerprint A := not_not.mp hsame
  cases hid : existing.licenseId with
  | none => exact ⟨.refl q, hidle q rfl⟩
  | some licenseId =>
    refine readLicense_follows hsettled hknows hid (fun l q' hsince hq' hl => ?_) fun x =>
      ⟨issuing_since q (.faulted x), unfinished_faulted q x⟩
    refine ⟨hsince, ⟨existing, hsince.knows _ hknows, ⟨hkey, hsame⟩, ?_, rfl, nofun⟩, ?_⟩
    · rw [hid, ← hl]
    · rw [hq']
      exact hsettled

theorem Database.issuanceRequest_some {db : Database} {row : LicenseIssuanceRequest}
    (h : db.issuanceRequest r.actorUserId (r.keyHash A) = some row) :
    row ∈ db.licenseIssuanceRequests ∧ row.KeyOf A r := by
  refine ⟨List.mem_of_find?_eq_some h, ?_⟩
  have hfound := List.find?_some h
  simpa [LicenseIssuanceRequest.KeyOf] using hfound

theorem issueLicense_follows (hstage : q.stage = .idle) (hrequest : q.request = r) (attempts : ℕ) :
    (issueLicense A r attempts).Follows (issuing A) True (IssueEnds A r q) q := by
  have hidle : ∀ q' : IssueState, q'.stage = q.stage → Unfinished q' := by
    intro q' hq' row' hrow'
    exact nomatch (hq'.trans hstage).symm.trans hrow'
  unfold issueLicense
  refine aside_follows (checkRequest_aside r) (hidle q rfl) (fun _ q₁ hsince₁ hq₁ => ?_)
    fun x q₁ hsince₁ hq₁ => ⟨hsince₁, hidle q₁ hq₁⟩
  refine follows_query_bind.mpr ⟨fun v _ => ⟨trivial, ?_⟩,
    fun _ x => ⟨hsince₁.trans (issuing_since q₁ (.faulted x)), unfinished_faulted q₁ x⟩⟩
  have hsince₂ := hsince₁.trans (issuing_since (A := A) q₁ (.read v))
  have hstage₂ : ((issuing A).next q₁ (.read v)).stage = .idle := hq₁.trans hstage
  have hgo : ∀ res q', IssueEnds A r ((issuing A).next q₁ (.read v)) res q' →
      IssueEnds A r q res q' := by
    rintro res q' ⟨hsince', hends⟩
    exact ⟨hsince₂.trans hsince', hends⟩
  split
  · rename_i existing hfound
    obtain ⟨hmem, hkey⟩ := Database.issuanceRequest_some hfound
    have hknows : ((issuing A).next q₁ (.read v)).knows existing := by
      refine .inr ⟨?_, hmem⟩
      rw [hq₁, hstage]
      trivial
    exact (replayIssuance_follows hstage₂ hknows hkey).mono hgo
  · exact (issueNew_follows hstage₂ (hsince₂.request.trans hrequest) attempts).mono hgo

/-! ## The route -/

/-- What the reply of a call says of where it stands. -/
def Replied (A : AppEnv) (r : IssueRequest) : Except Err LicenseResponse → IssueState → Prop
  | .ok answer, q => ∃ row, q.knows row ∧ row.Of A r ∧
      row.licenseId = some answer.license.license.id ∧
      answer.idempotentReplay = answer.key.isNone ∧
      (answer.key.isSome → q.stage = .done row)
  | .error _, q => Unfinished q

/-- Where a call stands when it has replied. -/
def RouteEnds (A : AppEnv) (r : IssueRequest) (q : IssueState)
    (res : Except Err LicenseResponse) (q' : IssueState) : Prop :=
  q'.Since q ∧ Replied A r res q'

theorem issueWithRetry_follows (hstage : q.stage = .idle) (hrequest : q.request = r)
    (attempts : ℕ) :
    (issueWithRetry A r attempts).Follows (issuing A) True (IssueEnds A r q) q := by
  unfold issueWithRetry
  have hfirst := issueLicense_follows (A := A) hstage hrequest attempts
  refine Follows.orElse (M := fun _ q' => q'.Since q ∧ Unfinished q') (hfirst.mono ?_) ?_
  · rintro (x | answer) q' hends <;> exact hends
  rintro x q' ⟨hsince, hopen⟩
  -- a lost transaction leaves the call where it started
  have hback : ((issuing A).next q' .rolledBack).stage = .idle := by
    show q'.stage.rolledBack = .idle
    cases hq' : q'.stage with
    | done row => exact absurd hq' (hopen row)
    | _ => rfl
  have hsince' := hsince.trans (issuing_since (A := A) q' .rolledBack)
  split
  · refine (issueLicense_follows hback (hsince'.request.trans hrequest) attempts).mono ?_
    rintro res q'' ⟨hsince'', hends⟩
    exact ⟨hsince'.trans hsince'', hends⟩
  · refine ⟨hsince', fun row hrow => ?_⟩
    exact nomatch hback.symm.trans hrow
  · exact ⟨hsince, hopen⟩

theorem Database.licenseAdmin_id {db : Database} {userId : ℕ} {user : User}
    (h : db.licenseAdmin userId = some user) : user.id = userId := by
  unfold Database.licenseAdmin at h
  obtain ⟨hfound, -⟩ := Option.filter_eq_some_iff.mp h
  have hid := List.find?_some hfound
  exact (of_decide_eq_true hid).1

theorem unfinished_rolledBack (h : Unfinished q) :
    Unfinished ((issuing A).next q .rolledBack) := by
  intro row hrow
  have hstage : q.stage.rolledBack = .done row := hrow
  cases hq : q.stage with
  | done row' => exact h row' hq
  | _ =>
    rw [hq] at hstage
    cases hstage

/-- What the route makes of an answer. -/
theorem metadataFor_follows (post : Except Err LicenseMetadata → IssueState → Prop)
    (license : LicenseKey)
    (hok : ∀ (m : LicenseMetadata) q', q'.Since q → q'.stage = q.stage → m.license = license →
      post (.ok m) q')
    (hx : ∀ x, post (.error x) ((issuing A).next q (.faulted x))) :
    (metadataFor license).Follows (issuing A) True post q := by
  unfold metadataFor
  refine follows_query_bind.mpr ⟨fun v _ => ⟨trivial, ?_⟩, fun _ x => hx x⟩
  exact follows_time_bind.mpr fun t _ => hok _ _ (issuing_since (A := A) q (.read v)) rfl rfl

/-- Who asks is looked up first. -/
theorem authorizedLicenseAdmin_follows (hstage : q.stage = .idle) (userId : ℕ) :
    (authorizedLicenseAdmin userId).Follows (issuing A) True (fun res q' =>
      q'.Since q ∧ match res with
        | .ok actor => actor.id = userId ∧ q'.stage = .idle
        | .error x => Unfinished q' ∧
            (q'.failed ∨ x = .http 403 "Manual license administration is restricted")) q := by
  unfold authorizedLicenseAdmin
  refine follows_query_bind.mpr ⟨fun v _ => ⟨trivial, ?_⟩, fun _ x =>
    ⟨issuing_since q (.faulted x), unfinished_faulted q x, .inl trivial⟩⟩
  have hsince := issuing_since (A := A) q (.read v)
  cases hadmin : v.licenseAdmin userId with
  | none => exact ⟨hsince, fun row hrow => (nomatch hstage.symm.trans hrow), .inr rfl⟩
  | some actor => exact ⟨hsince, Database.licenseAdmin_id hadmin, hstage⟩

/-- **Every issue request keeps to the discipline.** -/
theorem issueLicenseRoute_follows (hstage : q.stage = .idle) (hrequest : q.request = r)
    (attempts : ℕ) :
    (issueLicenseRoute A r attempts).close.Follows (issuing A) True (RouteEnds A r q) q := by
  refine Follows.close ?_
  have hlost : ∀ x q', q'.Since q → Unfinished q' →
      RouteEnds A r q (.error x) ((issuing A).next q' .rolledBack) := fun x q' hsince hopen =>
    ⟨hsince.trans (issuing_since q' .rolledBack), unfinished_rolledBack hopen⟩
  unfold issueLicenseRoute
  refine (authorizedLicenseAdmin_follows hstage r.actorUserId).handle ?_
  rintro (x | actor) q₁ ⟨hsince₁, hends₁⟩
  · exact hlost x q₁ hsince₁ hends₁.1
  · obtain ⟨hactor, hstage₁⟩ := hends₁
    have hsame : ({ r with actorUserId := actor.id } : IssueRequest) = r := by
      rw [hactor]
    show (Prog.bind (issueWithRetry A { r with actorUserId := actor.id } attempts) _).Follows
      (issuing A) True _ _
    rw [hsame]
    refine (issueWithRetry_follows (r := r) hstage₁ (hsince₁.request.trans hrequest)
      attempts).handle ?_
    rintro (x | issued) q₂ ⟨hsince₂, hends⟩
    · exact hlost x q₂ (hsince₁.trans hsince₂) hends
    obtain ⟨⟨row, hknows, hof, hid, hreplayed, hkey⟩, -⟩ := hends
    have hsince₂ := hsince₁.trans hsince₂
    refine Follows.handle (metadataFor_follows (fun res q' => q'.Since q₂ ∧ match res with
      | .ok m => q'.stage = q₂.stage ∧ m.license = issued.license
      | .error _ => Unfinished q') issued.license (fun m q' hsince' hq' hm => ⟨hsince', hq', hm⟩)
      fun x => ⟨issuing_since q₂ (.faulted x), unfinished_faulted q₂ x⟩) ?_
    rintro (x | m) q₃ ⟨hsince₃, hq₃⟩
    · exact hlost x q₃ (hsince₂.trans hsince₃) hq₃
    · obtain ⟨hstage₃, hm⟩ := hq₃
      refine ⟨(hsince₂.trans hsince₃).trans (issuing_since q₃ .rolledBack), row,
        .inl (hsince₃.knows row hknows), hof, ?_, hreplayed, fun hsome => ?_⟩
      · rw [hid]
        exact congrArg (fun l : LicenseKey => some l.id) hm.symm
      · show q₃.stage.rolledBack = .done row
        rw [hstage₃, hkey hsome]
        rfl

/-! ## A request under a key that is taken -/

/-- The request gets past the checks that come before its key is looked up. -/
def IssueRequest.Passes (A : AppEnv) (r : IssueRequest) : Prop :=
  r.validityDays ∈ A.licenseAllowedValidityDays ∧ A.licenseKeyPepper = true ∧
    16 ≤ (A.strip r.idempotencyKey).length ∧ r.idempotencyKey.length ≤ 200

theorem IssueRequest.Passes.check (h : r.Passes A) : checkRequest A r = return () := by
  obtain ⟨hdays, hpepper, hshort, hlong⟩ := h
  have hne : A.licenseAllowedValidityDays ≠ [] := List.ne_nil_of_mem hdays
  unfold checkRequest requireValidity
  rw [if_neg hne, if_neg (not_not.mpr hdays), hpepper]
  have hlength : ¬ ((A.strip r.idempotencyKey).length < 16 ∨ 200 < r.idempotencyKey.length) := by
    omega
  simp [hlength]

/-- The refusal of a request that differs. -/
def conflict : Err :=
  .manualLicense "idempotency_conflict" "Idempotency key was used for a different request" 409

/-- What the record of its key makes of a request. -/
def ReplayOf (A : AppEnv) (r : IssueRequest) (row : LicenseIssuanceRequest)
    (res : Except Err Issued) : Prop :=
  if row.requestFingerprint = r.requestFingerprint A then
    ∃ answer, res = .ok answer ∧ answer.key = none ∧ answer.replayed = true ∧
      row.licenseId = some answer.license.id
  else res = .error conflict

theorem ReplayOf.error {row : LicenseIssuanceRequest} {x : Err}
    (h : ReplayOf A r row (.error x)) :
    row.requestFingerprint ≠ r.requestFingerprint A ∧ x = conflict := by
  unfold ReplayOf at h
  split at h
  · obtain ⟨answer, hanswer, -⟩ := h
    cases hanswer
  · rename_i hprint
    exact ⟨hprint, Except.error.inj h⟩

theorem replayOf_conflict {row : LicenseIssuanceRequest}
    (h : row.requestFingerprint ≠ r.requestFingerprint A) :
    ReplayOf A r row (.error conflict) := by
  unfold ReplayOf
  rw [if_neg h]

/-- A record that is known and names its licence is replayed. -/
theorem replayIssuance_known (hsettled : q.stage.Settled) {row : LicenseIssuanceRequest}
    (hknows : q.knows row) {id : ℕ} (hnames : row.licenseId = some id) :
    (replayIssuance A r row).Follows (issuing A) True
      (fun res q' => q'.failed ∨ q'.knows row ∧ ReplayOf A r row res) q := by
  unfold replayIssuance
  by_cases hsame : row.requestFingerprint = r.requestFingerprint A
  · simp only [if_neg (not_not.mpr hsame), hnames]
    refine readLicense_follows hsettled hknows hnames
      (fun l q' hsince _ hid => .inr ⟨hsince.knows row hknows, ?_⟩) fun x => .inl trivial
    unfold ReplayOf
    rw [if_pos hsame]
    exact ⟨_, rfl, rfl, rfl, by rw [hid]; exact hnames⟩
  · simp only [if_pos hsame]
    exact .inr ⟨hknows, replayOf_conflict hsame⟩

theorem issueLicense_known (hstage : q.stage = .idle) (hpasses : r.Passes A)
    {row : LicenseIssuanceRequest} (hknows : q.knows row) (hkey : row.KeyOf A r) (attempts : ℕ) :
    (issueLicense A r attempts).Follows (issuing A) True
      (fun res q' => q'.failed ∨ q'.knows row ∧ ReplayOf A r row res) q := by
  have hsettled : q.stage.Settled := by
    rw [hstage]
    trivial
  unfold issueLicense
  rw [hpasses.check]
  refine follows_query_bind.mpr ⟨fun v hsees => ⟨trivial, ?_⟩, fun _ x => .inl trivial⟩
  obtain ⟨horder, hknown⟩ := hsees hsettled
  have hrow := hknown row hknows
  have hsome : (v.issuanceRequest r.actorUserId (r.keyHash A)).isSome := by
    unfold Database.issuanceRequest
    rw [List.find?_isSome]
    exact ⟨row, hrow, by simpa [LicenseIssuanceRequest.KeyOf] using hkey⟩
  obtain ⟨existing, hfound⟩ := Option.isSome_iff_exists.mp hsome
  obtain ⟨hmem, hkey'⟩ := Database.issuanceRequest_some hfound
  obtain rfl : existing = row := horder.eq_of_sameKey hmem hrow (hkey'.sameKey hkey)
  obtain ⟨l, -, hnames⟩ := horder.named existing hrow
  rw [hfound]
  have hsettled' : ((issuing A).next q (.read v)).stage.Settled := hsettled
  exact replayIssuance_known hsettled' (Or.inl hknows) hnames

/-- A call that failed, tried a record of its own, or is answered from the record of its
key. -/
def Beaten (A : AppEnv) (r : IssueRequest) (res : Except Err Issued) (q : IssueState) : Prop :=
  q.failed ∨ q.tried ∨ ∃ row, q.knows row ∧ row.KeyOf A r ∧ ReplayOf A r row res

/-- The insertion of a record that somebody else has the key of is refused. -/
def LosesRace (A : AppEnv) (r : IssueRequest) (res : Except Err Issued) (q : IssueState) : Prop :=
  res = .error .integrity ∧ ∃ row, q.lost row ∧ row.KeyOf A r

theorem denote_insertIssuanceRequest_error {row : LicenseIssuanceRequest} {seen : Database}
    {x : Err} (h : denote (.account (.insertIssuanceRequest row)) seen = .error x) :
    x = .integrity := by
  simp only [denote, AccountStmt.denote] at h
  split at h
  · exact (Except.error.inj h).symm
  · cases h

theorem issueNew_beaten (hstage : q.stage = .idle) (hrequest : q.request = r) (attempts : ℕ) :
    (issueNew A r attempts).Follows (issuing A) True
      (fun res q' => Beaten A r res q' ∨ LosesRace A r res q') q := by
  have hfol := issueNew_follows (A := A) hstage hrequest attempts
  unfold issueNew at hfol ⊢
  refine follows_draw_bind.mpr fun id hid => ?_
  obtain ⟨hgranted, -, -⟩ := follows_returning_bind.mp (follows_draw_bind.mp hfol id hid)
  refine follows_returning_bind.mpr ⟨fun seen eff hden hsees => ?_, fun seen x hden _ =>
    ⟨trivial, ?_⟩, fun _ x => .inl (.inl trivial)⟩
  · -- a record of its own: whatever comes now, it has tried
    obtain ⟨hallows, hrest⟩ := hgranted seen eff hden hsees
    refine ⟨hallows, (hrest.stable (T := IssueState.tried) ?_ (.inr trivial)).mono ?_⟩
    · exact fun q' ℓ => (issuing_since q' ℓ).tried
    · exact fun res q' h => .inl (.inr (.inl h.2))
  · obtain rfl := denote_insertIssuanceRequest_error hden
    by_cases htaken : ∃ row ∈ seen.licenseIssuanceRequests, row.KeyOf A r
    · obtain ⟨row, hrow, hkey⟩ := htaken
      refine .inr ⟨rfl, row, .inr ⟨?_, hrow⟩, hkey⟩
      show q.stage.Settled
      rw [hstage]
      trivial
    · refine .inl (.inr (.inl (.inr fun row hrow hkey => htaken ⟨row, hrow, ?_⟩)))
      rw [← hrequest]
      exact hkey

theorem issueLicense_beaten (hstage : q.stage = .idle) (hrequest : q.request = r)
    (hpasses : r.Passes A) (attempts : ℕ) :
    (issueLicense A r attempts).Follows (issuing A) True
      (fun res q' => Beaten A r res q' ∨ LosesRace A r res q') q := by
  have hsettled : q.stage.Settled := by
    rw [hstage]
    trivial
  unfold issueLicense
  rw [hpasses.check]
  refine follows_query_bind.mpr ⟨fun v hsees => ⟨trivial, ?_⟩, fun _ x => .inl (.inl trivial)⟩
  obtain ⟨horder, -⟩ := hsees hsettled
  cases hfound : v.issuanceRequest r.actorUserId (r.keyHash A) with
  | none =>
    have hstage' : ((issuing A).next q (.read v)).stage = .idle := hstage
    exact issueNew_beaten hstage' hrequest attempts
  | some existing =>
    obtain ⟨hmem, hkey⟩ := Database.issuanceRequest_some hfound
    obtain ⟨l, -, hnames⟩ := horder.named existing hmem
    have hsettled' : ((issuing A).next q (.read v)).stage.Settled := hsettled
    refine (replayIssuance_known hsettled' (Or.inr ⟨hsettled, hmem⟩) hnames).mono fun res q' h => ?_
    exact .inl (h.imp_right fun h => .inr ⟨existing, h.1, hkey, h.2⟩)

/-- **Who loses the race** issues again, and is answered from the record that refused it. -/
theorem issueWithRetry_beaten (hstage : q.stage = .idle) (hrequest : q.request = r)
    (hpasses : r.Passes A) (attempts : ℕ) :
    (issueWithRetry A r attempts).Follows (issuing A) True (Beaten A r) q := by
  have hfirst := (issueLicense_follows (A := A) hstage hrequest attempts).and
    (issueLicense_beaten hstage hrequest hpasses attempts)
  unfold issueWithRetry
  refine Follows.orElse (M := fun x q' => q'.Since q ∧ Unfinished q' ∧
    (Beaten A r (.error x) q' ∨ LosesRace A r (.error x) q')) (hfirst.mono ?_) ?_
  · rintro (x | answer) q' ⟨⟨hsince, hends⟩, hanswer⟩
    · exact ⟨hsince, hends, hanswer⟩
    · exact hanswer.resolve_right fun h => nomatch h.1
  · rintro x q' ⟨hsince, hopen, hx⟩
    split
    · have hback : ((issuing A).next q' .rolledBack).stage = .idle := by
        show q'.stage.rolledBack = .idle
        cases hq' : q'.stage with
        | done row => exact absurd hq' (hopen row)
        | _ => rfl
      have hsecond := issueLicense_follows (A := A) (r := r) hback
        (hsince.request.trans hrequest) attempts
      rcases hx with (hfailed | htried | ⟨row, -, -, hreplay⟩) | ⟨-, row, hlost, hkey⟩
      · exact hsecond.mono fun res q'' h => .inl (h.1.failed hfailed)
      · exact hsecond.mono fun res q'' h => .inr (.inl (h.1.tried htried))
      · exact nomatch hreplay.error.2
      · -- the new transaction sees the record
        refine (issueLicense_known hback hpasses (.inr hlost) hkey attempts).mono fun res q'' h => ?_
        exact h.imp_right fun h => .inr ⟨row, h.1, hkey, h.2⟩
    · rcases hx with (hfailed | htried | ⟨row, hknows, hkey, hreplay⟩) | ⟨herror, -⟩
      · exact .inl hfailed
      · exact .inr (.inl htried)
      · exact .inr (.inr ⟨row, .inl hknows, hkey, hreplay⟩)
      · cases herror
    · rename_i hother _
      refine hx.resolve_right fun h => ?_
      exact hother (Except.error.inj h.1)

/-- **A request under a key that is taken** is answered from the record of the key. -/
def Answered (A : AppEnv) (r : IssueRequest) (row : LicenseIssuanceRequest)
    (res : Except Err LicenseResponse) : Prop :=
  res = .error (.http 403 "Manual license administration is restricted") ∨
    if row.requestFingerprint = r.requestFingerprint A then
      ∃ answer, res = .ok answer ∧ answer.key = none ∧ answer.idempotentReplay = true ∧
        row.licenseId = some answer.license.license.id
    else res = .error conflict

/-- What the route answers to a request that has no record of its own. -/
def RouteBeaten (A : AppEnv) (r : IssueRequest) (res : Except Err LicenseResponse)
    (q : IssueState) : Prop :=
  q.failed ∨ q.tried ∨ res = .error (.http 403 "Manual license administration is restricted") ∨
    ∃ row, q.knows row ∧ row.KeyOf A r ∧ Answered A r row res

theorem issueLicenseRoute_beaten (hstage : q.stage = .idle) (hrequest : q.request = r)
    (hpasses : r.Passes A) (attempts : ℕ) :
    (issueLicenseRoute A r attempts).close.Follows (issuing A) True (RouteBeaten A r) q := by
  refine Follows.close ?_
  unfold issueLicenseRoute
  refine (authorizedLicenseAdmin_follows hstage r.actorUserId).handle ?_
  rintro (x | actor) q₁ ⟨hsince₁, hends₁⟩
  · exact hends₁.2.imp id fun hx => .inr (.inl (congrArg Except.error hx))
  obtain ⟨hactor, hstage₁⟩ := hends₁
  have hsame : ({ r with actorUserId := actor.id } : IssueRequest) = r := by
    rw [hactor]
  show (Prog.bind (issueWithRetry A { r with actorUserId := actor.id } attempts) _).Follows
    (issuing A) True _ _
  rw [hsame]
  refine (issueWithRetry_beaten hstage₁ (hsince₁.request.trans hrequest) hpasses attempts).handle ?_
  rintro (x | issued) q₂ hends₂
  · rcases hends₂ with hfailed | htried | ⟨row, hknows, hkey, hreplay⟩
    · exact .inl hfailed
    · exact .inr (.inl htried)
    · obtain ⟨hprint, rfl⟩ := hreplay.error
      refine .inr (.inr (.inr ⟨row, .inl hknows, hkey, .inr ?_⟩))
      rw [if_neg hprint]
  · refine Follows.handle (metadataFor_follows (fun res q' => q'.Since q₂ ∧ match res with
      | .ok m => m.license = issued.license
      | .error _ => q'.failed) issued.license (fun m q' hsince' _ hm => ⟨hsince', hm⟩)
      fun x => ⟨issuing_since q₂ (.faulted x), trivial⟩) ?_
    rintro (x | m) q₃ ⟨hsince₃, hq₃⟩
    · exact .inl hq₃
    · rcases hends₂ with hfailed | htried | ⟨row, hknows, hkey, hreplay⟩
      · exact .inl (hsince₃.failed hfailed)
      · exact .inr (.inl (hsince₃.tried htried))
      · refine .inr (.inr (.inr ⟨row, .inl (hsince₃.knows row hknows), hkey, .inr ?_⟩))
        unfold ReplayOf at hreplay
        split at hreplay
        · rename_i hprint
          obtain ⟨answer, hanswer, hnokey, hreplayed, hid⟩ := hreplay
          obtain rfl := Except.ok.inj hanswer
          rw [if_pos hprint]
          refine ⟨_, rfl, hnokey, hreplayed, ?_⟩
          rw [hid]
          exact congrArg (fun l : LicenseKey => some l.id) hq₃.symm
        · cases hreplay

end OmniAuth
