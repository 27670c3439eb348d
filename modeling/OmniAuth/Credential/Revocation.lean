import OmniAuth.Credential.Race

/-!
# Revocation under interleaving

Every call keeps to the discipline of credentials, whatever the database lets it see and
whatever fails. So, as long as nobody comes between a call's reading of a row and its update,
nothing is left of a revoked payload, and a reference opens what it was issued for.
-/

namespace OmniAuth

open Txn Prog

variable {A : AppEnv} {α β : Type} {q q' : CredentialState}

/-! ## What a call keeps to -/

/-- The call goes on from `q` with nothing pending: it has forgotten nothing. -/
structure CredentialState.Grows (q q' : CredentialState) : Prop where
  idle : q'.stage = .idle
  knows : ∀ c, q.knows c → q'.knows c
  current : ∀ c, q.current c → q'.current c
  references : ∀ r, q.references r → q'.references r

theorem CredentialState.Grows.refl (hidle : q.stage = .idle) : q.Grows q :=
  ⟨hidle, fun _ h => h, fun _ h => h, fun _ h => h⟩

theorem CredentialState.Grows.trans {q₁ q₂ q₃ : CredentialState} (h : q₁.Grows q₂)
    (h' : q₂.Grows q₃) : q₁.Grows q₃ :=
  ⟨h'.idle, fun c hc => h'.knows c (h.knows c hc), fun c hc => h'.current c (h.current c hc),
    fun r hr => h'.references r (h.references r hr)⟩

theorem CredentialState.grows_read (hidle : q.stage = .idle) (v : Database) : q.Grows (q.read v) :=
  ⟨hidle, fun _ h => .inl h, fun _ h => .inl h, fun _ h => .inl h⟩

theorem reading_grows {o : Op α} (h : o.Within True (Reading True)) (hidle : q.stage = .idle) :
    o.Follows credentialing True (fun _ q' => q.Grows q') q := by
  refine h.follows ?_ ?_ (.refl hidle)
  · intro q' ℓ hq' hℓ
    cases ℓ with
    | read v => exact hq'.idle
    | wrote stmt seen eff => exact hℓ.elim
    | _ => trivial
  · intro q' ℓ hq' hℓ
    cases ℓ with
    | read v => exact hq'.trans (CredentialState.grows_read hq'.idle v)
    | ticked t => exact hq'
    | drew n => exact hq'
    | emitted e => exact hq'
    | faulted x => exact hq'
    | _ => exact hℓ.elim

/-- **A program that only reads**, and what comes after. -/
theorem reading_follows {o : Op α} {k : α → Op β} {post : Except Err β → CredentialState → Prop}
    (h : o.Within True (Reading True)) (hidle : q.stage = .idle)
    (hk : ∀ a q', q.Grows q' → (k a).Follows credentialing True post q')
    (hx : ∀ x q', q.Grows q' → post (.error x) q') :
    (Prog.bind o k).Follows credentialing True post q := by
  refine (reading_grows h hidle).handle fun r q' hq' => ?_
  cases r with
  | ok a => exact hk a q' hq'
  | error x => exact hx x q' hq'

/-- A plain read: what it saw is known. -/
theorem query_follows {f : Database → α} {k : α → Op β}
    {post : Except Err β → CredentialState → Prop} (hidle : q.stage = .idle)
    (hk : ∀ v, (k (f v)).Follows credentialing True post (q.read v))
    (hx : ∀ x, post (.error x) q) :
    (Prog.bind (query f) k).Follows credentialing True post q :=
  ⟨fun v _ => ⟨hidle, hk v⟩, fun _ x => hx x⟩

/-- A write, whether it is let through or denied. -/
theorem write_follows {stmt : Stmt} {k : Unit → Op β}
    {post : Except Err β → CredentialState → Prop} (hallows : q.Allows stmt)
    (hk : ∀ seen eff, denote stmt seen = .ok eff →
      (k ()).Follows credentialing True post { q with stage := q.stage.wrote seen stmt })
    (hx : ∀ x, post (.error x) q) :
    (Prog.bind (execute stmt) k).Follows credentialing True post q :=
  ⟨fun seen eff hden _ => ⟨hallows, hk seen eff hden⟩, fun _ x _ _ => ⟨trivial, hx x⟩,
    fun _ x => hx x⟩

/-- An audit row that is not committed yet. -/
theorem logEvent_follows {event : AuditEvent} {k : Unit → Op β}
    {post : Except Err β → CredentialState → Prop}
    (hk : (k ()).Follows credentialing True post q) (hx : ∀ x, post (.error x) q) :
    (Prog.bind (logEvent event false) k).Follows credentialing True post q :=
  fun _ _ => ⟨fun _ _ _ _ => ⟨leaves_vault_audit _, hk⟩, fun _ x _ _ => ⟨trivial, hx x⟩,
    fun _ x => hx x⟩

/-- A commit, and what comes after. -/
theorem commit_follows {k : Unit → Op β} {post : Except Err β → CredentialState → Prop}
    (hk : (k ()).Follows credentialing True post q.ended) (hx : ∀ x, post (.error x) q.ended) :
    (Prog.bind commitNow k).Follows credentialing True post q :=
  ⟨fun _ => ⟨trivial, hk⟩, fun _ x => ⟨hx x, trivial, hx x⟩⟩

/-! ## The calls -/

/-- A call that promises nothing of its answer. -/
abbrev Whatever {α : Type} : Except Err α → CredentialState → Prop := fun _ _ => True

theorem reading_whatever {o : Op α} (h : o.Within True (Reading True)) (hidle : q.stage = .idle) :
    o.Follows credentialing True Whatever q :=
  (reading_grows h hidle).mono fun _ _ _ => trivial

/-- The end of a write: its audit row, the commit, and the row read back. -/
theorem recordCredential_follows {event : AuditEvent} {id : ℕ} :
    (Prog.bind (logEvent event false) fun _ =>
      commitNow.bind fun _ => refreshCredential id).Follows credentialing True Whatever q :=
  logEvent_follows (commit_follows
    (reading_whatever (refreshCredential_within id) rfl) fun _ => trivial) fun _ => trivial

theorem replacing_sound (c : IntegrationCredential) (input : CredentialInput) (actorId now : ℕ) :
    (c.set (c.replacing input actorId now)).Sound := by
  intro hrevoked
  have hactive : (c.set (c.replacing input actorId now)).status = .active := by
    show (changed c.status .active).getD c.status = .active
    unfold changed
    split
    · assumption
    · rfl
  rw [hactive] at hrevoked
  cases hrevoked

theorem revoking_sound (c : IntegrationCredential) (actorId now : ℕ) :
    (c.set (c.revoking actorId now)).Sound := by
  intro _
  show (changed c.encryptedPayload none).getD c.encryptedPayload = none
  unfold changed
  split
  · assumption
  · rfl

theorem setCredential_follows (hidle : q.stage = .idle) (providerId : String)
    (scope : CredentialScope) (credentials : List (String × String))
    (displayMetadata : Option (List (String × String))) (user : Claims)
    (policy : Option ProviderPolicy) :
    (setCredential A providerId scope credentials displayMetadata user policy).Follows
      credentialing True Whatever q := by
  unfold setCredential
  refine reading_follows (requirePolicy_within policy) hidle (fun policy _ h => ?_)
    fun _ _ _ => trivial
  refine reading_follows (requireScope_within policy scope) h.idle (fun _ _ h => ?_)
    fun _ _ _ => trivial
  refine reading_follows (credentialOwner_within _ _ _) h.idle (fun owner _ h => ?_)
    fun _ _ _ => trivial
  refine reading_follows (raising_within _) h.idle (fun payload _ h => ?_) fun _ _ _ => trivial
  refine reading_follows (integrationUserId_within _) h.idle (fun actorId q₁ h => ?_)
    fun _ _ _ => trivial
  refine query_follows h.idle (fun v => ?_) fun _ => trivial
  refine reading_follows time_within h.idle (fun now q₂ h₂ => ?_) fun _ _ _ => trivial
  refine reading_follows (sealCredential_within _ _) h₂.idle (fun input q₃ h₃ => ?_)
    fun _ _ _ => trivial
  have hread : (q₁.read v).Grows q₃ := h₂.trans h₃
  refine Follows.bind (M := fun _ _ => True) ?_ fun id q₄ _ => recordCredential_follows
  cases hrow : v.credentialOf providerId scope owner.key with
  | some row =>
    have hknows : q₃.knows row := hread.knows row (.inr (List.mem_of_find?_eq_some hrow))
    refine write_follows ⟨hread.idle, row, hknows, rfl, rfl, replacing_sound _ _ _ _⟩
      (fun seen eff _ => trivial) fun _ => trivial
  | none =>
    refine reading_follows draw_within hread.idle (fun id q₄ h₄ => ?_) fun _ _ _ => trivial
    exact write_follows ⟨h₄.idle, fun h => by cases h⟩ (fun seen eff _ => trivial) fun _ => trivial

theorem revokeCredential_follows (hidle : q.stage = .idle) (providerId : String)
    (scope : CredentialScope) (user : Claims) (policy : Option ProviderPolicy) :
    (revokeCredential providerId scope user policy).Follows credentialing True Whatever q := by
  unfold revokeCredential
  refine reading_follows (requirePolicy_within policy) hidle (fun policy _ h => ?_)
    fun _ _ _ => trivial
  refine reading_follows (requireScope_within policy scope) h.idle (fun _ _ h => ?_)
    fun _ _ _ => trivial
  refine reading_follows (credentialOwner_within _ _ _) h.idle (fun owner q₁ h => ?_)
    fun _ _ _ => trivial
  refine query_follows h.idle (fun v => ?_) fun _ => trivial
  cases hrow : v.activeCredentialOf providerId scope owner.key with
  | none => trivial
  | some row =>
    refine reading_follows time_within h.idle (fun now q₂ h₂ => ?_) fun _ _ _ => trivial
    refine reading_follows (integrationUserId_within _) h₂.idle (fun actorId q₃ h₃ => ?_)
      fun _ _ _ => trivial
    have hread : (q₁.read v).Grows q₃ := h₂.trans h₃
    have hknows : q₃.knows row := hread.knows row (.inr (List.mem_of_find?_eq_some hrow))
    refine write_follows ⟨hread.idle, row, hknows, rfl, rfl, revoking_sound _ _ _⟩
      (fun seen eff _ => ?_) fun _ => trivial
    exact write_follows trivial (fun _ _ _ => recordCredential_follows) fun _ => trivial

/-- What is selected was read in the open transaction. -/
theorem selectCredential_follows (hidle : q.stage = .idle) (providerId : String) (user : Claims)
    (policy : List CredentialScope) :
    (selectCredential providerId user policy).Follows credentialing True
      (fun r q' => q'.stage = .idle ∧
        ∀ row, r = .ok (.selected row) → q'.knows row ∧ q'.current row) q := by
  induction policy generalizing q with
  | nil => exact ⟨hidle, fun row h => by cases h⟩
  | cons scope rest ih =>
    have howner : scope ≠ .anonymous → scope ≠ .platform →
        (selectCredential providerId user (scope :: rest)).Follows credentialing True
          (fun r q' => q'.stage = .idle ∧
            ∀ row, r = .ok (.selected row) → q'.knows row ∧ q'.current row) q := by
      intro hanonymous hplatform
      rw [selectCredential_owner hanonymous hplatform]
      refine Follows.bind (M := fun candidate q' =>
        q'.stage = .idle ∧ ∀ row, candidate = some row → q'.knows row ∧ q'.current row) ?_ ?_
      · refine Follows.orElse (M := fun _ q' => q'.stage = .idle) ?_ ?_
        · refine reading_follows (credentialOwner_within _ _ _) hidle (fun owner q₁ h => ?_)
            fun _ _ h => h.idle
          refine ⟨fun v _ => ⟨h.idle, h.idle, fun row hrow => ?_⟩, fun _ _ => h.idle⟩
          have hmem := List.mem_of_find?_eq_some hrow
          exact ⟨.inr hmem, .inr hmem⟩
        · intro x q' hq'
          split
          · exact ⟨hq', fun _ h => by cases h⟩
          · exact ⟨hq', fun row h => by cases h⟩
      · rintro candidate q' ⟨hq', hrow⟩
        cases candidate with
        | none => exact ih hq'
        | some row =>
          show (if row.status = .active then _ else _ : Op Resolution).Follows _ _ _ _
          split
          · refine ⟨hq', fun row' h => ?_⟩
            obtain rfl := Resolution.selected.inj (Except.ok.inj h)
            exact hrow row rfl
          · exact ih hq'
    cases scope with
    | anonymous => exact ⟨hidle, fun row h => by cases h⟩
    | platform => exact ih hidle
    | user => exact howner (by simp) (by simp)
    | organization => exact howner (by simp) (by simp)
    | other value => exact howner (by simp) (by simp)

theorem issueReference_follows (hidle : q.stage = .idle) (providerId consumer purpose : String)
    (user : Claims) (policy : Option ProviderPolicy) :
    (issueReference A providerId consumer purpose user policy).Follows credentialing True
      Whatever q := by
  unfold issueReference
  refine reading_follows (requireBinding_within _ _) hidle (fun _ _ h => ?_) fun _ _ _ => trivial
  refine reading_follows (requirePolicy_within policy) h.idle (fun policy _ h => ?_)
    fun _ _ _ => trivial
  refine reading_follows (integrationUserId_within user) h.idle (fun userId _ h => ?_)
    fun _ _ _ => trivial
  refine Follows.bind (M := fun resolution q' => q'.stage = .idle ∧
    ∀ row, resolution = .selected row → q'.knows row ∧ q'.current row) ?_ ?_
  · refine (selectCredential_follows h.idle providerId user _).mono ?_
    rintro (x | resolution) q' ⟨hq', hrow⟩
    · trivial
    · exact ⟨hq', fun row hr => hrow row (congrArg _ hr)⟩
  rintro resolution q₁ ⟨hq₁, hrow⟩
  cases resolution with
  | anonymous => trivial
  | nothing => trivial
  | selected row =>
    refine reading_follows draw_within hq₁ (fun opaqueId q₂ h₂ => ?_) fun _ _ _ => trivial
    refine reading_follows time_within h₂.idle (fun now q₃ h₃ => ?_) fun _ _ _ => trivial
    refine reading_follows draw_within h₃.idle (fun id q₄ h₄ => ?_) fun _ _ _ => trivial
    have hgrows : q₁.Grows q₄ := (h₂.trans h₃).trans h₄
    obtain ⟨hknows, hcurrent⟩ := hrow row rfl
    refine write_follows ⟨hgrows.idle, row, hgrows.knows row hknows, hgrows.current row hcurrent,
      rfl, rfl⟩ (fun _ _ _ => ?_) fun _ => trivial
    exact logEvent_follows (commit_follows trivial fun _ => trivial) fun _ => trivial

/-- **What a call knows of the payload it gives out.** -/
def Resolved (A : AppEnv) (credentialRef : String) (res : Except Err PayloadAnswer)
    (q : CredentialState) : Prop :=
  ∀ answer, res = .ok answer → ∃ r c, q.references r ∧ q.knows c ∧
    r.tokenHash = A.referenceHash credentialRef ∧ c.id = r.credentialId ∧
    c.version = r.credentialVersion ∧ c.payload A = some answer.credentials

theorem resolveReference_follows (hidle : q.stage = .idle)
    (credentialRef providerId consumer purpose : String) :
    (resolveReference A credentialRef providerId consumer purpose).Follows credentialing True
      (Resolved A credentialRef) q := by
  have herr : ∀ (x : Err) (q' : CredentialState), Resolved A credentialRef (.error x) q' :=
    fun _ _ _ h => by cases h
  unfold resolveReference
  refine query_follows hidle (fun v => ?_) fun _ => herr _ _
  refine reading_follows time_within hidle (fun now q₁ h₁ => ?_) fun _ _ _ => herr _ _
  cases hr : v.referenceByHash (A.referenceHash credentialRef) with
  | none => exact herr _ _
  | some r =>
    have href : q₁.references r := h₁.references r (.inr (List.mem_of_find?_eq_some hr))
    have hhash : r.tokenHash = A.referenceHash credentialRef := by
      simpa using List.find?_some hr
    show (if r.Usable providerId consumer purpose now then _ else _ : Op PayloadAnswer).Follows
      _ _ _ _
    split
    swap
    · exact herr _ _
    refine query_follows h₁.idle (fun v' => ?_) fun _ => herr _ _
    cases hc : v'.credentialById r.credentialId with
    | none => exact herr _ _
    | some c =>
      have hid : c.id = r.credentialId := by simpa using List.find?_some hc
      show (if c.Meets r providerId then _ else _ : Op PayloadAnswer).Follows _ _ _ _
      split
      swap
      · exact herr _ _
      rename_i hmeets
      refine reading_follows (requireSubject_within r) h₁.idle (fun _ q₂ h₂ => ?_)
        fun _ _ _ => herr _ _
      unfold openCredential
      split
      · exact herr _ _
      cases hpayload : c.payload A with
      | none => exact herr _ _
      | some payload =>
        have hdone : ∀ q' : CredentialState, q'.references = q₂.references → q'.knows = q₂.knows →
            Resolved A credentialRef (.ok ⟨providerId, c.scope, payload⟩) q' := by
          rintro q' hrefs hknows answer h
          obtain rfl := Except.ok.inj h
          refine ⟨r, c, ?_, ?_, hhash, hid, hmeets.2.2.2.2.1, hpayload⟩
          · rw [hrefs]
            exact h₂.references r (.inl href)
          · rw [hknows]
            exact h₂.knows c (.inr (List.mem_of_find?_eq_some hc))
        -- the audit row is committed or not, the payload is given out
        refine Follows.bind (M := fun _ q' => q'.references = q₂.references ∧ q'.knows = q₂.knows)
          ?_ fun _ q' hq' => hdone q' hq'.1 hq'.2
        refine fun _ _ => ⟨fun _ _ _ _ => ⟨leaves_vault_audit _, ?_⟩,
          fun _ x _ _ => ⟨trivial, herr _ _⟩, fun _ x => herr _ _⟩
        exact ⟨fun _ => ⟨trivial, rfl, rfl⟩, fun _ x => ⟨⟨rfl, rfl⟩, trivial, rfl, rfl⟩⟩

/-- What a call knows of its answer. -/
def Replies (A : AppEnv) (call : CredentialCall) (res : Except Err CredentialAnswer)
    (q : CredentialState) : Prop :=
  ∀ credentialRef providerId consumer purpose answer,
    call = .resolve credentialRef providerId consumer purpose → res = .ok (.payload answer) →
    Resolved A credentialRef (.ok answer) q

/-- A call in a session of its own, with its answer wrapped up. -/
theorem follows_map_close {o : Op α} {f : α → β} {post : Except Err β → CredentialState → Prop}
    (h : o.Follows credentialing True (fun r q' => post (r.map f) q'.ended) q) :
    (f <$> o).close.Follows credentialing True post q := by
  refine Follows.close (h.handle ?_)
  rintro (x | a) q' hpost <;> exact hpost

/-- **Every call keeps to the discipline.** -/
theorem CredentialCall.follows (call : CredentialCall) :
    (call.op A).Follows credentialing True (Replies A call) .start := by
  cases call with
  | set providerId scope credentials displayMetadata user policy =>
    refine follows_map_close ((setCredential_follows rfl _ _ _ _ _ _).mono fun _ _ _ => ?_)
    intro _ _ _ _ _ hcall
    cases hcall
  | revoke providerId scope user policy =>
    refine follows_map_close ((revokeCredential_follows rfl _ _ _ _).mono fun _ _ _ => ?_)
    intro _ _ _ _ _ hcall
    cases hcall
  | issue providerId consumer purpose user policy =>
    refine follows_map_close ((issueReference_follows rfl _ _ _ _ _).mono fun _ _ _ => ?_)
    intro _ _ _ _ _ hcall
    cases hcall
  | resolve credentialRef providerId consumer purpose =>
    refine follows_map_close ((resolveReference_follows rfl _ _ _ _).mono ?_)
    rintro (x | answer') q' hresolved ref _ _ _ answer hcall hres
    · cases hres
    · obtain ⟨rfl, -, -, -⟩ := CredentialCall.resolve.inj hcall
      obtain rfl := CredentialAnswer.payload.inj (Except.ok.inj hres)
      exact hresolved

end OmniAuth
