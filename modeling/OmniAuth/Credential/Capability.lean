import OmniAuth.Credential.References

/-!
# References as capabilities

Whatever calls and changes come between, a payload that is handed out is that of the row the
reference was issued for, which no call has touched since.
-/

namespace OmniAuth

open Txn Prog

variable {A : AppEnv} {w₀ w w' : World}

/-- **Sequential runs**: calls, each in a session of its own, and between them anything that
leaves credentials and references alone, time included. Every step meets `ok`. -/
inductive CredentialRun (A : AppEnv) (ok : World → World → Prop) (w : World) : World → Prop
  | refl : CredentialRun A ok w w
  | call {w₁ w₂ : World} (call : CredentialCall) {answer} : CredentialRun A ok w w₁ →
      (call.op A).Exec w₁ answer w₂ → ok w₁ w₂ → CredentialRun A ok w w₂
  | elsewhere {w₁ w₂ : World} : CredentialRun A ok w w₁ → w₂.cur = w₂.base →
      w₂.base.vault = w₁.base.vault → w₁.now ≤ w₂.now → ok w₁ w₂ → CredentialRun A ok w w₂

/-- The step leaves the row alone. -/
def Still (id : ℕ) (w w' : World) : Prop :=
  w'.base.credentialById id = w.base.credentialById id

/-! ## One call -/

/-- A call in a session of its own, with its answer wrapped up. -/
theorem ends_map_close {α β : Type} {o : Op α} {f : α → β}
    {post : Except Err β → World → Prop}
    (h : o.Ends w fun r w' => post (r.map f) { w' with cur := w'.base }) :
    (f <$> o).close.Ends w post := by
  refine ends_close.mpr (ends_handle.mpr (h.mono ?_))
  rintro (x | a) w' hpost
  · exact ends_raise.mpr hpost
  · exact ends_ret.mpr hpost

/-- **What a call does**: it moves the tables on, or issues one reference. -/
theorem CredentialCall.ends (call : CredentialCall) (hidle : w.cur = w.base)
    (hkeys : w.base.CredentialKeys) :
    (call.op A).Ends w fun res w' => w'.cur = w'.base ∧
      (w.base.Moves w'.base ∨ ∃ providerId consumer purpose user policy answer,
        call = .issue providerId consumer purpose user policy ∧ res = .ok (.reference answer) ∧
        w.base.IssuesReference A providerId consumer purpose user answer w'.base) := by
  cases call with
  | set providerId scope credentials displayMetadata user policy =>
    refine ends_map_close ((setCredential_ends providerId scope credentials displayMetadata user
      policy hidle hkeys).mono fun r w' hend => ?_)
    exact ⟨rfl, .inl hend.moves⟩
  | revoke providerId scope user policy =>
    refine ends_map_close ((revokeCredential_ends providerId scope user policy hidle hkeys).mono
      fun r w' hend => ?_)
    exact ⟨rfl, .inl hend.moves⟩
  | issue providerId consumer purpose user policy =>
    refine ends_map_close ((issueReference_ends providerId consumer purpose user policy hidle
      hkeys).mono fun r w' hend => ?_)
    rcases hend.2 with ⟨hmoves, -⟩ | ⟨answer, rfl, hissues⟩
    · exact ⟨rfl, .inl hmoves⟩
    · exact ⟨rfl, .inr ⟨_, _, _, _, _, answer, rfl, rfl, hissues⟩⟩
  | resolve credentialRef providerId consumer purpose =>
    refine ends_map_close ((resolveReference_ends credentialRef providerId consumer purpose
      hidle).mono fun r w' hend => ?_)
    exact ⟨rfl, .inl (Database.moves_of_vault hkeys hend.1)⟩

/-- **A set or a revocation moves its row on**: the row it returns is there now, of a later
version than what was there. -/
theorem CredentialCall.outdates (call : CredentialCall) {row : IntegrationCredential}
    (hidle : w.cur = w.base) (hkeys : w.base.CredentialKeys)
    (h : (call.op A).Exec w (.ok (.credential row)) w') : w.base.Outdates row w'.base := by
  have hanswer : ∀ {r : Except Err IntegrationCredential},
      r.map CredentialAnswer.credential = .ok (.credential row) → r = .ok row := by
    rintro (x | c) hr
    · cases hr
    · exact congrArg _ (CredentialAnswer.credential.inj (Except.ok.inj hr))
  have hends : (call.op A).Ends w fun res w' =>
      res = .ok (.credential row) → w.base.Outdates row w'.base := by
    cases call with
    | set providerId scope credentials displayMetadata user policy =>
      refine ends_map_close ((setCredential_ends providerId scope credentials displayMetadata user
        policy hidle hkeys).mono fun r w' hend hr => ?_)
      exact hend.outdates row (hanswer hr)
    | revoke providerId scope user policy =>
      refine ends_map_close ((revokeCredential_ends providerId scope user policy hidle hkeys).mono
        fun r w' hend hr => ?_)
      exact hend.outdates row (hanswer hr)
    | issue providerId consumer purpose user policy =>
      refine ends_map_close fun r w' _ hr => ?_
      cases r <;> cases hr
    | resolve credentialRef providerId consumer purpose =>
      refine ends_map_close fun r w' _ hr => ?_
      cases r <;> cases hr
  exact hends _ _ h rfl

/-- So no reference to the row outlives the call. -/
theorem CredentialCall.not_still (call : CredentialCall) {row : IntegrationCredential}
    (hidle : w.cur = w.base) (hkeys : w.base.CredentialKeys)
    (h : (call.op A).Exec w (.ok (.credential row)) w') : ¬ Still row.id w w' := by
  obtain ⟨hnow, hlater⟩ := call.outdates hidle hkeys h
  intro hstill
  have hbefore : w.base.credentialById row.id = some row := hstill.symm.trans hnow
  exact lt_irrefl _ (hlater row hbefore)

/-! ## The invariant -/

/-- The reference was issued in the run, for a row that has stood still since, or has moved
on. -/
def Origin (A : AppEnv) (w₀ w : World) (r : IntegrationCredentialReference) : Prop :=
  ∃ w₁ w₂ user policy answer, CredentialRun A (fun _ _ => True) w₀ w₁ ∧
    ((CredentialCall.issue r.providerId r.consumer r.purpose user policy).op A).Exec w₁
      (.ok (.reference answer)) w₂ ∧
    ∃ c ∈ w₁.base.integrationCredentials, r.IssuedFor A user c answer ∧
      ∃ c', w.base.credentialById c.id = some c' ∧
        (c' = c ∧ CredentialRun A (Still c.id) w₂ w ∨ c.version < c'.version)

/-- **The invariant of a run.** -/
structure Referring (A : AppEnv) (w₀ w : World) : Prop where
  run : CredentialRun A (fun _ _ => True) w₀ w
  idle : w.cur = w.base
  keys : w.base.CredentialKeys
  origin : ∀ r ∈ w.base.integrationCredentialReferences, Origin A w₀ w r

theorem IntegrationCredentialReference.IssuedFor.fades {user : Claims} {c : IntegrationCredential}
    {answer : ReferenceAnswer} {r r' : IntegrationCredentialReference}
    (h : r.IssuedFor A user c answer) (hfade : r.FadesTo r') : r'.IssuedFor A user c answer := by
  rcases hfade with rfl | ⟨t, rfl⟩
  · exact h
  · exact ⟨h.credentialId, h.credentialVersion, h.subject, h.owned, h.token, h.expires⟩

/-- **The origin of a reference is kept** by a step that moves its row on or leaves it. -/
theorem Origin.step {r r' : IntegrationCredentialReference} (h : Origin A w₀ w r)
    (hfade : r.FadesTo r')
    (hrow : ∀ id, Advances (w.base.credentialById id) (w'.base.credentialById id))
    (hrun : ∀ w₂ id, CredentialRun A (Still id) w₂ w → Still id w w' →
      CredentialRun A (Still id) w₂ w') : Origin A w₀ w' r' := by
  obtain ⟨w₁, w₂, user, policy, answer, hbefore, hexec, c, hc, hissued, c', hc', hsince⟩ := h
  have hcall : r'.providerId = r.providerId ∧ r'.consumer = r.consumer ∧ r'.purpose = r.purpose := by
    rcases hfade with rfl | ⟨t, rfl⟩ <;> exact ⟨rfl, rfl, rfl⟩
  obtain ⟨hprovider, hconsumer, hpurpose⟩ := hcall
  refine ⟨w₁, w₂, user, policy, answer, hbefore, ?_, c, hc, hissued.fades hfade, ?_⟩
  · rwa [hprovider, hconsumer, hpurpose]
  · rcases hrow c.id with hsame | ⟨c'', hc'', hless⟩
    · refine ⟨c', hsame.trans hc', hsince.imp_left fun ⟨heq, hstill⟩ => ⟨heq, ?_⟩⟩
      exact hrun w₂ c.id hstill hsame
    · refine ⟨c'', hc'', .inr ?_⟩
      have hlater : c'.version < c''.version := hless c' hc'
      rcases hsince with ⟨rfl, -⟩ | hmoved
      · exact hlater
      · exact lt_trans hmoved hlater

/-- **Every step of a run keeps the invariant.** -/
theorem Referring.call (h : Referring A w₀ w) (call : CredentialCall)
    {res : Except Err CredentialAnswer} (hexec : (call.op A).Exec w res w') :
    Referring A w₀ w' := by
  have hrun : CredentialRun A (fun _ _ => True) w₀ w' := .call call h.run hexec trivial
  obtain ⟨hidle, hmoves | ⟨providerId, consumer, purpose, user, policy, answer, rfl, rfl, hissues⟩⟩ :=
    call.ends h.idle h.keys _ _ hexec
  · refine ⟨hrun, hidle, hmoves.keys, fun r' hr' => ?_⟩
    obtain ⟨r, hr, hfade⟩ := hmoves.references r' hr'
    exact (h.origin r hr).step hfade hmoves.rows fun w₂ id hstill hsame =>
      .call call hstill hexec hsame
  · obtain ⟨r, c, hc, hissued, rfl, rfl, rfl, hvault⟩ := hissues
    have hrows : w'.base.integrationCredentials = w.base.integrationCredentials :=
      congrArg Prod.fst hvault
    have hrefs : w'.base.integrationCredentialReferences =
        w.base.integrationCredentialReferences ++ [r] := congrArg Prod.snd hvault
    have hsame : ∀ id, w'.base.credentialById id = w.base.credentialById id := by
      intro id
      unfold Database.credentialById
      rw [hrows]
    refine ⟨hrun, hidle, ?_, fun r' hr' => ?_⟩
    · unfold Database.CredentialKeys
      rw [hrows]
      exact h.keys
    · rw [hrefs, List.mem_append, List.mem_singleton] at hr'
      rcases hr' with hold | rfl
      · exact (h.origin r' hold).step (.inl rfl) (fun id => .inl (hsame id))
          fun w₂ id hstill hstay => .call _ hstill hexec hstay
      · -- the new reference is to a row as it stands
        refine ⟨w, w', user, policy, answer, h.run, hexec, c, hc, hissued, c, ?_, .inl ⟨rfl, .refl⟩⟩
        rw [hsame]
        exact (Database.credentialById_eq_some h.keys).mpr ⟨hc, rfl⟩

theorem Referring.elsewhere (h : Referring A w₀ w) (hidle : w'.cur = w'.base)
    (hvault : w'.base.vault = w.base.vault) (hnow : w.now ≤ w'.now) : Referring A w₀ w' := by
  have hmoves : w.base.Moves w'.base := Database.moves_of_vault h.keys hvault
  refine ⟨.elsewhere h.run hidle hvault hnow trivial, hidle, hmoves.keys, fun r' hr' => ?_⟩
  obtain ⟨r, hr, hfade⟩ := hmoves.references r' hr'
  exact (h.origin r hr).step hfade hmoves.rows fun w₂ id hstill hsame =>
    .elsewhere hstill hidle hvault hnow hsame

theorem CredentialRun.referring (hidle : w₀.cur = w₀.base) (hkeys : w₀.base.CredentialKeys)
    (hnone : w₀.base.integrationCredentialReferences = [])
    (h : CredentialRun A (fun _ _ => True) w₀ w) : Referring A w₀ w := by
  induction h with
  | refl => exact ⟨.refl, hidle, hkeys, fun r hr => by rw [hnone] at hr; cases hr⟩
  | call call _ hexec _ ih => exact ih.call call hexec
  | elsewhere _ hidle' hvault hnow _ ih => exact ih.elsewhere hidle' hvault hnow

/-! ## What a payload vouches for -/

/-- **An exact capability.** `credentialRef` is what a call issued, between `w₁` and `w₂`, for
the provider, consumer and purpose; its row `r` is neither revoked nor expired at `t`; the
credential `c` has not been touched since; and it is the subject's own, or of an organization
the subject is an active member of. -/
structure Capability (A : AppEnv) (credentialRef providerId consumer purpose : String)
    (w₀ w₁ w₂ w : World) (t : ℕ) (r : IntegrationCredentialReference) (c : IntegrationCredential)
    (answer : PayloadAnswer) : Prop where
  before : CredentialRun A (fun _ _ => True) w₀ w₁
  issued : ∃ user policy issued,
    ((CredentialCall.issue providerId consumer purpose user policy).op A).Exec w₁
      (.ok (.reference issued)) w₂ ∧
    issued.credentialRef = some credentialRef ∧ issued.expiresAt = some r.expiresAt ∧
    user.sub = some (.user r.subjectUserId)
  since : CredentialRun A (Still c.id) w₂ w
  reference : r ∈ w.base.integrationCredentialReferences ∧
    r.tokenHash = A.referenceHash credentialRef ∧ r.credentialId = c.id
  usable : r.revokedAt = none ∧ t < r.expiresAt
  current : c ∈ w₁.base.integrationCredentials ∧ w.base.credentialById c.id = some c ∧
    c.status = .active
  payload : c.payload A = some answer.credentials
  owner : c.scope = .user ∧ c.userId = some r.subjectUserId ∨
    c.scope = .organization ∧ ∃ orgId m, c.organizationId = some orgId ∧
      w.base.activeMembership r.subjectUserId orgId = some m

/-- **References are exact capabilities.** In every sequential run from a store without
references, a payload is given out only by a reference that is an exact capability for it. -/
theorem credential_references {credentialRef providerId consumer purpose : String}
    {answer : PayloadAnswer} (hidle : w₀.cur = w₀.base) (hkeys : w₀.base.CredentialKeys)
    (hnone : w₀.base.integrationCredentialReferences = [])
    (hhash : ∀ n, A.referenceHash credentialRef = A.referenceHash (A.referenceToken n) →
      credentialRef = A.referenceToken n)
    (hrun : CredentialRun A (fun _ _ => True) w₀ w)
    (hexec : ((CredentialCall.resolve credentialRef providerId consumer purpose).op A).Exec w
      (.ok (.payload answer)) w') :
    ∃ w₁ w₂ t r c, w.now ≤ t ∧ t ≤ w'.now ∧
      Capability A credentialRef providerId consumer purpose w₀ w₁ w₂ w t r c answer := by
  obtain ⟨-, hidle', hkeys', horigin⟩ := hrun.referring hidle hkeys hnone
  have hends : ((CredentialCall.resolve credentialRef providerId consumer purpose).op A).Ends w
      fun res w' => ∀ answer, res = .ok (.payload answer) → ∃ r c t, w.now ≤ t ∧ t ≤ w'.now ∧
        w.base.Opens A credentialRef providerId consumer purpose t r c answer := by
    refine ends_map_close ((resolveReference_ends _ _ _ _ hidle').mono ?_)
    rintro (x | answer') w₃ ⟨-, -, hopens⟩ answer hanswer
    · cases hanswer
    · obtain rfl := CredentialAnswer.payload.inj (Except.ok.inj hanswer)
      exact hopens answer' rfl
  obtain ⟨r, c, t, ht, ht', hopens⟩ := hends _ _ hexec answer rfl
  obtain ⟨hrevoked, hexpires, rfl, rfl, rfl⟩ := hopens.usable
  obtain ⟨hactive, -, -, -, hversion, hsubject⟩ := hopens.meets
  obtain ⟨w₁, w₂, user, policy, issued, hbefore, hissue, c₀, hc₀, hissued, c', hc', hsince⟩ :=
    horigin r hopens.reference
  -- the version of the reference is still that of the row, so the row has stood still
  have hcurrent : c' = c := by
    have hid := hopens.credential
    rw [hissued.credentialId, hc'] at hid
    exact Option.some.inj hid
  subst hcurrent
  obtain ⟨rfl, hstill⟩ : c' = c₀ ∧ CredentialRun A (Still c₀.id) w₂ w := by
    refine hsince.resolve_right fun hmoved => ?_
    have heq := hissued.credentialVersion
    omega
  obtain ⟨n, htoken, hdigest⟩ := hissued.token
  have href : credentialRef = A.referenceToken n := hhash n (hopens.hash.symm.trans hdigest)
  refine ⟨w₁, w₂, t, r, c', ht, ht', hbefore, ⟨user, policy, issued, hissue, ?_, hissued.expires,
    hissued.subject⟩, hstill, ⟨hopens.reference, hopens.hash, hissued.credentialId⟩,
    ⟨hrevoked, hexpires⟩, ⟨hc₀, hc', hactive⟩, hopens.payload, ?_⟩
  · rw [href]
    exact htoken
  · rcases hissued.owned with huser | ⟨horg, hsome⟩
    · exact .inl ⟨huser, hsubject huser⟩
    · obtain ⟨orgId, horgId⟩ := Option.ne_none_iff_exists'.mp hsome
      obtain ⟨m, hm⟩ := hopens.subject orgId horgId
      exact .inr ⟨horg, orgId, m, (hopens.organization horg).trans horgId, hm⟩

/-! ## One reference -/

/-- A user, and a provider that asks for a token. -/
def integrator : Claims := { sub := some (.user 1) }

def tokenPolicy : ProviderPolicy where
  fields := [("token", true)]
  allowedScopes := [.user, .organization]
  resolutionPolicy := [.user, .organization]

def setToken (value : String) : CredentialCall :=
  .set "github" .user [("token", value)] none integrator (some tokenPolicy)

def issueToken : CredentialCall :=
  .issue "github" credentialConsumer credentialPurpose integrator (some tokenPolicy)

def resolveToken (credentialRef : String) : CredentialCall :=
  .resolve credentialRef "github" credentialConsumer credentialPurpose

/-- The token is set, and a reference to it issued. -/
def tokenSet : World :=
  (((setToken "ghp_secret").op .symbolic).run ⟨Database.empty, Database.empty, 0, 3, []⟩).2

def tokenReferred : World := ((issueToken.op .symbolic).run tokenSet).2

/-- The reference opens the token it was issued for. -/
theorem credential_references_opened :
    ∃ answer w', ((resolveToken "rrrr").op .symbolic).Exec tokenReferred (.ok (.payload answer)) w' ∧
      answer.credentials = [("token", "ghp_secret")] ∧
      ∃ w₁ w₂ t r c, tokenReferred.now ≤ t ∧ t ≤ w'.now ∧
        Capability .symbolic "rrrr" "github" credentialConsumer credentialPurpose
          ⟨Database.empty, Database.empty, 0, 3, []⟩ w₁ w₂ tokenReferred t r c answer := by
  have hrun : CredentialRun .symbolic (fun _ _ => True) ⟨Database.empty, Database.empty, 0, 3, []⟩
      tokenReferred :=
    .call issueToken (.call (setToken "ghp_secret") .refl (exec_run _ _) trivial) (exec_run _ _)
      trivial
  have hreply : (((resolveToken "rrrr").op .symbolic).run tokenReferred).1 =
      .ok (.payload ⟨"github", .user, [("token", "ghp_secret")]⟩) := by decide
  have hexec := exec_run ((resolveToken "rrrr").op .symbolic) tokenReferred
  rw [hreply] at hexec
  refine ⟨_, _, hexec, rfl, credential_references rfl List.nodup_nil rfl (fun n hn => ?_) hrun hexec⟩
  -- a reference is as long as its number, and nothing else is
  have hfour : n = 4 := by
    have hlength : 4 = (String.ofList (List.replicate n 'r')).length := hn
    simpa using hlength.symm
  subst hfour
  decide

end OmniAuth
