import OmniAuth.Credential.Revocation
import OmniAuth.Credential.Capability

/-!
# Credentials under any interleaving

Set, revoke, issue and resolve calls, statement by statement, whatever fails. Two writers
that read a row at one version are two histories of it under one version number, and the
database keeps a mixture of both.
-/

namespace OmniAuth

open Txn Prog

variable {A : AppEnv} {ι : Type} {s₀ s s' : Sys AuthSig ι CredentialAnswer}
  {g : ι → CredentialState} {i : ι} {ℓ : Label AuthSig}

/-- Calls, each in a session of its own. -/
def credentialCalls (A : AppEnv) (calls : ι → CredentialCall) (i : ι) : Op CredentialAnswer :=
  (calls i).op A

/-! ## Where references come from -/

theorem IntegrationCredentialReference.FadesTo.trans {r r' r'' : IntegrationCredentialReference}
    (h : r.FadesTo r') (h' : r'.FadesTo r'') : r.FadesTo r'' := by
  rcases h' with rfl | ⟨t, rfl⟩
  · exact h
  · rcases h with rfl | ⟨t', rfl⟩ <;> exact .inr ⟨t, rfl⟩

/-- What a statement makes of the references: old ones, revoked perhaps, and the new one. -/
theorem CredentialState.Allows.references {q : CredentialState} {stmt : Stmt} {seen : Database}
    {eff : Effect Database RowKey} (h : q.Allows stmt) (hden : denote stmt seen = .ok eff)
    {db : Database} {r : IntegrationCredentialReference}
    (hr : r ∈ (eff.delta db).integrationCredentialReferences) :
    (∃ r₀ ∈ db.integrationCredentialReferences, r₀.FadesTo r) ∨
      stmt = .credential (.insertCredentialReference r) := by
  have hleaves : stmt.Leaves Database.vault →
      (∃ r₀ ∈ db.integrationCredentialReferences, r₀.FadesTo r) ∨
        stmt = .credential (.insertCredentialReference r) := by
    intro hleaves
    have hsame : (eff.delta db).integrationCredentialReferences =
        db.integrationCredentialReferences := congrArg Prod.snd (hleaves seen eff hden db)
    exact .inl ⟨r, hsame ▸ hr, .inl rfl⟩
  cases stmt with
  | credential stmt =>
    cases stmt with
    | insertIntegrationCredential row =>
      simp only [denote, CredentialStmt.denote] at hden
      split at hden
      · cases hden
      obtain rfl := Except.ok.inj hden
      exact .inl ⟨r, hr, .inl rfl⟩
    | updateIntegrationCredential id columns =>
      obtain rfl := Except.ok.inj hden
      exact .inl ⟨r, hr, .inl rfl⟩
    | insertCredentialReference row =>
      simp only [denote, CredentialStmt.denote] at hden
      split at hden
      · cases hden
      obtain rfl := Except.ok.inj hden
      rcases List.mem_append.mp hr with hold | hnew
      · exact .inl ⟨r, hold, .inl rfl⟩
      · obtain rfl := List.mem_singleton.mp hnew
        exact .inr rfl
    | revokeCredentialReferences credentialId t =>
      obtain rfl := Except.ok.inj hden
      obtain ⟨r₀, hr₀, rfl⟩ := List.mem_map.mp hr
      refine .inl ⟨r₀, hr₀, ?_⟩
      show r₀.FadesTo (if r₀.credentialId = credentialId ∧ r₀.revokedAt = none then
        { r₀ with revokedAt := some t } else r₀)
      split
      · exact .inr ⟨t, rfl⟩
      · exact .inl rfl
    | _ => exact hleaves h
  | _ => exact hleaves h

variable [DecidableEq ι]

/-- A step of the run at which `r` is inserted, for the row `c` as its session sees it. -/
structure IssueStep (s₀ s₁ s : Sys AuthSig ι CredentialAnswer) (j : ι)
    (r : IntegrationCredentialReference) (c : IntegrationCredential) : Prop where
  before : Sys.Run True UpToDate s₀ s₁
  issues : ∃ seen eff s₂,
    s₁.Step True j (.wrote (.credential (.insertCredentialReference r)) seen eff) s₂ ∧
    Sys.Run True UpToDate s₂ s
  row : c ∈ (s₁.view j).integrationCredentials ∧ c.id = r.credentialId ∧
    c.version = r.credentialVersion

/-- The reference, or what it was before it was revoked, was inserted in the run, for a row
its call knows. -/
def IssuedIn (s₀ s : Sys AuthSig ι CredentialAnswer) (g : ι → CredentialState)
    (r : IntegrationCredentialReference) : Prop :=
  ∃ s₁ j r₀ c, IssueStep s₀ s₁ s j r₀ c ∧ r₀.FadesTo r ∧ (g j).knows c

/-- **Every reference was issued**, whoever sees it. -/
structure Accounted (s₀ s : Sys AuthSig ι CredentialAnswer) (g : ι → CredentialState) : Prop where
  run : Sys.Run True UpToDate s₀ s
  committed : ∀ r ∈ s.db.integrationCredentialReferences, IssuedIn s₀ s g r
  snap : ∀ i v, (s.conn i).snap = some v →
    ∀ r ∈ v.integrationCredentialReferences, IssuedIn s₀ s g r
  read : ∀ i r, (g i).references r → IssuedIn s₀ s g r
  pends : ∀ i (db : Database), ∀ r ∈ ((s.conn i).pend db).integrationCredentialReferences,
    (∃ r₀ ∈ db.integrationCredentialReferences, r₀.FadesTo r) ∨ IssuedIn s₀ s g r

theorem IssuedIn.fades {r r' : IntegrationCredentialReference} (h : IssuedIn s₀ s g r)
    (hfade : r.FadesTo r') : IssuedIn s₀ s g r' := by
  obtain ⟨s₁, j, r₀, c, hstep, hfade₀, hknows⟩ := h
  exact ⟨s₁, j, r₀, c, hstep, hfade₀.trans hfade, hknows⟩

/-- No step forgets a row. -/
theorem credentialing_knows {q : CredentialState} {c : IntegrationCredential} (ℓ : Label AuthSig)
    (h : q.knows c) : (credentialing.next q ℓ).knows c := by
  cases ℓ with
  | read v => exact .inl h
  | _ => exact h

theorem IssuedIn.step {r : IntegrationCredentialReference} (h : IssuedIn s₀ s g r)
    (hok : UpToDate s i ℓ) (hstep : s.Step True i ℓ s') :
    IssuedIn s₀ s' (Function.update g i (credentialing.next (g i) ℓ)) r := by
  obtain ⟨s₁, j, r₀, c, ⟨hbefore, ⟨seen, eff, s₂, hissue, hafter⟩, hrow⟩, hfade, hknows⟩ := h
  refine ⟨s₁, j, r₀, c, ⟨hbefore, ⟨seen, eff, s₂, hissue, .tail hafter hok hstep⟩, hrow⟩, hfade, ?_⟩
  by_cases hj : j = i
  · subst hj
    rw [Function.update_self]
    exact credentialing_knows ℓ hknows
  · rwa [Function.update_of_ne hj]

/-- **Every step keeps the account.** -/
theorem Accounted.step (h : Accounted s₀ s g) (hversioned : Versioned s g)
    (hok : UpToDate s i ℓ) (hvouched : credentialing.Vouched (g i) ℓ) {p : Op CredentialAnswer}
    (hstep : s.Step True i ℓ (s.after i ℓ p)) :
    Accounted s₀ (s.after i ℓ p) (Function.update g i (credentialing.next (g i) ℓ)) := by
  have hen : s.Enabled i ℓ := by
    obtain ⟨p', -, hen, -⟩ := hstep
    exact hen
  have hkeep : ∀ r, IssuedIn s₀ s g r → IssuedIn s₀ (s.after i ℓ p)
      (Function.update g i (credentialing.next (g i) ℓ)) r := fun r hr => hr.step hok hstep
  have hlatest : ∀ r ∈ (s.latest i).integrationCredentialReferences, IssuedIn s₀ s g r := by
    intro r hr
    rcases h.pends i s.db r hr with ⟨r₀, hr₀, hfade⟩ | hissued
    · exact (h.committed r₀ hr₀).fades hfade
    · exact hissued
  have hview : ∀ r ∈ ((s.conn i).snap.getD s.db).integrationCredentialReferences,
      IssuedIn s₀ s g r := by
    intro r hr
    cases hs : (s.conn i).snap with
    | none =>
      rw [hs] at hr
      exact h.committed r hr
    | some v =>
      rw [hs] at hr
      exact h.snap i v hs r hr
  refine ⟨.tail h.run hok hstep, fun r hr => hkeep r ?_, fun j v hv r hr => hkeep r ?_,
    fun j r hr => ?_, fun j db r hr => ?_⟩
  · rw [Sys.after_db] at hr
    cases ℓ with
    | committed => exact hlatest r hr
    | commitLost x => exact hlatest r hr
    | _ => exact h.committed r hr
  · by_cases hj : j = i
    · subst hj
      rw [Sys.after_conn_self] at hv
      cases ℓ with
      | read v' =>
        obtain rfl : (s.conn j).snap.getD s.db = v := Option.some.inj hv
        exact hview r hr
      | committed => cases hv
      | rolledBack => cases hv
      | commitFailed x => cases hv
      | commitLost x => cases hv
      | crashed x => cases hv
      | _ => exact h.snap j v hv r hr
    · rw [Sys.after_conn_of_ne _ _ _ hj] at hv
      exact h.snap j v hv r hr
  · by_cases hj : j = i
    · subst hj
      rw [Function.update_self] at hr
      cases ℓ with
      | read v =>
        obtain rfl : v = s.view j := hen
        rcases hr with hr | hr
        · exact hkeep r (h.read j r hr)
        · rcases h.pends j _ r hr with ⟨r₀, hr₀, hfade⟩ | hissued
          · exact hkeep r ((hview r₀ hr₀).fades hfade)
          · exact hkeep r hissued
      | _ => exact hkeep r (h.read j r hr)
    · rw [Function.update_of_ne hj] at hr
      exact hkeep r (h.read j r hr)
  · by_cases hj : j = i
    · subst hj
      rw [Sys.after_conn_self] at hr
      cases ℓ with
      | wrote stmt seen eff =>
        obtain ⟨-, hden, -⟩ := hen
        have hallows : (g j).Allows stmt := hvouched
        rcases hallows.references hden hr with ⟨r₁, hr₁, hfade⟩ | rfl
        · rcases h.pends j db r₁ hr₁ with ⟨r₀, hr₀, hfade₀⟩ | hissued
          · exact .inl ⟨r₀, hr₀, hfade₀.trans hfade⟩
          · exact .inr (hkeep r (hissued.fades hfade))
        · -- the reference is inserted by this step, for a row of the open transaction
          obtain ⟨hidle, c, hknows, hcurrent, hid, hversion⟩ := hallows
          obtain ⟨v, hv, hc⟩ := (hversioned.stands j).current c hcurrent
          have hseen : (s.view j).integrationCredentials = v.integrationCredentials := by
            have hpends := (hversioned.stands j).pends
            rw [hidle] at hpends
            show ((s.conn j).pend ((s.conn j).snap.getD s.db)).integrationCredentials = _
            rw [hv]
            exact hpends v trivial
          refine .inr ⟨s, j, r, c, ⟨h.run, ⟨_, _, _, hstep, .refl⟩, hseen ▸ hc, hid, hversion⟩,
            .inl rfl, ?_⟩
          rw [Function.update_self]
          exact hknows
      | committed => exact .inl ⟨r, hr, .inl rfl⟩
      | rolledBack => exact .inl ⟨r, hr, .inl rfl⟩
      | commitFailed x => exact .inl ⟨r, hr, .inl rfl⟩
      | commitLost x => exact .inl ⟨r, hr, .inl rfl⟩
      | crashed x => exact .inl ⟨r, hr, .inl rfl⟩
      | _ => exact (h.pends j db r hr).imp_right (hkeep r)
    · rw [Sys.after_conn_of_ne _ _ _ hj] at hr
      exact (h.pends j db r hr).imp_right (hkeep r)

/-- Where there is no reference, there is none to account for. -/
theorem accounted_start {db : Database} (hnone : db.integrationCredentialReferences = [])
    (now next : ℕ) (proc : ι → Op CredentialAnswer) :
    Accounted (Sys.start db now next proc) (Sys.start db now next proc) fun _ => .start := by
  refine ⟨.refl, fun r hr => ?_, nofun, fun _ _ h => h.elim, fun _ _ r hr => .inl ⟨r, hr, .inl rfl⟩⟩
  have hin : r ∈ db.integrationCredentialReferences := hr
  rw [hnone] at hin
  cases hin

/-! ## The main theorem -/

/-- **Revocation under interleaving.** In every run in which each update of a credential
meets its row at the version its call read it at, nothing is left of the payload of a row
that is revoked, and what a reference opens is what the row held for the session that issued
the reference, when it did. -/
theorem credentials_concurrent {db : Database} {now next : ℕ} {calls : ι → CredentialCall}
    (hkeys : db.CredentialKeys) (hsound : ∀ c ∈ db.integrationCredentials, c.Sound)
    (hnone : db.integrationCredentialReferences = [])
    (hrun : Sys.Run True UpToDate (Sys.start db now next (credentialCalls A calls)) s) :
    (∀ c ∈ s.db.integrationCredentials, c.status = .revoked → c.encryptedPayload = none) ∧
    ∀ i credentialRef providerId consumer purpose answer,
      calls i = .resolve credentialRef providerId consumer purpose →
      (s.proc i).reply? = some (.ok (.payload answer)) →
      ∃ s₁ j r c, IssueStep (Sys.start db now next (credentialCalls A calls)) s₁ s j r c ∧
        r.tokenHash = A.referenceHash credentialRef ∧ c.payload A = some answer.credentials := by
  have hkeeps := credentialing_keeps (α := CredentialAnswer) (ι := ι) fun i => Replies A (calls i)
  obtain ⟨-, g, hversioned, haccounted, hfol⟩ := Prog.Follows.run_with
    (H := Accounted (Sys.start db now next (credentialCalls A calls))) hkeeps
    (fun _ i x q _ _ _ _ _ _ h => by cases h)
    (fun _ hinv hH hok hvouched hstep => hH.step hinv hok hvouched hstep)
    (Sys.exclusive_start _ _ _ _) (versioned_start hkeys hsound now next _)
    (accounted_start hnone now next _) (fun i => (calls i).follows) hrun
  refine ⟨hversioned.sound, fun i credentialRef providerId consumer purpose answer hcall hreply => ?_⟩
  obtain ⟨r, c, href, hknows, hhash, hid, hversion, hpayload⟩ :=
    (hfol i).reply hreply _ _ _ _ answer hcall rfl answer rfl
  obtain ⟨s₁, j, r₀, c₀, hissue, hfade, hknows₀⟩ := haccounted.read i r href
  have hsame : r₀.tokenHash = r.tokenHash ∧ r₀.credentialId = r.credentialId ∧
      r₀.credentialVersion = r.credentialVersion := by
    rcases hfade with rfl | ⟨t, rfl⟩ <;> exact ⟨rfl, rfl, rfl⟩
  -- both calls know a row of this id and version, and it is one row
  have hrow : c₀ = c := by
    refine hversioned.same c₀ c (.inr (.inr ⟨j, hknows₀⟩)) (.inr (.inr ⟨i, hknows⟩)) ?_ ?_
    · rw [hissue.row.2.1, hid, hsame.2.1]
    · rw [hissue.row.2.2, hversion, hsame.2.2]
  exact ⟨s₁, j, r₀, c₀, hissue, hsame.1.trans hhash, hrow ▸ hpayload⟩

/-! ## A credential set and revoked at once -/

def withdrawToken : CredentialCall := .revoke "github" .user integrator (some tokenPolicy)

/-- A token is set, a reference to it issued, and the reference resolved. -/
def setIssueResolve : Fin 3 → CredentialCall
  | 0 => setToken "ghp_second"
  | 1 => issueToken
  | 2 => resolveToken "rrrrrrrrrr"

def oneByOne : Sys AuthSig (Fin 3) CredentialAnswer :=
  Sys.start tokenSet.base 0 10 (credentialCalls .symbolic setIssueResolve)

def oneAfterOther : List (Fin 3) := List.replicate 8 0 ++ List.replicate 9 1 ++ List.replicate 7 2

/-- The reference opens the second token, for which it was issued. -/
theorem credentials_concurrent_opened :
    ∃ s, oneByOne.follow UpToDate oneAfterOther = some s ∧
      (∀ c ∈ s.db.integrationCredentials, c.status = .revoked → c.encryptedPayload = none) ∧
      ∃ s₁ j r c, IssueStep oneByOne s₁ s j r c ∧
        r.tokenHash = AppEnv.symbolic.referenceHash "rrrrrrrrrr" ∧
        c.payload .symbolic = some [("token", "ghp_second")] := by
  have hplays : (oneByOne.follow UpToDate oneAfterOther).isSome := by decide
  have hends : (oneByOne.follow UpToDate oneAfterOther).all (fun s => decide
      ((s.proc 2).reply? = some (.ok (.payload ⟨"github", .user, [("token", "ghp_second")]⟩)))) =
        true := by decide
  obtain ⟨s, hs⟩ := Option.isSome_iff_exists.mp hplays
  rw [hs] at hends
  have hreply : (s.proc 2).reply? = _ := of_decide_eq_true hends
  have hkeys : (tokenSet.base.integrationCredentials.map (·.id)).Nodup := by decide
  have hsound : ∀ c ∈ tokenSet.base.integrationCredentials, c.Sound := by decide
  obtain ⟨hrevoked, hresolved⟩ := credentials_concurrent (A := .symbolic) hkeys hsound rfl
    (Sys.run_of_follow _ hs).mayFail
  exact ⟨s, hs, hrevoked, hresolved 2 _ _ _ _ _ rfl hreply⟩

/-- The call that sets has read the row before the other revokes it. -/
def rowReadFirst : List Bool := true :: List.replicate 9 false ++ List.replicate 7 true

def setAndWithdraw : Sys AuthSig Bool CredentialAnswer :=
  Sys.start tokenSet.base 0 10
    (credentialCalls .symbolic fun b => if b then setToken "ghp_second" else withdrawToken)

/-- **A revoked row with a payload.** Both calls have ended, and nothing is open. -/
theorem credentials_concurrent_mixed :
    ∃ s, Sys.Run True (fun _ _ _ => True) setAndWithdraw s ∧
      (∀ i, (s.proc i).reply?.isSome ∧ (s.conn i).snap.isNone ∧ (s.conn i).held = []) ∧
      ∃ c ∈ s.db.integrationCredentials, c.status = .revoked ∧
        c.payload .symbolic = some [("token", "ghp_second")] := by
  have hplays : (setAndWithdraw.follow (fun _ _ _ => True) rowReadFirst).isSome := by decide
  have hends : (setAndWithdraw.follow (fun _ _ _ => True) rowReadFirst).all (fun s => decide
      ((∀ i, (s.proc i).reply?.isSome ∧ (s.conn i).snap.isNone ∧ (s.conn i).held = []) ∧
        ∃ c ∈ s.db.integrationCredentials, c.status = .revoked ∧
          c.payload .symbolic = some [("token", "ghp_second")])) = true := by decide
  obtain ⟨s, hs⟩ := Option.isSome_iff_exists.mp hplays
  rw [hs] at hends
  exact ⟨s, (Sys.run_of_follow _ hs).mayFail, of_decide_eq_true hends⟩

end OmniAuth
