import OmniAuth.License.Discipline

/-!
# Idempotent issuance

A licence is made once for an actor and a key, by one commit, and every other request under
the key is answered from the record of the first. A request that fails before its commit
has changed nothing; one that fails after it, or never hears of it, has issued its licence.
-/

namespace OmniAuth

open Txn Prog

variable {A : AppEnv} {ι : Type} {requests : ι → IssueRequest} {attempts : ι → ℕ}
  {old : List ℕ} {s s' : Sys AuthSig ι LicenseResponse} {g : ι → IssueState} {i : ι}
  {ℓ : Label AuthSig}

/-- Issue requests, each in a session of its own. -/
def issueCalls (A : AppEnv) (requests : ι → IssueRequest) (attempts : ι → ℕ) (i : ι) :
    Op LicenseResponse :=
  (issueLicenseRoute A (requests i) (attempts i)).close

/-- What a step commits, if anything. -/
theorem Issuing.step (h : Issuing A requests old s g) (hvouched : (issuing A).Vouched (g i) ℓ) :
    s.dbAfter i ℓ = s.db ∨ s.db.Issues (requests i) A (s.dbAfter i ℓ) := by
  cases ℓ with
  | committed =>
    obtain ⟨row, license, hstage⟩ := hvouched
    exact .inr (h.issues hstage)
  | commitLost x =>
    obtain ⟨row, license, hstage⟩ := hvouched
    exact .inr (h.issues hstage)
  | _ => exact .inl rfl

/-- A record stays committed. -/
theorem Issuing.keeps (h : Issuing A requests old s g) (hvouched : (issuing A).Vouched (g i) ℓ)
    {q : LicenseIssuanceRequest} (hq : q ∈ s.db.licenseIssuanceRequests) :
    q ∈ (s.dbAfter i ℓ).licenseIssuanceRequests := by
  rcases h.step hvouched with hsame | hissues
  · rwa [hsame]
  · obtain ⟨row, license, superseded, -, -, -, -, hreqs, -⟩ := hissues.whole
    rw [hreqs]
    exact List.mem_append_left _ hq

/-- What is done stays done, as long as nothing fails. -/
theorem IssueStage.done_next {q : IssueState} {row : LicenseIssuanceRequest}
    (h : q.stage = .done row) (hno : ¬ ℓ.Failure) (hvouched : (issuing A).Vouched q ℓ) :
    ((issuing A).next q ℓ).stage = .done row := by
  cases ℓ with
  | wrote stmt seen eff =>
    have hallows : q.stage.Allows A q.request stmt := hvouched
    show q.stage.wrote stmt = .done row
    rw [h] at hallows ⊢
    cases stmt with
    | account stmt =>
      cases stmt with
      | insertIssuanceRequest row => exact nomatch hallows.1
      | _ => rfl
    | _ => rfl
  | committed =>
    obtain ⟨row', license, hstage⟩ := hvouched
    exact nomatch h.symm.trans hstage
  | rolledBack => exact congrArg IssueStage.rolledBack h
  | faulted x => exact absurd trivial hno
  | commitFailed x => exact absurd trivial hno
  | commitLost x => exact absurd trivial hno
  | crashed x => exact absurd trivial hno
  | _ => exact h

/-- A call in which nothing has failed, and that has not tried a record of its own. -/
structure IssueState.Waits (q : IssueState) : Prop where
  idle : q.stage = .idle
  sound : ¬ q.failed
  untried : ¬ q.tried

/-- It waits until something fails, or it tries a record. -/
theorem IssueState.Waits.next {q : IssueState} (h : q.Waits) (hno : ¬ ℓ.Failure)
    (htries : ¬ Tries A q.request ℓ) (hvouched : (issuing A).Vouched q ℓ) :
    ((issuing A).next q ℓ).Waits := by
  obtain ⟨hidle, hsound, huntried⟩ := h
  cases ℓ with
  | wrote stmt seen eff =>
    refine ⟨?_, hsound, not_or.mpr ⟨huntried, htries⟩⟩
    show q.stage.wrote stmt = .idle
    rw [hidle]
    cases stmt with
    | account stmt =>
      cases stmt with
      | insertIssuanceRequest row => exact absurd trivial htries
      | _ => rfl
    | _ => rfl
  | refused stmt seen x => exact ⟨hidle, hsound, not_or.mpr ⟨huntried, htries⟩⟩
  | committed =>
    obtain ⟨row, license, hstage⟩ := hvouched
    exact nomatch hidle.symm.trans hstage
  | rolledBack => exact ⟨congrArg IssueStage.rolledBack hidle, hsound, huntried⟩
  | faulted x => exact absurd trivial hno
  | commitFailed x => exact absurd trivial hno
  | commitLost x => exact absurd trivial hno
  | crashed x => exact absurd trivial hno
  | _ => exact ⟨hidle, hsound, huntried⟩

/-- **A key that is taken is not tried**: the store refuses the record, and shows the one
that is there. -/
theorem Issuing.not_tries (h : Issuing A requests old s g) (hstage : (g i).stage = .idle)
    {q : LicenseIssuanceRequest} (hq : q ∈ s.db.licenseIssuanceRequests)
    (hkey : q.KeyOf A (requests i)) (hen : s.Enabled i ℓ)
    (hvouched : (issuing A).Vouched (g i) ℓ) : ¬ Tries A (requests i) ℓ := by
  have hsettled : (g i).stage.Settled := by
    rw [hstage]
    trivial
  have hsees : q ∈ (s.latest i).licenseIssuanceRequests :=
    ((h.pends i).settled hsettled s.db).1 ▸ hq
  cases ℓ with
  | wrote stmt seen eff =>
    obtain ⟨rfl, hden, -⟩ := hen
    cases stmt with
    | account stmt =>
      cases stmt with
      | insertIssuanceRequest row =>
        have hallows : (g i).stage.Allows A (g i).request
            (.account (.insertIssuanceRequest row)) := hvouched
        rw [h.request] at hallows
        obtain ⟨hactor, hhash⟩ := hkey.sameKey hallows.2.1
        simp only [denote, AccountStmt.denote] at hden
        split at hden
        · cases hden
        · rename_i hfree
          exact absurd ⟨q, hsees, .inr ⟨hactor, hhash⟩⟩ hfree
      | _ => exact id
    | _ => exact id
  | refused stmt seen x =>
    obtain ⟨rfl, -⟩ := hen
    cases stmt with
    | account stmt =>
      cases stmt with
      | insertIssuanceRequest row => exact fun htries => htries q hsees hkey
      | _ => exact id
    | _ => exact id
  | _ => exact id

/-! ## Runs -/

section Runs

variable [DecidableEq ι]

variable {db : Database} {now next : ℕ}
  {ok : Sys AuthSig ι LicenseResponse → ι → Label AuthSig → Prop}

/-- Along every run the invariant holds and every call keeps to the discipline. -/
theorem issuing_run (horder : db.InOrder)
    (hrun : Sys.Run True ok (Sys.start db now next (issueCalls A requests attempts)) s) :
    s.Exclusive ∧ ∃ g, Issuing A requests (db.licenseKeys.map (·.id)) s g ∧
      ∀ i, (s.proc i).Follows (issuing A) True (Replied A (requests i)) (g i) := by
  refine Prog.Follows.run (issuing_keeps requests _ ok fun i => Replied A (requests i)) ?_
    (Sys.exclusive_start _ _ _ _) (issuing_start requests horder now next _) (fun i => ?_) hrun
  · exact fun _ _ x q => nofun
  · refine (issueLicenseRoute_follows rfl rfl (attempts i)).mono fun res q hends => ?_
    exact hends.2

/-- **Commits are whole.** -/
theorem issues_run (horder : db.InOrder)
    (hrun : Sys.Run True ok (Sys.start db now next (issueCalls A requests attempts)) s) :
    Sys.Run True (fun s i ℓ => ok s i ℓ ∧
        (s.dbAfter i ℓ = s.db ∨ s.db.Issues (requests i) A (s.dbAfter i ℓ)))
      (Sys.start db now next (issueCalls A requests attempts)) s := by
  obtain ⟨-, g, -, hwhole, -⟩ := Prog.Follows.run_with
    (H := fun s' _ => Sys.Run True (fun s i ℓ => ok s i ℓ ∧
        (s.dbAfter i ℓ = s.db ∨ s.db.Issues (requests i) A (s.dbAfter i ℓ)))
      (Sys.start db now next (issueCalls A requests attempts)) s')
    (issuing_keeps requests _ ok fun i => Replied A (requests i)) (fun _ _ x q => nofun)
    (fun _ hinv hH hok hvouched hstep => .tail hH ⟨hok, hinv.step hvouched⟩ hstep)
    (Sys.exclusive_start _ _ _ _) (issuing_start requests horder now next _) .refl
    (fun i => (issueLicenseRoute_follows rfl rfl (attempts i)).mono fun _ _ hends => hends.2) hrun
  exact hwhole

/-- **A key that is taken.** No call under it changes anything any more. -/
theorem taken_run (horder : db.InOrder)
    (hrun : Sys.Run True ok (Sys.start db now next (issueCalls A requests attempts)) s)
    {q : LicenseIssuanceRequest} (hq : q ∈ s.db.licenseIssuanceRequests) {i : ι}
    (hkey : q.KeyOf A (requests i)) (hlater : Sys.Run True ok s s') :
    Sys.Run True (fun s j ℓ => ok s j ℓ ∧ (j = i → s.dbAfter j ℓ = s.db)) s s' := by
  obtain ⟨hx, g, hinv, hfol⟩ := issuing_run horder hrun
  let H : Sys AuthSig ι LicenseResponse → (ι → IssueState) → Prop := fun s₁ _ =>
    q ∈ s₁.db.licenseIssuanceRequests ∧
      Sys.Run True (fun s j ℓ => ok s j ℓ ∧ (j = i → s.dbAfter j ℓ = s.db)) s s₁
  have hkeeps : ∀ {s₁ g₁ j ℓ p}, s₁.Exclusive →
      Issuing A requests (db.licenseKeys.map (·.id)) s₁ g₁ → H s₁ g₁ → ok s₁ j ℓ →
      (issuing A).Vouched (g₁ j) ℓ → s₁.Step True j ℓ (s₁.after j ℓ p) →
      H (s₁.after j ℓ p) (Function.update g₁ j ((issuing A).next (g₁ j) ℓ)) := by
    rintro s₁ g₁ j ℓ p - hinv₁ ⟨hq₁, hrun₁⟩ hok hvouched hstep
    refine ⟨hinv₁.keeps hvouched hq₁, .tail hrun₁ ⟨hok, ?_⟩ hstep⟩
    rintro rfl
    exact (hinv₁.step hvouched).elim id fun hissues => absurd hkey (hissues.fresh q hq₁)
  obtain ⟨-, g', -, ⟨-, huntouched⟩, -⟩ := Prog.Follows.run_with
    (issuing_keeps requests _ ok fun i => Replied A (requests i)) (fun _ _ x q => nofun) hkeeps
    hx hinv ⟨hq, .refl⟩ hfol hlater
  exact huntouched

/-- **A call without a record of its own**, and in which nothing fails, is answered from the
record of its key, whether it looked for it too early or not. -/
theorem beaten_run (horder : db.InOrder) {i : ι}
    (hbefore : Sys.Run True (fun _ j ℓ => j = i → ¬ ℓ.Failure ∧ ¬ Tries A (requests i) ℓ)
      (Sys.start db now next (issueCalls A requests attempts)) s)
    {q : LicenseIssuanceRequest} (hq : q ∈ s.db.licenseIssuanceRequests)
    (hkey : q.KeyOf A (requests i)) (hpasses : (requests i).Passes A)
    (hafter : Sys.Run True (fun _ j ℓ => j = i → ¬ ℓ.Failure) s s')
    {res : Except Err LicenseResponse} (hr : (s'.proc i).reply? = some res) :
    Answered A (requests i) q res := by
  let post : ι → Except Err LicenseResponse → IssueState → Prop := fun j res q' =>
    j = i → RouteBeaten A (requests i) res q'
  have hcrash : ∀ (_ : True) j x q', post j (.error x) ((issuing A).next q' (.crashed x)) :=
    fun _ _ _ _ _ => .inl trivial
  have hstart : ∀ j, (issueCalls A requests attempts j).Follows (issuing A) True (post j)
      (.start (requests j)) := by
    intro j
    by_cases hj : j = i
    · subst hj
      exact (issueLicenseRoute_beaten rfl rfl hpasses (attempts j)).mono fun _ _ h _ => h
    · exact (issueLicenseRoute_follows rfl rfl (attempts j)).mono fun _ _ _ h => absurd h hj
  have hwaits : ∀ {s₁ : Sys AuthSig ι LicenseResponse} {g₁ : ι → IssueState} {j ℓ},
      Issuing A requests (db.licenseKeys.map (·.id)) s₁ g₁ → (g₁ i).Waits →
      (j = i → ¬ ℓ.Failure ∧ ¬ Tries A (requests i) ℓ) → (issuing A).Vouched (g₁ j) ℓ →
      (Function.update g₁ j ((issuing A).next (g₁ j) ℓ) i).Waits := by
    intro s₁ g₁ j ℓ hinv hH hok hvouched
    by_cases hj : j = i
    · subst hj
      rw [Function.update_self]
      exact hH.next (hok rfl).1 (hinv.request j ▸ (hok rfl).2) hvouched
    · rwa [Function.update_of_ne (Ne.symm hj)]
  obtain ⟨hx, g, hinv, hH, hfol⟩ := Prog.Follows.run_with (H := fun _ g => (g i).Waits)
    (issuing_keeps requests _ _ post) hcrash
    (fun _ hinv hH hok hvouched _ => hwaits hinv hH hok hvouched)
    (Sys.exclusive_start _ _ _ _) (issuing_start requests horder now next _) ⟨rfl, id, id⟩ hstart
    hbefore
  -- from here on the record is there, and a record of its own is refused
  obtain ⟨-, g', hinv', ⟨hq', hH'⟩, hends⟩ := Prog.Follows.run_with
    (H := fun (s : Sys AuthSig ι LicenseResponse) (g : ι → IssueState) =>
      q ∈ s.db.licenseIssuanceRequests ∧ (g i).Waits)
    (issuing_keeps requests _ (fun _ j ℓ => j = i → ¬ ℓ.Failure) post) hcrash
    (fun {s₁ g₁ j ℓ p} _ hinv hH hok hvouched hstep => by
      obtain ⟨p', -, hen, -⟩ := hstep
      refine ⟨hinv.keeps hvouched hH.1, hwaits hinv hH.2 (fun hj => ?_) hvouched⟩
      subst hj
      exact ⟨hok rfl, hinv.not_tries hH.2.idle hH.1 hkey hen hvouched⟩)
    hx hinv ⟨hq, hH⟩ hfol hafter
  rcases (hends i).reply hr rfl with hfailed | htried | hres | ⟨row, hknows, hrow, hanswer⟩
  · exact absurd hfailed hH'.sound
  · exact absurd htried hH'.untried
  · exact .inl hres
  · obtain rfl : row = q :=
      hinv'.order.eq_of_sameKey (hinv'.knows i row hknows).1 hq' (hrow.sameKey hkey)
    exact hanswer

/-- **A call that fails before its commit** has changed nothing. -/
theorem failed_run (horder : db.InOrder) {s₁ : Sys AuthSig ι LicenseResponse} {i : ι}
    (hbefore : Sys.Run True (fun _ j ℓ => j = i → ℓ ≠ .committed ∧ ∀ x, ℓ ≠ .commitLost x)
      (Sys.start db now next (issueCalls A requests attempts)) s₁)
    (hafter : Sys.Run True (fun _ j ℓ => j = i → ¬ ℓ.Failure) s₁ s) {x : Err}
    (hr : (s.proc i).reply? = some (.error x)) :
    Sys.Run True (fun s j ℓ => j = i → s.dbAfter j ℓ = s.db)
      (Sys.start db now next (issueCalls A requests attempts)) s := by
  have hfirst : Sys.Run True (fun s j ℓ => j = i → s.dbAfter j ℓ = s.db)
      (Sys.start db now next (issueCalls A requests attempts)) s₁ := by
    refine hbefore.mono fun s j ℓ hno hj => ?_
    obtain ⟨hcommitted, hlost⟩ := hno hj
    cases ℓ with
    | committed => exact absurd rfl hcommitted
    | commitLost x => exact absurd rfl (hlost x)
    | _ => rfl
  obtain ⟨hx, g, hinv, hfol⟩ := issuing_run horder hbefore
  let H : Sys AuthSig ι LicenseResponse → (ι → IssueState) → Prop := fun s' g =>
    (∃ row, (g i).stage = .done row) ∨
      Sys.Run True (fun s j ℓ => j = i → s.dbAfter j ℓ = s.db)
        (Sys.start db now next (issueCalls A requests attempts)) s'
  have hkeeps : ∀ {s₁ g₁ j ℓ p}, s₁.Exclusive →
      Issuing A requests (db.licenseKeys.map (·.id)) s₁ g₁ → H s₁ g₁ → (j = i → ¬ ℓ.Failure) →
      (issuing A).Vouched (g₁ j) ℓ → s₁.Step True j ℓ (s₁.after j ℓ p) →
      H (s₁.after j ℓ p) (Function.update g₁ j ((issuing A).next (g₁ j) ℓ)) := by
    intro s₂ g₂ j ℓ p _ _ hH hok hvouched hstep
    show (∃ row, (Function.update g₂ j ((issuing A).next (g₂ j) ℓ) i).stage = .done row) ∨ _
    by_cases hj : j = i
    · subst hj
      rw [Function.update_self]
      have hno := hok rfl
      rcases hH with ⟨row, hrow⟩ | hrun
      · exact .inl ⟨row, IssueStage.done_next hrow hno hvouched⟩
      · cases ℓ with
        | committed =>
          obtain ⟨row, license, hstage⟩ := hvouched
          exact .inl ⟨row.naming license, congrArg IssueStage.committed hstage⟩
        | commitLost x => exact absurd trivial hno
        | _ => exact .inr (.tail hrun (fun _ => rfl) hstep)
    · rw [Function.update_of_ne (Ne.symm hj)]
      exact hH.imp_right fun hrun => .tail hrun (fun h => absurd h hj) hstep
  obtain ⟨-, g', -, hH, hends⟩ := Prog.Follows.run_with
    (issuing_keeps requests _ (fun _ j ℓ => j = i → ¬ ℓ.Failure) fun i => Replied A (requests i))
    (fun _ _ x q => nofun) hkeeps hx hinv (.inr hfirst) hfol hafter
  refine hH.resolve_left ?_
  rintro ⟨row, hrow⟩
  exact (hends i).reply hr row hrow

/-- **Idempotent issuance.** In every run of issue requests, however they interleave and
whatever fails, from a store whose records are in order: records stay in order, so there is
one licence for an actor and a key; whatever a call commits is its whole issuance; every
answer is the licence of the record of its key and fingerprint, and of two answers under one
key one at most has the plaintext; once a key is taken no call under it changes anything, and
one that starts then, or is under way without having tried a record of its own (it may have
looked too early, and then loses the race), is answered with the licence or, if its
fingerprint differs, refused; a call that fails, but not after its commit, has changed
nothing. -/
theorem issuance_idempotent (horder : db.InOrder)
    (hrun : Sys.Run True (fun _ _ _ => True)
      (Sys.start db now next (issueCalls A requests attempts)) s) :
    (s.db.InOrder ∧ ∀ l ∈ s.db.licenseKeys, l.id ∈ db.licenseKeys.map (·.id) ∨
      ∃ q ∈ s.db.licenseIssuanceRequests, q.licenseId = some l.id) ∧
    Sys.Run True (fun (s : Sys AuthSig ι LicenseResponse) i ℓ =>
        s.dbAfter i ℓ = s.db ∨ s.db.Issues (requests i) A (s.dbAfter i ℓ))
      (Sys.start db now next (issueCalls A requests attempts)) s ∧
    (∀ i answer, (s.proc i).reply? = some (.ok answer) →
      ∃ q ∈ s.db.licenseIssuanceRequests, q.Of A (requests i) ∧
        q.licenseId = some answer.license.license.id ∧
        answer.idempotentReplay = answer.key.isNone) ∧
    (∀ i j answer answer', i ≠ j → (requests i).actorUserId = (requests j).actorUserId →
      (requests i).keyHash A = (requests j).keyHash A →
      (s.proc i).reply? = some (.ok answer) → (s.proc j).reply? = some (.ok answer') →
      answer.key = none ∨ answer'.key = none) ∧
    (∀ q ∈ s.db.licenseIssuanceRequests, ∀ i, q.KeyOf A (requests i) → ∀ s',
      (Sys.Run True (fun _ _ _ => True) s s' →
        Sys.Run True (fun s j ℓ => j = i → s.dbAfter j ℓ = s.db) s s') ∧
      (s.begun i = false ∨ Sys.Run True (fun _ j ℓ => j = i → ¬ ℓ.Failure ∧ ¬ Tries A (requests i) ℓ)
          (Sys.start db now next (issueCalls A requests attempts)) s →
        (requests i).Passes A → Sys.Run True (fun _ j ℓ => j = i → ¬ ℓ.Failure) s s' →
        ∀ res, (s'.proc i).reply? = some res → Answered A (requests i) q res)) ∧
    (∀ i s₁ x, Sys.Run True (fun _ j ℓ => j = i → ℓ ≠ .committed ∧ ∀ x, ℓ ≠ .commitLost x)
        (Sys.start db now next (issueCalls A requests attempts)) s₁ →
      Sys.Run True (fun _ j ℓ => j = i → ¬ ℓ.Failure) s₁ s →
      (s.proc i).reply? = some (.error x) →
      Sys.Run True (fun s j ℓ => j = i → s.dbAfter j ℓ = s.db)
        (Sys.start db now next (issueCalls A requests attempts)) s) := by
  obtain ⟨-, g, hinv, hfol⟩ := issuing_run horder hrun
  refine ⟨⟨hinv.order, hinv.named⟩, ?_, fun i answer hr => ?_,
    fun i j answer answer' hij hactor hhash hi hj => ?_, fun q hq i hkey s' => ⟨fun hlater => ?_,
      fun hcall hpasses hlater res hr => ?_⟩,
    fun i s₁ x hbefore hafter hr => failed_run horder hbefore hafter hr⟩
  · exact (issues_run horder hrun).mono fun s i ℓ hok => hok.2
  · obtain ⟨q, hknows, hof, hid, hreplay, -⟩ := (hfol i).reply hr
    exact ⟨q, (hinv.knows i q hknows).1, hof, hid, hreplay⟩
  · obtain ⟨q, hknows, hof, -, -, hdone⟩ := (hfol i).reply hi
    obtain ⟨q', hknows', hof', -, -, hdone'⟩ := (hfol j).reply hj
    have hsame : q = q' := hinv.order.eq_of_sameKey (hinv.knows i q hknows).1
      (hinv.knows j q' hknows').1 ⟨by rw [hof.1.1, hof'.1.1, hactor], by rw [hof.1.2, hof'.1.2, hhash]⟩
    by_contra hboth
    obtain ⟨hkey, hkey'⟩ := not_or.mp hboth
    have hi' := hdone (Option.isSome_iff_ne_none.mpr hkey)
    have hj' := hdone' (Option.isSome_iff_ne_none.mpr hkey')
    exact hij (hinv.one i j q hi' (hsame ▸ hj'))
  · exact (taken_run horder hrun hq hkey hlater).mono fun s j ℓ hok => hok.2
  · refine beaten_run horder (hcall.elim (fun hlate => ?_) id) hq hkey hpasses hlater hr
    exact (hrun.without hlate).mono fun s j ℓ hok hj => absurd hj hok.2

end Runs

/-! ## Two requests under one key -/

/-- The member of before, and an administrator who issues. -/
def issuingDesk : Database := { licensee with
  users := licensee.users ++ [{ id := 9, email := some "desk@lab.org", status := .active
                                roleIds := [3, 4] }]
  roles := licensee.roles ++
    [{ id := 3, name := "platform_admin", organizationId := none, permissions := [] },
      { id := 4, name := "admin", organizationId := none, permissions := [] }] }

theorem issuingDesk_inOrder : issuingDesk.InOrder := ⟨.nil, nofun⟩

/-- The same request, twice. -/
def issuedTwice : Sys AuthSig Bool LicenseResponse :=
  Sys.start issuingDesk 0 10
    (issueCalls AppEnv.symbolic (fun _ => monthly "first-month-of-ada") fun _ => 3)

def Looks : Label AuthSig → Bool
  | .read _ => true
  | _ => false

/-- One has looked for the record before the other issues. -/
def lookedFirst : Option (Sys AuthSig Bool LicenseResponse) :=
  issuedTwice.follow (fun _ i ℓ => i = true → Looks ℓ) ([true, true] ++ List.replicate 25 false)

/-- Then it is refused, and issues again. -/
def reissued : Option (Sys AuthSig Bool LicenseResponse) :=
  lookedFirst.bind fun s => s.follow (fun _ _ _ => True) (List.replicate 8 true)

def LicenseResponse.key? : Option (Except Err LicenseResponse) → Option (Option String × Bool)
  | some (.ok answer) => some (answer.key, answer.idempotentReplay)
  | _ => none

/-- One licence, and one answer with its key: who loses the race is answered from the record. -/
theorem issuance_idempotent_raced :
    ∃ s₁ s, lookedFirst = some s₁ ∧ reissued = some s ∧ s.db.InOrder ∧
      s.db.licenseKeys.length = 1 ∧
      LicenseResponse.key? (s.proc false).reply? = some (some "OMNI-000011", false) ∧
      LicenseResponse.key? (s.proc true).reply? = some (none, true) ∧
      ∃ q ∈ s₁.db.licenseIssuanceRequests, ∃ res, (s.proc true).reply? = some res ∧
        Answered AppEnv.symbolic (monthly "first-month-of-ada") q res := by
  have hplays : reissued.isSome := by decide
  have hrecorded : lookedFirst.all (fun s => decide
      (∃ q ∈ s.db.licenseIssuanceRequests,
        q.KeyOf AppEnv.symbolic (monthly "first-month-of-ada"))) = true := by decide
  have hends : reissued.all (fun s => decide
      (s.db.licenseKeys.length = 1 ∧
        LicenseResponse.key? (s.proc false).reply? = some (some "OMNI-000011", false) ∧
        LicenseResponse.key? (s.proc true).reply? = some (none, true) ∧
        (s.proc true).reply?.isSome)) = true := by decide
  obtain ⟨s, hs⟩ := Option.isSome_iff_exists.mp hplays
  obtain ⟨s₁, hs₁, hs₂⟩ := Option.bind_eq_some_iff.mp hs
  rw [hs₁] at hrecorded
  rw [hs] at hends
  obtain ⟨q, hq, hkeyof⟩ := of_decide_eq_true hrecorded
  obtain ⟨hone, hkey, hreplayed, hanswered⟩ := of_decide_eq_true hends
  obtain ⟨res, hres⟩ := Option.isSome_iff_exists.mp hanswered
  have hfirst := Sys.run_of_follow _ hs₁
  have hlast := Sys.run_of_follow _ hs₂
  have hpasses : (monthly "first-month-of-ada").Passes AppEnv.symbolic :=
    ⟨by decide, rfl, by decide, by decide⟩
  obtain ⟨⟨horder, -⟩, -⟩ := issuance_idempotent issuingDesk_inOrder
    ((hfirst.mono fun _ _ _ _ => trivial).trans hlast).mayFail
  obtain ⟨-, -, -, -, htaken, -⟩ := issuance_idempotent issuingDesk_inOrder
    (hfirst.mono fun _ _ _ _ => trivial).mayFail
  refine ⟨s₁, s, hs₁, hs, horder, hone, hkey, hreplayed, q, hq, res, hres, ?_⟩
  refine (htaken q hq true hkeyof s).2 (.inr ?_) hpasses ?_ res hres
  · -- so far it has only looked
    refine (hfirst.mono fun _ i ℓ hlooks hi => ?_).mayFail
    have hread := hlooks hi
    cases ℓ <;> first | exact ⟨id, id⟩ | cases hread
  · refine (hlast.noFailure.mono fun _ i ℓ hok hi => ?_).mayFail
    exact hok.2

/-- A request whose licence is committed, and cannot be read again for the answer. -/
def lateFailure : Option (Sys AuthSig Bool LicenseResponse) :=
  (issuedTwice.follow (fun _ _ _ => True) (List.replicate 21 false)).bind fun s =>
    (s.fail false .database).bind fun s => s.follow (fun _ _ _ => True) [false]

/-- **A failure that leaves a licence.** -/
theorem issuance_idempotent_lateFailure :
    ∃ s, Sys.Run True (fun _ _ _ => True) issuedTwice s ∧
      (s.proc false).reply? = some (.error .database) ∧ issuedTwice.db.licenseKeys = [] ∧
      s.db.licenseKeys.length = 1 ∧ s.db.licenseIssuanceRequests.length = 1 := by
  have hplays : lateFailure.isSome := by decide
  have hends : lateFailure.all (fun s => decide
      ((s.proc false).reply? = some (.error .database) ∧ issuedTwice.db.licenseKeys = [] ∧
        s.db.licenseKeys.length = 1 ∧ s.db.licenseIssuanceRequests.length = 1)) = true := by decide
  obtain ⟨s, hs⟩ := Option.isSome_iff_exists.mp hplays
  rw [hs] at hends
  refine ⟨s, ?_, of_decide_eq_true hends⟩
  obtain ⟨s₁, hs₁, hs₂⟩ := Option.bind_eq_some_iff.mp hs
  obtain ⟨s₂, hfail, hs₃⟩ := Option.bind_eq_some_iff.mp hs₂
  obtain ⟨ℓ, -, hstep⟩ := Sys.step_of_fail hfail
  exact (Sys.Run.tail (Sys.run_of_follow _ hs₁).mayFail trivial hstep).trans
    (Sys.run_of_follow _ hs₃).mayFail

end OmniAuth
