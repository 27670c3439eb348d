import OmniAuth.License.Issuance

/-!
# Issuances that interleave

The invariant of any number of issue requests, whatever fails: what is committed is in
order, every licence is an old one or named by a record, each call has pending what its
stage says, under keys that it holds and that are free, and what a call knows to be
committed is.
-/

namespace OmniAuth

open Txn Prog

variable {A : AppEnv} {ι : Type} {requests : ι → IssueRequest} {old : List ℕ}
  {s : Sys AuthSig ι LicenseResponse} {g : ι → IssueState} {i : ι} {ℓ : Label AuthSig}

/-- **The invariant.** -/
structure Issuing (A : AppEnv) (requests : ι → IssueRequest) (old : List ℕ)
    (s : Sys AuthSig ι LicenseResponse) (g : ι → IssueState) : Prop where
  request : ∀ i, (g i).request = requests i
  order : s.db.InOrder
  named : ∀ l ∈ s.db.licenseKeys, l.id ∈ old ∨
    ∃ q ∈ s.db.licenseIssuanceRequests, q.licenseId = some l.id
  pends : ∀ i, (g i).stage.Pends (s.conn i).pend
  records : ∀ i, (g i).stage.Records A (requests i)
  held : ∀ i, ∀ k ∈ (g i).stage.keys, k ∈ (s.conn i).held
  free : ∀ i, ∀ k ∈ (g i).stage.keys, s.db.Free k
  snap : ∀ i v, (s.conn i).snap = some v →
    v.InOrder ∧ ∀ q ∈ v.licenseIssuanceRequests, q ∈ s.db.licenseIssuanceRequests
  knows : ∀ i q, (g i).knows q → q ∈ s.db.licenseIssuanceRequests ∧
    ∀ v, (s.conn i).snap = some v → q ∈ v.licenseIssuanceRequests
  lost : ∀ i q, (g i).lost q → q ∈ s.db.licenseIssuanceRequests
  done : ∀ i row, (g i).stage = .done row → (g i).knows row
  one : ∀ i j row, (g i).stage = .done row → (g j).stage = .done row → i = j

/-- A call that has not started. -/
def IssueState.start (r : IssueRequest) : IssueState :=
  ⟨r, .idle, fun _ => False, fun _ => False, False, False⟩

theorem issuing_start (requests : ι → IssueRequest) {db : Database} (horder : db.InOrder)
    (now next : ℕ) (proc : ι → Op LicenseResponse) :
    Issuing A requests (db.licenseKeys.map (·.id)) (Sys.start db now next proc)
      (fun i => .start (requests i)) where
  request _ := rfl
  order := horder
  named l hl := .inl (List.mem_map_of_mem hl)
  pends _ db _ := ⟨(List.append_nil _).symm, db, Database.fades_of_eq rfl, (List.append_nil _).symm⟩
  records _ := trivial
  held _ _ hk := by cases hk
  free _ _ hk := by cases hk
  snap _ _ := nofun
  knows _ _ hq := hq.elim
  lost _ _ hq := hq.elim
  done _ _ := nofun
  one _ _ _ := nofun

variable [DecidableEq ι]

/-- A step that commits nothing: what changes is the connection of the call, and where it
stands. -/
theorem Issuing.moves (h : Issuing A requests old s g) {q' : IssueState}
    (p : Op LicenseResponse) (hdb : s.dbAfter i ℓ = s.db) (hrequest : q'.request = (g i).request)
    (hpends : q'.stage.Pends (s.connAfter i ℓ).pend) (hrecords : q'.stage.Records A (requests i))
    (hheld : ∀ k ∈ q'.stage.keys, k ∈ (s.connAfter i ℓ).held)
    (hfree : ∀ k ∈ q'.stage.keys, s.db.Free k)
    (hsnap : ∀ v, (s.connAfter i ℓ).snap = some v → v = (s.conn i).snap.getD s.db)
    (hknows : ∀ row, q'.knows row → (g i).knows row ∨
      row ∈ ((s.conn i).snap.getD s.db).licenseIssuanceRequests ∨
      (g i).lost row ∧ (s.connAfter i ℓ).snap = none)
    (hlost : ∀ row, q'.lost row → (g i).lost row ∨ row ∈ s.db.licenseIssuanceRequests)
    (hdone : ∀ row, q'.stage = .done row → (g i).stage = .done row ∧ q'.knows row) :
    Issuing A requests old (s.after i ℓ p) (Function.update g i q') := by
  have hdb' : (s.after i ℓ p).db = s.db := hdb
  -- a snapshot is a state that was committed, and so is what a first read takes
  have hview : ((s.conn i).snap.getD s.db).InOrder ∧
      (∀ q ∈ ((s.conn i).snap.getD s.db).licenseIssuanceRequests,
        q ∈ s.db.licenseIssuanceRequests) ∧
      ∀ q, (g i).knows q → q ∈ ((s.conn i).snap.getD s.db).licenseIssuanceRequests := by
    cases hs : (s.conn i).snap with
    | none => exact ⟨h.order, fun q hq => hq, fun q hq => (h.knows i q hq).1⟩
    | some v =>
      obtain ⟨horder, hsub⟩ := h.snap i v hs
      exact ⟨horder, hsub, fun q hq => (h.knows i q hq).2 v hs⟩
  obtain ⟨horder, hsub, hknown⟩ := hview
  have hone : ∀ j row, (Function.update g i q' j).stage = .done row → (g j).stage = .done row :=
    (Function.forall_update_iff g fun j q => ∀ row, q.stage = .done row →
      (g j).stage = .done row).mpr ⟨fun row hrow => (hdone row hrow).1, fun _ _ _ hrow => hrow⟩
  constructor
  case request =>
    exact (Function.forall_update_iff g fun j q => q.request = requests j).mpr
      ⟨hrequest.trans (h.request i), fun j _ => h.request j⟩
  case order => rw [hdb']; exact h.order
  case named => rw [hdb']; exact h.named
  case pends =>
    exact Sys.forall_after (P := fun (c : Conn AuthSig) (q : IssueState) => q.stage.Pends c.pend)
      hpends fun j _ => h.pends j
  case records =>
    exact (Function.forall_update_iff g fun j q => q.stage.Records A (requests j)).mpr
      ⟨hrecords, fun j _ => h.records j⟩
  case held =>
    exact Sys.forall_after (P := fun (c : Conn AuthSig) (q : IssueState) =>
      ∀ k ∈ q.stage.keys, k ∈ c.held) hheld fun j _ => h.held j
  case free =>
    rw [hdb']
    exact (Function.forall_update_iff g fun _ q => ∀ k ∈ q.stage.keys, s.db.Free k).mpr
      ⟨hfree, fun j _ => h.free j⟩
  case snap =>
    rw [hdb']
    refine Sys.forall_after (P := fun (c : Conn AuthSig) (_ : IssueState) => ∀ v, c.snap = some v →
      v.InOrder ∧ ∀ q ∈ v.licenseIssuanceRequests, q ∈ s.db.licenseIssuanceRequests)
      (g := g) (q := q') (fun v hv => ?_) fun j _ => h.snap j
    rw [hsnap v hv]
    exact ⟨horder, hsub⟩
  case knows =>
    rw [hdb']
    refine Sys.forall_after (P := fun (c : Conn AuthSig) (q : IssueState) => ∀ row, q.knows row →
      row ∈ s.db.licenseIssuanceRequests ∧
        ∀ v, c.snap = some v → row ∈ v.licenseIssuanceRequests)
      (fun row hrow => ?_) fun j _ => h.knows j
    have hin : row ∈ ((s.conn i).snap.getD s.db).licenseIssuanceRequests ∨
        (g i).lost row ∧ (s.connAfter i ℓ).snap = none :=
      (hknows row hrow).elim (fun hrow => .inl (hknown row hrow)) id
    rcases hin with hin | ⟨hin, hnone⟩
    · refine ⟨hsub row hin, fun v hv => ?_⟩
      rwa [hsnap v hv]
    · refine ⟨h.lost i row hin, fun v hv => ?_⟩
      rw [hnone] at hv
      cases hv
  case lost =>
    rw [hdb']
    exact (Function.forall_update_iff g fun _ q => ∀ row, q.lost row →
      row ∈ s.db.licenseIssuanceRequests).mpr
      ⟨fun row hrow => (hlost row hrow).elim (h.lost i row) id, fun j _ => h.lost j⟩
  case done =>
    exact (Function.forall_update_iff g fun _ q => ∀ row, q.stage = .done row → q.knows row).mpr
      ⟨fun row hrow => (hdone row hrow).2, fun j _ => h.done j⟩
  case one =>
    intro j j' row hj hj'
    exact h.one j j' row (hone j row hj) (hone j' row hj')

omit [DecidableEq ι] in
/-- What a call is about to commit. -/
theorem Issuing.issues (h : Issuing A requests old s g) {row : LicenseIssuanceRequest}
    {license : LicenseKey} (hstage : (g i).stage = .linked row license) :
    s.db.Issues (requests i) A (s.latest i) := by
  have hpends := h.pends i
  have hrecords := h.records i
  have hfree := h.free i
  rw [hstage] at hpends hrecords hfree
  exact hpends.issues hrecords hfree

/-- **A commit** is one whole issuance. -/
theorem Issuing.commits (h : Issuing A requests old s g) (hx : s.Exclusive) {q' : IssueState}
    {row : LicenseIssuanceRequest} {license : LicenseKey}
    (hstage : (g i).stage = .linked row license) (p : Op LicenseResponse)
    (hdb : s.dbAfter i ℓ = s.latest i) (hidle : s.connAfter i ℓ = Conn.idle AuthSig)
    (hrequest : q'.request = (g i).request)
    (hstage' : q'.stage = .idle ∨ q'.stage = .done (row.naming license))
    (hknows : ∀ q, q'.knows q → (g i).knows q ∨ q = row.naming license)
    (hlost : q'.lost = (g i).lost)
    (hdone : q'.stage = .done (row.naming license) → q'.knows (row.naming license)) :
    Issuing A requests old (s.after i ℓ p) (Function.update g i q') := by
  have hdb' : (s.after i ℓ p).db = s.latest i := hdb
  have hissues := h.issues hstage
  have hpends := h.pends i
  have hrecords := h.records i
  have hkeys := h.free i
  rw [hstage] at hpends hrecords hkeys
  obtain ⟨hrows, superseded, ⟨f, hf, hfade⟩, hlicenses⟩ := hpends s.db hkeys
  have hkeep : ∀ q ∈ s.db.licenseIssuanceRequests, q ∈ (s.latest i).licenseIssuanceRequests := by
    intro q hq
    show q ∈ ((s.conn i).pend s.db).licenseIssuanceRequests
    rw [hrows]
    exact List.mem_append_left _ hq
  have hnew : row.naming license ∈ (s.latest i).licenseIssuanceRequests := by
    show _ ∈ ((s.conn i).pend s.db).licenseIssuanceRequests
    rw [hrows]
    exact List.mem_append_right _ (List.mem_singleton.mpr rfl)
  -- nobody else is done with this record: it was not there
  have hfresh : ∀ j, (g j).stage ≠ .done (row.naming license) := by
    intro j hj
    have hin := (h.knows j _ (h.done j _ hj)).1
    exact hkeys (.issuanceRequest row.id) (by simp [IssueStage.keys]) _ hin rfl
  have hkeys' : q'.stage.keys = [] := by
    rcases hstage' with hq | hq <;> rw [hq] <;> rfl
  constructor
  case request =>
    exact (Function.forall_update_iff g fun j q => q.request = requests j).mpr
      ⟨hrequest.trans (h.request i), fun j _ => h.request j⟩
  case order =>
    rw [hdb']
    exact hissues.inOrder h.order
  case named =>
    rw [hdb']
    intro l hl
    have hl' : l ∈ ((s.conn i).pend s.db).licenseKeys := hl
    rw [hlicenses, hf, List.mem_append] at hl'
    rcases hl' with hl' | hl'
    · obtain ⟨l₀, hl₀, rfl⟩ := List.mem_map.mp hl'
      rw [(hfade l₀).id]
      exact (h.named l₀ hl₀).imp_right fun hq => hq.imp fun q hq => ⟨hkeep q hq.1, hq.2⟩
    · obtain rfl := List.mem_singleton.mp hl'
      exact .inr ⟨_, hnew, rfl⟩
  case pends =>
    refine Sys.forall_after (P := fun (c : Conn AuthSig) (q : IssueState) => q.stage.Pends c.pend)
      ?_ fun j _ => h.pends j
    rw [hidle]
    intro db _
    refine ⟨?_, db, Database.fades_of_eq rfl, ?_⟩ <;> rcases hstage' with hq | hq <;> rw [hq] <;>
      exact (List.append_nil _).symm
  case records =>
    refine (Function.forall_update_iff g fun j q => q.stage.Records A (requests j)).mpr
      ⟨?_, fun j _ => h.records j⟩
    rcases hstage' with hq | hq <;> rw [hq]
    · trivial
    · exact hrecords
  case held =>
    refine Sys.forall_after (P := fun (c : Conn AuthSig) (q : IssueState) =>
      ∀ k ∈ q.stage.keys, k ∈ c.held) ?_ fun j _ => h.held j
    rw [hkeys']
    intro k hk
    cases hk
  case free =>
    rw [hdb']
    refine (Function.forall_update_iff g fun _ q => ∀ k ∈ q.stage.keys, (s.latest i).Free k).mpr
      ⟨?_, fun j hj k hk => ?_⟩
    · rw [hkeys']
      intro k hk
      cases hk
    · -- the locks of two calls are apart, and so are their keys
      refine hpends.free hkeys (fun hk' => ?_) (h.free j k hk)
      refine hx j i hj k (h.held j k hk) (h.held i k ?_)
      rwa [hstage]
  case snap =>
    rw [hdb']
    refine Sys.forall_after (P := fun (c : Conn AuthSig) (_ : IssueState) => ∀ v, c.snap = some v →
      v.InOrder ∧ ∀ q ∈ v.licenseIssuanceRequests, q ∈ (s.latest i).licenseIssuanceRequests)
      (g := g) (q := q') ?_ fun j _ v hv => ?_
    · intro v hv
      rw [hidle] at hv
      cases hv
    · obtain ⟨horder, hsub⟩ := h.snap j v hv
      exact ⟨horder, fun q hq => hkeep q (hsub q hq)⟩
  case knows =>
    rw [hdb']
    refine Sys.forall_after (P := fun (c : Conn AuthSig) (q : IssueState) => ∀ row, q.knows row →
      row ∈ (s.latest i).licenseIssuanceRequests ∧
        ∀ v, c.snap = some v → row ∈ v.licenseIssuanceRequests)
      (fun q hq => ?_) fun j _ q hq => ?_
    · rw [hidle]
      refine ⟨?_, fun v hv => by cases hv⟩
      rcases hknows q hq with hq | rfl
      · exact hkeep q (h.knows i q hq).1
      · exact hnew
    · obtain ⟨hin, hsnap⟩ := h.knows j q hq
      exact ⟨hkeep q hin, hsnap⟩
  case lost =>
    rw [hdb']
    refine (Function.forall_update_iff g fun _ q => ∀ row, q.lost row →
      row ∈ (s.latest i).licenseIssuanceRequests).mpr ⟨fun q hq => ?_, fun j _ q hq => ?_⟩
    · rw [hlost] at hq
      exact hkeep q (h.lost i q hq)
    · exact hkeep q (h.lost j q hq)
  case done =>
    refine (Function.forall_update_iff g fun _ q => ∀ row, q.stage = .done row → q.knows row).mpr
      ⟨fun row' hrow => ?_, fun j _ => h.done j⟩
    rcases hstage' with hq | hq
    · rw [hq] at hrow
      cases hrow
    · rw [hq] at hrow
      obtain rfl := IssueStage.done.inj hrow
      exact hdone hq
  case one =>
    have hnew : ∀ j row', (Function.update g i q' j).stage = .done row' →
        (j = i ∧ row' = row.naming license) ∨ (j ≠ i ∧ (g j).stage = .done row') := by
      refine (Function.forall_update_iff g fun j q => ∀ row', q.stage = .done row' →
        (j = i ∧ row' = row.naming license) ∨ (j ≠ i ∧ (g j).stage = .done row')).mpr
        ⟨fun row' hrow => .inl ⟨rfl, ?_⟩, fun j hj row' hrow => .inr ⟨hj, hrow⟩⟩
      rcases hstage' with hq | hq
      · rw [hq] at hrow
        cases hrow
      · rw [hq] at hrow
        exact (IssueStage.done.inj hrow).symm
    intro j j' row' hj hj'
    rcases hnew j row' hj with ⟨hji, hrow⟩ | ⟨-, hold⟩
    · rcases hnew j' row' hj' with ⟨hji', -⟩ | ⟨-, hold'⟩
      · rw [hji, hji']
      · exact absurd (hrow ▸ hold') (hfresh j')
    · rcases hnew j' row' hj' with ⟨-, hrow⟩ | ⟨-, hold'⟩
      · exact absurd (hrow ▸ hold) (hfresh j)
      · exact h.one j j' row' hold hold'

omit [DecidableEq ι] in
/-- What a call that has nothing pending reads is in order, and holds what it knows. -/
theorem Issuing.sees (h : Issuing A requests old s g) (hsettled : (g i).stage.Settled) :
    (s.view i).InOrder ∧
      ∀ row, (g i).knows row → row ∈ (s.view i).licenseIssuanceRequests := by
  obtain ⟨hreqs, hfades⟩ := (h.pends i).settled hsettled ((s.conn i).snap.getD s.db)
  have hview : ((s.conn i).snap.getD s.db).InOrder ∧ ∀ row, (g i).knows row →
      row ∈ ((s.conn i).snap.getD s.db).licenseIssuanceRequests := by
    cases hs : (s.conn i).snap with
    | none => exact ⟨h.order, fun row hrow => (h.knows i row hrow).1⟩
    | some v => exact ⟨(h.snap i v hs).1, fun row hrow => (h.knows i row hrow).2 v hs⟩
  refine ⟨hview.1.fades hfades hreqs, fun row hrow => ?_⟩
  show row ∈ ((s.conn i).pend ((s.conn i).snap.getD s.db)).licenseIssuanceRequests
  rw [hreqs]
  exact hview.2 row hrow

omit [DecidableEq ι] in
theorem snap_eq_getD (v : Database) (hv : (s.conn i).snap = some v) :
    v = (s.conn i).snap.getD s.db := by
  rw [hv]
  rfl

/-- A step after which the call stands where it did, with the same connection. -/
theorem Issuing.stays (h : Issuing A requests old s g) (p : Op LicenseResponse)
    (hdb : s.dbAfter i ℓ = s.db) (hconn : s.connAfter i ℓ = s.conn i) :
    Issuing A requests old (s.after i ℓ p) (Function.update g i (g i)) := by
  refine h.moves p hdb rfl ?_ (h.records i) ?_ (h.free i) ?_ (fun _ hrow => .inl hrow)
    (fun _ hrow => .inl hrow) fun row hrow => ⟨hrow, h.done i row hrow⟩
  · rw [hconn]
    exact h.pends i
  · rw [hconn]
    exact h.held i
  · rw [hconn]
    exact snap_eq_getD

/-- A step that ends the transaction without a commit. -/
theorem Issuing.ends (h : Issuing A requests old s g) {q' : IssueState} (p : Op LicenseResponse)
    (hdb : s.dbAfter i ℓ = s.db) (hidle : s.connAfter i ℓ = Conn.idle AuthSig)
    (hrequest : q'.request = (g i).request)
    (hknows : ∀ row, q'.knows row → (g i).knows row ∨ (g i).lost row)
    (hlost : q'.lost = (g i).lost) (hkept : ∀ row, (g i).knows row → q'.knows row)
    (hstage : q'.stage = .idle ∨ ∃ row, (g i).stage = .done row ∧ q'.stage = .done row) :
    Issuing A requests old (s.after i ℓ p) (Function.update g i q') := by
  have hkeys : q'.stage.keys = [] := by
    rcases hstage with hstage | ⟨row, -, hstage⟩ <;> rw [hstage] <;> rfl
  refine h.moves p hdb hrequest ?_ ?_ ?_ ?_ ?_
    (fun row hrow => (hknows row hrow).imp_right fun hrow => .inr ⟨hrow, congrArg _ hidle⟩)
    (fun row hrow => .inl (hlost ▸ hrow)) ?_
  · rw [hidle]
    intro db _
    refine ⟨?_, db, Database.fades_of_eq rfl, ?_⟩ <;>
      rcases hstage with hstage | ⟨row, -, hstage⟩ <;> rw [hstage] <;>
      exact (List.append_nil _).symm
  · rcases hstage with hstage | ⟨row, hwas, hstage⟩ <;> rw [hstage]
    · trivial
    · exact hwas ▸ h.records i
  · rw [hkeys]
    intro k hk
    cases hk
  · rw [hkeys]
    intro k hk
    cases hk
  · intro v hv
    rw [hidle] at hv
    cases hv
  · intro row hrow
    rcases hstage with hstage | ⟨row', hwas, hstage⟩
    · rw [hstage] at hrow
      cases hrow
    · rw [hstage] at hrow
      obtain rfl := IssueStage.done.inj hrow
      exact ⟨hwas, hkept _ (h.done i _ hwas)⟩

/-- A statement of the call that fails in between: it stands where it did, and what it was
done with it leaves to be read again. -/
theorem Issuing.faulted (h : Issuing A requests old s g) {x : Err} (p : Op LicenseResponse) :
    Issuing A requests old (s.after i (.faulted x) p)
      (Function.update g i ((issuing A).next (g i) (.faulted x))) := by
  have hpends := h.pends i
  have hrecords := h.records i
  have hheld := h.held i
  have hfree := h.free i
  cases hstage : (g i).stage with
  | done row =>
    rw [hstage] at hpends
    have hnext : ((issuing A).next (g i) (.faulted x)).stage = .idle :=
      congrArg IssueStage.faulted hstage
    refine h.moves p rfl rfl ?_ ?_ ?_ ?_ snap_eq_getD (fun _ hrow => .inl hrow)
      (fun _ hrow => .inl hrow) ?_ <;> rw [hnext]
    · exact hpends
    · trivial
    · intro k hk
      cases hk
    · intro k hk
      cases hk
    · intro row hrow
      cases hrow
  | _ =>
    rw [hstage] at hpends hrecords hheld hfree
    have hnext : ((issuing A).next (g i) (.faulted x)).stage = _ :=
      congrArg IssueStage.faulted hstage
    refine h.moves p rfl rfl ?_ ?_ ?_ ?_ snap_eq_getD (fun _ hrow => .inl hrow)
      (fun _ hrow => .inl hrow) ?_ <;> rw [hnext]
    · exact hpends
    · exact hrecords
    · exact hheld
    · exact hfree
    · intro row hrow
      cases hrow

/-- **Every step keeps the invariant.** -/
theorem issuing_keeps (requests : ι → IssueRequest) (old : List ℕ)
    (ok : Sys AuthSig ι LicenseResponse → ι → Label AuthSig → Prop)
    (post : ι → Except Err LicenseResponse → IssueState → Prop) :
    (issuing A).Keeps ok post (Issuing A requests old) where
  sees := by
    intro s g i ℓ _ h hen _
    cases ℓ with
    | read v =>
      intro hsettled
      obtain rfl : v = s.view i := hen
      exact h.sees hsettled
    | _ => trivial
  after := by
    intro s g i ℓ p hx h hen _ _ hvouched
    cases ℓ with
    | read v =>
      obtain rfl : v = s.view i := hen
      refine h.moves p rfl rfl (h.pends i) (h.records i) (h.held i) (h.free i) ?_ ?_
        (fun _ hrow => .inl hrow) fun row hrow => ⟨hrow, .inl (h.done i row hrow)⟩
      · intro v hv
        exact (Option.some.inj hv).symm
      · rintro row (hrow | ⟨hsettled, hrow⟩)
        · exact .inl hrow
        · have hreqs := ((h.pends i).settled hsettled ((s.conn i).snap.getD s.db)).1
          exact .inr (.inl (hreqs ▸ hrow))
    | wrote stmt seen eff =>
      obtain ⟨hseen, hden, -⟩ := hen
      have hallows : (g i).stage.Allows A (requests i) stmt := h.request i ▸ hvouched
      have hkeys : ∀ k ∈ ((g i).stage.wrote stmt).keys,
          k ∈ eff.locks ++ (s.conn i).held ∧ s.db.Free k := by
        intro k hk
        rcases IssueStage.keys_wrote hallows hden hk with hk | ⟨hlock, hfree⟩
        · exact ⟨List.mem_append_right _ (h.held i k hk), h.free i k hk⟩
        · rw [hseen] at hfree
          exact ⟨List.mem_append_left _ hlock, (h.pends i).free_of (h.free i) hfree⟩
      refine h.moves p rfl rfl ((h.pends i).wrote hallows hden) ((h.records i).wrote hallows)
        (fun k hk => (hkeys k hk).1) (fun k hk => (hkeys k hk).2) snap_eq_getD
        (fun _ hrow => .inl hrow) (fun _ hrow => .inl hrow) fun row hrow => ?_
      have hwas := IssueStage.wrote_done hrow
      exact ⟨hwas, h.done i row hwas⟩
    | committed =>
      obtain ⟨row, license, hstage⟩ := hvouched
      have hnext : ((issuing A).next (g i) .committed).stage = .done (row.naming license) := by
        show (g i).stage.committed = _
        rw [hstage]
        rfl
      have hcommits : ∀ q, (g i).stage.commits q ↔ q = row.naming license := by
        intro q
        rw [hstage]
        exact Iff.rfl
      exact h.commits hx hstage p rfl rfl rfl (.inr hnext)
        (fun q hq => hq.imp_right (hcommits q).mp) rfl fun _ => .inr ((hcommits _).mpr rfl)
    | commitLost x =>
      obtain ⟨row, license, hstage⟩ := hvouched
      exact h.commits hx hstage p rfl rfl rfl (.inl rfl) (fun q hq => .inl hq) rfl
        fun hidle => by cases hidle
    | rolledBack =>
      refine h.ends p rfl rfl rfl (fun _ hrow => hrow) rfl (fun _ hrow => .inl hrow) ?_
      show (g i).stage.rolledBack = _ ∨ _
      cases hstage : (g i).stage with
      | done row => exact .inr ⟨row, rfl, congrArg IssueStage.rolledBack hstage⟩
      | _ => exact .inl rfl
    | commitFailed x =>
      exact h.ends p rfl rfl rfl (fun _ hrow => .inl hrow) rfl (fun _ hrow => hrow) (.inl rfl)
    | crashed x =>
      exact h.ends p rfl rfl rfl (fun _ hrow => .inl hrow) rfl (fun _ hrow => hrow) (.inl rfl)
    | faulted x => exact h.faulted p
    | refused stmt seen x =>
      obtain ⟨rfl, -⟩ := hen
      refine h.moves p rfl rfl (h.pends i) (h.records i) (h.held i) (h.free i) snap_eq_getD
        (fun _ hrow => .inl hrow) ?_ fun row hrow => ⟨hrow, h.done i row hrow⟩
      rintro row (hrow | ⟨hsettled, hrow⟩)
      · exact .inl hrow
      · have hreqs := ((h.pends i).settled hsettled s.db).1
        exact .inr (hreqs ▸ hrow)
    | ticked t => exact h.stays p rfl rfl
    | drew n => exact h.stays p rfl rfl
    | emitted e => exact h.stays p rfl rfl

end OmniAuth
