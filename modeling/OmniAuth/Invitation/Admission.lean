import OmniAuth.Invitation.Lifecycle
import OmniAuth.Invitation.Refusal

/-!
# One pending invitation, accepted once

Any number of invitation requests at once, with statements and commits that fail, answers that
are lost and processes that die. An organization never has two pending invitations of one
address; and an invitation that is not pending any more stays so, with the user who accepted
it, if somebody did.
-/

namespace OmniAuth

open Txn Prog

/-- What becomes of some invitations. -/
def Become (rows rows' : List OrganizationInvitation) : Prop :=
  ∀ i ∈ rows, ∃ i' ∈ rows', i.Moves i'

theorem become_refl (rows : List OrganizationInvitation) : Become rows rows :=
  fun i hi => ⟨i, hi, .refl i⟩

theorem Become.trans {a b c : List OrganizationInvitation} (h : Become a b) (h' : Become b c) :
    Become a c := by
  intro i hi
  obtain ⟨i', hi', hmoves⟩ := h i hi
  obtain ⟨i'', hi'', hmoves'⟩ := h' i' hi'
  exact ⟨i'', hi'', hmoves.trans hmoves'⟩

instance (A : AppEnv) (i : OrganizationInvitation) : Decidable (i.Keyed A) :=
  inferInstanceAs (Decidable (_ → _))

theorem become_of_rows {db db' : Database}
    (h : ∀ id, Become (db.invitationsOf id) (db'.invitationsOf id)) :
    Become db.organizationInvitations db'.organizationInvitations := by
  intro i hi
  obtain ⟨i', hi', hmoves⟩ := h i.id i (Database.mem_invitationsOf.mpr ⟨hi, rfl⟩)
  exact ⟨i', (Database.mem_invitationsOf.mp hi').1, hmoves⟩

theorem eq_of_id {db : Database} (h : invitationIds.Unique db) {i j : OrganizationInvitation}
    (hi : i ∈ db.organizationInvitations) (hj : j ∈ db.organizationInvitations)
    (hid : i.id = j.id) : i = j := by
  have hnodup : (db.organizationInvitations.map (·.id)).Nodup := by
    simpa [Index.Unique, invitationIds, List.map_map, Function.comp_def] using h
  exact List.inj_on_of_nodup_map hnodup hi hj hid

variable {ι α : Type} {A : AppEnv} {F : Prop} {s s' : Sys AuthSig ι α} {g : ι → Option ℕ}

/-! ## The invariant -/

/-- What is committed becomes what a request sees of it, and what a request holds is pending. -/
structure Admissions (s : Sys AuthSig ι α) (g : ι → Option ℕ) : Prop where
  guarded : invitationRows.Guarded s
  ids : invitationIds.Holds s
  becomes : ∀ j l, Become (invitationRows.row s.db l) (invitationRows.row (s.latest j) l)
  held : ∀ j id, g j = some id →
    .invitation id ∈ (s.conn j).held ∧ ∀ i ∈ s.db.invitationsOf id, i.status = .pending

/-- Every invitation that is pending holds its key, in what is committed and in what each request
sees. -/
structure Keyings (A : AppEnv) (s : Sys AuthSig ι α) : Prop where
  base : ∀ l, ∀ i ∈ invitationRows.row s.db l, i.Keyed A
  latest : ∀ j l, ∀ i ∈ invitationRows.row (s.latest j) l, i.Keyed A

theorem keyed_rows {db : Database} (h : ∀ i ∈ db.organizationInvitations, i.Keyed A) (l : RowKey) :
    ∀ i ∈ invitationRows.row db l, i.Keyed A := by
  intro i hi
  cases l with
  | invitation id => exact h i (Database.mem_invitationsOf.mp hi).1
  | _ => cases hi

theorem keyings_start {db : Database} (h : ∀ i ∈ db.organizationInvitations, i.Keyed A)
    (now next : ℕ) (proc : ι → Prog AuthSig α) : Keyings A (Sys.start db now next proc) :=
  ⟨keyed_rows h, fun _ => keyed_rows h⟩

theorem admissions_start {db : Database} (hids : invitationIds.Unique db) (now next : ℕ)
    (proc : ι → Prog AuthSig α) : Admissions (Sys.start db now next proc) fun _ => none where
  guarded := invitationRows.guarded_start db now next proc
  ids := invitationIds.holds_start hids now next proc
  becomes _ _ := become_refl _
  held _ _ hid := by cases hid

variable {i : ι} {ℓ : Label AuthSig}

/-- An invitation keeps its key while it is pending, and a new one has its key. -/
theorem keyed_wrote {stmt : Stmt} {seen : Database} {eff : Effect Database RowKey}
    {held : Option ℕ} (hden : denote stmt seen = .ok eff) (hadmitted : stmt.Admitted A held)
    (hkeyed : ∀ l, ∀ i ∈ invitationRows.row seen l, i.Keyed A) (l : RowKey) :
    ∀ i ∈ invitationRows.row (eff.delta seen) l, i.Keyed A := by
  obtain ⟨f, kept, new, hedit⟩ := denote_invitations hden
  intro i hi
  cases l with
  | invitation id =>
    have hi : i ∈ (eff.delta seen).invitationsOf id := hi
    rw [hedit.invitationsOf] at hi
    rcases List.mem_append.mp hi with hi | hi
    · obtain ⟨i₀, hi₀, rfl⟩ := List.mem_map.mp hi
      intro hpending
      obtain ⟨hbefore, hkept⟩ := hedit.pending i₀ hpending
      have hterms := hedit.terms i₀
      have horg := congrArg OrganizationInvitation.organizationId hterms
      have hemail := congrArg OrganizationInvitation.invitedEmail hterms
      calc (f i₀).activeKey = i₀.activeKey := by rw [hedit.key, if_pos hkept]
        _ = some (A.activeKey i₀.organizationId i₀.invitedEmail) :=
            hkeyed (.invitation id) i₀ hi₀ hbefore
        _ = some (A.activeKey (f i₀).organizationId (f i₀).invitedEmail) := by
            rw [show (f i₀).organizationId = i₀.organizationId from horg,
              show (f i₀).invitedEmail = i₀.invitedEmail from hemail]
    · have hstmt := hedit.added i (List.mem_of_mem_filter hi)
      rw [hstmt] at hadmitted
      exact hadmitted
  | _ => cases hi

/-- What a statement writes of what is committed. -/
theorem Admissions.wrote (h : Admissions s g) {stmt : Stmt} {seen : Database}
    {eff : Effect Database RowKey} (hseen : seen = s.latest i) (hden : denote stmt seen = .ok eff)
    (hadmitted : stmt.Admitted A (g i)) (l : RowKey) :
    Become (invitationRows.row s.db l) (invitationRows.row (eff.delta seen) l) := by
  obtain ⟨f, kept, new, hedit⟩ := denote_invitations hden
  intro r hr
  cases l with
  | invitation id =>
    obtain ⟨r', hr', hmoves⟩ := h.becomes i (.invitation id) r hr
    have hr' : r' ∈ seen.invitationsOf id := by rwa [hseen]
    refine ⟨f r', ?_, ?_⟩
    · show f r' ∈ (eff.delta seen).invitationsOf id
      rw [hedit.invitationsOf]
      exact List.mem_append_left _ (List.mem_map_of_mem hr')
    by_cases haccept : ∃ t userId, stmt = .org (.acceptInvitation r'.id t userId)
    · -- what is accepted is held, and so it is pending in what is committed
      obtain ⟨t, userId, rfl⟩ := haccept
      have hid : r'.id = id := (Database.mem_invitationsOf.mp hr').2
      have hpending := (h.held i r'.id hadmitted).2 r (by rw [hid]; exact hr)
      exact ⟨(hedit.terms r').trans hmoves.terms, fun hclosed => absurd hpending hclosed⟩
    · refine hmoves.trans (hedit.moves r' (.inr fun t userId hstmt => haccept ⟨t, userId, hstmt⟩))
  | _ => cases hr

/-- **What a locking read finds pending is pending in what is committed.** -/
theorem Admissions.locked (h : Admissions s g) {tokenHash id : ℕ}
    (hfound : (s.latest i).pendingId tokenHash = some id) :
    (∀ {eff : Effect Database RowKey},
      denote (.org (.lockInvitation tokenHash)) (s.latest i) = .ok eff →
        .invitation id ∈ eff.locks) ∧
    ∀ r ∈ s.db.invitationsOf id, r.status = .pending := by
  obtain ⟨r', hsome, rfl⟩ := Option.map_eq_some_iff.mp hfound
  obtain ⟨hfind, hpending⟩ := Option.filter_eq_some_iff.mp hsome
  have hmem : r' ∈ (s.latest i).organizationInvitations := List.mem_of_find?_eq_some hfind
  have hhash := List.find?_some hfind
  refine ⟨fun heff => ?_, fun r hr => ?_⟩
  · obtain rfl := Except.ok.inj heff
    exact List.mem_map_of_mem (List.mem_filter.mpr ⟨hmem, hhash⟩)
  · by_contra hclosed
    obtain ⟨r'', hr'', hmoves⟩ := h.becomes i (.invitation r'.id) r hr
    obtain ⟨hin, hid⟩ := Database.mem_invitationsOf.mp hr''
    obtain rfl := eq_of_id (h.ids.latest i) hin hmem hid
    exact (hmoves.closed hclosed).1 (of_decide_eq_true hpending)

variable [DecidableEq ι]

/-- **Every admitted step keeps it.** -/
theorem Admissions.after (h : Admissions s g) (hx : s.Exclusive) (hen : s.Enabled i ℓ)
    (p : Prog AuthSig α) (hvouched : (admitting A).Vouched (g i) ℓ) :
    Admissions (s.after i ℓ p) (Function.update g i ((admitting A).next (g i) ℓ)) := by
  refine
    { guarded := h.guarded.after hen p
      ids := h.ids.after hx hen p
      becomes := fun j l => h.guarded.related hx become_refl h.becomes hen ?_ p j l
      held := fun j id hj => ?_ }
  · rintro stmt seen eff rfl hseen hden l
    exact h.wrote hseen hden hvouched l
  by_cases hji : j = i
  · subst hji
    rw [Function.update_self] at hj
    rw [Sys.after_conn_self]
    cases ℓ with
    | wrote stmt seen eff =>
      obtain ⟨hseen, hden, -⟩ := hen
      obtain rfl : seen = s.latest j := hseen
      by_cases hlock : ∃ tokenHash, stmt = .org (.lockInvitation tokenHash)
      · obtain ⟨tokenHash, rfl⟩ := hlock
        obtain ⟨hlocks, hpending⟩ := h.locked hj
        exact ⟨List.mem_append_left _ (hlocks hden), hpending⟩
      · have hsame : g j = some id := (holds_of_quiet fun t ht => hlock ⟨t, ht⟩).symm.trans hj
        obtain ⟨hheld, hpending⟩ := h.held j id hsame
        exact ⟨List.mem_append_right _ hheld, hpending⟩
    | committed => cases hj
    | rolledBack => cases hj
    | commitFailed x => cases hj
    | commitLost x => cases hj
    | crashed x => cases hj
    | _ => exact h.held j id hj
  · rw [Function.update_of_ne hji] at hj
    obtain ⟨hheld, hpending⟩ := h.held j id hj
    rw [Sys.after_conn_of_ne _ _ _ hji]
    refine ⟨hheld, fun r hr => hpending r ?_⟩
    have hrow := h.guarded.db_after hx hji hheld (i := i) (ℓ := ℓ) p
    have hrow : (s.after i ℓ p).db.invitationsOf id = s.db.invitationsOf id := hrow
    rwa [hrow] at hr

/-- What is committed before a step becomes what is committed after it. -/
theorem Admissions.db_after (h : Admissions s g) (p : Prog AuthSig α) :
    Become s.db.organizationInvitations (s.after i ℓ p).db.organizationInvitations := by
  refine become_of_rows fun id => ?_
  rcases Rows.row_db_after (R := invitationRows) (s := s) (i := i) (ℓ := ℓ) p (.invitation id) with
    ⟨-, hrow⟩ | ⟨-, hdb⟩
  · have hrow : (s.after i ℓ p).db.invitationsOf id = (s.latest i).invitationsOf id := hrow
    rw [hrow]
    exact h.becomes i (.invitation id)
  · rw [hdb]
    exact become_refl _

theorem admissions_keeps (ok : Sys AuthSig ι α → ι → Label AuthSig → Prop) :
    (admitting A).Keeps ok (fun _ _ _ => True) Admissions where
  sees _ _ _ _ := trivial
  after p hx h hen _ _ hvouched := h.after hx hen p hvouched

theorem Keyings.after (h : Keyings A s) (hguarded : invitationRows.Guarded s) (hx : s.Exclusive)
    (hen : s.Enabled i ℓ) (p : Prog AuthSig α) {q : Option ℕ}
    (hvouched : (admitting A).Vouched q ℓ) : Keyings A (s.after i ℓ p) := by
  obtain ⟨hbase, hlatest⟩ := hguarded.forall_rows (P := fun _ rows => ∀ r ∈ rows, r.Keyed A) hx
    h.base h.latest hen (by
      rintro stmt seen eff rfl l
      obtain ⟨rfl, hden, -⟩ := hen
      exact keyed_wrote hden hvouched (h.latest i) l) p
  exact ⟨hbase, hlatest⟩

/-! ## Closed invitations -/

/-- Along a run. -/
theorem inviting_run {db : Database} {now next : ℕ} {calls : ι → InvitationCall}
    {ok : Sys AuthSig ι Unit → ι → Label AuthSig → Prop} {s : Sys AuthSig ι Unit}
    (hids : invitationIds.Unique db) (hrun : Sys.Run F ok
      (Sys.start db now next fun i => ((calls i).op A).close) s) :
    s.Exclusive ∧ ∃ g, Admissions s g ∧
      ∀ i, (s.proc i).Follows (admitting A) F (fun _ _ => True) (g i) :=
  Follows.run (g := fun _ => none) (admissions_keeps ok) (fun _ _ _ _ => trivial)
    (Sys.exclusive_start db now next _) (admissions_start hids now next _)
    (fun i => (calls i).follows none) hrun

theorem unique_ids {db : Database} (h : db.InvitationIdsUnique) : invitationIds.Unique db := by
  show ((db.organizationInvitations.map fun i => (i.id, ())).map Prod.fst).Nodup
  rw [List.map_map]
  exact h

/-- **A closed invitation stays closed.** Between any two states of a run, whatever happens in
it, an invitation keeps its terms, and one that is not pending is not pending later, is not
accepted later if it was not, and keeps the user who accepted it. -/
theorem closed_invitation_stays {db : Database} {now next : ℕ} {calls : ι → InvitationCall}
    {ok : Sys AuthSig ι Unit → ι → Label AuthSig → Prop} {s₁ s₂ : Sys AuthSig ι Unit}
    (hids : db.InvitationIdsUnique) (hrun₁ : Sys.Run F ok
      (Sys.start db now next fun i => ((calls i).op A).close) s₁)
    (hrun₂ : Sys.Run F ok s₁ s₂) :
    ∀ i ∈ s₁.db.organizationInvitations, ∃ i' ∈ s₂.db.organizationInvitations,
      i'.terms = i.terms ∧ (i.status ≠ .pending → i'.status ≠ .pending ∧
        i'.acceptedUserId = i.acceptedUserId ∧ (i'.status = .accepted → i.status = .accepted)) := by
  obtain ⟨hx, g, hadmissions, hfol⟩ := inviting_run (unique_ids hids) hrun₁
  obtain ⟨-, g', -, hbecome, -⟩ := Follows.run_with
    (H := fun (s : Sys AuthSig ι Unit) _ =>
      Become s₁.db.organizationInvitations s.db.organizationInvitations)
    (admissions_keeps ok) (fun _ _ _ _ => trivial)
    (fun _ h hH _ _ _ => hH.trans (h.db_after _)) hx hadmissions (become_refl _) hfol hrun₂
  intro i hi
  obtain ⟨i', hi', hmoves⟩ := hbecome i hi
  exact ⟨i', hi', hmoves.terms, hmoves.closed⟩

/-- Invitations are enabled. -/
def mailing : AppEnv :=
  { AppEnv.symbolic with orgInvitationsEnabled := true, orgInvitationAcceptUrl := "https://lab" }

/-- An organization that user 1 manages, and its invitation of `b`, of the token `7`. -/
def managed : Database :=
  { Database.empty with
    users := [{ id := 1, status := .active }]
    organizations := [{ id := 1, slug := "lab", status := .active }]
    roles := [{ id := 1, name := "lead", organizationId := some 1, permissions := [manageOrg] },
      { id := 2, name := orgMemberRole, organizationId := none, permissions := [] }]
    memberships := [{ id := 1, organizationId := 1, userId := 1, status := .active, roleIds := [1] }]
    organizationInvitations :=
      [{ id := 3, organizationId := 1, invitedByUserId := 1, invitedEmail := "b", roleNames := []
         tokenHash := AppEnv.symbolic.invitationHash "7"
         activeKey := some (AppEnv.symbolic.activeKey 1 "b"), status := .pending
         createdAt := 0, expiresAt := 9 }] }

/-- The token is used twice, with two passwords. -/
def acceptTwice : Bool → InvitationCall
  | true => .acceptNewUser "7" "first" none
  | false => .acceptNewUser "7" "second" none

def acceptingTwice : Sys AuthSig Bool Unit :=
  Sys.start managed 0 8 fun i => ((acceptTwice i).op mailing).close

/-- The second call starts before the first commits, and changes nothing afterwards. -/
theorem closed_invitation_stays_raced :
    ∃ s₁ s₂, Sys.Run True (fun _ _ _ => True) acceptingTwice s₁ ∧
      Sys.Run True (fun _ _ _ => True) s₁ s₂ ∧ (s₂.proc false).reply?.isSome ∧
      ∃ i' ∈ s₂.db.organizationInvitations, i'.status ≠ .pending ∧ i'.acceptedUserId = some 9 := by
  have hplays : (acceptingTwice.follow (fun _ _ _ => True) (false :: List.replicate 24 true)).any
      (fun s₁ => (s₁.follow (fun _ _ _ => True) (true :: List.replicate 3 false)).any fun s₂ =>
        decide (∃ i ∈ s₁.db.organizationInvitations, i.status = .accepted ∧
          i.acceptedUserId = some 9) && (s₂.proc false).reply?.isSome) = true := by decide
  obtain ⟨s₁, hs₁, hplays⟩ := (Option.any_eq_true _ _).mp hplays
  obtain ⟨s₂, hs₂, hends⟩ := (Option.any_eq_true _ _).mp hplays
  obtain ⟨haccepted, hreply⟩ := (Bool.and_eq_true _ _).mp hends
  obtain ⟨i, hi, hstatus, huser⟩ := of_decide_eq_true haccepted
  have hrun₁ : Sys.Run True (fun _ _ _ => True) acceptingTwice s₁ := (Sys.run_of_follow _ hs₁).mayFail
  have hrun₂ : Sys.Run True (fun _ _ _ => True) s₁ s₂ := (Sys.run_of_follow _ hs₂).mayFail
  obtain ⟨i', hi', -, hclosed⟩ := closed_invitation_stays (by decide) hrun₁ hrun₂ i hi
  obtain ⟨hnot, hkept, -⟩ := hclosed (by rw [hstatus]; decide)
  exact ⟨s₁, s₂, hrun₁, hrun₂, hreply, i', hi', hnot, hkept.trans huser⟩

/-! ## Pending invitations -/

/-- Invitations with one key are at most one. -/
theorem length_le_one_of_key {db : Database} (h : activeKeys.Unique db) (k : ℕ)
    {p : OrganizationInvitation → Bool}
    (hp : ∀ i ∈ db.organizationInvitations, p i → i.activeKey = some k) :
    (db.organizationInvitations.filter p).length ≤ 1 := by
  have hkeys : (db.organizationInvitations.filterMap fun i =>
      i.activeKey.map fun k => (k, i.id)).Pairwise fun e e' => e.1 ≠ e'.1 := List.pairwise_map.mp h
  have hpairs := (List.pairwise_filterMap.mp hkeys).sublist (List.filter_sublist (p := p))
  rcases hl : db.organizationInvitations.filter p with _ | ⟨i, _ | ⟨j, rest⟩⟩
  · exact Nat.zero_le 1
  · exact Nat.le_refl 1
  · rw [hl] at hpairs
    have hkey : ∀ r ∈ i :: j :: rest, r.activeKey.map (fun k => (k, r.id)) = some (k, r.id) := by
      intro r hr
      obtain ⟨hmem, hpr⟩ := List.mem_filter.mp (hl ▸ hr)
      rw [hp r hmem hpr]
      rfl
    have hne := (List.pairwise_cons.mp hpairs).1 j (List.mem_cons_self ..) _
      (hkey i (List.mem_cons_self ..)) _ (hkey j (List.mem_cons_of_mem _ (List.mem_cons_self ..)))
    exact absurd rfl hne

/-- **One pending invitation.** In every state of every run an organization has at most one
pending invitation of an address. -/
theorem one_pending_invitation {db : Database} {now next : ℕ} {calls : ι → InvitationCall}
    {ok : Sys AuthSig ι Unit → ι → Label AuthSig → Prop} {s : Sys AuthSig ι Unit}
    (hids : db.InvitationIdsUnique) (hkeys : activeKeys.Unique db)
    (hkeyed : ∀ i ∈ db.organizationInvitations, i.Keyed A)
    (hrun : Sys.Run F ok
      (Sys.start db now next fun i => ((calls i).op A).close) s) (organizationId : ℕ)
    (email : String) :
    (s.db.organizationInvitations.filter fun i => i.status = .pending ∧
      i.organizationId = organizationId ∧ i.invitedEmail = email).length ≤ 1 := by
  obtain ⟨-, g, -, hkeyings, -⟩ := Follows.run_with
    (H := fun (s : Sys AuthSig ι Unit) _ => Keyings A s) (g := fun _ => none) (admissions_keeps ok) (fun _ _ _ _ => trivial)
    (fun hx h hH _ hvouched hstep => by
      obtain ⟨p, -, hen, heq⟩ := hstep
      exact hH.after h.guarded hx hen _ hvouched)
    (Sys.exclusive_start db now next _) (admissions_start (unique_ids hids) now next _)
    (keyings_start hkeyed now next _) (fun i => (calls i).follows none) hrun
  have hx := Sys.exclusive_start db now next fun i => ((calls i).op A).close
  obtain ⟨hindex, -⟩ := (activeKeys.holds_start hkeys now next _).run hx hrun
  refine length_le_one_of_key hindex.base (A.activeKey organizationId email) fun i hi hpi => ?_
  obtain ⟨hpending, rfl, rfl⟩ := of_decide_eq_true hpi
  exact hkeyings.base (.invitation i.id) i (Database.mem_invitationsOf.mpr ⟨hi, rfl⟩) hpending

/-- An address is invited twice. -/
def inviteTwice (_ : Bool) : InvitationCall := .create manager 1 (fun _ => "") "a@b" [] true

def invitingTwice : Sys AuthSig Bool Unit :=
  Sys.start managed 0 8 fun i => ((inviteTwice i).op mailing).close

/-- Both calls have found no pending invitation when the first of them adds one. -/
theorem one_pending_invitation_raced :
    ∃ s, Sys.Run True (fun _ _ _ => True) invitingTwice s ∧ (∀ i, (s.proc i).reply?.isSome) ∧
      (s.db.organizationInvitations.filter fun i => i.status = .pending ∧
        i.organizationId = 1 ∧ i.invitedEmail = "a@b").length ≤ 1 := by
  have hplays : (invitingTwice.follow (fun _ _ _ => True) (List.replicate 8 true ++
      List.replicate 8 false ++ List.replicate 6 true ++ List.replicate 4 false)).any
      (fun s => decide (∀ i, (s.proc i).reply?.isSome)) = true := by decide
  obtain ⟨s, hs, hreply⟩ := (Option.any_eq_true _ _).mp hplays
  have hrun : Sys.Run True (fun _ _ _ => True) invitingTwice s := (Sys.run_of_follow _ hs).mayFail
  have hkeys : activeKeys.Unique managed := by
    show (managed.activeKeys.map Prod.fst).Nodup
    decide
  exact ⟨s, hrun, of_decide_eq_true hreply,
    one_pending_invitation (by decide) hkeys (by decide) hrun 1 "a@b"⟩

end OmniAuth
