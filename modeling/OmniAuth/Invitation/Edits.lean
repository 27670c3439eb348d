import OmniAuth.Invitation.Residue
import OmniAuth.Txn.Rows
import OmniAuth.Txn.Index

/-!
# What a statement does to the invitations

Each statement edits the rows one by one, under the locks of their ids, and adds at most one.
The key of a pending invitation is emptied by every edit that closes it, and no edit fills it
again; so the keys are a unique index that lets go, and the ids one that does not.
-/

namespace OmniAuth

open Txn

namespace OrganizationInvitation

/-- What may become of an invitation: its terms stay, and once it is not pending it never is
again, is not accepted if it was not, and keeps the user who accepted it. -/
structure Moves (i i' : OrganizationInvitation) : Prop where
  terms : i'.terms = i.terms
  closed : i.status ≠ .pending → i'.status ≠ .pending ∧ i'.acceptedUserId = i.acceptedUserId ∧
    (i'.status = .accepted → i.status = .accepted)

variable {a b c i i' : OrganizationInvitation}

@[refl] theorem Moves.refl (i : OrganizationInvitation) : i.Moves i := ⟨rfl, fun h => ⟨h, rfl, fun ha => ha⟩⟩

theorem Moves.trans (h : a.Moves b) (h' : b.Moves c) : a.Moves c where
  terms := h'.terms.trans h.terms
  closed hclosed := by
    obtain ⟨hb, huser, haccepted⟩ := h.closed hclosed
    obtain ⟨hc, huser', haccepted'⟩ := h'.closed hb
    exact ⟨hc, huser'.trans huser, fun hstatus => haccepted (haccepted' hstatus)⟩

theorem id_of_terms (h : i'.terms = i.terms) : i'.id = i.id := by
  have hid := congrArg OrganizationInvitation.id h
  exact hid

/-- It is closed without being accepted. -/
theorem Moves.of_closed (hterms : i'.terms = i.terms)
    (hstatus : i'.status ≠ .pending ∧ i'.status ≠ .accepted)
    (huser : i'.acceptedUserId = i.acceptedUserId) : i.Moves i' :=
  ⟨hterms, fun _ => ⟨hstatus.1, huser, fun h => absurd h hstatus.2⟩⟩

/-- Its status stays. -/
theorem Moves.of_status (hterms : i'.terms = i.terms) (hstatus : i'.status = i.status)
    (huser : i'.acceptedUserId = i.acceptedUserId) : i.Moves i' :=
  ⟨hterms, fun h => ⟨hstatus ▸ h, huser, fun ha => hstatus ▸ ha⟩⟩

/-- The invitation holds the key of its organization and address while it is pending. -/
def Keyed (A : AppEnv) (i : OrganizationInvitation) : Prop :=
  i.status = .pending → i.activeKey = some (A.activeKey i.organizationId i.invitedEmail)

end OrganizationInvitation

/-! ## Edits -/

/-- An effect on the invitations: what each row becomes, the ids of the rows that keep their
key, and the rows that are added. -/
structure EditsInvitations (stmt : Stmt) (seen : Database) (eff : Effect Database RowKey)
    (f : OrganizationInvitation → OrganizationInvitation) (kept : ℕ → Bool)
    (new : List OrganizationInvitation) : Prop where
  rows : ∀ db, (eff.delta db).organizationInvitations = db.organizationInvitations.map f ++ new
  terms : ∀ i, (f i).terms = i.terms
  locked : ∀ i, .invitation i.id ∉ eff.locks → f i = i
  key : ∀ i, (f i).activeKey = if kept i.id then i.activeKey else none
  pending : ∀ i, (f i).status = .pending → i.status = .pending ∧ kept i.id
  moves : ∀ i : OrganizationInvitation, i.status = .pending ∨ (∀ t userId, stmt ≠ .org (.acceptInvitation i.id t userId)) →
    i.Moves (f i)
  added : ∀ i ∈ new, stmt = Stmt.org (.insertInvitation i)
  claimed : ∀ i ∈ new, .invitation i.id ∈ eff.locks ∧
    ∀ k, i.activeKey = some k → .activeKey k ∈ eff.locks
  free : ∀ i ∈ new, ∀ j ∈ seen.organizationInvitations, j.id ≠ i.id ∧
    ∀ k, i.activeKey = some k → j.activeKey ≠ some k
  one : new.length ≤ 1

variable {stmt : Stmt} {seen : Database} {eff : Effect Database RowKey}
  {f : OrganizationInvitation → OrganizationInvitation} {kept : ℕ → Bool}
  {new : List OrganizationInvitation}

theorem editsInvitations_of_eq
    (h : ∀ db : Database, (eff.delta db).organizationInvitations = db.organizationInvitations) :
    EditsInvitations stmt seen eff id (fun _ => true) [] where
  rows db := by rw [h, List.map_id, List.append_nil]
  terms _ := rfl
  locked _ _ := rfl
  key _ := (if_pos rfl).symm
  pending _ hi := ⟨hi, rfl⟩
  moves i _ := .refl i
  added i hi := by cases hi
  claimed i hi := by cases hi
  free i hi := by cases hi
  one := Nat.zero_le 1

/-- An edit of the invitation with an id, which empties its key or does not. -/
theorem editsInvitations_update {id : ℕ} {edit : OrganizationInvitation → OrganizationInvitation}
    (keeps : Bool) (hterms : ∀ i, (edit i).terms = i.terms)
    (hkey : ∀ i, (edit i).activeKey = if keeps then i.activeKey else none)
    (hpending : ∀ i, (edit i).status = .pending → i.status = .pending ∧ keeps)
    (hmoves : ∀ i : OrganizationInvitation, i.status = .pending ∨
      (∀ t userId, stmt ≠ .org (.acceptInvitation id t userId)) → i.Moves (edit i)) :
    EditsInvitations stmt seen ⟨[.invitation id], Database.updateInvitation id edit⟩
      (fun i => if i.id = id then edit i else i) (fun n => decide (n ≠ id) || keeps) [] where
  rows db := (List.append_nil _).symm
  terms i := by
    split
    · exact hterms i
    · rfl
  locked i hi := if_neg fun hid => hi (by rw [hid]; exact List.mem_singleton.mpr rfl)
  key i := by
    by_cases hid : i.id = id
    · simp [hid, hkey]
    · simp [hid]
  pending i hi := by
    by_cases hid : i.id = id
    · rw [if_pos hid] at hi
      simpa [hid] using hpending i hi
    · rw [if_neg hid] at hi
      exact ⟨hi, by simp [hid]⟩
  moves i hi := by
    split
    · rename_i hid
      subst hid
      exact hmoves i hi
    · exact .refl i
  added i hi := by cases hi
  claimed i hi := by cases hi
  free i hi := by cases hi
  one := Nat.zero_le 1

theorem editsInvitations_insert (row : OrganizationInvitation)
    (hfree : ¬ ∃ i ∈ seen.organizationInvitations, i.id = row.id ∨ i.tokenHash = row.tokenHash ∨
      (i.activeKey.isSome ∧ i.activeKey = row.activeKey)) :
    EditsInvitations (.org (.insertInvitation row)) seen
      ⟨.invitation row.id :: .invitationHash row.tokenHash :: row.activeKey.toList.map .activeKey,
        fun db => { db with organizationInvitations := db.organizationInvitations ++ [row] }⟩
      id (fun _ => true) [row] where
  rows db := by rw [List.map_id]
  terms _ := rfl
  locked _ _ := rfl
  key _ := (if_pos rfl).symm
  pending _ hi := ⟨hi, rfl⟩
  moves i _ := .refl i
  added i hi := by rw [List.mem_singleton.mp hi]
  claimed i hi := by
    obtain rfl := List.mem_singleton.mp hi
    exact ⟨List.mem_cons_self .., fun k hk => by simp [hk]⟩
  free i hi j hj := by
    obtain rfl := List.mem_singleton.mp hi
    refine ⟨fun hid => hfree ⟨j, hj, .inl hid⟩, fun k hk hkey => hfree ⟨j, hj, .inr (.inr ?_)⟩⟩
    rw [hkey, hk]
    exact ⟨rfl, rfl⟩
  one := Nat.le_refl 1

/-- **What a statement does to the invitations.** -/
theorem denote_invitations (h : denote stmt seen = .ok eff) :
    ∃ f kept new, EditsInvitations stmt seen eff f kept new := by
  cases stmt with
  | credential stmt =>
    exact ⟨_, _, _, editsInvitations_of_eq fun db => CredentialStmt.keeps _ (fun _ => rfl) h db⟩
  | account stmt =>
    exact ⟨_, _, _, editsInvitations_of_eq fun db => AccountStmt.keeps _ (fun _ => rfl) h db⟩
  | mfa stmt => exact ⟨_, _, _, editsInvitations_of_eq (mfa_keeps_invitations h)⟩
  | org stmt =>
    cases stmt with
    | insertInvitation row =>
      simp only [denote, OrgStmt.denote] at h
      split at h
      · cases h
      rename_i hfree
      obtain rfl := Except.ok.inj h
      exact ⟨_, _, _, editsInvitations_insert row hfree⟩
    | expireInvitation id =>
      obtain rfl := Except.ok.inj h
      refine ⟨_, _, _, editsInvitations_update false (fun _ => rfl) (fun _ => rfl)
        (by rintro i ⟨⟩) fun i _ => ?_⟩
      exact .of_closed rfl ⟨by rintro ⟨⟩, by rintro ⟨⟩⟩ rfl
    | revokeInvitation id t userId =>
      obtain rfl := Except.ok.inj h
      refine ⟨_, _, _, editsInvitations_update false (fun _ => rfl) (fun _ => rfl)
        (by rintro i ⟨⟩) fun i _ => ?_⟩
      exact .of_closed rfl ⟨by rintro ⟨⟩, by rintro ⟨⟩⟩ rfl
    | acceptInvitation id t userId =>
      obtain rfl := Except.ok.inj h
      refine ⟨_, _, _, editsInvitations_update false (fun _ => rfl) (fun _ => rfl)
        (by rintro i ⟨⟩) fun i hi => ⟨rfl, fun hclosed => ?_⟩⟩
      rcases hi with hi | hi
      · exact absurd hi hclosed
      · exact absurd rfl (hi t userId)
    | failInvitation id attempts revokedAt =>
      obtain rfl := Except.ok.inj h
      cases revokedAt with
      | none =>
        exact ⟨_, _, _, editsInvitations_update true (fun _ => rfl) (fun _ => rfl)
          (fun _ hi => ⟨hi, rfl⟩) fun i _ => .of_status rfl rfl rfl⟩
      | some t =>
        exact ⟨_, _, _, editsInvitations_update false (fun _ => rfl) (fun _ => rfl)
          (by rintro i ⟨⟩) fun i _ =>
            .of_closed rfl ⟨by rintro ⟨⟩, by rintro ⟨⟩⟩ rfl⟩
    | setInvitationSecret id secret t =>
      obtain rfl := Except.ok.inj h
      exact ⟨_, _, _, editsInvitations_update true (fun _ => rfl) (fun _ => rfl)
        (fun _ hi => ⟨hi, rfl⟩) fun i _ => .of_status rfl rfl rfl⟩
    | insertIdp saml row =>
      simp only [denote, OrgStmt.denote] at h
      split at h
      · cases h
      obtain rfl := Except.ok.inj h
      exact ⟨_, _, _, editsInvitations_of_eq fun _ => by cases saml <;> rfl⟩
    | updateIdp saml id columns =>
      obtain rfl := Except.ok.inj h
      exact ⟨_, _, _, editsInvitations_of_eq fun _ => by cases saml <;> rfl⟩
    | _ =>
      simp only [denote, OrgStmt.denote] at h
      (try split at h) <;> cases h
      all_goals exact ⟨_, _, _, editsInvitations_of_eq fun _ => rfl⟩
  | _ =>
    simp only [denote] at h
    (try split at h) <;> cases h
    all_goals exact ⟨_, _, _, editsInvitations_of_eq fun _ => rfl⟩

/-! ## Rows -/

/-- The invitations under an id, of which there should be one. -/
def Database.invitationsOf (db : Database) (id : ℕ) : List OrganizationInvitation :=
  db.organizationInvitations.filter (·.id = id)

theorem Database.mem_invitationsOf {db : Database} {id : ℕ} {i : OrganizationInvitation} :
    i ∈ db.invitationsOf id ↔ i ∈ db.organizationInvitations ∧ i.id = id := by
  simp [Database.invitationsOf]

theorem EditsInvitations.invitationsOf (h : EditsInvitations stmt seen eff f kept new)
    (db : Database) (id : ℕ) :
    (eff.delta db).invitationsOf id = (db.invitationsOf id).map f ++ new.filter (·.id = id) := by
  have hid : ((fun i : OrganizationInvitation => decide (i.id = id)) ∘ f) =
      fun i => decide (i.id = id) := by
    funext i
    simp only [Function.comp_apply, OrganizationInvitation.id_of_terms (h.terms i)]
  unfold Database.invitationsOf
  rw [h.rows, List.filter_append, List.filter_map, hid]

/-- **Invitations as rows.** -/
def invitationRows : Rows AuthSig (List OrganizationInvitation) where
  row db
    | .invitation id => db.invitationsOf id
    | _ => []
  frame := by
    intro stmt seen eff h l hl db
    cases l with
    | invitation id =>
      obtain ⟨f, kept, new, hedit⟩ := denote_invitations h
      show (eff.delta db).invitationsOf id = db.invitationsOf id
      rw [hedit.invitationsOf]
      have hnew : new.filter (·.id = id) = [] := by
        refine List.filter_eq_nil_iff.mpr fun i hmem hid => hl ?_
        have hlock := (hedit.claimed i hmem).1
        rwa [of_decide_eq_true hid] at hlock
      rw [hnew, List.append_nil]
      calc (db.invitationsOf id).map f = (db.invitationsOf id).map (fun i => i) :=
            List.map_congr_left fun i hmem =>
              hedit.locked i (by rwa [(Database.mem_invitationsOf.mp hmem).2])
        _ = db.invitationsOf id := List.map_id' _
    | _ => rfl
  congr := by
    intro stmt seen eff h l db db' hrow
    cases l with
    | invitation id =>
      obtain ⟨f, kept, new, hedit⟩ := denote_invitations h
      have hrow : db.invitationsOf id = db'.invitationsOf id := hrow
      show (eff.delta db).invitationsOf id = (eff.delta db').invitationsOf id
      rw [hedit.invitationsOf, hedit.invitationsOf, hrow]
    | _ => rfl

/-! ## Indexes -/

theorem nodup_of_length_le_one {α : Type} {l : List α} (h : l.length ≤ 1) : l.Nodup := by
  cases l with
  | nil => exact List.nodup_nil
  | cons a l =>
    obtain rfl := List.eq_nil_of_length_eq_zero (Nat.le_zero.mp (Nat.le_of_succ_le_succ h))
    exact List.nodup_singleton a

/-- The keys that are taken, and the invitations that hold them. -/
def Database.activeKeys (db : Database) : List (ℕ × ℕ) :=
  db.organizationInvitations.filterMap fun i => i.activeKey.map fun k => (k, i.id)

theorem EditsInvitations.activeKeys (h : EditsInvitations stmt seen eff f kept new)
    (db : Database) :
    (eff.delta db).activeKeys = db.activeKeys.filter (fun e => kept e.2) ++
      new.filterMap fun i => i.activeKey.map fun k => (k, i.id) := by
  unfold Database.activeKeys
  rw [h.rows, List.filterMap_append, List.filterMap_map, List.filter_filterMap]
  congr 1
  refine List.filterMap_congr fun i _ => ?_
  simp only [Function.comp_apply, h.key, OrganizationInvitation.id_of_terms (h.terms i)]
  cases hk : kept i.id <;> cases i.activeKey <;> simp [hk, Option.filter]

/-- **The keys of the pending**, a unique index that lets go. -/
def activeKeys : Index AuthSig ℕ ℕ where
  entries := Database.activeKeys
  lock := .activeKey
  stmt := by
    intro stmt seen eff h
    obtain ⟨f, kept, new, hedit⟩ := denote_invitations h
    refine ⟨kept, _, hedit.activeKeys, fun e he => ?_, ?_⟩
    · obtain ⟨i, hi, hkey⟩ := List.mem_filterMap.mp he
      obtain ⟨k, hk, rfl⟩ := Option.map_eq_some_iff.mp hkey
      refine ⟨(hedit.claimed i hi).2 k hk, fun hmem => ?_⟩
      obtain ⟨e', he', hfst⟩ := List.mem_map.mp hmem
      obtain ⟨j, hj, hkey'⟩ := List.mem_filterMap.mp he'
      obtain ⟨k', hk', rfl⟩ := Option.map_eq_some_iff.mp hkey'
      obtain rfl : k' = k := hfst
      exact (hedit.free i hi j hj).2 k' hk hk'
    · refine nodup_of_length_le_one ?_
      rw [List.length_map]
      exact (List.length_filterMap_le _ _).trans hedit.one

/-- **The ids**, a unique index that never lets go. -/
def invitationIds : Index AuthSig ℕ Unit where
  entries db := db.organizationInvitations.map fun i => (i.id, ())
  lock := .invitation
  stmt := by
    intro stmt seen eff h
    obtain ⟨f, kept, new, hedit⟩ := denote_invitations h
    refine ⟨fun _ => true, new.map fun i => (i.id, ()), fun db => ?_, fun e he => ?_, ?_⟩
    · rw [hedit.rows, List.map_append, List.map_map, List.filter_true]
      congr 1
      refine List.map_congr_left fun i _ => ?_
      simp only [Function.comp_apply, OrganizationInvitation.id_of_terms (hedit.terms i)]
    · obtain ⟨i, hi, rfl⟩ := List.mem_map.mp he
      refine ⟨(hedit.claimed i hi).1, fun hmem => ?_⟩
      rw [List.map_map] at hmem
      obtain ⟨j, hj, hid⟩ := List.mem_map.mp hmem
      exact (hedit.free i hi j hj).1 hid
    · refine nodup_of_length_le_one ?_
      rw [List.length_map, List.length_map]
      exact hedit.one

end OmniAuth
