import OmniAuth.License.Steps
import OmniAuth.Login.Entries
import OmniAuth.Txn.Rows

/-!
# Who and what a licence is bound to

`POST /license/validate` and `POST /license/pull-token` of `app/api/routes_license.py`, any
number of them at once. Each reads the licence, decides, and writes what it decided in a
transaction of its own; no read of it locks the row.
-/

namespace OmniAuth

open Txn Prog

/-! ## The routes -/

structure PullTokenRequest where
  key : String
  machineId : Option String := none

variable (A : AppEnv)

/-- `pull_token` -/
def pullToken (ghcrPullToken : String) (r : PullTokenRequest) : Op String := do
  let answer ← validateAndConsume A r.key none "desktop"
  match answer with
  | .error reason => raise (.http (if reason = "invalid_key" then 404 else 403) reason)
  | .ok license => do
      match r.machineId.filter (· ≠ "") with
      | some machineId => bindMachineId license machineId
      | none => pure ()
      return ghcrPullToken

/-- A request of either kind. -/
inductive LicenseCall
  | validate (r : LicenseRequest)
  | pullToken (r : PullTokenRequest)

/-- And its answer. -/
inductive LicenseAnswer
  | validated (reply : RouteReply A)
  | pulled (ghcrToken : String)

def LicenseCall.op (ghcrPullToken : String) : LicenseCall → Op (LicenseAnswer A)
  | .validate r => do
      let reply ← licenseValidate A r
      return .validated reply
  | .pullToken r => do
      let ghcrToken ← OmniAuth.pullToken A ghcrPullToken r
      return .pulled ghcrToken

/-! ## The rows -/

/-- The licences under an id, of which there should be one. -/
def Database.licensesOf (db : Database) (id : ℕ) : List LicenseKey :=
  db.licenseKeys.filter (·.id = id)

theorem Database.mem_licensesOf {db : Database} {id : ℕ} {l : LicenseKey} :
    l ∈ db.licensesOf id ↔ l ∈ db.licenseKeys ∧ l.id = id := by
  simp [Database.licensesOf]

/-- The id of the account with an address. -/
def Database.ownerOf (db : Database) (email : String) : Option ℕ :=
  (db.userByEmail email).map (·.id)

/-- An effect on the licences: each row by itself, and rows at the end. It changes only what
it locks. -/
structure EditsLicenses (eff : Effect Database RowKey) (f : LicenseKey → LicenseKey)
    (new : List LicenseKey) : Prop where
  rows : ∀ db, (eff.delta db).licenseKeys = db.licenseKeys.map f ++ new
  id : ∀ l, (f l).id = l.id
  locked : ∀ l, .licenseKey l.id ∉ eff.locks → f l = l
  claimed : ∀ l ∈ new, .licenseKey l.id ∈ eff.locks

theorem editsLicenses_of_eq {eff : Effect Database RowKey}
    (h : ∀ db : Database, (eff.delta db).licenseKeys = db.licenseKeys) :
    EditsLicenses eff (fun l => l) [] where
  rows db := by rw [h, List.map_id', List.append_nil]
  id _ := rfl
  locked _ _ := rfl
  claimed _ hl := nomatch hl

theorem editsLicenses_update (id : ℕ) {f : LicenseKey → LicenseKey} (hf : ∀ l, (f l).id = l.id) :
    EditsLicenses ⟨[.licenseKey id], Database.updateLicense id f⟩
      (fun l => if l.id = id then f l else l) [] where
  rows db := (List.append_nil _).symm
  id l := by
    split
    · exact hf l
    · rfl
  locked l hl := if_neg fun hid => hl (by rw [hid]; exact List.mem_singleton.mpr rfl)
  claimed _ hl := nomatch hl

theorem EditsLicenses.licensesOf {eff : Effect Database RowKey} {f : LicenseKey → LicenseKey}
    {new : List LicenseKey} (h : EditsLicenses eff f new) (db : Database) (id : ℕ) :
    (eff.delta db).licensesOf id = (db.licensesOf id).map f ++ new.filter (·.id = id) := by
  have hid : ((fun l : LicenseKey => decide (l.id = id)) ∘ f) = fun l => decide (l.id = id) := by
    funext l
    simp only [Function.comp_apply, h.id l]
  unfold Database.licensesOf
  rw [h.rows, List.filter_append, List.filter_map, hid]

/-- **What a statement does to the licences.** -/
theorem denote_licenses {stmt : Stmt} {seen : Database} {eff : Effect Database RowKey}
    (h : denote stmt seen = .ok eff) : ∃ f new, EditsLicenses eff f new := by
  by_cases hb : stmt.BesideLicenses
  · exact ⟨_, _, editsLicenses_of_eq fun db => congrArg Prod.fst (hb.issuance h db)⟩
  cases stmt with
  | account stmt =>
    cases stmt with
    | useLicense id owner t =>
      obtain rfl := Except.ok.inj h
      exact ⟨_, _, editsLicenses_update id fun _ => rfl⟩
    | bindMachine id machineId =>
      obtain rfl := Except.ok.inj h
      exact ⟨_, _, editsLicenses_update id fun _ => rfl⟩
    | revokeLicense id t reason =>
      obtain rfl := Except.ok.inj h
      exact ⟨_, _, editsLicenses_update id fun _ => rfl⟩
    | renewLicense id expiresAt t =>
      obtain rfl := Except.ok.inj h
      exact ⟨_, _, editsLicenses_update id fun _ => rfl⟩
    | setIssuanceLicense id licenseId =>
      obtain rfl := Except.ok.inj h
      exact ⟨_, _, editsLicenses_of_eq fun _ => rfl⟩
    | insertIssuanceRequest row =>
      simp only [denote, AccountStmt.denote] at h
      split at h
      · cases h
      obtain rfl := Except.ok.inj h
      exact ⟨_, _, editsLicenses_of_eq fun _ => rfl⟩
    | insertLicense row =>
      simp only [denote, AccountStmt.denote] at h
      split at h
      · cases h
      obtain rfl := Except.ok.inj h
      refine ⟨fun l => l, [row], fun db => ?_, fun _ => rfl, fun _ _ => rfl, fun l hl => ?_⟩
      · rw [List.map_id']
      · obtain rfl := List.mem_singleton.mp hl
        exact List.mem_cons_self ..
    | _ => exact absurd trivial hb
  | _ => exact absurd trivial hb

/-- **Licences as rows.** -/
def licenseRows : Rows AuthSig (List LicenseKey) where
  row db
    | .licenseKey id => db.licensesOf id
    | _ => []
  frame := by
    intro stmt seen eff h l hl db
    cases l with
    | licenseKey id =>
      obtain ⟨f, new, hedit⟩ := denote_licenses h
      show (eff.delta db).licensesOf id = db.licensesOf id
      rw [hedit.licensesOf]
      have hnew : new.filter (·.id = id) = [] := by
        refine List.filter_eq_nil_iff.mpr fun l hmem hid => hl ?_
        have hlock := hedit.claimed l hmem
        rwa [of_decide_eq_true hid] at hlock
      rw [hnew, List.append_nil]
      calc (db.licensesOf id).map f = (db.licensesOf id).map (fun l => l) :=
            List.map_congr_left fun l hmem =>
              hedit.locked l (by rwa [(Database.mem_licensesOf.mp hmem).2])
        _ = db.licensesOf id := List.map_id' _
    | _ => rfl
  congr := by
    intro stmt seen eff h l db db' hrow
    cases l with
    | licenseKey id =>
      obtain ⟨f, new, hedit⟩ := denote_licenses h
      have hrow : db.licensesOf id = db'.licensesOf id := hrow
      show (eff.delta db).licensesOf id = (eff.delta db').licensesOf id
      rw [hedit.licensesOf, hedit.licensesOf, hrow]
    | _ => rfl

/-! ## The owners -/

/-- An effect on the accounts, as far as addresses go: none is changed, and what is added
claims its own, which nobody had. -/
structure EditsOwners (seen : Database) (eff : Effect Database RowKey) (new : String → Option ℕ) :
    Prop where
  owners : ∀ db email, (eff.delta db).ownerOf email = (db.ownerOf email).or (new email)
  claimed : ∀ email, (new email).isSome → .email email ∈ eff.locks
  free : ∀ email, .email email ∈ eff.locks → seen.ownerOf email = none

theorem ownerOf_users {db db' : Database} {f : User → User}
    (hf : ∀ u, (f u).id = u.id ∧ (f u).email = u.email) {new : List User}
    (hdb : db'.users = db.users.map f ++ new) (email : String) :
    db'.ownerOf email =
      (db.ownerOf email).or ((new.find? (·.email = some email)).map (·.id)) := by
  have hemail : ((fun u : User => decide (u.email = some email)) ∘ f) =
      fun u => decide (u.email = some email) := by
    funext u
    simp only [Function.comp_apply, (hf u).2]
  unfold Database.ownerOf Database.userByEmail
  rw [hdb, List.find?_append, List.find?_map, hemail]
  cases db.users.find? (fun u => decide (u.email = some email)) with
  | none => rfl
  | some u => exact congrArg some (hf u).1

/-- No address changes hands, and none is claimed. -/
theorem editsOwners_of_map {seen : Database} {eff : Effect Database RowKey} {f : User → User}
    (hf : ∀ u, (f u).id = u.id ∧ (f u).email = u.email)
    (h : ∀ db : Database, (eff.delta db).users = db.users.map f)
    (hlocks : ∀ email, .email email ∉ eff.locks) : EditsOwners seen eff fun _ => none where
  owners db email := by
    have hdb : (eff.delta db).users = db.users.map f ++ [] := by rw [h, List.append_nil]
    exact ownerOf_users hf hdb email
  claimed _ hsome := nomatch hsome
  free email hlock := absurd hlock (hlocks email)

theorem editsOwners_of_eq {seen : Database} {eff : Effect Database RowKey}
    (h : ∀ db : Database, (eff.delta db).users = db.users)
    (hlocks : ∀ email, .email email ∉ eff.locks) : EditsOwners seen eff fun _ => none :=
  editsOwners_of_map (f := fun u => u) (fun _ => ⟨rfl, rfl⟩) (fun db => by rw [h, List.map_id'])
    hlocks

theorem editsOwners_update {seen : Database} {locks : List RowKey} {f : User → User} (id : ℕ)
    (hf : ∀ u, (f u).id = u.id ∧ (f u).email = u.email) (hlocks : ∀ email, .email email ∉ locks) :
    EditsOwners seen ⟨locks, Database.updateUser id f⟩ fun _ => none := by
  refine editsOwners_of_map (f := fun u => if u.id = id then f u else u) (fun u => ?_)
    (fun _ => rfl) hlocks
  split
  · exact hf u
  · exact ⟨rfl, rfl⟩

theorem editsOwners_insert {seen : Database} (row : User)
    (hfree : ¬ ∃ u ∈ seen.users, u.id = row.id ∨ (u.email.isSome ∧ u.email = row.email)) :
    EditsOwners seen ⟨.user row.id :: row.email.toList.map .email, fun db => { db with
      users := db.users ++ [row] }⟩ fun email => if row.email = some email then some row.id else none
    where
  owners db email := by
    rw [ownerOf_users (f := fun u => u) (fun _ => ⟨rfl, rfl⟩) (by rw [List.map_id']) email]
    by_cases hrow : row.email = some email <;> simp [hrow]
  claimed email hsome := by
    by_cases hrow : row.email = some email
    · simp [hrow]
    · simp [hrow] at hsome
  free email hlock := by
    have hrow : row.email = some email := by simpa using hlock
    have hnone : seen.userByEmail email = none := by
      refine List.find?_eq_none.mpr fun u hu hemail => hfree ⟨u, hu, .inr ?_⟩
      rw [of_decide_eq_true hemail]
      exact ⟨rfl, hrow.symm⟩
    unfold Database.ownerOf
    rw [hnone]
    rfl

/-- **What a statement does to the owners.** -/
theorem denote_owners {stmt : Stmt} {seen : Database} {eff : Effect Database RowKey}
    (h : denote stmt seen = .ok eff) : ∃ new, EditsOwners seen eff new := by
  cases stmt with
  | touchLogin userId t method =>
    obtain rfl := Except.ok.inj h
    exact ⟨_, editsOwners_update userId (fun _ => ⟨rfl, rfl⟩) (by simp)⟩
  | setStatus userId status t reason actor =>
    obtain rfl := Except.ok.inj h
    exact ⟨_, editsOwners_update userId (fun _ => ⟨rfl, rfl⟩) (by simp)⟩
  | credential stmt =>
    refine ⟨_, editsOwners_of_eq (fun db => CredentialStmt.keeps _ (fun _ => rfl) h db) ?_⟩
    cases stmt <;> simp only [denote, CredentialStmt.denote] at h <;> (try split at h) <;> cases h <;>
      simp
  | org stmt =>
    refine ⟨_, editsOwners_of_eq (fun db => OrgStmt.keeps _ (fun _ => rfl) h db) ?_⟩
    cases stmt <;> simp only [denote, OrgStmt.denote] at h <;> (try split at h) <;> cases h <;>
      simp [Database.invitationLocks]
  | mfa stmt =>
    cases stmt with
    | updateMfa userId columns =>
      obtain rfl := Except.ok.inj h
      exact ⟨_, editsOwners_update userId (fun _ => ⟨rfl, rfl⟩) (by simp)⟩
    | _ =>
      simp only [denote, MfaStmt.denote] at h
      try split at h
      all_goals cases h
      all_goals exact ⟨_, editsOwners_of_eq (fun _ => rfl) (by simp [Database.otpLocks])⟩
  | account stmt =>
    cases stmt with
    | insertUser row =>
      simp only [denote, AccountStmt.denote] at h
      split at h
      · cases h
      rename_i hfree
      obtain rfl := Except.ok.inj h
      exact ⟨_, editsOwners_insert row hfree⟩
    | assignUserRole userId roleId =>
      obtain rfl := Except.ok.inj h
      exact ⟨_, editsOwners_update userId (fun _ => ⟨rfl, rfl⟩) (by simp)⟩
    | setPassword userId hash =>
      obtain rfl := Except.ok.inj h
      exact ⟨_, editsOwners_update userId (fun _ => ⟨rfl, rfl⟩) (by simp)⟩
    | _ =>
      simp only [denote, AccountStmt.denote] at h
      try split at h
      all_goals cases h
      all_goals exact ⟨_, editsOwners_of_eq (fun _ => rfl) (by simp [OAuthAccount.keys])⟩
  | _ =>
    simp only [denote] at h
    try split at h
    all_goals cases h
    all_goals exact ⟨_, editsOwners_of_eq (fun _ => rfl) (by simp)⟩

/-- **Owners as rows.** -/
def ownerRows : Rows AuthSig (Option ℕ) where
  row db
    | .email email => db.ownerOf email
    | _ => none
  frame := by
    intro stmt seen eff h l hl db
    cases l with
    | email email =>
      obtain ⟨new, hedit⟩ := denote_owners h
      have hnone : new email = none := by
        by_contra hsome
        exact hl (hedit.claimed email (Option.isSome_iff_ne_none.mpr hsome))
      show (eff.delta db).ownerOf email = db.ownerOf email
      rw [hedit.owners, hnone, Option.or_none]
    | _ => rfl
  congr := by
    intro stmt seen eff h l db db' hrow
    cases l with
    | email email =>
      obtain ⟨new, hedit⟩ := denote_owners h
      have hrow : db.ownerOf email = db'.ownerOf email := hrow
      show (eff.delta db).ownerOf email = (eff.delta db').ownerOf email
      rw [hedit.owners, hedit.owners, hrow]
    | _ => rfl

/-! ## The discipline -/

/-- Where a request stands: what it has seen in its first transaction, or beyond it. -/
inductive BindingStage
  | reading (views : List Database)
  | ended

namespace BindingStage

/-- The stage after a state was seen. -/
def saw : BindingStage → Database → BindingStage
  | reading views, v => reading (v :: views)
  | ended, _ => ended

/-- The stage after a statement that left `db` behind. -/
def wrote (stage : BindingStage) (stmt : Stmt) (db : Database) : BindingStage :=
  match stmt with
  | .account (.useLicense _ _ _) | .account (.bindMachine _ _) => ended
  | _ => stage.saw db

/-- The request has seen a licence that is free, and who has its address. -/
def Activates (stage : BindingStage) (id userId usageCount : ℕ) : Prop :=
  ∃ views, stage = reading views ∧ ∃ v ∈ views, ∃ l ∈ v.licenseKeys, l.id = id ∧
    l.userId = none ∧ l.usageCount < l.maxUses ∧ usageCount = l.usageCount + 1 ∧
    ∃ v' ∈ views, v'.ownerOf l.email = some userId

/-- The statements of a stage. -/
def Allows (stage : BindingStage) : Stmt → Prop
  | .account (.useLicense id owner _) => ∀ userId usageCount, owner = some (userId, usageCount) →
      stage.Activates id userId usageCount
  | .account (.bindMachine _ _) => True
  | stmt => stmt.BesideLicenses

end BindingStage

/-- **The discipline of bindings.** -/
def bindings : Discipline AuthSig BindingStage where
  next q
    | .read v => q.saw v
    | .wrote stmt seen eff => q.wrote stmt (eff.delta seen)
    | .committed | .commitLost _ | .rolledBack | .commitFailed _ | .crashed _ => .ended
    | _ => q
  sees _ _ := True
  may q
    | .wrote stmt _ _ => q.Allows stmt
    | _ => True

variable {A} {F : Prop} {α : Type}

/-- A statement any stage allows. -/
def Stmt.BindsNoOwner : Stmt → Prop
  | .account (.bindMachine _ _) => True
  | stmt => stmt.BesideLicenses

theorem Stmt.BesideLicenses.bindsNoOwner {stmt : Stmt} (h : stmt.BesideLicenses) :
    stmt.BindsNoOwner := by
  cases stmt with
  | account stmt => cases stmt <;> first | exact h.elim | trivial
  | _ => trivial

theorem Stmt.BindsNoOwner.allows {stmt : Stmt} (h : stmt.BindsNoOwner) (stage : BindingStage) :
    stage.Allows stmt := by
  cases stmt with
  | account stmt => cases stmt <;> first | exact h.elim | trivial
  | _ => trivial

theorem Stmt.OfDecision.besideLicenses {stmt : Stmt} (h : stmt.OfDecision) :
    stmt.BesideLicenses := by
  cases stmt with
  | account stmt =>
    rcases h with h | h | h
    · rcases h with h | h <;> exact h.elim
    · exact h.elim
    · exact h.elim
  | _ => trivial

/-- What binds no owner may come at any stage. -/
theorem bindsNoOwner_follows {o : Op α} (h : o.Within F (Executing Stmt.BindsNoOwner))
    (q : BindingStage) : o.Follows bindings F (Leads fun _ _ => True) q := by
  have hfollows : o.Follows bindings F (fun _ _ => True) q := by
    refine h.follows (T := fun _ => True) (fun q ℓ _ hℓ => ?_) (fun _ _ _ _ => trivial) trivial
    cases ℓ with
    | wrote stmt seen eff => exact Stmt.BindsNoOwner.allows hℓ q
    | _ => trivial
  refine hfollows.mono fun r _ _ => ?_
  cases r <;> trivial

/-- A request in its first transaction, which has seen `vs`. -/
def BindingStage.Saw (vs : List Database) (stage : BindingStage) : Prop :=
  ∃ views, stage = .reading views ∧ vs ⊆ views

theorem BindingStage.Saw.saw {vs : List Database} {stage : BindingStage} (h : stage.Saw vs)
    (v : Database) : (stage.saw v).Saw (v :: vs) := by
  obtain ⟨views, rfl, hsub⟩ := h
  exact ⟨v :: views, rfl, List.cons_subset_cons v hsub⟩

theorem BindingStage.Saw.mono {vs vs' : List Database} {stage : BindingStage} (h : stage.Saw vs)
    (hsub : vs' ⊆ vs) : stage.Saw vs' := by
  obtain ⟨views, hstage, hviews⟩ := h
  exact ⟨views, hstage, fun v hv => hviews (hsub hv)⟩

theorem BindingStage.Saw.wrote {vs : List Database} {stage : BindingStage} (h : stage.Saw vs)
    {stmt : Stmt} (hstmt : stmt.BesideLicenses) (db : Database) :
    (stage.wrote stmt db).Saw (db :: vs) := by
  cases stmt with
  | account stmt => cases stmt <;> first | exact hstmt.elim | exact h.saw db
  | _ => exact h.saw db

/-- What leaves the licences alone adds to what is seen. -/
theorem besideLicenses_follows {o : Op α} (h : o.Within F Aside) {vs : List Database} {q : BindingStage}
    (hq : q.Saw vs) : o.Follows bindings F (Leads fun _ q => q.Saw vs) q := by
  have hfollows : o.Follows bindings F (fun _ q => q.Saw vs) q := by
    refine h.follows (T := BindingStage.Saw vs) (fun q ℓ _ hℓ => ?_) (fun q ℓ hq hℓ => ?_) hq
    · cases ℓ with
      | wrote stmt seen eff => exact (Stmt.BesideLicenses.bindsNoOwner hℓ).allows q
      | _ => trivial
    · cases ℓ with
      | read v => exact (hq.saw v).mono (List.subset_cons_self v vs)
      | wrote stmt seen eff => exact (hq.wrote hℓ _).mono (List.subset_cons_self _ vs)
      | committed => exact hℓ.elim
      | rolledBack => exact hℓ.elim
      | commitFailed x => exact hℓ.elim
      | commitLost x => exact hℓ.elim
      | crashed x => exact hℓ.elim
      | _ => exact hq
  refine hfollows.mono fun r q hq => ?_
  cases r with
  | ok a => exact hq
  | error x => trivial

/-! ## The requests follow it -/

theorem assignDefaultRole_aside (user : User) : (assignDefaultRole user).Within F Aside := by
  refine (getOrCreateRole_aside _ _).bind fun role => ?_
  split
  · trivial
  · exact execute_inside trivial

/-- A licence that is let through is there, is what was asked for, and is not used up. -/
theorem validateLicense_ok {db : Database} {now : ℕ} {key : String} {email : Option String}
    {platform : String} {l : LicenseKey}
    (h : validateLicense A db now key email platform = .ok l) :
    l ∈ db.licenseKeys ∧ (l.userId = none → l.usageCount < l.maxUses) ∧
      ∀ e, email = some e → l.email = e := by
  unfold validateLicense at h
  split at h
  · cases h
  rename_i license hlookup
  have hmem : license ∈ db.licenseKeys := by
    simp only [lookupLicense, Option.orElse_eq_or, Option.or_eq_some_iff,
      Option.bind_eq_some_iff] at hlookup
    rcases hlookup with ⟨digest, -, hfind⟩ | ⟨-, hfind⟩
    · exact List.mem_of_find?_eq_some hfind
    · exact List.mem_of_find?_eq_some hfind
  split at h
  · cases h
  split at h
  · cases h
  split at h
  · cases h
  rename_i hunused
  split at h
  · cases h
  split at h
  · cases h
  rename_i hemail
  obtain rfl := Except.ok.inj h
  refine ⟨hmem, fun hnone => ?_, ?_⟩
  · by_contra hused
    exact hunused ⟨hnone, Nat.le_of_not_lt hused⟩
  · rintro e rfl
    simpa [onSome] using hemail

/-- What a request knows of a licence that was let through. -/
def BindingStage.Passed (stage : BindingStage) (l : LicenseKey) : Prop :=
  ∃ v, stage.Saw [v] ∧ l ∈ v.licenseKeys ∧ (l.userId = none → l.usageCount < l.maxUses)

theorem validateAndConsume_follows (key : String) (email : Option String) (platform : String) :
    (validateAndConsume A key email platform).Follows bindings F
      (Leads fun answer q => ∀ l, answer = .ok l →
        q.Passed l ∧ ∀ e, email = some e → l.email = e) (.reading []) := by
  refine follows_time_bind.mpr fun now _ => ?_
  refine ⟨fun v _ => ⟨trivial, ?_⟩, fun _ _ => trivial⟩
  intro l hanswer
  obtain ⟨hmem, hunused, hemail⟩ := validateLicense_ok hanswer
  exact ⟨⟨v, ⟨[v], rfl, List.Subset.refl _⟩, hmem, hunused⟩, hemail⟩

/-- The account of an address, new or not, is the one that has it. -/
theorem getOrCreateUserForEmail_follows (email : String) {vs : List Database} {q : BindingStage}
    (hq : q.Saw vs) :
    (getOrCreateUserForEmail email).Follows bindings F
      (Leads fun user q => ∃ v, q.Saw (v :: vs) ∧ v.ownerOf email = some user.id) q := by
  refine follows_query_bind.mpr ⟨fun v _ => ⟨trivial, ?_⟩, fun _ _ => trivial⟩
  split
  · rename_i user hfound
    refine ⟨v, hq.saw v, ?_⟩
    unfold Database.ownerOf
    rw [hfound]
    rfl
  refine follows_draw_bind.mpr fun id _ => ?_
  rw [bind_eq, execute]
  refine follows_returning_bind.mpr ⟨fun seen eff hden _ => ⟨trivial, ?_⟩,
    fun _ _ _ _ => ⟨trivial, trivial⟩, fun _ _ => trivial⟩
  have howner : (eff.delta seen).ownerOf email = some id := by
    simp only [AuthSig, denote, AccountStmt.denote] at hden
    split at hden
    · cases hden
    rename_i hfree
    obtain rfl := Except.ok.inj hden
    have hedit := editsOwners_insert { id := id, email := some email, status := .active } hfree
    rw [hedit.owners, hedit.free email (by simp)]
    simp
  have hsaw := (hq.saw v).saw (eff.delta seen)
  refine Leads.bind (besideLicenses_follows (assignDefaultRole_aside _) hsaw) fun _ q₁ hq₁ => ?_
  refine follows_query_bind.mpr ⟨fun v' _ => ⟨trivial, ?_⟩, fun _ _ => trivial⟩
  split
  swap
  · trivial
  rename_i user hfound
  have hid : user.id = id := by simpa using List.find?_some hfound
  refine ⟨eff.delta seen, (hq₁.saw v').mono ?_, by rw [hid, howner]⟩
  intro w hw
  rcases List.mem_cons.mp hw with rfl | hw
  · simp
  · simp [hw]

theorem markUsed_follows {license : LicenseKey} {user : User} {v v' : Database} {q : BindingStage}
    (hq : q.Saw [v', v]) (hmem : license ∈ v.licenseKeys)
    (hunused : license.userId = none → license.usageCount < license.maxUses)
    (howner : v'.ownerOf license.email = some user.id) :
    (markUsed license user).Follows bindings F (Leads fun _ _ => True) q := by
  refine follows_time_bind.mpr fun now _ => ?_
  rw [bind_eq, execute]
  refine follows_returning_bind.mpr ⟨fun seen eff _ _ => ⟨?_, ?_⟩,
    fun _ _ hden => (nomatch hden), fun _ _ => trivial⟩
  · intro userId usageCount hsome
    obtain ⟨views, hstage, hsub⟩ := hq
    split at hsome
    swap
    · cases hsome
    rename_i hnone
    obtain ⟨rfl, rfl⟩ := Prod.mk.inj (Option.some.inj hsome)
    exact ⟨views, hstage, v, hsub (by simp), license, hmem, rfl, hnone, hunused hnone, rfl, v',
      hsub (by simp), howner⟩
  · exact ⟨fun _ => ⟨trivial, trivial⟩, fun _ _ => ⟨trivial, trivial, trivial⟩⟩

/-- What is read binds no owner. -/
theorem bindsNoOwner_reading {o : Op α} (h : o.Within F (Reading F)) :
    o.Within F (Executing Stmt.BindsNoOwner) := executing_of_reading h

theorem refreshLicense_bindsNoOwner (id : ℕ) :
    (refreshLicense id).Within F (Executing Stmt.BindsNoOwner) := by
  refine (bindsNoOwner_reading (query_within _)).bind fun license => ?_
  cases license <;> trivial

theorem bindMachineId_bindsNoOwner (license : LicenseKey) (machineId : String) :
    (bindMachineId license machineId).Within F (Executing Stmt.BindsNoOwner) := by
  unfold bindMachineId
  split
  · exact Within.bind (execute_executing trivial) fun _ => commitNow_executing
  · trivial

theorem answerLicense_bindsNoOwner (licenseId userId : ℕ) :
    (answerLicense A licenseId userId).Within F (Executing Stmt.BindsNoOwner) := by
  refine (refreshLicense_bindsNoOwner _).bind fun license => ?_
  refine (bindsNoOwner_reading (query_within _)).bind fun membership => ?_
  refine (bindsNoOwner_reading (refreshUser_within _)).bind fun user => ?_
  refine Within.bind ?_ fun reply => ?_
  · exact executing_mono (issueTokensOrChallenge_within _ _) fun _ h =>
      h.besideLicenses.bindsNoOwner
  · cases reply <;> trivial

theorem licenseValidate_follows (r : LicenseRequest) :
    (licenseValidate A r).Follows bindings F (Leads fun _ _ => True) (.reading []) := by
  refine Leads.bind (validateAndConsume_follows _ _ _) fun answer q hanswer => ?_
  split
  · trivial
  rename_i license
  obtain ⟨⟨v, hsaw, hmem, hunused⟩, hemail⟩ := hanswer license rfl
  -- the address it asks an account for is the licence's own
  have haddress : (r.email.filter (· ≠ "")).getD license.email = license.email := by
    cases hsome : r.email with
    | none => rfl
    | some e =>
      rw [hemail e hsome]
      by_cases he : e = "" <;> simp [Option.filter, he]
  rw [haddress]
  refine Leads.bind (getOrCreateUserForEmail_follows _ hsaw) fun user q' hq' => ?_
  obtain ⟨v', hsaw', howner⟩ := hq'
  refine Leads.bind (markUsed_follows hsaw' hmem hunused howner) fun _ q'' _ => ?_
  refine bindsNoOwner_follows ((refreshLicense_bindsNoOwner _).bind fun license => ?_) q''
  split
  · exact (bindMachineId_bindsNoOwner _ _).bind fun _ => answerLicense_bindsNoOwner _ _
  · exact answerLicense_bindsNoOwner _ _

theorem pullToken_follows (ghcrPullToken : String) (r : PullTokenRequest) :
    (pullToken A ghcrPullToken r).Follows bindings F (Leads fun _ _ => True) (.reading []) := by
  refine Leads.bind (validateAndConsume_follows _ _ _) fun answer q _ => ?_
  split
  · trivial
  · refine bindsNoOwner_follows ?_ q
    split
    · exact (bindMachineId_bindsNoOwner _ _).bind fun _ => trivial
    · trivial

/-- **A request follows the discipline.** -/
theorem LicenseCall.follows (ghcrPullToken : String) (call : LicenseCall) :
    (call.op A ghcrPullToken).close.Follows bindings F (fun _ _ => True) (.reading []) := by
  have hleads : (call.op A ghcrPullToken).Follows bindings F (Leads fun _ _ => True)
      (.reading []) := by
    cases call with
    | validate r => exact Leads.bind (licenseValidate_follows r) fun _ _ _ => trivial
    | pullToken r => exact Leads.bind (pullToken_follows _ r) fun _ _ _ => trivial
  exact Follows.close (hleads.mono fun _ _ _ => trivial)

end OmniAuth
