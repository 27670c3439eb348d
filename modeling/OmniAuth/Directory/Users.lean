import OmniAuth.Model.App
import OmniAuth.Paging.Order

/-!
# The user directory

`user_admin_service.list_users`: the users a filter matches, sorted by a column, page by
page. Each page is a query of its own, and the column is all it is sorted by. The audit
trail is listed by `created_at` and then by `id`, so that no two of its rows tie.
-/

namespace OmniAuth

open Paging

/-! ## The query -/

/-- `LIKE`; `%` is any text, `_` any character, and `\` takes the next one as it is. -/
def sqlLike : List Char → List Char → Bool
  | [], text => text.isEmpty
  | '%' :: pattern, text => text.tails.any (sqlLike pattern ·)
  | '_' :: pattern, text =>
      match text with
      | [] => false
      | _ :: text => sqlLike pattern text
  | '\\' :: c :: pattern, text =>
      match text with
      | [] => false
      | d :: text => d == c && sqlLike pattern text
  | c :: pattern, text =>
      match text with
      | [] => false
      | d :: text => d == c && sqlLike pattern text

/-- `column.ilike(f"%…%")` -/
def ilikeContains (A : AppEnv) (search : String) (column : Option String) : Bool :=
  match column with
  | none => false
  | some text => sqlLike (A.lower ("%" ++ search ++ "%")).toList (A.lower text).toList

/-- The filters of the directory. -/
structure UserFilter where
  search : Option String := none
  status : Option String := none
  organizationId : Option ℕ := none
  role : Option String := none

/-- What `if text:` lets through. -/
def truthy (text : Option String) : Option String := text.filter (· ≠ "")

/-- `users.status` as it is stored. -/
def UserStatus.column : UserStatus → Option String
  | active => some "active"
  | suspended => some "suspended"
  | other value => value

/-- The conditions on the row of the user itself. -/
def UserFilter.ofUser (A : AppEnv) (f : UserFilter) (u : User) : Bool :=
  (truthy f.search).all (ilikeContains A · u.email) &&
    (truthy f.status).all fun status => decide (u.status.column = some status)

/-- The query of `list_users`: a join has a row for each partner, and `DISTINCT` makes them
one. -/
def Database.userQuery (db : Database) (A : AppEnv) (f : UserFilter) : List User :=
  let users := db.users.filter (f.ofUser A)
  match f.organizationId, truthy f.role with
  | some organizationId, some role =>
      (users.flatMap fun u =>
        (db.memberships.filter fun m =>
            m.userId = u.id ∧ m.organizationId = organizationId).flatMap fun m =>
          ((db.rolesOf m.roleIds).filter (·.name = role)).map fun _ => u).dedup
  | some organizationId, none =>
      (users.flatMap fun u =>
        (db.memberships.filter fun m =>
            m.userId = u.id ∧ m.organizationId = organizationId).map fun _ => u).dedup
  | none, some role =>
      (users.flatMap fun u =>
        ((db.rolesOf u.roleIds).filter (·.name = role)).map fun _ => u).dedup
  | none, none => users

/-- The organization and the role the filter asks for: the role is the one in the
organization, if one is given, and otherwise a global one. -/
def Database.Belongs (db : Database) (f : UserFilter) (u : User) : Option ℕ → Prop
  | some organizationId =>
      ∃ m ∈ db.memberships, m.userId = u.id ∧ m.organizationId = organizationId ∧
        ∀ role ∈ truthy f.role, ∃ r ∈ db.rolesOf m.roleIds, r.name = role
  | none => ∀ role ∈ truthy f.role, ∃ r ∈ db.rolesOf u.roleIds, r.name = role

instance (db : Database) (f : UserFilter) (u : User) :
    (organizationId : Option ℕ) → Decidable (db.Belongs f u organizationId)
  | some _ => inferInstanceAs (Decidable (∃ m ∈ db.memberships, _))
  | none => inferInstanceAs (Decidable (∀ role ∈ truthy f.role, _))

/-- **What the filter asks for.** -/
def Database.Matches (db : Database) (A : AppEnv) (f : UserFilter) (u : User) : Prop :=
  f.ofUser A u = true ∧ db.Belongs f u f.organizationId

instance Database.decidableMatches (db : Database) (A : AppEnv) (f : UserFilter) (u : User) :
    Decidable (db.Matches A f u) :=
  inferInstanceAs (Decidable (_ ∧ _))

/-- The matching users. -/
def Database.matching (db : Database) (A : AppEnv) (f : UserFilter) : List User :=
  db.users.filter fun u => db.Matches A f u

theorem Database.mem_userQuery {db : Database} {A : AppEnv} {f : UserFilter} {u : User} :
    u ∈ db.userQuery A f ↔ u ∈ db.users ∧ db.Matches A f u := by
  unfold Database.userQuery Database.Matches
  cases f.organizationId with
  | none =>
    cases hrole : truthy f.role with
    | none => simp [Database.Belongs, hrole]
    | some role => simp [Database.Belongs, hrole, and_assoc]
  | some organizationId =>
    cases hrole : truthy f.role with
    | none => simp [Database.Belongs, hrole, and_assoc]
    | some role => simp [Database.Belongs, hrole, and_assoc]

/-- The query has each matching user once. -/
theorem Database.userQuery_perm (db : Database) (A : AppEnv) (f : UserFilter)
    (hnodup : db.users.Nodup) : (db.userQuery A f).Perm (db.matching A f) := by
  have hmatching : (db.matching A f).Nodup := hnodup.filter _
  have hquery : (db.userQuery A f).Nodup := by
    unfold Database.userQuery
    cases f.organizationId with
    | none =>
      cases truthy f.role with
      | none => exact hnodup.filter _
      | some role => exact List.nodup_dedup _
    | some organizationId =>
      cases truthy f.role with
      | none => exact List.nodup_dedup _
      | some role => exact List.nodup_dedup _
  refine (List.perm_ext_iff_of_nodup hquery hmatching).mpr fun u => ?_
  rw [Database.mem_userQuery]
  simp [Database.matching]

/-! ## The order -/

/-- `ORDER BY` puts NULL before every value. -/
def nullsFirst {κ : Type} [LE κ] : Option κ → Option κ → Prop
  | none, _ => True
  | some _, none => False
  | some a, some b => a ≤ b

section

variable {κ : Type} [LinearOrder κ]

instance : (a b : Option κ) → Decidable (nullsFirst a b)
  | none, _ => isTrue trivial
  | some _, none => isFalse id
  | some a, some b => inferInstanceAs (Decidable (a ≤ b))

theorem nullsFirst_total (a b : Option κ) : nullsFirst a b ∨ nullsFirst b a := by
  cases a with
  | none => exact .inl trivial
  | some a =>
    cases b with
    | none => exact .inr trivial
    | some b => exact le_total a b

theorem nullsFirst_trans {a b c : Option κ} (hab : nullsFirst a b) (hbc : nullsFirst b c) :
    nullsFirst a c := by
  cases a with
  | none => trivial
  | some a =>
    cases b with
    | none => exact hab.elim
    | some b =>
      cases c with
      | none => exact hbc.elim
      | some c => exact le_trans (α := κ) hab hbc

theorem nullsFirst_antisymm {a b : Option κ} (hab : nullsFirst a b) (hba : nullsFirst b a) :
    a = b := by
  cases a with
  | none =>
    cases b with
    | none => rfl
    | some b => exact hba.elim
  | some a =>
    cases b with
    | none => exact hab.elim
    | some b => exact congrArg some (le_antisymm hab hba)

end

/-- `SortField` -/
inductive SortField
  | email
  | createdAt
  | status
  deriving DecidableEq

/-- `SortOrder` -/
inductive SortOrder
  | asc
  | desc
  deriving DecidableEq

section

-- how the collation compares texts, and the column `created_at` of `users`
variable {κ : Type} [LinearOrder κ] (collate : String → κ) (createdAt : ℕ → Option ℕ)

/-- `_SORT_COLUMNS` -/
def columnLe (sortBy : SortField) (u v : User) : Prop :=
  match sortBy with
  | .email => nullsFirst (u.email.map collate) (v.email.map collate)
  | .createdAt => nullsFirst (createdAt u.id) (createdAt v.id)
  | .status => nullsFirst (u.status.column.map collate) (v.status.column.map collate)

/-- `ORDER BY` that column, and nothing else. -/
def sortLe (sortBy : SortField) (sortOrder : SortOrder) (u v : User) : Prop :=
  match sortOrder with
  | .asc => columnLe collate createdAt sortBy u v
  | .desc => columnLe collate createdAt sortBy v u

instance (sortBy : SortField) (u v : User) : Decidable (columnLe collate createdAt sortBy u v) :=
  match sortBy with
  | .email => inferInstanceAs (Decidable (nullsFirst _ _))
  | .createdAt => inferInstanceAs (Decidable (nullsFirst _ _))
  | .status => inferInstanceAs (Decidable (nullsFirst _ _))

instance (sortBy : SortField) (sortOrder : SortOrder) :
    DecidableRel (sortLe collate createdAt sortBy sortOrder) := fun u v =>
  match sortOrder with
  | .asc => inferInstanceAs (Decidable (columnLe collate createdAt sortBy u v))
  | .desc => inferInstanceAs (Decidable (columnLe collate createdAt sortBy v u))

theorem columnLe_total (sortBy : SortField) (u v : User) :
    columnLe collate createdAt sortBy u v ∨ columnLe collate createdAt sortBy v u := by
  cases sortBy <;> exact nullsFirst_total _ _

theorem columnLe_trans {sortBy : SortField} {u v w : User}
    (huv : columnLe collate createdAt sortBy u v) (hvw : columnLe collate createdAt sortBy v w) :
    columnLe collate createdAt sortBy u w := by
  cases sortBy <;> exact nullsFirst_trans huv hvw

instance (sortBy : SortField) (sortOrder : SortOrder) :
    Std.Total (sortLe collate createdAt sortBy sortOrder) where
  total u v := by
    cases sortOrder with
    | asc => exact columnLe_total collate createdAt sortBy u v
    | desc => exact columnLe_total collate createdAt sortBy v u

instance (sortBy : SortField) (sortOrder : SortOrder) :
    IsTrans User (sortLe collate createdAt sortBy sortOrder) where
  trans u v w huv hvw := by
    cases sortOrder with
    | asc => exact columnLe_trans collate createdAt huv hvw
    | desc => exact columnLe_trans collate createdAt hvw huv

end

/-! ## The pages -/

/-- What the directory shows of a user. -/
structure UserSummary where
  id : ℕ
  email : Option String
  status : Option String
  createdAt : Option ℕ
  globalRoles : List String
  orgCount : ℕ
  lastLoginAt : Option ℕ
  authenticationMethod : Option PersistedAuthMethod
  mfaEnabled : Bool
  deriving DecidableEq

/-- `_org_counts_by_user`, of one user. -/
def Database.orgCount (db : Database) (userId : ℕ) : ℕ :=
  (db.memberships.filter (·.userId = userId)).length

section

variable (createdAt : ℕ → Option ℕ)

def Database.summary (db : Database) (u : User) : UserSummary where
  id := u.id
  email := u.email
  status := u.status.column
  createdAt := createdAt u.id
  globalRoles := ((db.rolesOf u.roleIds).map (·.name)).insertionSort (· ≤ ·)
  orgCount := db.orgCount u.id
  lastLoginAt := u.lastLoginAt
  authenticationMethod := u.authenticationMethod
  mfaEnabled := u.mfaEnabled

/-- `list_users`, of the query in the order the database answers it in. -/
def Database.listUsers (db : Database) (A : AppEnv) (f : UserFilter) (order : List User)
    (page pageSize : ℕ) : List UserSummary × ℕ :=
  (((order.drop ((page - 1) * pageSize)).take pageSize).map (db.summary createdAt),
    (db.userQuery A f).length)

/-- `(total + page_size - 1) // page_size if total else 0` -/
def totalPages (total pageSize : ℕ) : ℕ :=
  if total = 0 then 0 else (total + pageSize - 1) / pageSize

/-- All pages, one after the other. -/
def Database.allPages (db : Database) (A : AppEnv) (f : UserFilter) (orders : ℕ → List User)
    (pageSize : ℕ) : List UserSummary :=
  (List.range (totalPages (db.userQuery A f).length pageSize)).flatMap fun i =>
    (db.listUsers createdAt A f (orders (i + 1)) (i + 1) pageSize).1

theorem totalPages_enough (total : ℕ) {pageSize : ℕ} (hsize : 0 < pageSize) :
    total ≤ totalPages total pageSize * pageSize := by
  unfold totalPages
  split
  · omega
  · have hlt := Nat.lt_mul_div_succ (total + pageSize - 1) hsize
    rw [Nat.mul_succ, Nat.mul_comm] at hlt
    omega

theorem Database.allPages_eq (db : Database) (A : AppEnv) (f : UserFilter)
    (orders : ℕ → List User) (pageSize : ℕ) :
    db.allPages createdAt A f orders pageSize =
      (pages pageSize (fun i => orders (i + 1))
        (totalPages (db.userQuery A f).length pageSize)).map (db.summary createdAt) := by
  rw [pages, List.map_flatMap]
  rfl

/-- A user is known by the summary. -/
theorem Database.perm_of_summaries {db : Database} {l rows : List User}
    (hids : (rows.map (·.id)).Nodup) (hl : ∀ u ∈ l, u ∈ rows)
    (h : (l.map (db.summary createdAt)).Perm (rows.map (db.summary createdAt))) :
    l.Perm rows := by
  have hid : (l.map (·.id)).Perm (rows.map (·.id)) := by
    have hsummaries := h.map UserSummary.id
    rwa [List.map_map, List.map_map] at hsummaries
  have hnodup : l.Nodup := (hid.nodup_iff.mpr hids).of_map
  refine (List.perm_ext_iff_of_nodup hnodup hids.of_map).mpr fun u => ⟨hl u, fun hu => ?_⟩
  obtain ⟨v, hv, hvu⟩ := List.mem_map.mp (hid.mem_iff.mpr (List.mem_map_of_mem hu))
  have hsame := List.inj_on_of_nodup_map hids (hl v hv) hu hvu
  rwa [← hsame]

variable {κ : Type} [LinearOrder κ] (collate : String → κ)

/-- **Paging through the users, exactly.** All pages together have each matching user once,
and the total is their number, in whatever order each query answers users that tie, if and
only if no tie lies across the boundary between two pages. -/
theorem user_pages_exact_iff (db : Database) (A : AppEnv) (f : UserFilter)
    (sortBy : SortField) (sortOrder : SortOrder) {pageSize : ℕ} (hsize : 0 < pageSize)
    (hids : (db.users.map (·.id)).Nodup) :
    (∀ orders : ℕ → List User, (∀ page, Ordered (sortLe collate createdAt sortBy sortOrder)
          (db.userQuery A f) (orders page)) →
        (db.allPages createdAt A f orders pageSize).Perm
          ((db.matching A f).map (db.summary createdAt)) ∧
        ∀ page, (db.listUsers createdAt A f (orders page) page pageSize).2 =
          (db.matching A f).length) ↔
      ∀ i, ¬ Cut (sortLe collate createdAt sortBy sortOrder) (db.matching A f) (i * pageSize) := by
  have hquery := db.userQuery_perm A f hids.of_map
  have hmatching : ((db.matching A f).map (·.id)).Nodup := hids.sublist (List.filter_sublist.map _)
  have hnodup : (db.userQuery A f).Nodup := hquery.nodup_iff.mpr hmatching.of_map
  have hexact := pages_exact_iff (sortLe collate createdAt sortBy sortOrder) hnodup
    (totalPages_enough (db.userQuery A f).length hsize)
  have hcut : ∀ m, Cut (sortLe collate createdAt sortBy sortOrder) (db.userQuery A f) m ↔
      Cut (sortLe collate createdAt sortBy sortOrder) (db.matching A f) m :=
    fun m => cut_congr hquery
  simp only [hcut] at hexact
  rw [← hexact]
  constructor
  · intro hall order horder
    -- the pages count from 1
    obtain ⟨hperm, -⟩ := hall (fun page => order (page - 1)) fun page => horder (page - 1)
    rw [Database.allPages_eq] at hperm
    have hpages := Database.perm_of_summaries createdAt hmatching
      (fun u hu => hquery.mem_iff.mp (mem_of_mem_pages horder hu)) hperm
    exact hpages.trans hquery.symm
  · intro hall orders horders
    refine ⟨?_, fun page => hquery.length_eq⟩
    have hpages := hall (fun i => orders (i + 1)) fun i => horders (i + 1)
    rw [Database.allPages_eq]
    exact (hpages.trans hquery).map _

/-- Sorted by an address that nobody shares, no page is wrong. -/
theorem user_pages_by_email {db : Database} {f : UserFilter} {A : AppEnv}
    (hids : (db.users.map (·.id)).Nodup)
    (hown : ∀ u ∈ db.users, ∀ v ∈ db.users, u.email.map collate = v.email.map collate → u = v)
    (sortOrder : SortOrder) (m : ℕ) :
    ¬ Cut (sortLe collate createdAt .email sortOrder) (db.matching A f) m := by
  refine not_cut_of_antisymm (hids.of_map.filter _) fun u hu v hv huv hvu => ?_
  refine hown u (List.mem_of_mem_filter hu) v (List.mem_of_mem_filter hv) ?_
  cases sortOrder with
  | asc => exact nullsFirst_antisymm huv hvu
  | desc => exact nullsFirst_antisymm hvu huv

end

/-! ## The audit trail -/

/-- The filters of `list_events`. -/
structure EventFilter where
  organizationId : Option ℕ := none
  actorUserId : Option ℕ := none
  eventType : Option AuditEventType := none
  startDate : Option ℕ := none
  endDate : Option ℕ := none

/-- A row with its `id`, which counts the rows as they were written. -/
abbrev NumberedEvent := AuditEvent × ℕ

def EventFilter.selects (f : EventFilter) (e : AuditEvent) : Bool :=
  (f.organizationId.all fun organizationId => decide (e.organizationId = some organizationId)) &&
    (f.actorUserId.all fun actorUserId => decide (e.actorUserId = some actorUserId)) &&
    (f.eventType.all fun eventType => decide (e.eventType = eventType)) &&
    (f.startDate.all fun startDate => decide (startDate ≤ e.createdAt)) &&
    f.endDate.all fun endDate => decide (e.createdAt ≤ endDate)

def Database.eventQuery (db : Database) (f : EventFilter) : List NumberedEvent :=
  db.auditEvents.zipIdx.filter fun e => f.selects e.1

/-- `ORDER BY created_at DESC, id DESC` -/
def eventsNewestFirst (e e' : NumberedEvent) : Prop :=
  e'.1.createdAt < e.1.createdAt ∨ (e'.1.createdAt = e.1.createdAt ∧ e'.2 ≤ e.2)

instance : DecidableRel eventsNewestFirst := fun _ _ => inferInstanceAs (Decidable (_ ∨ _))

instance : Std.Total eventsNewestFirst where
  total e e' := by
    unfold eventsNewestFirst
    omega

instance : IsTrans NumberedEvent eventsNewestFirst where
  trans e e' e'' h h' := by
    unfold eventsNewestFirst at *
    omega

/-- `list_events`, of the query in the order the database answers it in. -/
def Database.listEvents (db : Database) (f : EventFilter) (order : List NumberedEvent)
    (page pageSize : ℕ) : List NumberedEvent × ℕ :=
  ((order.drop ((page - 1) * pageSize)).take pageSize, (db.eventQuery f).length)

/-- **The audit trail** is paged through without a loss or a repetition: `id` decides where
`created_at` ties. -/
theorem event_pages_exact (db : Database) (f : EventFilter) {pageSize : ℕ} (hsize : 0 < pageSize)
    (orders : ℕ → List NumberedEvent)
    (horders : ∀ page, Ordered eventsNewestFirst (db.eventQuery f) (orders page)) :
    ((List.range (totalPages (db.eventQuery f).length pageSize)).flatMap fun i =>
      (db.listEvents f (orders (i + 1)) (i + 1) pageSize).1).Perm (db.eventQuery f) := by
  have hnumbers : (db.auditEvents.zipIdx.map Prod.snd).Nodup := by
    rw [List.zipIdx_map_snd]
    exact List.nodup_range'
  have hids : ((db.eventQuery f).map Prod.snd).Nodup :=
    hnumbers.sublist (List.filter_sublist.map _)
  refine pages_complete (fun i => horders (i + 1)) (fun i => ?_)
    (totalPages_enough (db.eventQuery f).length hsize)
  refine not_cut_of_antisymm hids.of_map fun e he e' he' h h' => ?_
  refine List.inj_on_of_nodup_map hids he he' ?_
  unfold eventsNewestFirst at h h'
  omega

/-- Three rows, two of them of one instant, one on a page. -/
def tiedEvents : Database :=
  { Database.empty with
    auditEvents := [{ eventType := .loginSuccess, createdAt := 5 },
      { eventType := .loginFailure, createdAt := 5 },
      { eventType := .loginSuccess, createdAt := 3 }] }

def tiedOrder : List NumberedEvent :=
  [({ eventType := .loginFailure, createdAt := 5 }, 1),
    ({ eventType := .loginSuccess, createdAt := 5 }, 0),
    ({ eventType := .loginSuccess, createdAt := 3 }, 2)]

/-- Each row is on one page. -/
theorem event_pages_exact_tied :
    ((List.range 3).flatMap fun i => (tiedEvents.listEvents {} tiedOrder (i + 1) 1).1).Perm
      (tiedEvents.eventQuery {}) := by
  have hordered : Ordered eventsNewestFirst (tiedEvents.eventQuery {}) tiedOrder :=
    ⟨by decide, by decide⟩
  exact event_pages_exact tiedEvents {} (by decide : 0 < 1) (fun _ => tiedOrder) fun _ => hordered

/-! ## Two users -/

def adaUser : User := { id := 1, email := some "ada@lab.org", status := .active }

def eveUser : User := { id := 2, email := some "eve@lab.org", status := .active }

def twoUsers : Database := { Database.empty with users := [adaUser, eveUser] }

/-- The first page has the one, and so has the second. -/
def eitherOrder (page : ℕ) : List User := if page = 1 then [adaUser, eveUser] else [eveUser, adaUser]

/-- **Two active users** by status, one on a page: Ada is on both pages. -/
theorem user_pages_repeat :
    ¬ ∀ orders : ℕ → List User, (∀ page, Ordered
          (sortLe textNumber (fun _ => none) .status .asc) (twoUsers.userQuery .symbolic {})
          (orders page)) →
        (twoUsers.allPages (fun _ => none) .symbolic {} orders 1).Perm
          ((twoUsers.matching .symbolic {}).map (twoUsers.summary fun _ => none)) ∧
        ∀ page, (twoUsers.listUsers (fun _ => none) .symbolic {} (orders page) page 1).2 =
          (twoUsers.matching .symbolic {}).length := by
  intro hall
  have horders : ∀ page, Ordered (sortLe textNumber (fun _ => none) .status .asc)
      (twoUsers.userQuery .symbolic {}) (eitherOrder page) := by
    intro page
    unfold eitherOrder
    split
    · exact ⟨by decide, by decide⟩
    · exact ⟨by decide, by decide⟩
  have hperm := (hall eitherOrder horders).1
  revert hperm
  decide

/-- By address they are there once each. -/
theorem user_pages_exact_iff_email :
    (twoUsers.allPages (fun _ => none) .symbolic {} (fun _ => [adaUser, eveUser]) 1).Perm
      ((twoUsers.matching .symbolic {}).map (twoUsers.summary fun _ => none)) := by
  refine ((user_pages_exact_iff (fun _ => none) textNumber twoUsers .symbolic {} .email .asc
    (by decide : 0 < 1) (by decide)).mpr (fun i => ?_) (fun _ => [adaUser, eveUser])
    fun page => ⟨by decide, by decide⟩).1
  exact user_pages_by_email _ _ (by decide) (by decide) .asc _

end OmniAuth
