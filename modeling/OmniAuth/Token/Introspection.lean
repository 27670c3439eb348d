import OmniAuth.Token.Attenuation
import OmniAuth.Token.Separation

/-!
# What a delegation is worth later

`introspect` of `app/services/delegated_execution_service.py`, against whatever has
become of the grant, its client and its user since `issue`. Which permissions a grant
may have is asked when it is issued; that the client and the user still have them is
asked when it is introspected; and the token is held to the grant it was minted with
because a delegation id is drawn once.
-/

namespace OmniAuth

open Txn Prog

/-! ## The code -/

/-- `sorted(names)` -/
def sorted (names : List String) : List String := names.insertionSort (· ≤ ·)

/-- What `introspect` compares of a grant and a token. -/
def DelegatedExecutionGrant.Matches (grant : DelegatedExecutionGrant) (payload : Claims) : Prop :=
  payload.clientId = some grant.clientId ∧ payload.sub = some (.user grant.userId) ∧
    payload.orgId = some grant.organizationId ∧ payload.aud = some grant.audience ∧
    sorted grant.permissions = sorted payload.permissions

instance (grant : DelegatedExecutionGrant) (payload : Claims) :
    Decidable (grant.Matches payload) := by
  unfold DelegatedExecutionGrant.Matches
  infer_instance

/-- The answer of `introspect`. -/
structure DelegatedIdentity where
  clientId : String
  userId : ℕ
  organizationId : ℕ
  permissions : List String
  delegationId : ℕ
  deriving DecidableEq

def DelegatedExecutionGrant.identity (grant : DelegatedExecutionGrant) : DelegatedIdentity where
  clientId := grant.clientId
  userId := grant.userId
  organizationId := grant.organizationId
  permissions := grant.permissions
  delegationId := grant.delegationId

/-- The query of `introspect`: the grant, while it is not revoked. -/
def Database.liveGrant (db : Database) (delegationId : ℕ) : Option DelegatedExecutionGrant :=
  db.delegatedExecutionGrants.find? fun g => g.delegationId = delegationId ∧ g.revokedAt = none

def Database.clientByClientId (db : Database) (clientId : String) : Option OAuthClient :=
  db.oauthClients.find? (·.clientId = clientId)

/-- The end of `introspect`: what the client and the user of the grant may do now. -/
def introspectAuthority (grant : DelegatedExecutionGrant) : Op (Option DelegatedIdentity) := do
  let client ← query (·.clientByClientId grant.clientId)
  let user ← query (·.activeUser grant.userId)
  let membership ← query (·.activeMembership grant.userId grant.organizationId)
  match client, user, membership with
  | some client, some user, some membership =>
      if client.status ≠ .active then return none
      else do
        let now ← time
        if onSome client.expiresAt (· < now) then return none
        else if delegationScope ∉ client.scopes then return none
        else if ∃ p ∈ grant.permissions, p ∉ client.scopes then return none
        else do
          let held ← query fun db => userPermissions db user membership
          return if ∃ p ∈ grant.permissions, p ∉ held then none else some grant.identity
  | _, _, _ => return none

variable (A : AppEnv)

/-- `introspect`, with what Redis has stored. -/
def introspect (redis : Option Redis) (token : A.Token) : Op (Option DelegatedIdentity) := do
  let now ← time
  match decodeTokenForAudience A.toEnv now token toolserverAudience with
  | .error _ => return none
  | .ok payload =>
      if payload.type ≠ some .delegatedExecution then return none
      else match payload.delegationId with
        | none => return none
        | some delegationId =>
            if payload.jti ≠ some delegationId then return none
            else do
              let now ← time
              let usable ← query fun db => assertTokenUsable now redis db payload
              match usable with
              | .error _ => return none
              | .ok () => do
                  let row ← query (·.liveGrant delegationId)
                  match row with
                  | none => return none
                  | some grant => do
                      let now ← time
                      if grant.expiresAt < now ∨ ¬ grant.Matches payload then return none
                      else introspectAuthority grant

/-! ## What it answers -/

/-- What the client and the user of a grant may do covers the grant. -/
structure Authorized (db : Database) (now : ℕ) (grant : DelegatedExecutionGrant) : Prop where
  client : ∃ client, db.clientByClientId grant.clientId = some client ∧ client.status = .active ∧
    (∀ e, client.expiresAt = some e → now ≤ e) ∧ delegationScope ∈ client.scopes ∧
    ∀ p ∈ grant.permissions, p ∈ client.scopes
  user : ∃ user membership, db.activeUser grant.userId = some user ∧
    db.activeMembership grant.userId grant.organizationId = some membership ∧
    ∀ p ∈ grant.permissions, p ∈ userPermissions db user membership

theorem Authorized.earlier {db : Database} {now t : ℕ} {grant : DelegatedExecutionGrant}
    (h : Authorized db t grant) (ht : now ≤ t) : Authorized db now grant := by
  obtain ⟨client, hfind, hactive, hexpires, hscopes⟩ := h.client
  exact ⟨⟨client, hfind, hactive, fun e he => le_trans ht (hexpires e he), hscopes⟩, h.user⟩

variable {A}

/-- It answers the grant's identity or nothing, and changes nothing. -/
theorem introspectAuthority_ends (grant : DelegatedExecutionGrant) (w : World) :
    (introspectAuthority grant).Ends w fun r _ => ∃ o, r = .ok o ∧
      ∀ identity, o = some identity → identity = grant.identity ∧ Authorized w.cur w.now grant := by
  have hnone : ∀ w', (ret none : Op (Option DelegatedIdentity)).Ends w' fun r _ => ∃ o, r = .ok o ∧
      ∀ identity, o = some identity → identity = grant.identity ∧ Authorized w.cur w.now grant :=
    fun w' => ends_ret.mpr ⟨none, rfl, fun _ h => by cases h⟩
  unfold introspectAuthority
  simp only [bind_eq, ends_query_bind]
  split
  swap
  · exact hnone w
  rename_i client user membership hclient huser hmembership
  split
  · exact hnone w
  rename_i hactive
  simp only [ends_time_bind]
  intro t ht
  split
  · exact hnone _
  rename_i hexpired
  split
  · exact hnone _
  rename_i hscope
  split
  · exact hnone _
  rename_i hscopes
  simp only [ends_query_bind]
  refine ends_ret.mpr ⟨_, rfl, fun identity h => ?_⟩
  split at h
  · cases h
  rename_i hheld
  push Not at hactive hscope hscopes hheld
  refine ⟨(Option.some.inj h).symm, ⟨client, hclient, hactive, fun e he => ?_, hscope, hscopes⟩,
    user, membership, huser, hmembership, hheld⟩
  have hnot : ¬ e < t := by simpa [onSome, he] using hexpired
  omega

/-- **What an answer tells.** -/
theorem introspect_ends (redis : Option Redis) (token : A.Token) (w : World) :
    (introspect A redis token).Ends w fun r _ => ∃ o, r = .ok o ∧
      ∀ identity, o = some identity → ∃ t payload grant, w.now ≤ t ∧
        decodeTokenForAudience A.toEnv t token toolserverAudience = .ok payload ∧
        payload.type = some .delegatedExecution ∧
        payload.delegationId = some grant.delegationId ∧
        w.cur.liveGrant grant.delegationId = some grant ∧ w.now ≤ grant.expiresAt ∧
        grant.Matches payload ∧ identity = grant.identity ∧ Authorized w.cur w.now grant := by
  have hnone : ∀ (post : DelegatedIdentity → Prop) w',
      (ret none : Op (Option DelegatedIdentity)).Ends w' fun r _ => ∃ o, r = .ok o ∧
        ∀ identity, o = some identity → post identity :=
    fun post w' => ends_ret.mpr ⟨none, rfl, fun _ h => by cases h⟩
  unfold introspect
  simp only [bind_eq, ends_time_bind]
  intro t ht
  split
  · exact hnone _ _
  rename_i payload hdecode
  split
  · exact hnone _ _
  rename_i htype
  split
  · exact hnone _ _
  rename_i delegationId hid
  split
  · exact hnone _ _
  simp only [ends_time_bind, ends_query_bind]
  intro t₁ ht₁
  split
  · exact hnone _ _
  simp only [ends_query_bind]
  split
  · exact hnone _ _
  rename_i grant hgrant
  simp only [ends_time_bind]
  intro t₂ ht₂
  split
  · exact hnone _ _
  rename_i hmatch
  rw [not_or, not_not, not_lt] at hmatch
  have hgrantId : grant.delegationId = delegationId := by
    have hfound := List.find?_some hgrant
    simp only [decide_eq_true_eq] at hfound
    exact hfound.1
  refine (introspectAuthority_ends grant _).mono ?_
  rintro r w' ⟨o, hr, hall⟩
  refine ⟨o, hr, fun identity ho => ?_⟩
  obtain ⟨hidentity, hauthorized⟩ := hall identity ho
  dsimp only at ht₁ ht₂ hauthorized hgrant
  refine ⟨t, payload, grant, ht, hdecode, of_not_not htype, by rw [hgrantId, hid], ?_, by omega,
    hmatch.2, hidentity, hauthorized.earlier (by omega)⟩
  rw [hgrantId]
  exact hgrant

/-! ## What is minted with a grant -/

/-- The payload of the token of a grant, signed at `t`. -/
def delegationClaims (E : Env) (grant : DelegatedExecutionGrant) (t : ℕ) : Claims where
  sub := some (.user grant.userId)
  clientId := some grant.clientId
  orgId := some grant.organizationId
  permissions := sortedSet grant.permissions
  delegationId := some grant.delegationId
  type := some .delegatedExecution
  iat := some (numericDate t)
  exp := some (numericDate (t + minutes E.delegatedExecutionTokenExpireMinutes))
  jti := some grant.delegationId
  aud := some toolserverAudience

/-- A grant and the token it was minted with. The token is signed after the expiry of the
grant was computed. -/
structure MintedWith (A : AppEnv) (token : A.Token) (grant : DelegatedExecutionGrant) : Prop where
  signed : ∃ t, token = sign A.toEnv (delegationClaims A.toEnv grant t) ∧
    grant.expiresAt ≤ t + minutes A.delegatedExecutionTokenExpireMinutes
  accepted : ∀ p ∈ grant.permissions, p ∈ acceptedPermissions
  distinct : grant.permissions.Nodup
  audience : grant.audience = toolserverAudience

theorem delegable_accepts {redis : Option Redis} {serviceToken initiatingToken : A.Token}
    {orgId : ℕ} {permissions : List String} {audience : String} {now : ℕ} {db : Database}
    {r : OAuthClient × User}
    (h : delegable A redis serviceToken initiatingToken orgId permissions audience now db = .ok r) :
    audience = toolserverAudience ∧ ∀ p ∈ permissions, p ∈ acceptedPermissions := by
  unfold delegable at h
  split at h
  · cases h
  split at h
  · cases h
  rename_i haudience
  split at h
  · cases h
  rename_i hperms
  push Not at haudience hperms
  exact ⟨haudience, hperms.2.1⟩

/-- The worlds `issue` moves between, and what it answers. -/
structure GrantIssued (A : AppEnv) (w w' : World) (answer : A.Token × DelegatedExecutionGrant) :
    Prop where
  minted : MintedWith A answer.1 answer.2
  drawn : answer.2.delegationId = w.next
  next : w'.next = w.next + 1
  now : w.now ≤ w'.now
  rows : w'.cur.delegatedExecutionGrants = w.cur.delegatedExecutionGrants ++ [answer.2]
  fresh : ∀ g ∈ w.cur.delegatedExecutionGrants, g.delegationId ≠ answer.2.delegationId

theorem issue_issued {redis : Option Redis} {serviceToken initiatingToken : A.Token} {orgId : ℕ}
    {permissions : List String} {audience : String} {w w' : World}
    {answer : A.Token × DelegatedExecutionGrant}
    (h : (issue A redis serviceToken initiatingToken orgId permissions audience).Exec w
      (.ok answer) w') : GrantIssued A w w' answer := by
  simp only [issue, bind_eq, exec_time_bind, exec_query_bind] at h
  obtain ⟨now, hnow, h⟩ := h
  split at h
  · cases h.1
  rename_i service user hdecision
  obtain ⟨haudience, hperms⟩ := delegable_accepts hdecision
  simp only [exec_draw_bind, exec_time_bind] at h
  obtain ⟨t, ht, h⟩ := h
  rcases exec_bind.mp h with ⟨_, w₁, hinsert, h⟩ | ⟨x, -, hx⟩
  swap
  · cases hx
  rw [execute, exec_returning] at hinsert
  obtain ⟨eff, heff, -, rfl⟩ | ⟨x, -, hx, -⟩ := hinsert
  swap
  · cases hx
  simp only [denote, CredentialStmt.denote] at heff
  split at heff
  · cases heff
  rename_i hfree
  obtain rfl := Except.ok.inj heff
  simp only [bind_eq, exec_commitNow_bind, createDelegatedExecutionToken, bind_bind, exec_time_bind]
    at h
  obtain ⟨t', ht', hanswer, rfl⟩ := h
  obtain rfl := Except.ok.inj hanswer
  push Not at hfree
  have hdistinct : (sortedSet permissions).Nodup :=
    (List.perm_insertionSort _ _).nodup_iff.mpr permissions.nodup_dedup
  have hexpires : t + minutes A.delegatedExecutionTokenExpireMinutes ≤
      t' + minutes A.delegatedExecutionTokenExpireMinutes := Nat.add_le_add_right ht' _
  have hlater : w.now ≤ t' := le_trans hnow (le_trans ht ht')
  exact ⟨⟨⟨t', rfl, hexpires⟩, fun p hp => hperms p (mem_sortedSet.mp hp), hdistinct, haudience⟩,
    rfl, rfl, hlater, rfl, hfree⟩

/-! ## Runs -/

/-- No two grants have the same primary key. -/
def Database.GrantsKeyed (db : Database) : Prop :=
  (db.delegatedExecutionGrants.map (·.delegationId)).Nodup

/-- **A run**: the world reached, the grants issued so far with their tokens, and the other
tokens the service has signed. Between two calls anything else may change: clients, users,
memberships, roles, the rows of the grants themselves, and the time. -/
inductive DelegationRun (A : AppEnv) :
    World → List (A.Token × DelegatedExecutionGrant) → List A.Token → Prop
  | start {w : World} (hkeyed : w.cur.GrantsKeyed) : DelegationRun A w [] []
  | issued {w w' : World} {issued : List (A.Token × DelegatedExecutionGrant)}
      {others : List A.Token} {redis : Option Redis} {serviceToken initiatingToken : A.Token}
      {orgId : ℕ} {permissions : List String} {audience : String}
      {answer : A.Token × DelegatedExecutionGrant} (hrun : DelegationRun A w issued others)
      (h : (issue A redis serviceToken initiatingToken orgId permissions audience).Exec w
        (.ok answer) w') : DelegationRun A w' (answer :: issued) others
  | introspected {w w' : World} {issued : List (A.Token × DelegatedExecutionGrant)}
      {others : List A.Token} {redis : Option Redis} {token : A.Token}
      {r : Except Err (Option DelegatedIdentity)} (hrun : DelegationRun A w issued others)
      (h : (introspect A redis token).Exec w r w') : DelegationRun A w' issued others
  | signed {w : World} {issued : List (A.Token × DelegatedExecutionGrant)} {others : List A.Token}
      {c : Claims} (hrun : DelegationRun A w issued others)
      (hother : c.type ≠ some .delegatedExecution) :
      DelegationRun A w issued (sign A.toEnv c :: others)
  | changed {w w' : World} {issued : List (A.Token × DelegatedExecutionGrant)}
      {others : List A.Token} (hrun : DelegationRun A w issued others) (hnow : w.now ≤ w'.now)
      (hnext : w.next ≤ w'.next) (hkeyed : w'.cur.GrantsKeyed) : DelegationRun A w' issued others

/-- The token is one the service signed in the run, or none that verifies: only the
service has its key. -/
def Unforged (A : AppEnv) (issued : List (A.Token × DelegatedExecutionGrant))
    (others : List A.Token) (token : A.Token) : Prop :=
  ∀ now payload, decodeTokenForAudience A.toEnv now token toolserverAudience = .ok payload →
    token ∈ others ∨ ∃ grant, (token, grant) ∈ issued

/-- `introspect` only reads. -/
theorem introspect_within {F : Prop} (redis : Option Redis) (token : A.Token) :
    (introspect A redis token).Within F (Reading F) := by
  have hauthority : ∀ grant, (introspectAuthority grant).Within F (Reading F) := by
    intro grant
    refine (query_within _).bind fun client => ?_
    refine (query_within _).bind fun user => ?_
    refine (query_within _).bind fun membership => ?_
    split
    swap
    · trivial
    split
    · trivial
    refine time_within.bind fun now => ?_
    split
    · trivial
    split
    · trivial
    split
    · trivial
    exact (query_within _).bind fun held => trivial
  refine time_within.bind fun now => ?_
  split
  · trivial
  split
  · trivial
  split
  · trivial
  split
  · trivial
  refine time_within.bind fun now => ?_
  refine (query_within _).bind fun usable => ?_
  split
  · trivial
  refine (query_within _).bind fun row => ?_
  split
  · trivial
  refine time_within.bind fun now => ?_
  split
  · trivial
  · exact hauthority _

/-- What holds of the grants and tokens of a run. -/
structure DelegationInv (A : AppEnv) (w : World)
    (issued : List (A.Token × DelegatedExecutionGrant)) (others : List A.Token) : Prop where
  minted : ∀ i ∈ issued, MintedWith A i.1 i.2
  drawn : ∀ i ∈ issued, i.2.delegationId < w.next
  distinct : ∀ i ∈ issued, ∀ j ∈ issued, i.2.delegationId = j.2.delegationId → i = j
  others : ∀ token ∈ others, ∃ c : Claims, token = sign A.toEnv c ∧
    c.type ≠ some .delegatedExecution
  keyed : w.cur.GrantsKeyed

/-- Every step of a run keeps it. -/
theorem DelegationRun.inv {w : World} {issued : List (A.Token × DelegatedExecutionGrant)}
    {others : List A.Token} (hrun : DelegationRun A w issued others) :
    DelegationInv A w issued others := by
  induction hrun with
  | start hkeyed =>
    exact ⟨fun _ h => absurd h List.not_mem_nil, fun _ h => absurd h List.not_mem_nil,
      fun _ h => absurd h List.not_mem_nil, fun _ h => absurd h List.not_mem_nil, hkeyed⟩
  | @issued w w' issued others redis serviceToken initiatingToken orgId permissions audience answer
      hrun h ih =>
    obtain ⟨hminted, hdrawn, hnext, -, hrows, hfresh⟩ := issue_issued h
    refine ⟨?_, ?_, ?_, ih.others, ?_⟩
    · intro i hi
      rcases List.mem_cons.mp hi with rfl | hi
      · exact hminted
      · exact ih.minted i hi
    · intro i hi
      rcases List.mem_cons.mp hi with rfl | hi
      · omega
      · have hold := ih.drawn i hi
        omega
    · -- the id of the new grant is not one of those drawn before
      intro i hi j hj hij
      rcases List.mem_cons.mp hi with rfl | hold
      · rcases List.mem_cons.mp hj with rfl | hold
        · rfl
        · have hlt := ih.drawn j hold
          omega
      · rcases List.mem_cons.mp hj with rfl | hold'
        · have hlt := ih.drawn i hold
          omega
        · exact ih.distinct i hold j hold' hij
    · unfold Database.GrantsKeyed
      rw [hrows, List.map_append, List.nodup_append]
      refine ⟨ih.keyed, List.nodup_singleton _, ?_⟩
      intro id hid id' hid' heq
      obtain ⟨g, hg, rfl⟩ := List.mem_map.mp hid
      rw [List.map_singleton, List.mem_singleton] at hid'
      exact hfresh g hg (heq.trans hid')
  | @introspected w w' issued others redis token r hrun h ih =>
    have hmono := h.mono
    refine ⟨ih.minted, fun i hi => ?_, ih.distinct, ih.others, ?_⟩
    · have hold := ih.drawn i hi
      omega
    · have hinside : (introspect A redis token).Within False (Inside (Stmt.Leaves fun db => db)) :=
        inside_of_reading (introspect_within redis token)
      rw [(ends_leaving hinside r w' h).2.1]
      exact ih.keyed
  | signed hrun hother ih =>
    refine ⟨ih.minted, ih.drawn, ih.distinct, fun token htoken => ?_, ih.keyed⟩
    rcases List.mem_cons.mp htoken with rfl | htoken
    · exact ⟨_, rfl, hother⟩
    · exact ih.others token htoken
  | changed hrun hnow hnext hkeyed ih =>
    exact ⟨ih.minted, fun i hi => lt_of_lt_of_le (ih.drawn i hi) hnext, ih.distinct, ih.others,
      hkeyed⟩

/-! ## Live authority -/

/-- The row grants what the grant did: nothing but the time it expires or was revoked may
have changed. -/
structure DelegatedExecutionGrant.SameGrant (row grant : DelegatedExecutionGrant) : Prop where
  delegationId : row.delegationId = grant.delegationId
  clientId : row.clientId = grant.clientId
  userId : row.userId = grant.userId
  organizationId : row.organizationId = grant.organizationId
  audience : row.audience = grant.audience
  permissions : row.permissions.Perm grant.permissions

/-- **A grant is live**: its row is there, not revoked and not expired, and its client and its
user may do what it grants. -/
structure GrantLive (db : Database) (now : ℕ) (grant : DelegatedExecutionGrant) : Prop where
  stored : ∃ row ∈ db.delegatedExecutionGrants, row.delegationId = grant.delegationId
  row : ∀ row ∈ db.delegatedExecutionGrants, row.delegationId = grant.delegationId →
    row.revokedAt = none ∧ now ≤ row.expiresAt
  authorized : Authorized db now grant

theorem Authorized.congr {db : Database} {now : ℕ} {row grant : DelegatedExecutionGrant}
    (h : Authorized db now row) (hsame : row.SameGrant grant) : Authorized db now grant := by
  obtain ⟨client, hclient, hactive, hexpires, hscope, hscopes⟩ := h.client
  obtain ⟨user, membership, huser, hmembership, hheld⟩ := h.user
  rw [hsame.clientId] at hclient
  rw [hsame.userId] at huser hmembership
  rw [hsame.organizationId] at hmembership
  have hmem : ∀ p, p ∈ grant.permissions → p ∈ row.permissions := fun p =>
    hsame.permissions.mem_iff.mpr
  exact ⟨⟨client, hclient, hactive, hexpires, hscope, fun p hp => hscopes p (hmem p hp)⟩,
    user, membership, huser, hmembership, fun p hp => hheld p (hmem p hp)⟩

/-- By its primary key the row that is found is the row there is. -/
theorem Database.GrantsKeyed.eq_of_id {db : Database} (h : db.GrantsKeyed)
    {g g' : DelegatedExecutionGrant} (hg : g ∈ db.delegatedExecutionGrants)
    (hg' : g' ∈ db.delegatedExecutionGrants) (heq : g.delegationId = g'.delegationId) : g = g' :=
  List.inj_on_of_nodup_map h hg hg' heq

/-- What the token of a grant decodes to. -/
theorem MintedWith.decoded (hJ : A.jose.Lawful) {grant : DelegatedExecutionGrant}
    (h : MintedWith A token grant) {now : ℕ} {payload : Claims} {audience : String}
    (hd : decodeTokenForAudience A.toEnv now token audience = .ok payload) :
    ∃ t iss, payload = { delegationClaims A.toEnv grant t with iss := iss } ∧
      grant.expiresAt ≤ t + minutes A.delegatedExecutionTokenExpireMinutes := by
  obtain ⟨t, rfl, hexpires⟩ := h.signed
  obtain ⟨hpayload, -⟩ := decodeTokenForAudience_sign_ok hJ hd
  exact ⟨t, _, hpayload, hexpires⟩

/-- A row that matches the token of a grant grants the same. -/
theorem DelegatedExecutionGrant.Matches.same {row grant : DelegatedExecutionGrant}
    {payload : Claims} {t : ℕ} {iss : Option String} (hmatch : row.Matches payload)
    (hpayload : payload = { delegationClaims A.toEnv grant t with iss := iss })
    (hid : payload.delegationId = some row.delegationId) (hminted : MintedWith A token grant) :
    row.SameGrant grant := by
  obtain ⟨hclient, hsub, horg, haud, hperms⟩ := hmatch
  subst hpayload
  simp only [delegationClaims] at hid hclient hsub horg haud hperms
  have hgranted : (sortedSet grant.permissions).Perm grant.permissions := by
    unfold sortedSet
    rw [hminted.distinct.dedup]
    exact List.perm_insertionSort _ _
  have hleft : (sorted row.permissions).Perm row.permissions := List.perm_insertionSort _ _
  have hright : (sorted (sortedSet grant.permissions)).Perm (sortedSet grant.permissions) :=
    List.perm_insertionSort _ _
  rw [hperms] at hleft
  have hsorted : row.permissions.Perm (sortedSet grant.permissions) := hleft.symm.trans hright
  exact ⟨(Option.some.inj hid).symm, (Option.some.inj hclient).symm,
    (Subject.user.inj (Option.some.inj hsub)).symm, (Option.some.inj horg).symm,
    (Option.some.inj haud).symm.trans hminted.audience.symm, hsorted.trans hgranted⟩

/-- **Delegated execution is bounded by live authority.** In every run, an identity is
introspected only from a token that was minted with a grant whose row is still there and
grants the same; its permissions are those of the row, and the grant is live. A token whose
grant is not live is introspected to nothing. The token's own expiry is no part of what is
compared: it is not before the one the grant was issued with. -/
theorem delegation_bounded (hJ : A.jose.Lawful) {w w' : World}
    {issued : List (A.Token × DelegatedExecutionGrant)} {others : List A.Token}
    (hrun : DelegationRun A w issued others) {redis : Option Redis} {token : A.Token}
    (htoken : Unforged A issued others token) {r : Except Err (Option DelegatedIdentity)}
    (h : (introspect A redis token).Exec w r w') :
    (∀ identity, r = .ok (some identity) → ∃ grant row, (token, grant) ∈ issued ∧
      row ∈ w.cur.delegatedExecutionGrants ∧ row.SameGrant grant ∧ identity = row.identity ∧
      (∃ t payload exp, w.now ≤ t ∧
        decodeTokenForAudience A.toEnv t token toolserverAudience = .ok payload ∧
        payload.exp = some exp ∧ numericDate grant.expiresAt ≤ exp) ∧
      (∀ p ∈ identity.permissions, p ∈ acceptedPermissions) ∧ GrantLive w.cur w.now row) ∧
    ∀ grant, (token, grant) ∈ issued → ¬ GrantLive w.cur w.now grant → r = .ok none := by
  have hinv := hrun.inv
  obtain ⟨o, rfl, hanswer⟩ := introspect_ends redis token w r w' h
  have hfirst : ∀ identity, o = some identity → ∃ grant row, (token, grant) ∈ issued ∧
      row ∈ w.cur.delegatedExecutionGrants ∧ row.SameGrant grant ∧ identity = row.identity ∧
      (∃ t payload exp, w.now ≤ t ∧
        decodeTokenForAudience A.toEnv t token toolserverAudience = .ok payload ∧
        payload.exp = some exp ∧ numericDate grant.expiresAt ≤ exp) ∧
      (∀ p ∈ identity.permissions, p ∈ acceptedPermissions) ∧ GrantLive w.cur w.now row := by
    intro identity ho
    obtain ⟨t, payload, row, ht, hdecode, htype, hid, hfound, hexpires, hmatch, rfl, hauthorized⟩ :=
      hanswer identity ho
    have hrow : row ∈ w.cur.delegatedExecutionGrants := List.mem_of_find?_eq_some hfound
    have hlive : row.revokedAt = none := by
      have hkey := List.find?_some hfound
      simp only [decide_eq_true_eq] at hkey
      exact hkey.2
    rcases htoken t payload hdecode with hother | ⟨grant, hgrant⟩
    · -- no other token is a delegation
      obtain ⟨c, rfl, hc⟩ := hinv.others token hother
      obtain ⟨rfl, -⟩ := decodeTokenForAudience_sign_ok hJ hdecode
      exact absurd htype hc
    · have hminted : MintedWith A token grant := hinv.minted _ hgrant
      obtain ⟨t', iss, hpayload, hissued⟩ := hminted.decoded hJ hdecode
      have hsame : row.SameGrant grant := hmatch.same hpayload hid hminted
      have hexp : payload.exp =
          some (numericDate (t' + minutes A.delegatedExecutionTokenExpireMinutes)) := by
        rw [hpayload]
        rfl
      refine ⟨grant, row, hgrant, hrow, hsame, rfl,
        ⟨t, payload, _, ht, hdecode, hexp, Nat.div_le_div_right hissued⟩, ?_, ⟨row, hrow, rfl⟩, ?_,
        hauthorized⟩
      · intro p hp
        exact hminted.accepted p (hsame.permissions.mem_iff.mp hp)
      · intro row' hrow' hid'
        rw [hinv.keyed.eq_of_id hrow' hrow hid']
        exact ⟨hlive, hexpires⟩
  refine ⟨fun identity hr => hfirst identity (Except.ok.inj hr), fun grant hgrant hnot => ?_⟩
  cases ho : o with
  | none => rfl
  | some identity =>
    -- the token names one grant, and that is the one of the row
    obtain ⟨grant', row, hgrant', hrow, hsame, -, ⟨t, payload, -, -, hdecode, -⟩, -, hlive⟩ :=
      hfirst identity ho
    have hminted : MintedWith A token grant := hinv.minted _ hgrant
    have hminted' : MintedWith A token grant' := hinv.minted _ hgrant'
    obtain ⟨_, _, hpayload, -⟩ := hminted.decoded hJ hdecode
    obtain ⟨_, _, hpayload', -⟩ := hminted'.decoded hJ hdecode
    have hid : grant.delegationId = grant'.delegationId :=
      Option.some.inj (congrArg Claims.delegationId (hpayload.symm.trans hpayload'))
    obtain ⟨-, rfl⟩ := Prod.mk.inj (hinv.distinct _ hgrant _ hgrant' hid)
    refine absurd ⟨⟨row, hrow, hsame.delegationId⟩, fun row' hrow' hid' => ?_,
      hlive.authorized.congr hsame⟩ hnot
    exact hlive.row row' hrow' (hid'.trans hsame.delegationId.symm)

/-! ## A delegation in organization 1 -/

/-- A grant is issued where the checks pass and the drawn id is new. The clock is read three
times: for the checks, for the expiry of the grant, and for the token. -/
theorem issue_answers {redis : Option Redis} {serviceToken initiatingToken : A.Token} {orgId : ℕ}
    {permissions : List String} {audience : String} {w : World} {now t t' : ℕ}
    {service : OAuthClient} {user : User} (hnow : w.now ≤ now) (ht : now ≤ t) (ht' : t ≤ t')
    (hdelegable : delegable A redis serviceToken initiatingToken orgId permissions audience now
      w.cur = .ok (service, user))
    (hfresh : ∀ g ∈ w.cur.delegatedExecutionGrants, g.delegationId ≠ w.next)
    {grant : DelegatedExecutionGrant}
    (hgrant : grant =
      { delegationId := w.next
        clientId := service.clientId
        userId := user.id
        organizationId := orgId
        permissions := sortedSet permissions
        audience := audience
        expiresAt := t + minutes A.delegatedExecutionTokenExpireMinutes })
    {db : Database}
    (hdb : db = { w.cur with
      delegatedExecutionGrants := w.cur.delegatedExecutionGrants ++ [grant] }) :
    (issue A redis serviceToken initiatingToken orgId permissions audience).Exec w
      (.ok (sign A.toEnv (delegationClaims A.toEnv grant t'), grant))
      ⟨db, db, t', w.next + 1, w.log⟩ := by
  have hfree : denote (.credential (.insertDelegatedGrant grant)) w.cur =
      .ok ⟨[.delegatedGrant grant.delegationId], fun db => { db with
        delegatedExecutionGrants := db.delegatedExecutionGrants ++ [grant] }⟩ := by
    simp only [denote, CredentialStmt.denote]
    refine if_neg ?_
    rintro ⟨g, hg, heq⟩
    rw [hgrant] at heq
    exact hfresh g hg heq
  subst hgrant hdb
  simp only [issue, bind_eq, exec_time_bind, exec_query_bind]
  refine ⟨now, hnow, ?_⟩
  rw [hdelegable]
  simp only [exec_draw_bind, exec_time_bind]
  refine ⟨t, ht, ?_⟩
  rw [execute, exec_returning_bind_ok hfree]
  simp only [exec_commitNow_bind, createDelegatedExecutionToken, bind_eq, bind_bind,
    exec_time_bind]
  exact ⟨t', ht', rfl, rfl⟩

/-- User 1 may read runs in organization 1, and its client may delegate that. -/
def delegatingOrganization : Database :=
  { Database.empty with
    users := [{ id := 1, status := .active }]
    roles := [{ id := 5, name := "reader", organizationId := some 1, permissions := ["runs.read"] }]
    organizations := [{ id := 1, slug := "one", status := .active }]
    memberships := [{ id := 1, organizationId := 1, userId := 1, status := .active,
                      roleIds := [5] }]
    oauthClients := [{ id := 1, clientId := "tes", organizationId := 1, status := .active,
                       scopes := ["runs.read", "toolserver.delegate"] }] }

def delegatingWorld : World := ⟨delegatingOrganization, delegatingOrganization, 0, 10, []⟩

def tesToken : AppEnv.symbolic.Token :=
  sign Env.symbolic { clientId := some "tes", orgId := some 1, authMethod := some .clientCredentials
                      scopes := ["runs.read", "toolserver.delegate"], type := some .access }

def readerToken : AppEnv.symbolic.Token :=
  sign Env.symbolic { sub := some (.user 1), type := some .access }

def readGrant : DelegatedExecutionGrant where
  delegationId := 10
  clientId := "tes"
  userId := 1
  organizationId := 1
  permissions := ["runs.read"]
  audience := toolserverAudience
  expiresAt := minutes 5

/-- The token of the grant, signed at `t`. -/
def readToken (t : ℕ) : AppEnv.symbolic.Token :=
  sign Env.symbolic (delegationClaims .symbolic readGrant t)

/-- The store with the grant, revoked or not. -/
def grantedDb (revokedAt : Option ℕ) : Database :=
  { delegatingOrganization with
    delegatedExecutionGrants := [{ readGrant with revokedAt := revokedAt }] }

def grantedWorld (t : ℕ) (revokedAt : Option ℕ) : World :=
  ⟨grantedDb revokedAt, grantedDb revokedAt, t, 11, []⟩

theorem readGrant_issued (t : ℕ) :
    DelegationRun .symbolic (grantedWorld t none) [(readToken t, readGrant)] [] := by
  have hstart : DelegationRun .symbolic delegatingWorld [] [] := .start List.nodup_nil
  have hdelegable : delegable .symbolic (some .empty) tesToken readerToken 1 ["runs.read"]
      toolserverAudience 0 delegatingWorld.cur = .ok
        ({ id := 1, clientId := "tes", organizationId := 1, status := .active,
           scopes := ["runs.read", "toolserver.delegate"] }, { id := 1, status := .active }) := by
    decide
  have hissue : (issue .symbolic (some .empty) tesToken readerToken 1 ["runs.read"]
      toolserverAudience).Exec delegatingWorld (.ok (readToken t, readGrant))
      (grantedWorld t none) :=
    issue_answers (Nat.le_refl 0) (Nat.le_refl 0) (Nat.zero_le t) hdelegable
      (fun _ h => absurd h List.not_mem_nil) (by decide) rfl
  exact .issued hstart hissue

theorem readToken_unforged (t : ℕ) (others : List AppEnv.symbolic.Token) :
    Unforged .symbolic [(readToken t, readGrant)] others (readToken t) :=
  fun _ _ _ => .inr ⟨readGrant, List.mem_singleton_self _⟩

/-- The grant is introspected while it is live, and no longer once it is revoked. -/
theorem delegation_bounded_revoked :
    (∃ w', (introspect .symbolic (some .empty) (readToken 0)).Exec (grantedWorld 0 none)
      (.ok (some readGrant.identity)) w') ∧
    GrantLive (grantedDb none) 0 readGrant ∧
    ∀ r w', (introspect .symbolic (some .empty) (readToken 0)).Exec
      (grantedWorld (seconds 60) (some (seconds 30))) r w' → r = .ok none := by
  have hrun := readGrant_issued 0
  have hanswer : ((introspect .symbolic (some .empty) (readToken 0)).run (grantedWorld 0 none)).1 =
      .ok (some readGrant.identity) := by rfl
  have hlive := exec_run (introspect .symbolic (some .empty) (readToken 0)) (grantedWorld 0 none)
  rw [hanswer] at hlive
  obtain ⟨_, _, -, hrow, -, -, -, -, hgrant⟩ :=
    (delegation_bounded Jose.symbolic_lawful hrun (readToken_unforged 0 []) hlive).1 _ rfl
  obtain rfl := List.mem_singleton.mp hrow
  refine ⟨⟨_, hlive⟩, hgrant, fun r w' h => ?_⟩
  have hrevoked : DelegationRun .symbolic (grantedWorld (seconds 60) (some (seconds 30)))
      [(readToken 0, readGrant)] [] :=
    .changed hrun (Nat.zero_le _) (Nat.le_refl _) (List.nodup_singleton _)
  refine (delegation_bounded Jose.symbolic_lawful hrevoked (readToken_unforged 0 []) h).2 readGrant
    (List.mem_singleton_self _) fun hnot => ?_
  have hrow := hnot.row _ (List.mem_singleton_self _) rfl
  cases hrow.1

/-- **The expiry of the token is another one.** Where the clock moves on by a second while
the grant is stored, an identity is introspected from a token that expires a second after
the grant. -/
theorem delegation_expiry_differs :
    DelegationRun .symbolic (grantedWorld (seconds 1) none) [(readToken (seconds 1), readGrant)] [] ∧
    (∃ w', (introspect .symbolic (some .empty) (readToken (seconds 1))).Exec
      (grantedWorld (seconds 1) none) (.ok (some readGrant.identity)) w') ∧
    ∀ t payload, decodeTokenForAudience .symbolic t (readToken (seconds 1)) toolserverAudience =
      .ok payload → payload.exp ≠ some (numericDate readGrant.expiresAt) := by
  refine ⟨readGrant_issued (seconds 1), ?_, fun t payload h => ?_⟩
  · have hanswer : ((introspect .symbolic (some .empty) (readToken (seconds 1))).run
        (grantedWorld (seconds 1) none)).1 = .ok (some readGrant.identity) := by rfl
    have hrun := exec_run (introspect .symbolic (some .empty) (readToken (seconds 1)))
      (grantedWorld (seconds 1) none)
    rw [hanswer] at hrun
    exact ⟨_, hrun⟩
  · obtain ⟨rfl, -⟩ := decodeTokenForAudience_sign_ok Jose.symbolic_lawful h
    decide

end OmniAuth
