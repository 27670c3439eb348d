import OmniAuth.Session.Outcome
import OmniAuth.Token.Blacklist
import OmniAuth.Token.Delegation

/-!
# What attenuation is worth

A token from `exchange_api_key` or `mint_user_service_token` names one
organization and carries a subset of what its user may do there. The gates and
`issue` take only the subject from it, and ask the database what that user may
do in the organization of the *request*. So the token reaches as far as its
user does: it stays within its claims where the user's own authority does.
-/

namespace OmniAuth

open Txn Prog

variable {A : AppEnv} {token : A.Token}

/-! ## Attenuated tokens -/

/-- The token is what one of the two endpoints returned. -/
inductive Attenuated (A : AppEnv) (token : A.Token) : Prop
  | apiKey {fullKey : String} {w w' : World} {answer : ApiKeyExchange A}
      (h : (exchangeApiKey A fullKey).Exec w (.ok (some answer)) w')
      (htoken : answer.accessToken = token)
  | serviceMint {targetEmail verificationMethod : String} {actorUserId ttl : ℕ}
      {orgId : Option ℕ} {w w' : World}
      (h : (mintUserServiceToken A targetEmail actorUserId verificationMethod orgId false).Exec w
        (.ok (token, ttl)) w')

/-- What both have in common: an access token of a user, for use by a service. -/
structure IsAttenuated (c : Claims) (userId : ℕ) : Prop where
  sub : c.sub = some (.user userId)
  type : c.type = some .access
  authMethod : c.authMethod = some .apiKey ∨ c.authMethod = some .serviceMint

namespace IsAttenuated

variable {c : Claims} {userId : ℕ}

theorem not_service (h : IsAttenuated c userId) : c.authMethod ≠ some .clientCredentials := by
  intro hc
  rcases h.authMethod with h | h <;> (rw [h] at hc; cases hc)

end IsAttenuated

theorem touchApiKey_exec {apiKey : ApiKey} {now : ℕ} {w w' : World} {r : Except Err Unit}
    (h : (touchApiKey apiKey now).Exec w r w') : r = .ok () := by
  have hwrite : ∀ {w : World}, ((execute (S := AuthSig)
      (.credential (.touchApiKey apiKey.id now))).bind fun _ => commitNow).Exec w r w' →
      r = .ok () := by
    intro w h
    rw [execute, exec_returning_bind_ok (e := ⟨_, _⟩) rfl] at h
    exact h.1
  unfold touchApiKey at h
  split at h
  · split at h
    · exact hwrite h
    · exact h.1
  · exact hwrite h

theorem exchangeApiKey_exec {fullKey : String} {w w' : World} {answer : ApiKeyExchange A}
    (h : (exchangeApiKey A fullKey).Exec w (.ok (some answer)) w') :
    ∃ c userId, answer.accessToken = sign A.toEnv c ∧ IsAttenuated c userId := by
  unfold exchangeApiKey at h
  split at h
  · cases h.1
  rcases exec_bind.mp h with ⟨verified, w₁, -, h⟩ | ⟨x, -, hx⟩
  swap
  · cases hx
  cases verified with
  | none => cases h.1
  | some apiKey =>
    simp only [bind_eq, exec_query_bind] at h
    split at h
    · cases h.1
    · rename_i user _
      split at h
      · cases h.1
      · simp only [exec_query_bind] at h
        split at h
        · cases h.1
        · split at h
          · cases h.1
          · simp only [exec_query_bind, exec_time_bind, exec_draw_bind] at h
            obtain ⟨t, -, h⟩ := h
            obtain ⟨-, w₂, -, h⟩ := exec_bind_inv h fun _ _ h => ⟨(), touchApiKey_exec h⟩
            obtain rfl := Option.some.inj (Except.ok.inj h.1)
            exact ⟨_, user.id, rfl, rfl, rfl, .inl rfl⟩

/-- The payload `mint_user_service_token` signs is the target's. -/
theorem mintTarget_payload {db : Database} {targetEmail : String} {orgId : Option ℕ}
    {allowPrivileged : Bool} {payload : Claims}
    (h : (mintTarget A targetEmail orgId allowPrivileged db).payload = .ok payload) :
    ∃ user membership, payload = buildUserClaims db user .serviceMint none none membership := by
  unfold mintTarget at h
  split at h
  · cases h
  · rename_i user _
    split at h
    · cases h
    · dsimp only at h
      split at h
      · cases h
      · rename_i membership _
        split at h
        · cases h
        · dsimp only at h
          split at h
          · cases h
          · exact ⟨user, membership, (Except.ok.inj h).symm⟩

theorem mintUserServiceToken_exec {targetEmail verificationMethod : String} {actorUserId ttl : ℕ}
    {orgId : Option ℕ} {w w' : World}
    (h : (mintUserServiceToken A targetEmail actorUserId verificationMethod orgId false).Exec w
      (.ok (token, ttl)) w') :
    ∃ c userId, token = sign A.toEnv c ∧ IsAttenuated c userId := by
  simp only [mintUserServiceToken, bind_eq, exec_query_bind] at h
  split at h
  · rcases exec_bind.mp h with ⟨_, _, -, h⟩ | ⟨x, -, hx⟩
    · cases h.1
    · cases hx
  · rename_i payload hpayload
    obtain ⟨user, membership, rfl⟩ := mintTarget_payload hpayload
    simp only [createAccessToken, bind_eq, bind_bind, pure_eq, ret_bind, exec_time_bind,
      exec_draw_bind] at h
    obtain ⟨t, -, h⟩ := h
    rcases exec_bind.mp h with ⟨_, _, -, h⟩ | ⟨x, -, hx⟩
    · obtain ⟨rfl, -⟩ := Prod.mk.inj (Except.ok.inj h.1)
      exact ⟨_, user.id, rfl, rfl, rfl, .inr rfl⟩
    · cases hx

/-- **An attenuated token is the access token of a user.** -/
theorem Attenuated.signed (h : Attenuated A token) :
    ∃ c userId, token = sign A.toEnv c ∧ IsAttenuated c userId := by
  cases h with
  | apiKey h htoken =>
    subst htoken
    exact exchangeApiKey_exec h
  | serviceMint h => exact mintUserServiceToken_exec h

/-- And decodes to one. -/
theorem Attenuated.decoded (hJ : A.jose.Lawful) (h : Attenuated A token) {now : ℕ}
    {payload : Claims} (hd : decodeToken A.toEnv now token = .ok payload) :
    ∃ userId, IsAttenuated payload userId := by
  obtain ⟨c, userId, rfl, hc⟩ := h.signed
  obtain ⟨rfl, -⟩ := decodeToken_sign_ok hJ hd
  exact ⟨userId, hc.sub, hc.type, hc.authMethod⟩

/-- A token decodes to the same claims whenever it does. -/
theorem Attenuated.decoded_eq (hJ : A.jose.Lawful) (h : Attenuated A token) {now now' : ℕ}
    {payload payload' : Claims} (hd : decodeToken A.toEnv now token = .ok payload)
    (hd' : decodeToken A.toEnv now' token = .ok payload') : payload' = payload := by
  obtain ⟨c, userId, rfl, hc⟩ := h.signed
  obtain ⟨rfl, -⟩ := decodeToken_sign_ok hJ hd
  obtain ⟨rfl, -⟩ := decodeToken_sign_ok hJ hd'
  rfl

/-! ## The gates -/

/-- What the user of these claims may do in an organization: by the first active
membership there, or by the roles of its administrators for those who may
manage all organizations. -/
def Reaches (db : Database) (payload : Claims) (userId orgId : ℕ) (permission : String) : Prop :=
  (∃ m, db.activeMembership userId orgId = some m ∧ permission ∈ db.permissionsOf m.roleIds) ∨
  manageAllOrgs ∈ payload.permissions ∧ (∃ org, db.organizationById orgId = some org) ∧
    ∃ role, getRoleByName db "org_admin" none = some role ∧ permission ∈ db.permissionsOf [role.id]

variable {now userId orgId : ℕ} {redis : Option Redis} {db : Database} {payload : Claims}
  {permission : String}

theorem getOrgMembership_ok (hp : IsAttenuated payload userId) {m : OrganizationMembership} :
    getOrgMembership db payload orgId = .ok m ↔ db.activeMembership userId orgId = some m := by
  unfold getOrgMembership
  rw [hp.sub]
  dsimp only
  cases db.activeMembership userId orgId with
  | none => simp
  | some m' => simp

/-- **What a gate admits**: a usable token, and a membership that carries the
permission. -/
theorem requirePermission_admits
    {membershipOf : Database → Claims → ℕ → Except Err OrganizationMembership} {E : Env}
    {token : E.Token} :
    (∃ m, requirePermission membershipOf permission now redis db E token orgId = .ok m) ↔
      ∃ user m, getCurrentUser now redis db E token = .ok user ∧
        membershipOf db user orgId = .ok m ∧ permission ∈ db.permissionsOf m.roleIds := by
  unfold requirePermission
  cases getCurrentUser now redis db E token with
  | error x => simp
  | ok user =>
    cases hm : membershipOf db user orgId with
    | error x => simp [hm]
    | ok m =>
      by_cases hperm : permission ∈ db.permissionsOf m.roleIds <;> simp [hm, hperm]

theorem platformAdminMembership_some (hp : IsAttenuated payload userId)
    {m : OrganizationMembership} (h : platformAdminMembership db orgId payload = some m) :
    (∃ org, db.organizationById orgId = some org) ∧
      ∃ role, getRoleByName db "org_admin" none = some role ∧ m.roleIds = [role.id] := by
  unfold platformAdminMembership at h
  rw [hp.sub] at h
  split at h
  · rename_i org role userId' horg hrole hsub
    obtain rfl := Option.some.inj h
    exact ⟨⟨org, horg⟩, role, hrole, rfl⟩
  · cases h

theorem platformAdminMembership_of (hp : IsAttenuated payload userId)
    (horg : ∃ org, db.organizationById orgId = some org) {role : Role}
    (hrole : getRoleByName db "org_admin" none = some role) :
    ∃ m, platformAdminMembership db orgId payload = some m ∧ m.roleIds = [role.id] := by
  obtain ⟨org, horg⟩ := horg
  refine ⟨{ id := 0, organizationId := orgId, userId := userId, status := .active,
            roleIds := [role.id] }, ?_, rfl⟩
  unfold platformAdminMembership
  rw [horg, hrole, hp.sub]

/-- **The two gates together** admit a usable token of a user who reaches the
permission. -/
theorem gates_iff_reaches (hp : IsAttenuated payload userId)
    (huser : getCurrentUser now redis db A.toEnv token = .ok payload) :
    (∃ m, requireOrgPermission permission now redis db A.toEnv token orgId = .ok m) ∨
      (∃ m, requireOrgPermissionOrPlatformAdmin permission now redis db A.toEnv token orgId =
        .ok m) ↔
      Reaches db payload userId orgId permission := by
  unfold requireOrgPermission requireOrgPermissionOrPlatformAdmin
  rw [requirePermission_admits, requirePermission_admits, huser]
  constructor
  · rintro (⟨_, m, ⟨⟩, hm, hperm⟩ | ⟨_, m, ⟨⟩, hm, hperm⟩)
    · exact .inl ⟨m, (getOrgMembership_ok hp).mp hm, hperm⟩
    · unfold getOrgMembershipOrPlatformAdmin at hm
      split at hm
      · rename_i hall
        split at hm
        · rename_i synthetic hsynthetic
          obtain rfl := Except.ok.inj hm
          obtain ⟨horg, role, hrole, hids⟩ := platformAdminMembership_some hp hsynthetic
          rw [hids] at hperm
          exact .inr ⟨hall.2, horg, role, hrole, hperm⟩
        · exact .inl ⟨m, (getOrgMembership_ok hp).mp hm, hperm⟩
      · exact .inl ⟨m, (getOrgMembership_ok hp).mp hm, hperm⟩
  · rintro (⟨m, hm, hperm⟩ | ⟨hall, horg, role, hrole, hperm⟩)
    · exact .inl ⟨payload, m, rfl, (getOrgMembership_ok hp).mpr hm, hperm⟩
    · obtain ⟨m, hm, hids⟩ := platformAdminMembership_of hp horg hrole
      refine .inr ⟨payload, m, rfl, ?_, by rwa [hids]⟩
      unfold getOrgMembershipOrPlatformAdmin
      rw [if_pos ⟨hp.not_service, hall⟩, hm]

/-! ## Delegation -/

/-- **What `issue` asks for**: an active service entitled to what it requests,
an audience and permissions it delegates at all, a usable token, and an active
user who holds the permissions in the organization. -/
structure Entitled (A : AppEnv) (redis : Option Redis) (serviceToken : A.Token) (payload : Claims)
    (userId organizationId : ℕ) (permissions : List String) (audience : String) (now : ℕ)
    (db : Database) : Prop where
  service : ∃ c client, activeService A now db serviceToken = .ok (c, client) ∧
    ∀ p ∈ permissions, p ∈ c.scopes ∧ p ∈ client.scopes
  delegates : audience = toolserverAudience ∧ permissions ≠ [] ∧
    ∀ p ∈ permissions, p ∈ acceptedPermissions
  usable : assertTokenUsable now redis db payload = .ok ()
  organization : ∃ org, db.organizationById organizationId = some org
  held : ∃ user membership, db.activeUser userId = some user ∧
    db.activeMembership userId organizationId = some membership ∧
    ∀ p ∈ permissions, p ∈ userPermissions db user membership

theorem isKnownPermission_accepted {p : String} (h : p ∈ acceptedPermissions) :
    isKnownPermission p = true := by
  have hall : ∀ p ∈ acceptedPermissions, isKnownPermission p = true := by decide
  exact hall p h

variable {serviceToken : A.Token} {permissions : List String} {audience : String}

theorem userMembership_ok (hp : IsAttenuated payload userId)
    (hd : decodeToken A.toEnv now token = .ok payload) {user : User}
    {membership : OrganizationMembership} :
    userMembership A now redis db token orgId = .ok (user, membership) ↔
      assertTokenUsable now redis db payload = .ok () ∧
      (∃ org, db.organizationById orgId = some org) ∧ db.activeUser userId = some user ∧
      db.activeMembership userId orgId = some membership := by
  have hkind : ¬ (payload.type ≠ some .access ∨ payload.authMethod = some .clientCredentials) := by
    rintro (h | h)
    · exact h hp.type
    · exact hp.not_service h
  unfold userMembership
  simp only [hd, if_neg hkind, hp.sub]
  cases assertTokenUsable now redis db payload with
  | error x => simp
  | ok _ =>
    dsimp only
    cases db.activeUser userId with
    | none => simp
    | some user' =>
      cases db.organizationById orgId with
      | none => simp
      | some org =>
        cases db.activeMembership userId orgId with
        | none => simp
        | some membership' => simp

theorem delegable_iff (hp : IsAttenuated payload userId)
    (hd : decodeToken A.toEnv now token = .ok payload) :
    (∃ r, delegable A redis serviceToken token orgId permissions audience now db = .ok r) ↔
      Entitled A redis serviceToken payload userId orgId permissions audience now db := by
  unfold delegable
  constructor
  · rintro ⟨r, h⟩
    split at h
    · cases h
    · rename_i c client hservice
      split at h
      · cases h
      rename_i haudience
      split at h
      · cases h
      rename_i hperms
      split at h
      · cases h
      · rename_i user membership hmember
        split at h
        · cases h
        rename_i hheld
        push Not at haudience hperms hheld
        obtain ⟨husable, horg, huser, hmembership⟩ := (userMembership_ok hp hd).mp hmember
        exact ⟨⟨c, client, hservice, hheld.2⟩, ⟨haudience, hperms.1, hperms.2.1⟩, husable, horg,
          user, membership, huser, hmembership, hheld.1⟩
  · intro h
    obtain ⟨c, client, hservice, hscopes⟩ := h.service
    obtain ⟨user, membership, huser, hmembership, hheld⟩ := h.held
    have hmember := (userMembership_ok hp hd).mpr ⟨h.usable, h.organization, huser, hmembership⟩
    have hperms : ¬ (permissions = [] ∨ (∃ p ∈ permissions, p ∉ acceptedPermissions) ∨
        ∃ p ∈ permissions, isKnownPermission p = false) := by
      rintro (hnil | ⟨p, hmem, hnot⟩ | ⟨p, hmem, hunknown⟩)
      · exact h.delegates.2.1 hnil
      · exact hnot (h.delegates.2.2 p hmem)
      · rw [isKnownPermission_accepted (h.delegates.2.2 p hmem)] at hunknown
        cases hunknown
    have hdenied : ¬ ((∃ p ∈ permissions, p ∉ userPermissions db user membership) ∨
        ∃ p ∈ permissions, ¬ (p ∈ c.scopes ∧ p ∈ client.scopes)) := by
      rintro (⟨p, hmem, hnot⟩ | ⟨p, hmem, hnot⟩)
      · exact hnot (hheld p hmem)
      · exact hnot (hscopes p hmem)
    refine ⟨(client, user), ?_⟩
    rw [hservice]
    dsimp only
    rw [if_neg (not_not.mpr h.delegates.1), if_neg hperms, hmember]
    dsimp only
    rw [if_neg hdenied]

/-- **A grant** that is issued is for the requested organization and the
requested permissions. -/
theorem issue_exec {w w' : World} {answer : A.Token × DelegatedExecutionGrant}
    (h : (issue A redis serviceToken token orgId permissions audience).Exec w (.ok answer) w') :
    answer.2.organizationId = orgId ∧ answer.2.permissions = sortedSet permissions ∧
      ∃ now, w.now ≤ now ∧
        ∃ r, delegable A redis serviceToken token orgId permissions audience now w.cur = .ok r := by
  simp only [issue, bind_eq, exec_time_bind, exec_query_bind] at h
  obtain ⟨now, hnow, h⟩ := h
  split at h
  · cases h.1
  · rename_i service user hdecision
    simp only [exec_draw_bind, exec_time_bind] at h
    obtain ⟨t, -, h⟩ := h
    rcases exec_bind.mp h with ⟨_, w₁, -, h⟩ | ⟨x, -, hx⟩
    swap
    · cases hx
    simp only [bind_eq, exec_commitNow_bind, createDelegatedExecutionToken, bind_bind,
      exec_time_bind] at h
    obtain ⟨t', -, h, -⟩ := h
    obtain rfl := Except.ok.inj h
    exact ⟨rfl, rfl, now, hnow, _, hdecision⟩

/-- Where the drawn id is taken there is none. -/
theorem issue_taken {w w' : World} {answer : A.Token × DelegatedExecutionGrant}
    {g : DelegatedExecutionGrant} (hg : g ∈ w.cur.delegatedExecutionGrants)
    (hid : g.delegationId = w.next) :
    ¬ (issue A redis serviceToken token orgId permissions audience).Exec w (.ok answer) w' := by
  intro h
  have htaken : ∀ row : DelegatedExecutionGrant, row.delegationId = w.next →
      denote (.credential (.insertDelegatedGrant row)) w.cur = .error .integrity := by
    intro row hrow
    simp only [denote, CredentialStmt.denote]
    exact if_pos ⟨g, hg, hid.trans hrow.symm⟩
  simp only [issue, bind_eq, exec_time_bind, exec_query_bind] at h
  obtain ⟨now, -, h⟩ := h
  split at h
  · cases h.1
  · simp only [exec_draw_bind, exec_time_bind] at h
    obtain ⟨t, -, h⟩ := h
    rw [execute, exec_returning_bind_error (htaken _ rfl)] at h
    cases h.1

/-- The checks pass only for a token that decodes. -/
theorem delegable_decodes {r : OAuthClient × User}
    (h : delegable A redis serviceToken token orgId permissions audience now db = .ok r) :
    ∃ payload, decodeToken A.toEnv now token = .ok payload := by
  unfold delegable at h
  split at h
  · cases h
  · split at h
    · cases h
    · split at h
      · cases h
      · split at h
        · cases h
        · rename_i hmember
          unfold userMembership at hmember
          split at hmember
          · cases hmember
          · rename_i payload hd
            exact ⟨payload, hd⟩

/-- A grant is issued where the checks pass and the drawn id is new. -/
theorem issue_succeeds {w : World} {now : ℕ} (hnow : w.now ≤ now)
    (hfresh : ∀ g ∈ w.cur.delegatedExecutionGrants, g.delegationId ≠ w.next)
    {r : OAuthClient × User}
    (h : delegable A redis serviceToken token orgId permissions audience now w.cur = .ok r) :
    ∃ answer w', (issue A redis serviceToken token orgId permissions audience).Exec w
      (.ok answer) w' := by
  obtain ⟨service, user⟩ := r
  have hfree : ∀ row : DelegatedExecutionGrant, row.delegationId = w.next →
      denote (.credential (.insertDelegatedGrant row)) w.cur =
        .ok ⟨[.delegatedGrant row.delegationId], fun db => { db with
          delegatedExecutionGrants := db.delegatedExecutionGrants ++ [row] }⟩ := by
    intro row hrow
    simp only [denote, CredentialStmt.denote]
    refine if_neg ?_
    rintro ⟨g, hg, heq⟩
    exact hfresh g hg (heq.trans hrow)
  simp only [issue, bind_eq, exec_time_bind, exec_query_bind]
  -- the answer and the world after are read off the run below
  apply Exists.intro
  apply Exists.intro
  refine ⟨now, hnow, ?_⟩
  rw [h]
  simp only [exec_draw_bind, exec_time_bind]
  refine ⟨now, Nat.le_refl _, ?_⟩
  rw [execute, exec_returning_bind_ok (hfree _ rfl)]
  simp only [exec_commitNow_bind, createDelegatedExecutionToken, bind_eq, bind_bind,
    exec_time_bind]
  exact ⟨now, Nat.le_refl _, rfl, rfl⟩

/-! ## How far the token reaches -/

/-- **The reach of an attenuated token.** A request that bears it stays within
its claims, whatever the time, Redis, the database, the organization and the
permission, exactly when the permission is in the claims and the organization
is theirs, or the token is not accepted, or its user does not reach the
permission there. A grant issued on it stays within its claims exactly when the
request does, or the drawn id is taken, or the request is refused for other
reasons at all times from now on. -/
theorem attenuated_reach_iff (hJ : A.jose.Lawful) (ht : Attenuated A token) {t : ℕ}
    (hpayload : decodeToken A.toEnv t token = .ok payload) :
    ∃ userId, payload.sub = some (.user userId) ∧
    (∀ now redis db orgId permission,
      ((∃ m, requireOrgPermission permission now redis db A.toEnv token orgId = .ok m) ∨
          (∃ m, requireOrgPermissionOrPlatformAdmin permission now redis db A.toEnv token orgId =
            .ok m) →
        payload.orgId = some orgId ∧ permission ∈ payload.permissions) ↔
      (payload.orgId = some orgId ∧ permission ∈ payload.permissions) ∨
      (∃ x, getCurrentUser now redis db A.toEnv token = .error x) ∨
      ¬ Reaches db payload userId orgId permission) ∧
    (∀ redis serviceToken orgId permissions audience (w : World),
      (∀ answer w', (issue A redis serviceToken token orgId permissions audience).Exec w
          (.ok answer) w' →
        payload.orgId = some answer.2.organizationId ∧
          ∀ p ∈ answer.2.permissions, p ∈ payload.permissions) ↔
      (payload.orgId = some orgId ∧ ∀ p ∈ permissions, p ∈ payload.permissions) ∨
      (∃ g ∈ w.cur.delegatedExecutionGrants, g.delegationId = w.next) ∨
      ∀ now, w.now ≤ now → (∃ x, decodeToken A.toEnv now token = .error x) ∨
        ¬ Entitled A redis serviceToken payload userId orgId permissions audience now w.cur) := by
  obtain ⟨userId, hp⟩ := ht.decoded hJ hpayload
  refine ⟨userId, hp.sub, fun now redis db orgId permission => ?_,
    fun redis serviceToken orgId permissions audience w => ?_⟩
  · cases huser : getCurrentUser now redis db A.toEnv token with
    | error x =>
      refine iff_of_true ?_ (.inr (.inl ⟨x, rfl⟩))
      have hnone : ∀ membershipOf m,
          requirePermission membershipOf permission now redis db A.toEnv token orgId ≠ .ok m := by
        intro membershipOf m hm
        obtain ⟨user, _, hok, -⟩ := requirePermission_admits.mp ⟨m, hm⟩
        rw [huser] at hok
        cases hok
      rintro (⟨m, hm⟩ | ⟨m, hm⟩)
      · exact absurd hm (hnone _ m)
      · exact absurd hm (hnone _ m)
    | ok user =>
      obtain rfl := ht.decoded_eq hJ hpayload (getCurrentUser_ok huser).1
      rw [gates_iff_reaches hp huser]
      constructor
      · intro h
        by_cases hreach : Reaches db user userId orgId permission
        · exact .inl (h hreach)
        · exact .inr (.inr hreach)
      · rintro (h | ⟨x, hx⟩ | h) hreach
        · exact h
        · cases hx
        · exact absurd hreach h
  · constructor
    · intro h
      by_cases htaken : ∃ g ∈ w.cur.delegatedExecutionGrants, g.delegationId = w.next
      · exact .inr (.inl htaken)
      by_cases hclaims : payload.orgId = some orgId ∧ ∀ p ∈ permissions, p ∈ payload.permissions
      · exact .inl hclaims
      refine .inr (.inr fun now hnow => ?_)
      cases hd : decodeToken A.toEnv now token with
      | error x => exact .inl ⟨x, rfl⟩
      | ok payload' =>
        obtain rfl := ht.decoded_eq hJ hpayload hd
        refine .inr fun hentitled => hclaims ?_
        obtain ⟨r, hr⟩ := (delegable_iff hp hd).mpr hentitled
        obtain ⟨answer, w', hrun⟩ :=
          issue_succeeds hnow (fun g hg heq => htaken ⟨g, hg, heq⟩) hr
        obtain ⟨horg, hperms, -⟩ := issue_exec hrun
        obtain ⟨hself, hwithin⟩ := h answer w' hrun
        rw [horg] at hself
        refine ⟨hself, fun p hmem => hwithin p ?_⟩
        rw [hperms]
        exact mem_sortedSet.mpr hmem
    · rintro h answer w' hrun
      obtain ⟨horg, hperms, now, hnow, r, hr⟩ := issue_exec hrun
      rcases h with ⟨hself, hwithin⟩ | ⟨g, hg, heq⟩ | h
      · rw [horg, hperms]
        exact ⟨hself, fun p hmem => hwithin p (mem_sortedSet.mp hmem)⟩
      · exact absurd hrun (issue_taken hg heq)
      · exfalso
        cases hd : decodeToken A.toEnv now token with
        | error x =>
          have husable := delegable_decodes hr
          rw [hd] at husable
          obtain ⟨_, hok⟩ := husable
          cases hok
        | ok payload' =>
          obtain rfl := ht.decoded_eq hJ hpayload hd
          have hentitled := (delegable_iff hp hd).mp ⟨r, hr⟩
          rcases h now hnow with ⟨x, hx⟩ | hnot
          · rw [hd] at hx
            cases hx
          · exact hnot hentitled

/-! ## A key of organization 1 -/

/-- User 1 may read runs in organization 1, and manages organization 2. The key
belongs to organization 1. -/
def twoOrganizations : Database :=
  { Database.empty with
    users := [{ id := 1, status := .active }]
    roles := [{ id := 5, name := "org_admin", organizationId := none,
                permissions := ["manage_org"] },
              { id := 6, name := "reader", organizationId := some 1, permissions := ["runs.read"] }]
    organizations := [{ id := 1, slug := "one", status := .active },
                      { id := 2, slug := "two", status := .active }]
    memberships := [{ id := 1, organizationId := 1, userId := 1, status := .active,
                      roleIds := [6] },
                    { id := 2, organizationId := 2, userId := 1, status := .active,
                      roleIds := [5] }]
    apiKeys := [{ id := 3, organizationId := 1, createdByUserId := 1, keyHash := some 12,
                  scopes := ["runs.read"], status := .active }] }

/-- The token of the key, exchanged at the start of 1970. -/
def keyToken : AppEnv.symbolic.Token :=
  sign Env.symbolic (apiKeyClaims { id := 1, status := .active }
    { id := 3, organizationId := 1, createdByUserId := 1, keyHash := some 12,
      scopes := ["runs.read"], status := .active } ["runs.read"] 300 10)

/-- What the exchange answers. -/
def keyAnswer : ApiKeyExchange .symbolic where
  accessToken := keyToken
  expiresIn := 300
  apiKeyId := 3
  organizationId := 1
  userId := 1
  permissions := ["runs.read"]
  testMode := false

def keyWorld : World := ⟨twoOrganizations, twoOrganizations, 0, 10, []⟩

theorem keyToken_attenuated : Attenuated .symbolic keyToken := by
  have hanswer : ((exchangeApiKey .symbolic "omni_sk_live").run keyWorld).1 =
      .ok (some keyAnswer) := rfl
  have hrun := exec_run (exchangeApiKey .symbolic "omni_sk_live") keyWorld
  rw [hanswer] at hrun
  exact .apiKey hrun rfl

/-- In its own organization it stays within its claims. -/
theorem attenuated_reach_iff_own :
    Attenuated .symbolic keyToken ∧
    ∀ now redis db,
      (∃ m, requireOrgPermission "runs.read" now redis db .symbolic keyToken 1 = .ok m) ∨
        (∃ m, requireOrgPermissionOrPlatformAdmin "runs.read" now redis db .symbolic keyToken 1 =
          .ok m) →
      keyToken.2.orgId = some 1 ∧ "runs.read" ∈ keyToken.2.permissions := by
  refine ⟨keyToken_attenuated, fun now redis db => ?_⟩
  obtain ⟨userId, -, hgates, -⟩ :=
    attenuated_reach_iff (t := 0) Jose.symbolic_lawful keyToken_attenuated rfl
  exact (hgates now redis db 1 "runs.read").mpr (.inl ⟨rfl, by decide⟩)

/-- **In organization 2 it manages the organization**, for which it carries
neither the organization nor the permission. -/
theorem key_manages_other_organization :
    Attenuated .symbolic keyToken ∧
    requireOrgPermission "manage_org" (seconds 1) (some .empty) twoOrganizations .symbolic
      keyToken 2 = .ok { id := 2, organizationId := 2, userId := 1, status := .active,
                         roleIds := [5] } ∧
    ¬ (keyToken.2.orgId = some 2 ∧ "manage_org" ∈ keyToken.2.permissions) :=
  ⟨keyToken_attenuated, by decide, by decide⟩

end OmniAuth
