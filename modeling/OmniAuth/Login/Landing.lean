import OmniAuth.Login.Entries
import OmniAuth.Session.Outcome
import OmniAuth.Txn.Preserves

/-!
# The account a login lands on

Five entry points look for an account that is there already, by a linked identity, by a
link token or by a licence, and sign it in. Which account that is, and what is decided for
it, is a function of the database and of the time; up to the decision nothing happens to it.
-/

namespace OmniAuth

open Txn Prog

variable {A : AppEnv} {w w' : World}

/-- An account, how it is signed in, and the organization it joins. -/
structure Landing where
  user : User
  login : LoginContext
  joins : Option ℕ := none

/-- The database once the user has joined the organization. -/
def Database.joining (db : Database) (userId : ℕ) : Option ℕ → Database
  | none => db
  | some organizationId =>
      if (db.getMembership organizationId userId).isSome then db
      else { db with
        memberships := db.memberships ++
          [{ id := 0, organizationId := organizationId, userId := userId, status := .active,
             roleIds := [] }] }

/-- What is decided for the account. -/
def Landing.decision (A : AppEnv) (db : Database) (l : Landing) : Decision :=
  (db.joining l.user.id l.joins).decideLogin A l.user l.login

/-- The identity can be stored beside those that are. -/
def Identity.Linkable (identity : Identity) (db : Database) : Prop :=
  ¬ (identity.ssoConfigId.isSome ∧ identity.samlConfigId.isSome) ∧
    ∀ a ∈ db.oauthAccounts, ∀ k ∈ a.keys, k ∉ (identity.account 0 0).keys

instance (identity : Identity) (db : Database) : Decidable (identity.Linkable db) :=
  inferInstanceAs (Decidable (_ ∧ _))

section

variable (A) (db : Database) (now : ℕ)

/-- The account linked to the consumer identity, when nobody enforces another way. -/
def OAuthCallback.landing (r : OAuthCallback A) : Option Landing :=
  match verifyOauthState A now r.provider r.state, r.answer with
  | .ok _, .userinfo providerUserId email =>
      if (findEnforcedOrgForEmail A db email).isSome ∨
          (findEnforcedSamlOrgForEmail A db email).isSome then none
      else
        (db.findLinkedUser r.provider providerUserId none none).map fun user =>
          { user := user, login := { authMethod := .oauth } }
  | _, _ => none

/-- The account of the link token, when the password is its. -/
def LinkConfirm.landing (r : LinkConfirm A) : Option Landing :=
  match decodeLink A now r.linkToken with
  | .error _ => none
  | .ok claims =>
      if claims.identity.Linkable db then
        ((findUserByEmail A db claims.identity.email).filter fun user =>
            decide (user.id = claims.userId) &&
              onSome (user.hashedPassword.filter (· ≠ "")) (A.verifyPassword r.password)).bind
          fun user => (db.userById user.id).map fun user =>
            { user := user
              login := match claims.idpOrgId with
                | some org => { authMethod := .sso, idpOrgId := some org }
                | none => { authMethod := .oauth }
              joins := claims.idpOrgId }
      else none

/-- The account linked to the subject of the organization's provider. -/
def OidcCallback.landing (r : OidcCallback A) : Option Landing :=
  match verifySsoState A db now r.orgSlug r.state, r.answer with
  | .ok (org, config), .ok (sub, _) =>
      (db.findLinkedUser "oidc" sub (some config.id) none).map fun user =>
        { user := user
          login := { authMethod := .sso, idpOrgId := some org.id }
          joins := some org.id }
  | _, _ => none

/-- The account linked to the name of the assertion. -/
def SamlAcs.landing (r : SamlAcs A) : Option Landing :=
  match r.relayState.map (verifySamlRelayState A db now r.orgSlug), r.answer with
  | some (.ok (org, config)), some identity =>
      if '@' ∉ identity.nameId.toList then none
      else
        (db.findLinkedUser "saml" identity.nameId none (some config.id)).map fun user =>
          { user := user
            login :=
              { authMethod := .saml
                idpOrgId := some org.id
                samlNameId := some identity.nameId
                samlSessionIndex := identity.sessionIndex
                organizationSamlConfigId := some config.id }
            joins := some org.id }
  | _, _ => none

/-- The account with the address of the request, or of the licence. -/
def LicenseRequest.landing (r : LicenseRequest) : Option Landing :=
  match validateLicense A db now r.key r.email r.platform with
  | .error _ => none
  | .ok license =>
      ((db.userByEmail ((r.email.filter (· ≠ "")).getD license.email)).bind
        fun user => db.userById user.id).map fun user =>
          { user := user, login := { authMethod := .license } }

/-- The account a request lands on, its first reading of the clock being `now`. A password
and a challenge are given for an account whose status has been looked at. -/
def LoginCall.landing : LoginCall A → Option Landing
  | .password _ => none
  | .oauth r => OAuthCallback.landing A db now r
  | .linkConfirm r => LinkConfirm.landing A db now r
  | .oidc r => OidcCallback.landing A db now r
  | .saml r => SamlAcs.landing A db now r
  | .license r => LicenseRequest.landing A db now r
  | .challenge _ => none

end

/-! ## Up to the decision -/

/-- Nobody has signed in since `db`, and the account is there, in what is committed and in
what is seen. -/
def Database.Undecided (db : Database) (user : User) (db' : Database) : Prop :=
  db.SameLogins db' ∧ db'.HasAccount user

/-- What stands beside a login keeps it waiting. -/
theorem undecided_preliminary {α : Type} {F : Prop} {I : OAuthAccount → Prop} {db : Database}
    {user : User} {o : Op α} (h : o.Within F (Executing (Stmt.Preliminary I))) :
    o.Preserves (db.Undecided user) := by
  refine h.preserves fun {stmt seen eff} hstmt hden hwait => ?_
  have hbeside : stmt.Beside := hstmt.1
  exact ⟨hwait.1.trans (hbeside.sameLogins hden),
    (hbeside.for 0).keepsAccounts.account hden hwait.2⟩

/-- The world in which the decision is made. -/
structure Landed (A : AppEnv) (db : Database) (n : ℕ) (l : Landing) (user : User) (w : World) :
    Prop where
  same : l.user.SameAccount user
  undecided : Both (db.Undecided l.user) w
  next : n ≤ w.next
  decided : w.cur.decideLogin A user l.login = l.decision A db

/-- Identifiers from `n` on are not in use: no row has one, and no token was signed under
one. -/
structure Database.Unused (A : AppEnv) (db : Database) (n : ℕ) : Prop where
  below : db.Below n
  hashes : ∀ j, n ≤ j → ¬ db.HashTaken A.toEnv j
  roles : ∀ r ∈ db.roles, r.id < n
  memberships : ∀ m ∈ db.memberships, m.id < n
  identities : ∀ a ∈ db.oauthAccounts, a.id < n

/-! ### Joining -/

theorem getOrCreateRole_gives {name : String} {permissionNames : List String}
    (hroles : ∀ r ∈ w.cur.roles, r.id < w.next) :
    (getOrCreateRole name permissionNames).Ends w fun r w' => ∃ role roles, r = .ok role ∧
      w'.cur = { w.cur with roles := roles } ∧ w'.base = w.base ∧ w.next ≤ w'.next := by
  simp only [getOrCreateRole, bind_eq, ends_query_bind]
  split
  · rename_i role _
    exact ends_ret.mpr ⟨role, w.cur.roles, rfl, rfl, rfl, le_refl _⟩
  simp only [ends_draw_bind, execute]
  refine ends_returning_bind.mpr ⟨fun eff heff => ?_, fun x hx => ?_⟩
  · simp only [denote, OrgStmt.denote] at heff
    split at heff
    · cases heff
    · obtain rfl := Except.ok.inj heff
      exact ends_ret.mpr ⟨_, _, rfl, rfl, rfl, Nat.le_succ _⟩
  · simp only [denote, OrgStmt.denote] at hx
    split at hx
    · rename_i htaken
      obtain ⟨r, hr, hid⟩ := htaken
      exact absurd hid (hroles r hr).ne
    · cases hx

/-- Which organization is primary does not depend on the membership's own columns. -/
theorem decideLogin_joined {db : Database} {m m' : OrganizationMembership} {user : User}
    {login : LoginContext} {roles : List Role} {events : List AuditEvent}
    (horg : m.organizationId = m'.organizationId) (huser : m.userId = m'.userId)
    (hstatus : m.status = m'.status) :
    Database.decideLogin A { db with
        roles := roles, memberships := db.memberships ++ [m], auditEvents := events } user login =
      Database.decideLogin A { db with memberships := db.memberships ++ [m'] } user login := by
  have hprimary :
      (Database.resolvePrimaryMembership { db with
        roles := roles, memberships := db.memberships ++ [m], auditEvents := events }
          user.id).map (·.organizationId) =
      (Database.resolvePrimaryMembership { db with memberships := db.memberships ++ [m'] }
        user.id).map (·.organizationId) := by
    simp only [Database.resolvePrimaryMembership, List.filter_append, List.filter_singleton, huser,
      hstatus]
    cases decide (m'.userId = user.id ∧ m'.status = .active) with
    | false => rfl
    | true =>
      simp only [cond_true, List.find?_append, List.find?_singleton, horg]
      cases List.find? (fun m : OrganizationMembership =>
          onSome (db.organizations.find? (·.id = m.organizationId)) fun o => o.slug = "default")
          (db.memberships.filter fun m => m.userId = user.id ∧ m.status = .active) with
      | some a => rfl
      | none =>
        -- the new membership is the default one, or the first, or neither
        cases onSome (db.organizations.find? (·.id = m'.organizationId))
            fun o => o.slug = "default" with
        | true => simpa using horg
        | false =>
          cases db.memberships.filter fun m => m.userId = user.id ∧ m.status = .active with
          | nil => simpa using horg
          | cons a l => rfl
  unfold Database.decideLogin
  rw [hprimary]
  rfl

/-- The user joins, and what is decided is as if they had. -/
theorem jitProvisionMembership_ends (organizationId userId : ℕ)
    (hroles : ∀ r ∈ w.cur.roles, r.id < w.next)
    (hmembers : ∀ m ∈ w.cur.memberships, m.id < w.next) :
    (jitProvisionMembership organizationId userId).Ends w fun r w' => (∃ m, r = .ok m) ∧
      ∀ user login, w'.cur.decideLogin A user login =
        (w.cur.joining userId (some organizationId)).decideLogin A user login := by
  simp only [jitProvisionMembership, bind_eq, ends_query_bind]
  split
  · rename_i m hm
    refine ends_ret.mpr ⟨⟨m, rfl⟩, fun user login => ?_⟩
    rw [Database.joining, if_pos (by rw [hm]; rfl)]
  rename_i hnone
  simp only [joinAsMember, bind_eq]
  refine Ends.bind (M := fun _ w' => ∃ roles, w'.cur = { w.cur with roles := roles } ∧
      w.next ≤ w'.next) ((getOrCreateRole_gives hroles).mono ?_) ?_
  · rintro r w' ⟨role, roles, rfl, hcur, -, hnext⟩
    exact ⟨roles, hcur, hnext⟩
  rintro role w₁ ⟨roles, hcur, hnext⟩
  simp only [ends_time_bind, ends_draw_bind, execute]
  intro t ht
  refine ends_returning_bind.mpr ⟨fun eff heff => ?_, fun x hx => ?_⟩
  · simp only [denote, OrgStmt.denote] at heff
    split at heff
    · cases heff
    obtain rfl := Except.ok.inj heff
    refine Ends.bind (M := fun _ w' => ∃ events, w'.cur = { w.cur with
        roles := roles
        memberships := w.cur.memberships ++
          [{ id := w₁.next, organizationId := organizationId, userId := userId, status := .active
             roleIds := [role.id], joinedAt := t }]
        auditEvents := events }) ?_ ?_
    · intro r w' hlog
      obtain ⟨rfl, t', e, rfl⟩ := logEvent_exec hlog
      refine ⟨w.cur.auditEvents ++ [e], ?_⟩
      simp only [Database.insertAudit, hcur]
    · rintro - w₂ ⟨events, hcur₂⟩
      simp only [ends_commitNow_bind]
      refine ends_ret.mpr ⟨⟨_, rfl⟩, fun user login => ?_⟩
      rw [hcur₂, Database.joining, if_neg (by rw [hnone]; simp)]
      exact decideLogin_joined rfl rfl rfl
  · -- neither the id nor the pair is taken
    simp only [denote, OrgStmt.denote, hcur] at hx
    split at hx
    · rename_i htaken
      obtain ⟨m, hm, hid | hpair⟩ := htaken
      · have := hmembers m hm
        omega
      · have hfound := List.find?_eq_none.mp hnone m hm
        exact absurd hpair (by simpa using hfound)
    · cases hx

theorem decideLogin_sameAccount {db : Database} {user user' : User} (h : user.SameAccount user')
    (login : LoginContext) : db.decideLogin A user' login = db.decideLogin A user login := by
  have hmail : emailMfaRequired A user' login = emailMfaRequired A user login := by
    simp only [emailMfaRequired, isEnabledFor, h.email, h.status]
  unfold Database.decideLogin
  rw [h.mfaEnabled, hmail, h.id]

/-! ### One entry point after the other -/

section

variable {α β : Type} {db : Database} {n : ℕ} {l : Landing} {post : Except Err β → World → Prop}

/-- A part that stands beside the login and does not fail. -/
theorem undecided_bind {F : Prop} {I : OAuthAccount → Prop} {user : User} {o : Op α} {f : α → Op β}
    {Q : World → Prop} (hw : Both (db.Undecided user) w)
    (hprelim : o.Within F (Executing (Stmt.Preliminary I)))
    (hends : o.Ends w fun r w' => (∃ a, r = .ok a) ∧ Q w')
    (hf : ∀ a w', Both (db.Undecided user) w' → w.next ≤ w'.next → Q w' → (f a).Ends w' post) :
    (o.bind f).Ends w post := by
  have hnext : o.Ends w fun _ w' => w.next ≤ w'.next := fun _ _ hexec => hexec.mono.2.1
  refine ends_handle.mpr ((hends.and ((undecided_preliminary hprelim w hw).and hnext)).mono ?_)
  rintro r w' ⟨⟨⟨a, rfl⟩, hQ⟩, hundecided, hle⟩
  exact hf a w' hundecided hle hQ

/-- The account is read again before the decision. -/
theorem landed_refresh {f : User → Op β} (hw : Both (db.Undecided l.user) w) (hn : n ≤ w.next)
    (hdecided : ∀ user, l.user.SameAccount user →
      w.cur.decideLogin A user l.login = l.decision A db)
    (hf : ∀ user, Landed A db n l user w → (f user).Ends w post) :
    ((refreshUser l.user.id).bind f).Ends w post := by
  obtain ⟨user, hfound, hsame⟩ := hw.2.2
  simp only [refreshUser, bind_eq, bind_bind, ends_query_bind, hfound]
  exact hf user ⟨hsame, hw, hn, hdecided user hsame⟩

/-- They join first. -/
theorem landed_join {f : User → Op β} {organizationId : ℕ} (hw : Both (db.Undecided l.user) w)
    (hn : n ≤ w.next) (hroles : ∀ r ∈ w.cur.roles, r.id < w.next)
    (hmembers : ∀ m ∈ w.cur.memberships, m.id < w.next)
    (hdecided : (w.cur.joining l.user.id (some organizationId)).decideLogin A l.user l.login =
      l.decision A db)
    (hf : ∀ user w', Landed A db n l user w' → (f user).Ends w' post) :
    ((jitProvisionMembership organizationId l.user.id).bind fun _ =>
      (refreshUser l.user.id).bind f).Ends w post := by
  have hends := jitProvisionMembership_ends (A := A) organizationId l.user.id hroles hmembers
  refine undecided_bind hw
    (jitProvisionMembership_preliminary (I := fun _ => True) (F := True) _ _) hends
    fun _ w' hundecided hle hjoined => ?_
  refine landed_refresh hundecided (hn.trans hle) (fun user hsame => ?_) fun user => hf user w'
  rw [hjoined, decideLogin_sameAccount hsame, hdecided]

end

theorem Database.findLinkedUser_found {db : Database} {provider providerUserId : String}
    {ssoConfigId samlConfigId : Option ℕ} {user : User}
    (h : db.findLinkedUser provider providerUserId ssoConfigId samlConfigId = some user) :
    db.userById user.id = some user := by
  obtain ⟨a, -, hfound⟩ := Option.bind_eq_some_iff.mp h
  have hid : user.id = a.userId := by simpa using List.find?_some hfound
  rw [hid]
  exact hfound

theorem Database.undecided_found {db : Database} {user : User}
    (h : db.userById user.id = some user) : db.Undecided user db := ⟨.refl db, user, h, .refl user⟩

section

variable {t : ℕ} {l : Landing} {P : Database → Prop}

/-- What comes after the decision. -/
def Database.Settles (A : AppEnv) (db : Database) (n : ℕ) (l : Landing) (P : Database → Prop) :
    Prop :=
  ∀ user w, Landed A db n l user w → (issueTokensOrChallenge A user l.login).Ends w fun _ => Both P

theorem OidcCallback.lands {r : OidcCallback A}
    (hl : OidcCallback.landing A w.cur t r = some l) (hidle : w.base = w.cur)
    (hunused : w.cur.Unused A w.next) (hsettles : w.cur.Settles A w.next l P) :
    ((oidcCallback A r).reading t).Ends { w with now := t } fun _ => Both P := by
  unfold OidcCallback.landing at hl
  split at hl
  swap
  · cases hl
  rename_i org config sub email hstate hanswer
  obtain ⟨user, hlinked, rfl⟩ := Option.map_eq_some_iff.mp hl
  have hundecided := Database.undecided_found (Database.findLinkedUser_found hlinked)
  simp only [oidcCallback, bind_eq, reading_time_bind, ends_query_bind, hstate, hanswer, hlinked]
  exact landed_join (w := { w with now := t }) ⟨hidle ▸ hundecided, hundecided⟩ (le_refl _)
    hunused.roles hunused.memberships rfl hsettles

theorem SamlAcs.lands {r : SamlAcs A} (hl : SamlAcs.landing A w.cur t r = some l)
    (hidle : w.base = w.cur) (hunused : w.cur.Unused A w.next)
    (hsettles : w.cur.Settles A w.next l P) :
    ((samlAcs A r).reading t).Ends { w with now := t } fun _ => Both P := by
  unfold SamlAcs.landing at hl
  split at hl
  swap
  · cases hl
  rename_i org config identity hstate hanswer
  obtain ⟨relayState, hrelay, hstate⟩ := Option.map_eq_some_iff.mp hstate
  split at hl
  · cases hl
  rename_i hat
  obtain ⟨user, hlinked, rfl⟩ := Option.map_eq_some_iff.mp hl
  have hundecided := Database.undecided_found (Database.findLinkedUser_found hlinked)
  simp only [samlAcs, hrelay, bind_eq, reading_time_bind, ends_query_bind, hstate, hanswer,
    if_neg hat, completeSamlLogin, hlinked, samlSignIn]
  exact landed_join (w := { w with now := t }) ⟨hidle ▸ hundecided, hundecided⟩ (le_refl _)
    hunused.roles hunused.memberships rfl hsettles

/-! ### A consumer identity -/

theorem refuseEnforced_ends {email : String} {β : Type} {f : Unit → Op β}
    {post : Except Err β → World → Prop}
    (hsso : findEnforcedOrgForEmail A w.cur email = none)
    (hsaml : findEnforcedSamlOrgForEmail A w.cur email = none) :
    ((refuseEnforced A email).bind f).Ends w post ↔ (f ()).Ends w post := by
  simp only [refuseEnforced, refuseIfFound, bind_eq, bind_bind, ends_query_bind, hsso, hsaml,
    pure_eq, ret_bind]

theorem OAuthCallback.lands {r : OAuthCallback A} (hl : OAuthCallback.landing A w.cur t r = some l)
    (hidle : w.base = w.cur)
    (hP : ∀ {stmt seen eff}, Stmt.Beside stmt → denote stmt seen = .ok eff → P seen →
      P (eff.delta seen))
    (hsettles : w.cur.Settles A w.next l P) :
    ((oauthCallback A r).reading t).Ends { w with now := t } fun _ => Both P := by
  unfold OAuthCallback.landing at hl
  split at hl
  swap
  · cases hl
  rename_i providerUserId email hstate hanswer
  split at hl
  · cases hl
  rename_i henforced
  obtain ⟨hsso, hsaml⟩ := not_or.mp henforced
  obtain ⟨user, hlinked, rfl⟩ := Option.map_eq_some_iff.mp hl
  have hundecided := Database.undecided_found (Database.findLinkedUser_found hlinked)
  simp only [oauthCallback, bind_eq, reading_time_bind, hstate, hanswer, completeOauthFlow]
  refine (refuseEnforced_ends (by simpa using hsso) (by simpa using hsaml)).mpr ?_
  simp only [ends_query_bind, hlinked, oauthSignIn, bind_eq]
  have hlanded : Landed A w.cur w.next ⟨user, { authMethod := .oauth }, none⟩ user
      { w with now := t } :=
    ⟨.refl user, ⟨hidle ▸ hundecided, hundecided⟩, le_refl _, rfl⟩
  refine (hsettles user _ hlanded).bind_world fun reply w' hw' => ?_
  split
  · refine Preserves.bind ?_ (fun _ => preserves_ret _) w' hw'
    exact (logEvent_preliminary (I := fun _ => True) (F := True) (by simp) _).preserves
      fun hstmt hden hp => hP hstmt.1 hden hp
  · exact ends_ret.mpr hw'

/-! ### A link token -/

theorem Database.joining_identities {db : Database} {accounts : List OAuthAccount} {userId : ℕ}
    {joins : Option ℕ} {user : User} {login : LoginContext} :
    (Database.joining { db with oauthAccounts := accounts } userId joins).decideLogin A user login =
      (db.joining userId joins).decideLogin A user login := by
  cases joins with
  | none => rfl
  | some organizationId =>
    simp only [Database.joining]
    have hsame : Database.getMembership { db with oauthAccounts := accounts } organizationId
        userId = db.getMembership organizationId userId := rfl
    rw [hsame]
    split <;> rfl

/-- The identity is stored, and nothing else. -/
theorem linkOauthToExistingUser_ends {user : User} {identity : Identity}
    (hlinkable : identity.Linkable w.cur) (hids : ∀ a ∈ w.cur.oauthAccounts, a.id < w.next) :
    (linkOauthToExistingUser user identity true).Ends w fun r w' => (∃ u, r = .ok u) ∧
      ∃ accounts, w'.cur = { w.cur with oauthAccounts := accounts } := by
  obtain ⟨hscope, hkeys⟩ := hlinkable
  simp only [linkOauthToExistingUser, assertSingleIdpScope, if_neg hscope, pure_eq, bind_eq,
    ret_bind, addOAuthAccount, bind_bind, ends_draw_bind, if_true, execute]
  refine ends_returning_bind.mpr ⟨fun eff heff => ?_, fun x hx => ?_⟩
  · simp only [denote, AccountStmt.denote] at heff
    split at heff
    · cases heff
    obtain rfl := Except.ok.inj heff
    exact ends_commitNow.mpr ⟨⟨_, rfl⟩, _, rfl⟩
  · simp only [denote, AccountStmt.denote] at hx
    split at hx
    · rename_i htaken
      obtain ⟨a, ha, hid | ⟨k, hk, hmem⟩⟩ := htaken
      · exact absurd hid (hids a ha).ne
      · exact absurd hmem (hkeys a ha k hk)
    · cases hx

theorem LinkConfirm.lands {r : LinkConfirm A} (hl : LinkConfirm.landing A w.cur t r = some l)
    (hidle : w.base = w.cur) (hunused : w.cur.Unused A w.next)
    (hsettles : w.cur.Settles A w.next l P) :
    ((confirmOauthLink A r).reading t).Ends { w with now := t } fun _ => Both P := by
  unfold LinkConfirm.landing at hl
  split at hl
  · cases hl
  rename_i claims hclaims
  split at hl
  swap
  · cases hl
  rename_i hlinkable
  obtain ⟨user, huser, hl⟩ := Option.bind_eq_some_iff.mp hl
  obtain ⟨account, haccount, rfl⟩ := Option.map_eq_some_iff.mp hl
  obtain ⟨hfound, hchecks⟩ := Option.filter_eq_some_iff.mp huser
  obtain ⟨hid, hpassword⟩ := Bool.and_eq_true_iff.mp hchecks
  have hsameId : account.id = user.id := by simpa using List.find?_some haccount
  have hundecided : w.cur.Undecided account w.cur :=
    Database.undecided_found (by rw [hsameId]; exact haccount)
  have hfilter : (findUserByEmail A w.cur claims.identity.email).filter (·.id = claims.userId) =
      some user := Option.filter_eq_some_iff.mpr ⟨hfound, hid⟩
  cases hhash : user.hashedPassword.filter (· ≠ "") with
  | none =>
    rw [hhash] at hpassword
    cases hpassword
  | some hash =>
    have hverified : A.verifyPassword r.password hash = true := by
      rw [hhash] at hpassword
      exact hpassword
    simp only [confirmOauthLink, bind_eq, reading_time_bind, hclaims, ends_query_bind, hfilter,
      hhash, hverified, ends_note_bind, if_neg (by decide : ¬ true = false), linkAndSignIn]
    have hbase : w.cur.Undecided account w.base := by
      rw [hidle]
      exact hundecided
    have hprelim : (linkOauthToExistingUser user claims.identity true).Within True
        (Executing (Stmt.Preliminary fun _ => True)) :=
      linkOauthToExistingUser_preliminary (fun _ _ => trivial) _ _
    refine undecided_bind ⟨hbase, hundecided⟩ hprelim
      (linkOauthToExistingUser_ends hlinkable hunused.identities) fun _ w' hw' hle heffect => ?_
    obtain ⟨accounts, hcur⟩ := heffect
    -- the rows a joining reads are those that were there
    have hroles : ∀ r ∈ w'.cur.roles, r.id < w'.next := by
      rw [hcur]
      exact fun r hr => (hunused.roles r hr).trans_le hle
    have hmembers : ∀ m ∈ w'.cur.memberships, m.id < w'.next := by
      rw [hcur]
      exact fun m hm => (hunused.memberships m hm).trans_le hle
    have hdecided : ∀ login,
        (w'.cur.joining account.id claims.idpOrgId).decideLogin A account login =
          (w.cur.joining account.id claims.idpOrgId).decideLogin A account login := by
      intro login
      rw [hcur]
      exact Database.joining_identities
    rw [← hsameId]
    cases hjoins : claims.idpOrgId with
    | some organizationId =>
      simp only [hjoins] at hsettles hdecided
      exact landed_join hw' hle hroles hmembers (hdecided _) hsettles
    | none =>
      simp only [hjoins] at hsettles hdecided
      refine landed_refresh hw' hle (fun user hsame => ?_) fun user => hsettles user w'
      rw [decideLogin_sameAccount hsame]
      exact hdecided _

/-! ### A licence -/

/-- The statements since wrote to the licences only, and the licence is still there. -/
def Database.KeepsLicense (db : Database) (id : ℕ) (db' : Database) : Prop :=
  ∃ keys, db' = { db with licenseKeys := keys } ∧ ∃ license ∈ keys, license.id = id

theorem Database.keepsLicense_update {db db' : Database} {id other : ℕ}
    {f : LicenseKey → LicenseKey} (hf : ∀ license, (f license).id = license.id)
    (h : db.KeepsLicense id db') :
    db.KeepsLicense id (db'.updateLicense other f) := by
  obtain ⟨keys, rfl, license, hmem, hid⟩ := h
  refine ⟨_, rfl, _, List.mem_map_of_mem hmem, ?_⟩
  split
  · rw [hf, hid]
  · exact hid

theorem markUsed_ends {db : Database} {id : ℕ} {license : LicenseKey} {user : User}
    (h : db.KeepsLicense id w.cur) :
    (markUsed license user).Ends w fun r w' => (∃ u, r = .ok u) ∧ db.KeepsLicense id w'.cur := by
  simp only [markUsed, bind_eq, ends_time_bind, execute]
  intro t' ht'
  refine ends_returning_bind.mpr ⟨fun eff heff => ?_, fun x hx => by cases hx⟩
  obtain rfl := Except.ok.inj heff
  exact ends_commitNow.mpr ⟨⟨_, rfl⟩, Database.keepsLicense_update (fun _ => rfl) h⟩

theorem bindMachineId_ends {db : Database} {id : ℕ} {license : LicenseKey} {machineId : String}
    (h : db.KeepsLicense id w.cur) :
    (bindMachineId license machineId).Ends w fun r w' =>
      (∃ u, r = .ok u) ∧ db.KeepsLicense id w'.cur := by
  simp only [bindMachineId, bind_eq, execute]
  split
  · refine ends_returning_bind.mpr ⟨fun eff heff => ?_, fun x hx => by cases hx⟩
    obtain rfl := Except.ok.inj heff
    exact ends_commitNow.mpr ⟨⟨_, rfl⟩, Database.keepsLicense_update (fun _ => rfl) h⟩
  · exact ends_ret.mpr ⟨⟨_, rfl⟩, h⟩

theorem refreshLicense_bind {db : Database} {id : ℕ} {β : Type} {f : LicenseKey → Op β}
    {post : Except Err β → World → Prop} (h : db.KeepsLicense id w.cur)
    (hf : ∀ license, license.id = id → (f license).Ends w post) :
    ((refreshLicense id).bind f).Ends w post := by
  obtain ⟨keys, hcur, license, hmem, hid⟩ := h
  have hsome : (w.cur.licenseById id).isSome := by
    rw [hcur]
    exact List.find?_isSome.mpr ⟨license, hmem, decide_eq_true hid⟩
  obtain ⟨found, hfound⟩ := Option.isSome_iff_exists.mp hsome
  simp only [refreshLicense, bind_eq, bind_bind, ends_query_bind, hfound]
  exact hf found (by simpa using List.find?_some hfound)

theorem lookupLicense_mem {db : Database} {key : String} {license : LicenseKey}
    (h : lookupLicense A db key = some license) : license ∈ db.licenseKeys := by
  simp only [lookupLicense] at h
  cases hdigest : (A.digestKey (normalizeKey A (normalizeKey A key))).bind fun digest =>
      db.licenseKeys.find? (·.keyDigest = some digest) with
  | some found =>
    rw [hdigest] at h
    obtain rfl := Option.some.inj h
    obtain ⟨digest, -, hfound⟩ := Option.bind_eq_some_iff.mp hdigest
    exact List.mem_of_find?_eq_some hfound
  | none =>
    rw [hdigest] at h
    exact List.mem_of_find?_eq_some h

theorem validateLicense_mem {db : Database} {now : ℕ} {key platform : String}
    {email : Option String} {license : LicenseKey}
    (h : validateLicense A db now key email platform = .ok license) : license ∈ db.licenseKeys := by
  unfold validateLicense at h
  split at h
  · cases h
  rename_i found hfound
  repeat' split at h
  all_goals first
    | cases h; exact lookupLicense_mem hfound
    | cases h

theorem LicenseRequest.lands {r : LicenseRequest}
    (hl : LicenseRequest.landing A w.cur t r = some l) (hidle : w.base = w.cur)
    (hsettles : w.cur.Settles A w.next l P) :
    ((licenseValidate A r).reading t).Ends { w with now := t } fun _ => Both P := by
  unfold LicenseRequest.landing at hl
  split at hl
  · cases hl
  rename_i license hvalid
  obtain ⟨account, haccount, rfl⟩ := Option.map_eq_some_iff.mp hl
  obtain ⟨user, huser, haccount⟩ := Option.bind_eq_some_iff.mp haccount
  have hsameId : account.id = user.id := by simpa using List.find?_some haccount
  have hundecided : w.cur.Undecided account w.cur :=
    Database.undecided_found (by rw [hsameId]; exact haccount)
  have hbase : w.cur.Undecided account w.base := by
    rw [hidle]
    exact hundecided
  have hlicensed : w.cur.KeepsLicense license.id w.cur :=
    ⟨_, rfl, license, validateLicense_mem hvalid, rfl⟩
  simp only [licenseValidate, validateAndConsume, bind_eq, bind_bind, reading_time_bind,
    ends_query_bind, hvalid, getOrCreateUserForEmail, huser, pure_eq, ret_bind]
  have hmark : (markUsed license user).Within True (Executing (Stmt.Preliminary fun _ => True)) :=
    time_executing.bind fun _ => Within.bind (execute_executing ⟨trivial, trivial⟩) fun _ =>
      commitNow_executing
  refine undecided_bind ⟨hbase, hundecided⟩ hmark (markUsed_ends hlicensed)
    fun _ w₁ hw₁ hle₁ hlic₁ => ?_
  refine refreshLicense_bind hlic₁ fun found hfound => ?_
  -- from here on it is the answer
  have hanswer : ∀ w₂, Both (w.cur.Undecided account) w₂ → w.next ≤ w₂.next →
      w.cur.KeepsLicense license.id w₂.cur →
      (answerLicense A found.id user.id).Ends w₂ fun _ => Both P := by
    intro w₂ hw₂ hle₂ hlic₂
    simp only [answerLicense, bind_eq]
    rw [hfound]
    refine refreshLicense_bind hlic₂ fun again _ => ?_
    simp only [ends_query_bind]
    rw [← hsameId]
    obtain ⟨keys, hcur, -⟩ := hlic₂
    let landing : Landing := { user := account, login := { authMethod := .license } }
    have hdecided : ∀ user, account.SameAccount user →
        w₂.cur.decideLogin A user { authMethod := .license } = landing.decision A w.cur := by
      intro user hsame
      rw [decideLogin_sameAccount hsame, hcur]
      rfl
    refine landed_refresh (l := landing) hw₂ hle₂ hdecided fun user hlanded => ?_
    refine (hsettles user w₂ hlanded).bind_world fun reply w' hw' => ?_
    split <;> exact ends_ret.mpr hw'
  split
  · rename_i machineId _
    have hbind : (bindMachineId found machineId).Within True
        (Executing (Stmt.Preliminary fun _ => True)) := by
      unfold bindMachineId
      split
      · exact Within.bind (execute_executing ⟨trivial, trivial⟩) fun _ => commitNow_executing
      · trivial
    exact undecided_bind hw₁ hbind (bindMachineId_ends hlic₁) fun _ w₂ hw₂ hle₂ hlic₂ =>
      hanswer w₂ hw₂ (hle₁.trans hle₂) hlic₂
  · exact hanswer w₁ hw₁ hle₁ hlic₁

/-! ### All of them -/

/-- **A request that lands on an account** comes to the decision about it. -/
theorem LoginCall.lands {call : LoginCall A} (hl : call.landing A w.cur t = some l)
    (hidle : w.base = w.cur) (hunused : w.cur.Unused A w.next)
    (hP : ∀ {stmt seen eff}, Stmt.Beside stmt → denote stmt seen = .ok eff → P seen →
      P (eff.delta seen))
    (hsettles : w.cur.Settles A w.next l P) :
    (call.op.reading t).Ends { w with now := t } fun _ => Both P := by
  cases call with
  | password r => cases hl
  | oauth r => exact OAuthCallback.lands hl hidle hP hsettles
  | linkConfirm r => exact LinkConfirm.lands hl hidle hunused hsettles
  | oidc r => exact OidcCallback.lands hl hidle hunused hsettles
  | saml r => exact SamlAcs.lands hl hidle hunused hsettles
  | license r => exact LicenseRequest.lands hl hidle hsettles
  | challenge r => cases hl

end

end OmniAuth
