import OmniAuth.Login.Steps

/-!
# What the entry points write of identities

An entry point of a login writes much, but of the identities of `oauth_accounts` only the
one it was asked about, and of the configurations of the identity providers nothing.
-/

namespace OmniAuth

open Txn Prog

variable {A : AppEnv} {F : Prop} {P : Stmt → Prop} {I : OAuthAccount → Prop}

/-- Statements that leave the configurations of the providers alone, and insert no identity
outside `I`. -/
def Stmt.Federated (I : OAuthAccount → Prop) : Stmt → Prop
  | .account (.insertOAuthAccount row) => I row
  | .org (.insertIdp _ _) | .org (.updateIdp _ _ _) => False
  | _ => True

/-- The row of an identity. -/
def Identity.account (identity : Identity) (id userId : ℕ) : OAuthAccount where
  id := id
  userId := userId
  provider := identity.provider
  providerUserId := identity.providerUserId
  email := identity.email
  organizationSsoConfigId := identity.ssoConfigId
  organizationSamlConfigId := identity.samlConfigId

theorem Stmt.OfSessions.federated {stmt : Stmt} (h : stmt.OfSessions) : stmt.Federated I := by
  cases stmt <;> first | exact h.elim | trivial

theorem Stmt.OfLogin.federated {stmt : Stmt} (h : stmt.OfLogin) : stmt.Federated I := by
  rcases h with h | h
  · exact h.federated
  · cases stmt <;> first | exact h.elim | trivial

theorem Stmt.OfChallenge.federated {stmt : Stmt} (h : stmt.OfChallenge) : stmt.Federated I := by
  cases stmt with
  | mfa stmt => trivial
  | insertAuditEvent event => trivial
  | _ => exact h.elim

/-! Reads are in any class. -/

theorem query_executing {α : Type} (f : Database → α) : (query f : Op α).Within F (Executing P) :=
  executing_of_reading (query_within f)

theorem time_executing : (time : Op ℕ).Within F (Executing P) := executing_of_reading time_within

theorem draw_executing : (draw : Op ℕ).Within F (Executing P) := executing_of_reading draw_within

theorem refreshUser_executing (userId : ℕ) : (refreshUser userId).Within F (Executing P) :=
  executing_of_reading (refreshUser_within userId)

/-- Statements of an entry point outside its decision: beside the login, and of identities
only those in `I`. -/
def Stmt.Preliminary (I : OAuthAccount → Prop) (stmt : Stmt) : Prop :=
  stmt.Beside ∧ stmt.Federated I

theorem federated_of {α : Type} {o : Op α} (h : o.Within F (Executing (Stmt.Preliminary I))) :
    o.Within F (Executing (Stmt.Federated I)) := executing_mono h fun _ h => h.2

theorem logEvent_federated (event : AuditEvent) (commit : Bool) :
    (logEvent event commit).Within F (Executing (Stmt.Federated I)) :=
  logEvent_executing (fun _ => trivial) commit

/-- What is logged is no challenge. -/
theorem logEvent_preliminary {event : AuditEvent} (h : event.eventType ≠ .mfaChallengeRequired)
    (commit : Bool) : (logEvent event commit).Within F (Executing (Stmt.Preliminary I)) :=
  logEvent_executing (fun _ => ⟨h, trivial⟩) commit

/-- A user object that is loaded again is the user's. -/
theorem refreshUser_bind_executing {α : Type} {userId : ℕ} {f : User → Op α}
    (hf : ∀ user, user.id = userId → (f user).Within F (Executing P)) :
    ((refreshUser userId).bind f).Within F (Executing P) := by
  refine ⟨fun db => ⟨trivial, ?_⟩, fun _ _ => ⟨trivial, trivial⟩⟩
  dsimp only
  cases huser : db.userById userId with
  | none => trivial
  | some user => exact hf user (by simpa using List.find?_some huser)

/-! ## Roles, memberships and accounts -/

theorem preliminary_of_inside {α : Type} {o : Op α}
    (h : o.Within F (Inside (Stmt.Preliminary I))) :
    o.Within F (Executing (Stmt.Preliminary I)) :=
  h.mono fun ℓ hℓ => by cases ℓ <;> first | exact hℓ | trivial

theorem getOrCreateRole_inside (name : String) (permissionNames : List String) :
    (getOrCreateRole name permissionNames).Within F (Inside (Stmt.Preliminary I)) := by
  refine (inside_of_reading (query_within _)).bind fun role => ?_
  split
  · trivial
  · refine (inside_of_reading draw_within).bind fun id => ?_
    exact Within.bind (execute_inside ⟨trivial, trivial⟩) fun _ => trivial

theorem assignDefaultRole_inside (user : User) :
    (assignDefaultRole user).Within F (Inside (Stmt.Preliminary I)) := by
  refine (getOrCreateRole_inside _ _).bind fun role => ?_
  split
  · trivial
  · exact execute_inside ⟨trivial, trivial⟩

theorem jitProvisionMembership_preliminary (organizationId userId : ℕ) :
    (jitProvisionMembership organizationId userId).Within F (Executing (Stmt.Preliminary I)) := by
  refine (query_executing _).bind fun existing => ?_
  split
  · trivial
  · refine (preliminary_of_inside (getOrCreateRole_inside _ _)).bind fun role => ?_
    refine time_executing.bind fun now => ?_
    refine draw_executing.bind fun id => ?_
    refine Within.bind (execute_executing ⟨trivial, trivial⟩) fun _ => ?_
    refine (logEvent_preliminary (by simp) _).bind fun _ => ?_
    exact commitNow_executing.bind fun _ => trivial

section

variable {identity : Identity} (hok : ∀ id userId, I (identity.account id userId))
include hok

theorem addOAuthAccount_inside (userId : ℕ) :
    (addOAuthAccount userId identity).Within F (Inside (Stmt.Preliminary I)) :=
  (inside_of_reading draw_within).bind fun id => execute_inside ⟨trivial, hok id userId⟩

theorem createUserWithOauth_preliminary (commit : Bool) :
    (createUserWithOauth identity commit).Within F (Executing (Stmt.Preliminary I)) := by
  refine Within.bind ?_ fun _ => ?_
  · unfold assertSingleIdpScope
    split <;> trivial
  refine draw_executing.bind fun id => ?_
  refine Within.bind (execute_executing ⟨trivial, trivial⟩) fun _ => ?_
  refine (preliminary_of_inside (assignDefaultRole_inside _)).bind fun _ => ?_
  refine (preliminary_of_inside (addOAuthAccount_inside hok _)).bind fun _ => ?_
  cases commit
  · exact refreshUser_executing _
  · exact commitNow_executing.bind fun _ => refreshUser_executing _

theorem linkOauthToExistingUser_preliminary (user : User) (commit : Bool) :
    (linkOauthToExistingUser user identity commit).Within F (Executing (Stmt.Preliminary I)) := by
  refine Within.bind ?_ fun _ => ?_
  · unfold assertSingleIdpScope
    split <;> trivial
  refine (preliminary_of_inside (addOAuthAccount_inside hok _)).bind fun _ => ?_
  cases commit
  · trivial
  · exact commitNow_executing

end

theorem issueLinkConfirmation_preliminary (user : User) (identity : Identity)
    (idpOrgId : Option ℕ) :
    (issueLinkConfirmation A user identity idpOrgId).Within F (Executing (Stmt.Preliminary I)) := by
  refine Within.bind ?_ fun _ => ?_
  · unfold assertSingleIdpScope
    split <;> trivial
  · exact time_executing.bind fun _ => draw_executing.bind fun _ => trivial

/-! ## From the decision on -/

/-- Statements from the decision on: those of a login, of a challenge, and the enrollment
session. -/
def Stmt.OfDecision (stmt : Stmt) : Prop :=
  stmt.OfLogin ∨ stmt.OfChallenge ∨ match stmt with
    | .mfa (.insertEnrollmentSession _) => True
    | _ => False

theorem generateTokensOrMfaChallenge_within (user : User) (login : LoginContext)
    (client : ClientInfo) (mailSent : Bool) :
    (generateTokensOrMfaChallenge A user login client mailSent).Within F
      (Executing Stmt.OfDecision) := by
  unfold generateTokensOrMfaChallenge
  refine (executing_of_reading (query_within _)).bind fun membership => ?_
  refine (executing_of_reading (query_within _)).bind fun required => ?_
  split
  · split
    · trivial
    · refine Within.bind ?_ fun _ => trivial
      exact executing_of_within (generateTokens_within _ _ _ _) fun _ h => .inl h
  · exact executing_mono (challengeLogin_within _ _ _ _) fun _ h => .inr (.inl h)

theorem createEnrollmentToken_within (userId : ℕ) :
    (createEnrollmentToken A userId).Within F (Executing Stmt.OfDecision) := by
  refine (executing_of_reading time_within).bind fun now => ?_
  refine (executing_of_reading draw_within).bind fun jti => ?_
  refine (executing_of_reading draw_within).bind fun id => ?_
  refine Within.bind (execute_executing (.inr (.inr trivial))) fun _ => ?_
  exact commitNow_executing.bind fun _ => (executing_of_reading time_within).bind fun _ => trivial

theorem issueTokensOrChallenge_within (user : User) (login : LoginContext) :
    (issueTokensOrChallenge A user login).Within F (Executing Stmt.OfDecision) := by
  refine Within.orElse ?_ fun x => ?_
  · exact (generateTokensOrMfaChallenge_within _ _ _ _).bind fun _ => trivial
  · split
    · exact (createEnrollmentToken_within _).bind fun _ => trivial
    · trivial

/-- So is the session that an enrollment token stands for. -/
theorem createEnrollmentToken_preliminary (userId : ℕ) :
    (createEnrollmentToken A userId).Within F (Executing (Stmt.Preliminary I)) := by
  refine time_executing.bind fun now => draw_executing.bind fun jti => ?_
  refine draw_executing.bind fun id => ?_
  refine Within.bind (execute_executing ⟨trivial, trivial⟩) fun _ => ?_
  exact commitNow_executing.bind fun _ => time_executing.bind fun _ => trivial

/-! All that is written from then on is for the user the decision is about. -/

theorem for_of_preliminary {α : Type} {o : Op α} (h : o.Within F (Executing (Stmt.Preliminary I)))
    (userId : ℕ) : o.Within F (Executing (Stmt.For userId)) :=
  executing_mono h fun _ h => h.1.for userId

theorem endSession_for (userId signer : ℕ) (familyId : Option ℕ) (reason : RevokedReason)
    (actorUserId : Option ℕ) :
    (endSession userId familyId reason actorUserId).Within F (Executing (Stmt.For signer)) := by
  refine Within.bind ?_ fun _ => Within.bind ?_ fun _ => ?_
  · cases familyId with
    | none => trivial
    | some f => exact Within.bind (execute_executing trivial) fun _ => commitNow_executing
  · refine (query_executing _).bind fun session => ?_
    split
    · trivial
    split
    · trivial
    · exact time_executing.bind fun t => execute_executing trivial
  · exact for_of_preliminary (I := fun _ => True) (logEvent_preliminary (by simp) _) _

theorem evictOldestSessionsOverLimit_for {E : Env} (userId : ℕ) :
    (evictOldestSessionsOverLimit E userId).Within F (Executing (Stmt.For userId)) := by
  refine Within.bind (within_returning (fun _ _ => trivial) (fun _ _ => trivial)
    fun _ _ => trivial) fun candidates => ?_
  refine (executing_of_reading (effectivelyActive_within _)).bind fun active => ?_
  have hends : ∀ sessions : List UserSession,
      (endSessions userId .concurrentLimit none sessions).Within F
        (Executing (Stmt.For userId)) := by
    intro sessions
    induction sessions with
    | nil => trivial
    | cons s rest ih => exact (endSession_for _ _ _ _ _).bind fun _ => ih
  exact hends _

theorem generateTokens_for {E : Env} (user : User) (authMethod : AuthMethod)
    (idpOrgId : Option ℕ) (client : ClientInfo) :
    (generateTokens E user authMethod idpOrgId client).Within F
      (Executing (Stmt.For user.id)) := by
  refine time_executing.bind fun _ => (query_executing _).bind fun payload => ?_
  refine (executing_of_reading (createAccessToken_within _ _)).bind fun access => ?_
  refine (executing_of_reading (createRefreshToken_within _)).bind fun refresh => ?_
  refine draw_executing.bind fun familyId => time_executing.bind fun now => ?_
  refine draw_executing.bind fun id => ?_
  refine Within.bind (execute_executing trivial) fun _ => ?_
  refine Within.bind (execute_executing rfl) fun _ => ?_
  refine (evictOldestSessionsOverLimit_for _).bind fun _ => ?_
  refine Within.bind ?_ fun _ => commitNow_executing.bind fun _ => trivial
  exact time_executing.bind fun _ => draw_executing.bind fun _ => execute_executing rfl

theorem Stmt.OfMail.beside {stmt : Stmt} (h : stmt.OfMail) : stmt.Beside := by
  cases stmt with
  | insertAuditEvent event => exact h.2 event rfl
  | mfa stmt => cases stmt <;> first | exact h.1.elim | trivial
  | _ => exact h.1.elim

theorem generateTokensOrMfaChallenge_for (user : User) (login : LoginContext)
    (client : ClientInfo) (mailSent : Bool) :
    (generateTokensOrMfaChallenge A user login client mailSent).Within F
      (Executing (Stmt.For user.id)) := by
  refine (query_executing _).bind fun membership => (query_executing _).bind fun required => ?_
  split
  · split
    · trivial
    · exact (generateTokens_for _ _ _ _).bind fun _ => trivial
  · refine (executing_of_reading (createMfaChallengeToken_within _ _ _)).bind fun token => ?_
    refine (logEvent_executing (fun _ _ => rfl) _).bind fun _ => ?_
    refine (refreshUser_executing _).bind fun fresh => ?_
    split
    · refine (executing_mono (issueCode_within _ _ _ _) fun _ h => ?_).bind fun _ => trivial
      exact h.beside.for user.id
    · trivial

theorem issueTokensOrChallenge_for (user : User) (login : LoginContext) :
    (issueTokensOrChallenge A user login).Within F (Executing (Stmt.For user.id)) := by
  refine Within.orElse ?_ fun x => ?_
  · exact (generateTokensOrMfaChallenge_for _ _ _ _).bind fun _ => trivial
  · split
    · refine Within.bind ?_ fun _ => trivial
      exact for_of_preliminary (I := fun _ => True) (createEnrollmentToken_preliminary _) _
    · trivial

theorem Stmt.OfDecision.federated {stmt : Stmt} (h : stmt.OfDecision) : stmt.Federated I := by
  rcases h with h | h | h
  · exact h.federated
  · exact h.federated
  · cases stmt <;> first | exact h.elim | trivial

theorem generateTokens_federated {E : Env} (user : User) (authMethod : AuthMethod)
    (idpOrgId : Option ℕ) (client : ClientInfo) :
    (generateTokens E user authMethod idpOrgId client).Within F (Executing (Stmt.Federated I)) :=
  executing_of_within (generateTokens_within _ _ _ _) fun _ h => h.federated

theorem generateTokensOrMfaChallenge_federated (user : User) (login : LoginContext)
    (client : ClientInfo) (mailSent : Bool) :
    (generateTokensOrMfaChallenge A user login client mailSent).Within F
      (Executing (Stmt.Federated I)) :=
  executing_mono (generateTokensOrMfaChallenge_within _ _ _ _) fun _ h => h.federated

theorem createEnrollmentToken_federated (userId : ℕ) :
    (createEnrollmentToken A userId).Within F (Executing (Stmt.Federated I)) :=
  executing_mono (createEnrollmentToken_within _) fun _ h => h.federated

theorem issueTokensOrChallenge_federated (user : User) (login : LoginContext) :
    (issueTokensOrChallenge A user login).Within F (Executing (Stmt.Federated I)) :=
  executing_mono (issueTokensOrChallenge_within _ _) fun _ h => h.federated

/-! ## The entry points -/

/-- The checks of enforcement only read. -/
theorem refuseEnforced_within (email : String) : (refuseEnforced A email).Within F (Reading F) := by
  have hrefuse : ∀ found protocol, (refuseIfFound found protocol).Within F (Reading F) := by
    intro found protocol
    refine (query_within _).bind fun config => ?_
    split
    · trivial
    · refine (query_within _).bind fun org => ?_
      split <;> trivial
  exact (hrefuse _ _).bind fun _ => hrefuse _ _

theorem failLogin_preliminary (email : String) (clientIp : Option String)
    (newlyLocked : List (String × ℕ)) (user : Option User) (reason : String) :
    (failLogin email clientIp newlyLocked user reason).Within F
      (Executing (Stmt.Preliminary I)) := by
  have htriggered : ∀ locked,
      (auditLoginTriggered email clientIp locked).Within F (Executing (Stmt.Preliminary I)) := by
    intro locked
    induction locked with
    | nil => trivial
    | cons d rest ih => exact (logEvent_preliminary (by simp) _).bind fun _ => ih
  refine (logEvent_preliminary (by simp) _).bind fun _ => ?_
  exact (within_note trivial).bind fun _ => (htriggered _).bind fun _ => trivial

theorem authenticateUser_preliminary (email password : String) (clientIp : Option String)
    (newlyLocked : List (String × ℕ)) :
    (authenticateUser A email password clientIp newlyLocked).Within F
      (Executing (Stmt.Preliminary I)) := by
  refine (query_executing _).bind fun user => ?_
  split
  · exact failLogin_preliminary _ _ _ _ _
  split
  · exact failLogin_preliminary _ _ _ _ _
  split
  · exact failLogin_preliminary _ _ _ _ _
  refine (within_note trivial).bind fun _ => ?_
  split
  · exact failLogin_preliminary _ _ _ _ _
  refine (within_note trivial).bind fun _ => ?_
  have hend : ∀ user : User, Within F (Executing (Stmt.Preliminary I))
      ((logEvent
        { eventType := .loginSuccess
          actorUserId := some user.id
          targetUserId := some user.id
          resourceType := some "user"
          resourceId := some user.id
          metadata := [("email", email)] } true).bind fun _ =>
        (refreshUser user.id).bind fun user => (ret (some user) : Op (Option User))) := fun user =>
    (logEvent_preliminary (by simp) _).bind fun _ => (refreshUser_executing _).bind fun _ => trivial
  split
  · refine draw_executing.bind fun salt => ?_
    exact Within.bind (execute_executing ⟨trivial, trivial⟩) fun _ => hend _
  · exact hend _

theorem passwordLogin_federated (r : LoginRequest) :
    (passwordLogin A r).Within F (Executing (Stmt.Federated I)) := by
  refine (executing_of_reading (refuseEnforced_within _)).bind fun _ => ?_
  refine (within_note trivial).bind fun _ => ?_
  split
  · trivial
  refine (federated_of (authenticateUser_preliminary _ _ _ _)).bind fun user => ?_
  split
  · trivial
  refine Within.orElse ?_ fun x => ?_
  · exact (generateTokensOrMfaChallenge_federated _ _ _ _).bind fun _ => trivial
  · split
    · exact (createEnrollmentToken_federated _).bind fun _ => trivial
    all_goals trivial

theorem oauthSignIn_federated (user : User) (provider email : String) :
    (oauthSignIn A user provider email).Within F (Executing (Stmt.Federated I)) := by
  refine (issueTokensOrChallenge_federated _ _).bind fun reply => ?_
  split
  · exact (logEvent_federated _ _).bind fun _ => trivial
  · trivial

theorem oauthSignIn_for (user : User) (provider email : String) :
    (oauthSignIn A user provider email).Within F (Executing (Stmt.For user.id)) := by
  refine (issueTokensOrChallenge_for _ _).bind fun reply => ?_
  split
  · refine Within.bind ?_ fun _ => trivial
    exact for_of_preliminary (I := fun _ => True) (logEvent_preliminary (by simp) _) _
  · trivial

/-- The callback of a consumer provider inserts the identity it was given. -/
theorem oauthCallback_federated (r : OAuthCallback A)
    (hok : ∀ sub email id userId, r.provider ∈ oauthProviders →
      I (({ provider := r.provider, providerUserId := sub, email := email } : Identity).account id
        userId)) :
    (oauthCallback A r).Within F (Executing (Stmt.Federated I)) := by
  refine time_executing.bind fun now => ?_
  split
  · trivial
  rename_i hstate
  have hprovider : r.provider ∈ oauthProviders := by
    unfold verifyOauthState at hstate
    by_contra hnot
    rw [if_pos hnot] at hstate
    cases hstate
  unfold completeOauthFlow
  split
  · exact (logEvent_federated _ _).bind fun _ => trivial
  · trivial
  rename_i sub email _
  refine (executing_of_reading (refuseEnforced_within _)).bind fun _ => ?_
  refine (query_executing _).bind fun linked => ?_
  split
  · exact oauthSignIn_federated _ _ _
  have hidentity : ∀ id userId,
      I (({ provider := r.provider, providerUserId := sub, email := email } : Identity).account id
        userId) := fun id userId => hok sub email id userId hprovider
  refine (query_executing _).bind fun existing => ?_
  split
  · refine (query_executing _).bind fun auto => ?_
    split
    · refine (federated_of (issueLinkConfirmation_preliminary _ _ _)).bind fun linkToken => ?_
      exact (logEvent_federated _ _).bind fun _ => trivial
    · refine (federated_of (linkOauthToExistingUser_preliminary hidentity _ _)).bind fun _ => ?_
      refine (logEvent_federated _ _).bind fun _ => ?_
      refine commitNow_executing.bind fun _ => ?_
      exact (refreshUser_executing _).bind fun _ => oauthSignIn_federated _ _ _
  · refine time_executing.bind fun now => (query_executing _).bind fun approved => ?_
    split
    · exact (logEvent_federated _ _).bind fun _ => trivial
    · refine (federated_of (createUserWithOauth_preliminary hidentity _)).bind fun user => ?_
      refine (logEvent_federated _ _).bind fun _ => ?_
      refine commitNow_executing.bind fun _ => ?_
      exact (refreshUser_executing _).bind fun _ => oauthSignIn_federated _ _ _

/-- A confirmation inserts the identity of its token. -/
theorem confirmOauthLink_federated (r : LinkConfirm A)
    (hok : ∀ now claims id userId, decodeLink A now r.linkToken = .ok claims →
      I (claims.identity.account id userId)) :
    (confirmOauthLink A r).Within F (Executing (Stmt.Federated I)) := by
  refine time_executing.bind fun now => ?_
  split
  · trivial
  rename_i claims hclaims
  refine (query_executing _).bind fun user => ?_
  split
  · trivial
  split
  · trivial
  refine (within_note trivial).bind fun _ => ?_
  split
  · trivial
  have hidentity : ∀ id userId, I (claims.identity.account id userId) :=
    fun id userId => hok now claims id userId hclaims
  refine (federated_of (linkOauthToExistingUser_preliminary hidentity _ _)).bind fun _ => ?_
  split
  · refine (federated_of (jitProvisionMembership_preliminary _ _)).bind fun _ => ?_
    exact (refreshUser_executing _).bind fun _ => issueTokensOrChallenge_federated _ _
  · exact (refreshUser_executing _).bind fun _ => issueTokensOrChallenge_federated _ _

/-- The callback of an organization's OIDC provider inserts an identity under its
configuration. -/
theorem oidcCallback_federated (r : OidcCallback A)
    (hok : ∀ sub email configId id userId, I ((⟨"oidc", sub, email, some configId, none⟩ :
      Identity).account id userId)) :
    (oidcCallback A r).Within F (Executing (Stmt.Federated I)) := by
  refine time_executing.bind fun now => (query_executing _).bind fun state => ?_
  split
  · trivial
  split
  · trivial
  refine (query_executing _).bind fun linked => ?_
  split
  · refine (federated_of (jitProvisionMembership_preliminary _ _)).bind fun _ => ?_
    exact (refreshUser_executing _).bind fun _ => issueTokensOrChallenge_federated _ _
  refine (query_executing _).bind fun existing => ?_
  split
  · exact (federated_of (issueLinkConfirmation_preliminary _ _ _)).bind fun _ => trivial
  · refine (federated_of (createUserWithOauth_preliminary (hok _ _ _) _)).bind fun user => ?_
    refine (federated_of (jitProvisionMembership_preliminary _ _)).bind fun _ => ?_
    exact (refreshUser_executing _).bind fun _ => issueTokensOrChallenge_federated _ _

/-- So does its SAML sibling. -/
theorem samlAcs_federated (r : SamlAcs A)
    (hok : ∀ nameId configId id userId, I ((⟨"saml", nameId, nameId, none, some configId⟩ :
      Identity).account id userId)) :
    (samlAcs A r).Within F (Executing (Stmt.Federated I)) := by
  have hsignIn : ∀ org config identity userId,
      (samlSignIn A org config identity userId).Within F (Executing (Stmt.Federated I)) := by
    intro org config identity userId
    refine (federated_of (jitProvisionMembership_preliminary _ _)).bind fun _ => ?_
    exact (refreshUser_executing _).bind fun _ => issueTokensOrChallenge_federated _ _
  -- the attempts one by one
  have hcomplete : ∀ org config identity attempts,
      (completeSamlLogin A org config identity attempts).Within F
        (Executing (Stmt.Federated I)) := by
    intro org config identity attempts
    induction attempts with
    | zero => trivial
    | succ n ih =>
      refine (query_executing _).bind fun linked => ?_
      split
      · exact hsignIn _ _ _ _
      refine (query_executing _).bind fun existing => ?_
      split
      · exact (federated_of (issueLinkConfirmation_preliminary _ _ _)).bind fun _ => trivial
      refine Within.bind (Within.orElse ?_ fun x => ?_) fun created => ?_
      · exact (federated_of (createUserWithOauth_preliminary (hok _ _) _)).bind fun _ => trivial
      · split
        · exact ⟨trivial, trivial⟩
        · trivial
      · split
        · exact hsignIn _ _ _ _
        · exact ih
  unfold samlAcs
  split
  · trivial
  refine time_executing.bind fun now => (query_executing _).bind fun state => ?_
  split
  · trivial
  split
  · trivial
  split
  · trivial
  · exact hcomplete _ _ _ _

theorem refreshLicense_preliminary (id : ℕ) :
    (refreshLicense id).Within F (Executing (Stmt.Preliminary I)) := by
  refine (query_executing _).bind fun license => ?_
  split <;> trivial

theorem answerLicense_federated (licenseId userId : ℕ) :
    (answerLicense A licenseId userId).Within F (Executing (Stmt.Federated I)) := by
  refine (federated_of (refreshLicense_preliminary _)).bind fun license => ?_
  refine (query_executing _).bind fun membership => (refreshUser_executing _).bind fun user => ?_
  refine (issueTokensOrChallenge_federated _ _).bind fun reply => ?_
  split <;> trivial

theorem answerLicense_for (licenseId userId : ℕ) :
    (answerLicense A licenseId userId).Within F (Executing (Stmt.For userId)) := by
  refine (for_of_preliminary (I := fun _ => True) (refreshLicense_preliminary _) _).bind
    fun license => ?_
  refine (query_executing _).bind fun membership => refreshUser_bind_executing fun user hid => ?_
  refine Within.bind ?_ fun reply => ?_
  · exact hid ▸ issueTokensOrChallenge_for _ _
  · split <;> trivial

theorem licenseValidate_federated (r : LicenseRequest) :
    (licenseValidate A r).Within F (Executing (Stmt.Federated I)) := by
  refine (time_executing.bind fun now => query_executing _).bind fun answer => ?_
  split
  · trivial
  rename_i license
  refine Within.bind ?_ fun user => ?_
  · refine (query_executing _).bind fun user => ?_
    split
    · trivial
    · refine draw_executing.bind fun id => Within.bind (execute_executing trivial) fun _ => ?_
      refine (federated_of (preliminary_of_inside (assignDefaultRole_inside _))).bind fun _ => ?_
      exact refreshUser_executing _
  refine Within.bind ?_ fun _ => ?_
  · refine time_executing.bind fun now => Within.bind (execute_executing trivial) fun _ => ?_
    exact commitNow_executing
  refine (federated_of (refreshLicense_preliminary _)).bind fun license => ?_
  split
  · refine Within.bind ?_ fun _ => answerLicense_federated _ _
    unfold bindMachineId
    split
    · exact Within.bind (execute_executing trivial) fun _ => commitNow_executing
    · trivial
  · exact answerLicense_federated _ _

/-! ### The challenge -/

theorem matchDevice_preliminary (code : String) (devices : List MFADevice) :
    (matchDevice A code devices).Within F (Executing (Stmt.Preliminary I)) := by
  have hclaim : ∀ device,
      (claimDevice A code device).Within F (Executing (Stmt.Preliminary I)) := by
    intro device
    unfold claimDevice
    split
    · trivial
    refine (executing_of_reading (totpMatchedStep_within _ _)).bind fun step => ?_
    split
    swap
    · trivial
    refine Within.bind (Within.orElse ?_ fun _ => ⟨trivial, trivial⟩) fun _ => trivial
    refine Within.bind (execute_executing ⟨trivial, trivial⟩) fun _ => ?_
    exact commitNow_executing.bind fun _ => (within_note trivial).bind fun _ => trivial
  induction devices with
  | nil => trivial
  | cons device rest ih =>
    refine Within.bind (Within.orElse (hclaim device) fun _ => trivial) fun claim => ?_
    split
    · trivial
    · exact ih.bind fun _ => trivial
    · exact ih

theorem tryRecoveryCode_preliminary (payload : Claims) (r : ChallengeRequest A) (userId : ℕ) :
    (tryRecoveryCode A payload r userId).Within F (Executing (Stmt.Preliminary I)) := by
  unfold tryRecoveryCode
  split
  swap
  · trivial
  refine Within.bind (Within.orElse (query_executing _) fun _ => ?_) fun found => ?_
  · trivial
  split
  swap
  · trivial
  refine time_executing.bind fun now => ?_
  refine Within.bind (within_returning (fun _ _ => ⟨trivial, trivial⟩)
    (fun _ _ => ⟨trivial, trivial⟩) fun _ _ => trivial) fun claimed => ?_
  refine commitNow_executing.bind fun _ => ?_
  split
  · exact (within_note trivial).bind fun _ => trivial
  · trivial

theorem tryEmailCode_preliminary (payload : Claims) (r : ChallengeRequest A) (userId : ℕ) :
    (tryEmailCode A payload r userId).Within True (Executing (Stmt.Preliminary I)) := by
  unfold tryEmailCode
  split
  swap
  · trivial
  refine (refreshUser_executing _).bind fun user => ?_
  split
  swap
  · trivial
  refine Within.orElse (executing_of_within (verifyCode_within _ _ _) fun stmt h => ?_)
    fun _ => trivial
  cases stmt with
  | mfa stmt => cases stmt <;> first | exact h.elim | exact ⟨trivial, trivial⟩
  | _ => exact h.elim

theorem consumeChallengeJti_preliminary (userId now : ℕ) (deviceId jti : Option ℕ) :
    (consumeChallengeJti userId now deviceId jti).Within F (Executing (Stmt.Preliminary I)) := by
  have hflush : (flushVerified userId now deviceId).Within F (Executing (Stmt.Preliminary I)) := by
    refine Within.bind (execute_executing ⟨rfl, trivial⟩) fun _ => ?_
    cases deviceId with
    | none => trivial
    | some id => exact execute_executing ⟨trivial, trivial⟩
  unfold consumeChallengeJti
  split
  · exact hflush.bind fun _ => commitNow_executing
  · refine Within.orElse ?_ fun _ => ⟨trivial, trivial⟩
    refine hflush.bind fun _ => draw_executing.bind fun id => ?_
    exact Within.bind (execute_executing ⟨trivial, trivial⟩) fun _ => commitNow_executing

theorem refuseCode_preliminary (payload : Claims) (userId : ℕ) (organizationId : Option ℕ)
    (r : ChallengeRequest A) :
    (refuseCode A payload userId organizationId r).Within F (Executing (Stmt.Preliminary I)) := by
  have htriggered : ∀ locked, (auditTriggered userId organizationId r.clientIp locked).Within F
      (Executing (Stmt.Preliminary I)) := by
    intro locked
    induction locked with
    | nil => trivial
    | cons d rest ih => exact (logEvent_preliminary (by simp) _).bind fun _ => ih
  refine (htriggered _).bind fun _ => ?_
  exact (logEvent_preliminary (by simp [challengeEvent]) _).bind fun _ => trivial

/-! From the factor on it is as with the decision: what a class of statements has to allow is
what stands beside a login, and the tokens of the user. -/

section

variable {userId : ℕ} (hbeside : ∀ stmt, stmt.Preliminary I → P stmt)
  (htokens : ∀ (user : User) (authMethod : AuthMethod) (idpOrgId : Option ℕ) (client : ClientInfo),
    user.id = userId →
      (generateTokens A.toEnv user authMethod idpOrgId client).Within True (Executing P))
include hbeside htokens

theorem completeChallenge_executing (payload : Claims) (deviceId : Option ℕ) {event : AuditEvent}
    (hevent : event.eventType ≠ .mfaChallengeRequired) :
    (completeChallenge A payload userId deviceId event).Within True (Executing P) := by
  refine time_executing.bind fun now => ?_
  refine (executing_mono (consumeChallengeJti_preliminary _ _ _ _) hbeside).bind fun _ => ?_
  refine (executing_mono (logEvent_preliminary hevent _) hbeside).bind fun _ => ?_
  refine refreshUser_bind_executing fun user hid => ?_
  exact (within_note trivial).bind fun _ => (htokens _ _ _ _ hid).bind fun _ => trivial

theorem completeEmailStage_executing (payload : Claims) (organizationId : Option ℕ) :
    (completeEmailStage A payload userId organizationId).Within True (Executing P) := by
  refine time_executing.bind fun now => ?_
  refine (executing_mono (consumeChallengeJti_preliminary _ _ _ _) hbeside).bind fun _ => ?_
  refine (executing_mono (logEvent_preliminary (by simp [challengeEvent]) _) hbeside).bind
    fun _ => ?_
  refine refreshUser_bind_executing fun user hid => ?_
  split
  · refine (within_note trivial).bind fun _ => ?_
    exact (executing_of_reading (createMfaChallengeToken_within _ _ _)).bind fun _ => trivial
  · exact (within_note trivial).bind fun _ => (htokens _ _ _ _ hid).bind fun _ => trivial

end

theorem answerChallenge_executing {user : User} (hbeside : ∀ stmt, stmt.Preliminary I → P stmt)
    (htokens : ∀ (u : User) (authMethod : AuthMethod) (idpOrgId : Option ℕ) (client : ClientInfo),
      u.id = user.id →
        (generateTokens A.toEnv u authMethod idpOrgId client).Within True (Executing P))
    (payload : Claims) (r : ChallengeRequest A) :
    (answerChallenge A payload r user).Within True (Executing P) := by
  -- the factors, one after the other
  refine (query_executing _).bind fun devices => ?_
  refine Within.bind ?_ fun matchedDevice => ?_
  · unfold tryDevices
    split
    · exact (executing_mono (matchDevice_preliminary _ _) hbeside).bind fun _ => trivial
    · trivial
  refine (query_executing _).bind fun membership => ?_
  split
  · exact completeChallenge_executing hbeside htokens _ _ (by simp [challengeEvent])
  refine (executing_mono (tryRecoveryCode_preliminary _ _ _) hbeside).bind fun recovered => ?_
  split
  · exact completeChallenge_executing hbeside htokens _ _ (by simp [challengeEvent])
  refine (executing_mono (tryEmailCode_preliminary _ _ _) hbeside).bind fun emailMatched => ?_
  split
  · exact completeEmailStage_executing hbeside htokens _ _
  · exact executing_mono (refuseCode_preliminary _ _ _ _) hbeside

/-- The answer to a challenge signs in the user of the challenge. -/
theorem answerChallenge_for (payload : Claims) (r : ChallengeRequest A) (user : User) :
    (answerChallenge A payload r user).Within True (Executing (Stmt.For user.id)) :=
  answerChallenge_executing (I := fun _ => True) (fun _ h => h.1.for user.id)
    (fun _ _ _ _ hid => hid ▸ generateTokens_for _ _ _ _) payload r

theorem verifyMfaChallenge_federated (r : ChallengeRequest A) :
    (verifyMfaChallenge A r).Within True (Executing (Stmt.Federated I)) := by
  refine time_executing.bind fun now => ?_
  split
  · trivial
  rename_i payload _
  split
  · trivial
  split
  · trivial
  refine (query_executing _).bind fun revoked => (query_executing _).bind fun user => ?_
  split
  · trivial
  split
  · trivial
  split
  · trivial
  split
  · trivial
  split
  · trivial
  · exact answerChallenge_executing (I := I) (fun _ h => h.2)
      (fun _ _ _ _ _ => generateTokens_federated _ _ _ _) _ _

/-! ### All of them -/

/-- What an identity that is inserted looks like: a consumer provider's has no
configuration, an organization's has its own. -/
def OAuthAccount.WellScoped (account : OAuthAccount) : Prop :=
  (account.provider ∈ oauthProviders ∧ account.organizationSsoConfigId = none ∧
      account.organizationSamlConfigId = none) ∨
    (account.provider = "oidc" ∧ account.organizationSsoConfigId.isSome ∧
      account.organizationSamlConfigId = none) ∨
    account.provider = "saml" ∧ account.organizationSsoConfigId = none ∧
      account.organizationSamlConfigId.isSome

/-- The identity in the link token of a request is one a callback could have asked for. -/
def LoginCall.Vouched : LoginCall A → Prop
  | .linkConfirm r => ∀ now claims id userId, decodeLink A now r.linkToken = .ok claims →
      (claims.identity.account id userId).WellScoped
  | _ => True

/-- **Every entry point** leaves the configurations alone and inserts well scoped
identities. -/
theorem LoginCall.federated (call : LoginCall A) (hv : call.Vouched) :
    call.op.Within True (Executing (Stmt.Federated OAuthAccount.WellScoped)) := by
  cases call with
  | password r => exact passwordLogin_federated r
  | oauth r =>
    exact oauthCallback_federated r fun sub email id userId hprovider => .inl ⟨hprovider, rfl, rfl⟩
  | linkConfirm r => exact confirmOauthLink_federated r hv
  | oidc r => exact oidcCallback_federated r fun _ _ _ _ _ => .inr (.inl ⟨rfl, rfl, rfl⟩)
  | saml r => exact samlAcs_federated r fun _ _ _ _ => .inr (.inr ⟨rfl, rfl, rfl⟩)
  | license r => exact licenseValidate_federated r
  | challenge r => exact (verifyMfaChallenge_federated r).bind fun _ => trivial

end OmniAuth
