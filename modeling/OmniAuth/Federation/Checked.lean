import OmniAuth.Federation.Config

/-!
# What a stored configuration has passed

The services check a field where it is given and store only the columns that change, so
whatever mixture of updates a row has seen, each of its columns has passed its own check.
-/

namespace OmniAuth

variable {A : AppEnv}

/-! ## What the checks accept -/

theorem validateEntityId_ok {entityId : String} :
    validateEntityId A entityId = .ok () ↔ A.strip entityId ≠ "" := by
  unfold validateEntityId
  split
  · rename_i hempty
    exact ⟨nofun, fun h => absurd hempty h⟩
  · rename_i hgiven
    exact ⟨fun _ => hgiven, fun _ => rfl⟩

/-- A column that holds a text. -/
def Present (field : Option String) : Prop := ∃ text, field = some text ∧ text ≠ ""

theorem present_iff {field : Option String} : Present field ↔ field.filter (· ≠ "") ≠ none := by
  constructor
  · rintro ⟨text, rfl, hne⟩ hnone
    exact Option.filter_eq_none_iff.mp hnone text rfl (decide_eq_true hne)
  · intro h
    obtain ⟨text, htext⟩ := Option.ne_none_iff_exists'.mp h
    obtain ⟨hfield, hne⟩ := Option.filter_eq_some_iff.mp htext
    exact ⟨text, hfield, of_decide_eq_true hne⟩

/-- An http(s) URL with a host, and https where that is required. -/
def Endpoint (A : AppEnv) (url : String) : Prop :=
  ((A.urlparse url).1 = "https" ∨
    (A.urlparse url).1 = "http" ∧ A.requireHttpsForSsoIssuer = false) ∧
  Present (A.urlparse url).2

theorem validateSsoUrl_ok {ssoUrl : String} :
    validateSsoUrl A ssoUrl = .ok () ↔ Endpoint A ssoUrl := by
  rw [Endpoint, present_iff]
  unfold validateSsoUrl
  dsimp only
  split
  · rename_i hscheme
    refine ⟨nofun, fun h => ?_⟩
    rcases h.1 with hs | ⟨hs, -⟩
    · exact absurd hs hscheme.2
    · exact absurd hs hscheme.1
  rename_i hscheme
  split
  · rename_i hhttps
    refine ⟨nofun, fun h => ?_⟩
    rcases h.1 with hs | ⟨-, hoff⟩
    · exact absurd hs hhttps.2
    · cases hhttps.1.symm.trans hoff
  rename_i hhttps
  split
  · rename_i hhost
    exact ⟨nofun, fun h => absurd hhost h.2⟩
  rename_i hhost
  refine ⟨fun _ => ⟨?_, hhost⟩, fun _ => rfl⟩
  by_cases hs : (A.urlparse ssoUrl).1 = "https"
  · exact .inl hs
  · refine .inr ⟨not_not.mp fun hhttp => hscheme ⟨hhttp, hs⟩, ?_⟩
    exact Bool.eq_false_iff.mpr fun hon => hhttps ⟨hon, hs⟩

/-- A PEM block by its two marks, around whatever there is. -/
def Pem (A : AppEnv) (text : String) : Prop :=
  occursIn "-----BEGIN CERTIFICATE-----" (A.strip text) = true ∧
    occursIn "-----END CERTIFICATE-----" (A.strip text) = true

theorem validateX509Certificate_ok {x509Certificate : String} :
    validateX509Certificate A x509Certificate = .ok () ↔ Pem A x509Certificate := by
  unfold Pem validateX509Certificate
  dsimp only
  split
  · rename_i hmissing
    refine ⟨nofun, fun h => ?_⟩
    rcases hmissing with hbegin | hend
    · cases h.1.symm.trans hbegin
    · cases h.2.symm.trans hend
  · rename_i hboth
    obtain ⟨hbegin, hend⟩ := not_or.mp hboth
    exact ⟨fun _ => ⟨Bool.eq_true_of_not_eq_false hbegin, Bool.eq_true_of_not_eq_false hend⟩,
      fun _ => rfl⟩

/-- One of the three statuses that have a name. -/
def IdpStatus.Known (status : IdpStatus) : Prop := ∀ value, status ≠ .other value

theorem validateStatus_ok {status : IdpStatus} :
    validateStatus status = .ok () ↔ status.Known := by
  cases status with
  | other value => exact ⟨nofun, fun h => absurd rfl (h value)⟩
  | _ => exact ⟨fun _ => nofun, fun _ => rfl⟩

theorem checkGiven_ok {α : Type} {check : α → Except Err Unit} {given : Option α} :
    checkGiven check given = .ok () ↔ ∀ value, given = some value → check value = .ok () := by
  cases given with
  | none => exact ⟨fun _ => nofun, fun _ => rfl⟩
  | some value =>
    refine ⟨fun h value' hvalue => ?_, fun h => h value rfl⟩
    obtain rfl := Option.some.inj hvalue
    exact h

/-- Checks one after the other. -/
theorem checks_ok {first rest : Except Err Unit} :
    (first >>= fun _ => rest) = .ok () ↔ first = .ok () ∧ rest = .ok () := by
  cases first with
  | error x => exact ⟨nofun, fun h => nomatch h.1⟩
  | ok u => exact ⟨fun h => ⟨rfl, h⟩, fun h => h.2⟩

/-- A document is accepted if it is the issuer's and has what a login needs. -/
theorem verifyOidcDiscovery_ok {issuer : String} {fetched : Except String DiscoveryDoc}
    {doc : DiscoveryDoc} :
    verifyOidcDiscovery A issuer fetched = .ok doc ↔
      fetched = .ok doc ∧ doc.issuer = some issuer ∧ Present doc.authorizationEndpoint ∧
        Present doc.tokenEndpoint ∧ Present doc.jwksUri := by
  have hmissing : ∀ doc : DiscoveryDoc, doc.missing = [] ↔ Present doc.authorizationEndpoint ∧
      Present doc.tokenEndpoint ∧ Present doc.jwksUri := by
    intro doc
    simp only [DiscoveryDoc.missing, present_iff, List.map_eq_nil_iff, List.filter_eq_nil_iff,
      List.mem_cons, List.not_mem_nil, or_false, forall_eq_or_imp, forall_eq, decide_eq_true_eq,
      ne_eq]
  unfold verifyOidcDiscovery
  rw [← hmissing]
  cases fetched with
  | error message => exact ⟨nofun, fun h => nomatch h.1⟩
  | ok doc' =>
    dsimp only
    split
    · rename_i hissuer
      refine ⟨nofun, fun h => ?_⟩
      obtain rfl := Except.ok.inj h.1
      exact absurd h.2.1 hissuer
    rename_i hissuer
    split
    · rename_i hfields
      refine ⟨nofun, fun h => ?_⟩
      obtain rfl := Except.ok.inj h.1
      exact absurd h.2.2 hfields
    rename_i hfields
    constructor
    · intro h
      obtain rfl := Except.ok.inj h
      exact ⟨rfl, not_not.mp hissuer, not_not.mp hfields⟩
    · intro h
      obtain rfl := Except.ok.inj h.1
      rfl

/-! ## What is stored -/

/-- Discovered, and with an encrypted secret. -/
structure OidcTrust.Checked (A : AppEnv) (trust : OidcTrust) : Prop where
  authorizationEndpoint : Present trust.authorizationEndpoint
  tokenEndpoint : Present trust.tokenEndpoint
  jwksUri : Present trust.jwksUri
  secret : ∃ clientSecret, A.encrypt clientSecret = some trust.clientSecretEncrypted

structure SamlTrust.Checked (A : AppEnv) (trust : SamlTrust) : Prop where
  entityId : A.strip trust.entityId ≠ ""
  ssoUrl : Endpoint A trust.ssoUrl
  x509Certificate : Pem A trust.x509Certificate
  sloUrl : ∀ url, trust.sloUrl = some url → Endpoint A url

/-- **Each column of a configuration has passed its check.** -/
structure IdpConfig.Checked (A : AppEnv) (saml : Bool) (config : IdpConfig) : Prop where
  status : config.status.Known
  oidcTrust : saml = false → config.oidc.Checked A
  samlTrust : saml = true → config.saml.Checked A

/-- Columns that keep it so, whatever the others hold. -/
def IdpColumns.Keep (A : AppEnv) (saml : Bool) (columns : IdpColumns) : Prop :=
  ∀ config : IdpConfig, config.Checked A saml → (config.set columns).Checked A saml

/-- What is assigned and what stays have the property, so what is stored has it. -/
theorem dirty_getD {α : Type} [DecidableEq α] {P : α → Prop} {given : Option α}
    {loaded stored : α} (hgiven : ∀ value, given = some value → P value) (hstored : P stored) :
    P ((dirty given loaded).getD stored) := by
  cases hdirty : dirty given loaded with
  | none => exact hstored
  | some value => exact hgiven value (Option.filter_eq_some_iff.mp hdirty).1

/-- An assignment that leaves the protocol and the status as they are. -/
theorem IdpColumns.keep_of_apart {saml : Bool} {columns : IdpColumns} (hoidc : columns.oidc = {})
    (hsaml : columns.saml = {}) (hstatus : columns.status = none) : columns.Keep A saml := by
  intro config h
  have hset : (config.set columns).oidc = config.oidc ∧ (config.set columns).saml = config.saml ∧
      (config.set columns).status = config.status := by
    simp only [IdpConfig.set, hoidc, hsaml, hstatus]
    exact ⟨rfl, rfl, rfl⟩
  obtain ⟨ho, hs, ht⟩ := hset
  exact ⟨ht ▸ h.status, fun hp => ho ▸ h.oidcTrust hp, fun hp => hs ▸ h.samlTrust hp⟩

/-! ### An OIDC configuration -/

def OidcColumns.Keep (A : AppEnv) (columns : OidcColumns) : Prop :=
  ∀ trust : OidcTrust, trust.Checked A → (trust.set columns).Checked A

theorem OidcColumns.keep_none : ({} : OidcColumns).Keep A := fun _ h => h

theorem OidcTrust.discovered_keep {issuer : String} {fetched : Except String DiscoveryDoc}
    {doc : DiscoveryDoc} (hdoc : verifyOidcDiscovery A issuer fetched = .ok doc)
    (trust : OidcTrust) (now : ℕ) : (trust.discovered issuer doc now).Keep A := by
  obtain ⟨-, -, hauthorization, htoken, hjwks⟩ := verifyOidcDiscovery_ok.mp hdoc
  intro stored h
  have hpresent : ∀ {field loaded current : Option String}, Present field → Present current →
      Present ((dirty (some field) loaded).getD current) := fun hfield hcurrent =>
    dirty_getD (fun value hvalue => Option.some.inj hvalue ▸ hfield) hcurrent
  exact
    { authorizationEndpoint := hpresent hauthorization h.authorizationEndpoint
      tokenEndpoint := hpresent htoken h.tokenEndpoint
      jwksUri := hpresent hjwks h.jwksUri
      secret := h.secret }

/-- The client and its secret beside them. -/
theorem OidcColumns.Keep.client {columns : OidcColumns} (h : columns.Keep A)
    (clientId : Option String) {encrypted : Option String}
    (hencrypted : ∀ e, encrypted = some e → ∃ clientSecret, A.encrypt clientSecret = some e) :
    ({ columns with clientId := clientId, clientSecretEncrypted := encrypted } :
      OidcColumns).Keep A := by
  intro trust htrust
  obtain ⟨hauthorization, htoken, hjwks, -⟩ := h trust htrust
  refine ⟨hauthorization, htoken, hjwks, ?_⟩
  cases encrypted with
  | none => exact htrust.secret
  | some e => exact hencrypted e rfl

theorem updateSso_keep {columns : OidcColumns} (h : columns.Keep A) {status : Option IdpStatus}
    (hstatus : ∀ s, status = some s → s = .active) (loaded : IdpStatus)
    (allowedDomains : Option (List String)) (updated : Option (ℕ × ℕ)) :
    ({ oidc := columns
       status := dirty status loaded
       allowedDomains := allowedDomains
       updated := updated } : IdpColumns).Keep A false := by
  intro config hconfig
  refine ⟨?_, fun _ => h _ (hconfig.oidcTrust rfl), nofun⟩
  refine dirty_getD (P := IdpStatus.Known) (fun s hs => ?_) hconfig.status
  obtain rfl := hstatus s hs
  exact nofun

/-! ### A SAML configuration -/

theorem SamlConfigRequest.validate_ok {r : SamlConfigRequest} :
    r.validate A = .ok () ↔ A.strip r.entityId ≠ "" ∧ Endpoint A r.ssoUrl ∧
      Pem A r.x509Certificate ∧ ∀ url, r.sloUrl = some url → Endpoint A url := by
  simp only [SamlConfigRequest.validate, checks_ok, checkGiven_ok, validateEntityId_ok,
    validateSsoUrl_ok, validateX509Certificate_ok]

theorem SamlConfigUpdate.validate_ok {u : SamlConfigUpdate} :
    u.validate A = .ok () ↔ (∀ entityId, u.entityId = some entityId → A.strip entityId ≠ "") ∧
      (∀ url, u.ssoUrl = some url → Endpoint A url) ∧
      (∀ text, u.x509Certificate = some text → Pem A text) ∧
      (∀ status, u.status = some status → status.Known) ∧
      ∀ url, u.sloUrl = some url → Endpoint A url := by
  simp only [SamlConfigUpdate.validate, checks_ok, checkGiven_ok, validateEntityId_ok,
    validateSsoUrl_ok, validateX509Certificate_ok, validateStatus_ok]

/-- The columns an update changes. -/
theorem updateSaml_keep {u : SamlConfigUpdate} (hu : u.validate A = .ok ()) (loaded : IdpConfig)
    (attributeMapping : Option (Option (List (String × String)))) (enabled : Option Bool)
    (allowedDomains : Option (List String)) (updated : Option (ℕ × ℕ)) :
    ({ saml :=
        { entityId := dirty u.entityId loaded.saml.entityId
          ssoUrl := dirty u.ssoUrl loaded.saml.ssoUrl
          x509Certificate := dirty u.x509Certificate loaded.saml.x509Certificate
          attributeMapping := attributeMapping
          enabled := enabled
          sloUrl := dirty (u.sloUrl.map some) loaded.saml.sloUrl }
       status := dirty u.status loaded.status
       allowedDomains := allowedDomains
       updated := updated } : IdpColumns).Keep A true := by
  obtain ⟨hentity, hsso, hcertificate, hstatus, hslo⟩ := SamlConfigUpdate.validate_ok.mp hu
  intro config hconfig
  have htrust := hconfig.samlTrust rfl
  refine ⟨?_, nofun, fun _ => ⟨?_, ?_, ?_, ?_⟩⟩
  · exact dirty_getD (P := IdpStatus.Known) hstatus hconfig.status
  · exact dirty_getD (P := fun s => A.strip s ≠ "") hentity htrust.entityId
  · exact dirty_getD hsso htrust.ssoUrl
  · exact dirty_getD hcertificate htrust.x509Certificate
  · refine dirty_getD (P := fun s => ∀ url, s = some url → Endpoint A url) ?_ htrust.sloUrl
    intro value hvalue
    obtain ⟨sloUrl, hgiven, rfl⟩ := Option.map_eq_some_iff.mp hvalue
    intro url hurl
    obtain rfl := Option.some.inj hurl
    exact hslo _ hgiven

end OmniAuth
