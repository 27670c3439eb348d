import OmniAuth.Login.Service

/-!
# Which organization an address belongs to

`find_enforced_org_for_email` and its SAML sibling look for the first active configuration
that lists the domain, and only then ask whether that one enforces its provider. What they
return is right; what they miss is an organization that enforces its provider behind another
one that lists the same domain and does not.
-/

namespace OmniAuth

open Txn Prog

/-! ## A search that stops before it has asked everything -/

section

variable {α : Type} {l rows : List α} {p q : α → Bool} {a : α}

/-- Of two conditions the first is searched for, and the second asked of what was found. -/
def firstThen (p q : α → Bool) (l : List α) : Option α := (l.find? p).filter q

/-- An element that meets both comes before every one that meets only the first. -/
def InFront (p q : α → Bool) (l : List α) : Prop :=
  ∃ before a after, l = before ++ a :: after ∧ p a = true ∧ q a = true ∧
    ∀ b ∈ before, p b = false

/-- What is returned is in the list and meets both. -/
theorem firstThen_sound (h : firstThen p q l = some a) : a ∈ l ∧ p a = true ∧ q a = true := by
  obtain ⟨hfound, hq⟩ := Option.filter_eq_some_iff.mp h
  exact ⟨List.mem_of_find?_eq_some hfound, List.find?_some hfound, hq⟩

/-- **Something is returned** exactly where one that meets both stands in front. -/
theorem firstThen_isSome_iff : (firstThen p q l).isSome = true ↔ InFront p q l := by
  constructor
  · intro h
    obtain ⟨a, ha⟩ := Option.isSome_iff_exists.mp h
    obtain ⟨hfound, hq⟩ := Option.filter_eq_some_iff.mp ha
    obtain ⟨hp, before, after, hl, hbefore⟩ := List.find?_eq_some_iff_append.mp hfound
    exact ⟨before, a, after, hl, hp, hq, fun b hb => by simpa using hbefore b hb⟩
  · rintro ⟨before, a, after, hl, hp, hq, hbefore⟩
    have hfound : l.find? p = some a :=
      List.find?_eq_some_iff_append.mpr ⟨hp, before, after, hl, fun b hb => by simp [hbefore b hb]⟩
    unfold firstThen
    rw [hfound, Option.filter_some, if_pos hq]
    rfl

theorem InFront.exists (h : InFront p q l) : ∃ a ∈ l, p a = true ∧ q a = true := by
  obtain ⟨before, a, after, rfl, hp, hq, -⟩ := h
  exact ⟨a, List.mem_append_right _ (List.mem_cons_self ..), hp, hq⟩

/-- **Whatever the order**, nothing is missed exactly where whoever meets the first condition
meets the second as well, if any of them does. -/
theorem inFront_perm_iff :
    (∀ rows, rows.Perm l → (∃ a ∈ rows, p a = true ∧ q a = true) → InFront p q rows) ↔
      ((∃ a ∈ l, p a = true ∧ q a = true) → ∀ b ∈ l, p b = true → q b = true) := by
  constructor
  · rintro h ⟨a, ha, hpa, hqa⟩ b hb hpb
    -- put the one in question in front of all others
    obtain ⟨before, after, rfl⟩ := List.append_of_mem hb
    have hperm : (b :: (before ++ after)).Perm (before ++ b :: after) := List.perm_middle.symm
    obtain ⟨first, c, rest, hsplit, -, hqc, hfirst⟩ :=
      h _ hperm ⟨a, hperm.mem_iff.mpr ha, hpa, hqa⟩
    cases first with
    | nil =>
      obtain ⟨rfl, -⟩ := List.cons.inj hsplit
      exact hqc
    | cons x first =>
      obtain ⟨rfl, -⟩ := List.cons.inj hsplit
      have hnot := hfirst b (List.mem_cons_self ..)
      rw [hpb] at hnot
      cases hnot
  · rintro h rows hperm ⟨a, ha, hpa, hqa⟩
    have hall := h ⟨a, hperm.mem_iff.mp ha, hpa, hqa⟩
    have hsome : (rows.find? p).isSome = true := List.find?_isSome.mpr ⟨a, ha, hpa⟩
    obtain ⟨b, hb⟩ := Option.isSome_iff_exists.mp hsome
    obtain ⟨hpb, before, after, hrows, hbefore⟩ := List.find?_eq_some_iff_append.mp hb
    refine ⟨before, b, after, hrows, hpb, ?_, fun c hc => by simpa using hbefore c hc⟩
    exact hall b (hperm.mem_iff.mp (List.mem_of_find?_eq_some hb)) hpb

end

/-! ## Domains of organizations -/

variable (A : AppEnv)

/-- The configuration is active and lists the domain of the address. -/
def IdpConfig.Claims (config : IdpConfig) (email : String) : Prop :=
  ∃ domain, emailDomain A email = some domain ∧ config.status = .active ∧ config.allows A domain

instance (config : IdpConfig) (email : String) : Decidable (config.Claims A email) :=
  match h : emailDomain A email with
  | none => isFalse (by
      rintro ⟨domain, hdomain, -⟩
      rw [h] at hdomain
      cases hdomain)
  | some domain => decidable_of_iff (config.status = .active ∧ config.allows A domain) (by
      constructor
      · exact fun hclaims => ⟨domain, h, hclaims⟩
      · rintro ⟨domain', hdomain, hclaims⟩
        obtain rfl := Option.some.inj (h.symm.trans hdomain)
        exact hclaims)

/-- What is found for an address is an active configuration that lists its domain and
enforces its provider, and there is one whenever there is such a configuration. -/
def FoundExactly (configs : List IdpConfig) (email : String) (found : Option IdpConfig) : Prop :=
  (found.isSome = true ↔ ∃ config ∈ configs, config.Claims A email ∧ config.Enforces) ∧
    ∀ config, found = some config → config ∈ configs ∧ config.Claims A email ∧ config.Enforces

/-- If any configuration enforces its provider for the address, one does with none before it
that claims the domain and leaves logins alone. -/
def Unshadowed (configs : List IdpConfig) (email : String) : Prop :=
  (∃ config ∈ configs, config.Claims A email ∧ config.Enforces) →
    ∃ before config after, configs = before ++ config :: after ∧ config.Claims A email ∧
      config.Enforces ∧ ∀ other ∈ before, ¬ other.Claims A email

variable {A} {configs : List IdpConfig} {email : String}

/-- Both functions are one search. -/
theorem findConfigForEmail_filter :
    ((findConfigForEmail A configs email).filter fun config => config.Enforces) =
      firstThen (fun config => decide (config.Claims A email))
        (fun config => decide config.Enforces) configs := by
  unfold findConfigForEmail firstThen
  cases hdomain : emailDomain A email with
  | none =>
    have hnone : configs.find? (fun config => decide (config.Claims A email)) = none := by
      refine List.find?_eq_none.mpr fun config _ => ?_
      rw [decide_eq_true_iff]
      rintro ⟨domain, hsome, -⟩
      rw [hdomain] at hsome
      cases hsome
    rw [hnone]
    rfl
  | some domain =>
    have hsame : (fun config : IdpConfig => decide (config.status = .active ∧
        config.allows A domain)) = fun config => decide (config.Claims A email) := by
      funext config
      refine decide_eq_decide.mpr ⟨fun h => ⟨domain, hdomain, h⟩, ?_⟩
      rintro ⟨domain', hdomain', h⟩
      obtain rfl := Option.some.inj (hdomain.symm.trans hdomain')
      exact h
    rw [Option.bind_some, hsame]

theorem unshadowed_iff : Unshadowed A configs email ↔
    ((∃ config ∈ configs, config.Claims A email ∧ config.Enforces) →
      InFront (fun config => decide (config.Claims A email))
        (fun config => decide config.Enforces) configs) := by
  unfold Unshadowed InFront
  simp only [decide_eq_true_eq, decide_eq_false_iff_not]

/-- **The search is exact** where the configuration that enforces is not shadowed. -/
theorem foundExactly_iff :
    FoundExactly A configs email
      ((findConfigForEmail A configs email).filter fun config => config.Enforces) ↔
      Unshadowed A configs email := by
  rw [findConfigForEmail_filter, unshadowed_iff]
  unfold FoundExactly
  rw [firstThen_isSome_iff]
  constructor
  · exact fun h => h.1.mpr
  · refine fun h => ⟨⟨fun hfront => ?_, h⟩, fun config hfound => ?_⟩
    · obtain ⟨config, hmem, hclaims, henforces⟩ := hfront.exists
      exact ⟨config, hmem, of_decide_eq_true hclaims, of_decide_eq_true henforces⟩
    · obtain ⟨hmem, hclaims, henforces⟩ := firstThen_sound hfound
      exact ⟨hmem, of_decide_eq_true hclaims, of_decide_eq_true henforces⟩

/-- Whatever the order of the rows: where all who claim the domain enforce, or none does. -/
theorem unshadowed_perm_iff :
    (∀ rows, rows.Perm configs → Unshadowed A rows email) ↔
      ((∃ config ∈ configs, config.Claims A email ∧ config.Enforces) →
        ∀ config ∈ configs, config.Claims A email → config.Enforces) := by
  have hsearch := inFront_perm_iff (l := configs)
    (p := fun config => decide (config.Claims A email)) (q := fun config => decide config.Enforces)
  simp only [decide_eq_true_eq] at hsearch
  rw [← hsearch]
  exact forall_congr' fun rows => forall_congr' fun _ => unshadowed_iff

/-- **Enforced domains are found**, by either protocol, exactly where a configuration that
enforces its provider is not behind one that claims the same domain and does not; whatever
the order of the rows, exactly where those that claim the domain all enforce, or none does. -/
theorem enforced_discovery_exact (A : AppEnv) (db : Database) (email : String) :
    (FoundExactly A db.ssoConfigs email (findEnforcedOrgForEmail A db email) ↔
      Unshadowed A db.ssoConfigs email) ∧
    (FoundExactly A db.samlConfigs email (findEnforcedSamlOrgForEmail A db email) ↔
      Unshadowed A db.samlConfigs email) ∧
    ((∀ rows, rows.Perm db.ssoConfigs → FoundExactly A rows email
        (findEnforcedOrgForEmail A { db with ssoConfigs := rows } email)) ↔
      ((∃ config ∈ db.ssoConfigs, config.Claims A email ∧ config.Enforces) →
        ∀ config ∈ db.ssoConfigs, config.Claims A email → config.Enforces)) ∧
    ((∀ rows, rows.Perm db.samlConfigs → FoundExactly A rows email
        (findEnforcedSamlOrgForEmail A { db with samlConfigs := rows } email)) ↔
      ((∃ config ∈ db.samlConfigs, config.Claims A email ∧ config.Enforces) →
        ∀ config ∈ db.samlConfigs, config.Claims A email → config.Enforces)) := by
  refine ⟨foundExactly_iff, foundExactly_iff, ?_, ?_⟩
  · rw [← unshadowed_perm_iff]
    exact forall_congr' fun rows => forall_congr' fun _ => foundExactly_iff
  · rw [← unshadowed_perm_iff]
    exact forall_congr' fun rows => forall_congr' fun _ => foundExactly_iff

/-! ## Two organizations at one domain -/

/-- The first only lists the domain; the second requires its members to use its provider. -/
def sharedDomain : Database := { Database.empty with
  ssoConfigs := [
    { id := 1, organizationId := 1, status := .active, allowedDomains := ["lab.org"],
      enforced := false },
    { id := 2, organizationId := 2, status := .active, allowedDomains := ["lab.org"],
      enforced := true }] }

/-- **An enforced domain that is not found.** -/
theorem enforced_discovery_shadowed :
    findEnforcedOrgForEmail .symbolic sharedDomain "ann@lab.org" = none ∧
      ¬ FoundExactly .symbolic sharedDomain.ssoConfigs "ann@lab.org"
        (findEnforcedOrgForEmail .symbolic sharedDomain "ann@lab.org") := by
  have hnone : findEnforcedOrgForEmail .symbolic sharedDomain "ann@lab.org" = none := by
    decide +kernel
  have hclaimed : ∃ config ∈ sharedDomain.ssoConfigs,
      config.Claims .symbolic "ann@lab.org" ∧ config.Enforces := by decide +kernel
  refine ⟨hnone, fun hexact => ?_⟩
  rw [hnone] at hexact
  exact nomatch hexact.1.mpr hclaimed

end OmniAuth
