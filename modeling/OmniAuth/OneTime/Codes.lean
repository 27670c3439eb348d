import OmniAuth.OneTime.Messages

/-!
# First-party codes

A code is worth one token: the one for the platform owner it was issued to, to the registered
client, while its time lasts. Whoever redeems it first spends it, also one who is then refused
for the redirect URI or who never gets the answer.
-/

namespace OmniAuth

open Txn Prog

variable {E : Env} {F : FirstPartySettings} {l before : List Attempt} {e : Attempt} {code : String}

/-! ## What the requests check -/

/-- `requireLimsSsoConfig` passes. -/
def FirstPartySettings.Configured (F : FirstPartySettings) : Prop :=
  F.limsSsoClientId ≠ "" ∧ F.limsSsoClientSecret ≠ "" ∧ F.limsSsoRedirectUri ≠ ""

structure FirstPartyAuthorize.Admitted (F : FirstPartySettings) (r : FirstPartyAuthorize) :
    Prop where
  configured : F.Configured
  responseType : r.responseType = "code"
  clientId : r.clientId = F.limsSsoClientId
  redirectUri : r.redirectUri = F.limsSsoRedirectUri
  owner : manageAllOrgs ∈ r.user.permissions
  lasts : 0 < F.limsSsoCodeTtlSeconds

/-- The comparison of two texts that are not ASCII raises. -/
structure FirstPartyRedeem.Verified (F : FirstPartySettings) (r : FirstPartyRedeem) : Prop where
  grantType : r.grantType = "authorization_code"
  configured : F.Configured
  clientId : r.client.1 = some F.limsSsoClientId
  clientSecret : r.client.2 = some F.limsSsoClientSecret
  ascii : isAscii F.limsSsoClientId ∧ isAscii F.limsSsoClientSecret

theorem requireLimsSsoConfig_ok : requireLimsSsoConfig F = .ok () ↔ F.Configured := by
  unfold requireLimsSsoConfig FirstPartySettings.Configured
  split
  · rename_i h
    refine iff_of_false (by rintro ⟨⟩) ?_
    rintro ⟨h₁, h₂, h₃⟩
    rcases h with h | h | h
    · exact h₁ h
    · exact h₂ h
    · exact h₃ h
  · rename_i h
    simp only [not_or] at h
    exact iff_of_true rfl h

theorem compareDigest_true {a b : String} : compareDigest a b = some true ↔ a = b ∧ isAscii b := by
  unfold compareDigest
  split
  · rename_i h
    obtain ⟨-, hb⟩ := Bool.and_eq_true_iff.mp h
    simp [hb]
  · rename_i h
    refine iff_of_false (by rintro ⟨⟩) ?_
    rintro ⟨rfl, hb⟩
    exact h (by rw [hb]; rfl)

theorem requireEqual_ok {given registered : String} :
    requireEqual given registered = .ok () ↔ given = registered ∧ isAscii registered := by
  rw [← compareDigest_true]
  unfold requireEqual
  split <;> simp_all

theorem except_bind_unit {β : Type} {x : Except Err Unit} {y : Except Err β} {b : β} :
    (x >>= fun _ => y) = .ok b ↔ x = .ok () ∧ y = .ok b := by
  cases x with
  | error x => exact iff_of_false (by rintro ⟨⟩) (by rintro ⟨⟨⟩, -⟩)
  | ok u => exact ⟨fun h => ⟨rfl, h⟩, And.right⟩

theorem verifyLimsClient_ok {clientId clientSecret : Option String} :
    verifyLimsClient F clientId clientSecret = .ok () ↔
      F.Configured ∧ clientId = some F.limsSsoClientId ∧
        clientSecret = some F.limsSsoClientSecret ∧
        isAscii F.limsSsoClientId ∧ isAscii F.limsSsoClientSecret := by
  unfold verifyLimsClient
  rw [except_bind_unit, requireLimsSsoConfig_ok]
  refine and_congr_right fun hconfigured => ?_
  split
  · rename_i given secret hgiven hsecret
    obtain ⟨rfl, -⟩ := Option.filter_eq_some_iff.mp hgiven
    obtain ⟨rfl, -⟩ := Option.filter_eq_some_iff.mp hsecret
    rw [except_bind_unit, requireEqual_ok, requireEqual_ok, Option.some_inj, Option.some_inj]
    tauto
  · rename_i hmissing
    refine iff_of_false (by rintro ⟨⟩) ?_
    rintro ⟨rfl, rfl, -⟩
    refine hmissing F.limsSsoClientId F.limsSsoClientSecret ?_ ?_
    · exact Option.filter_eq_some_iff.mpr ⟨rfl, decide_eq_true hconfigured.1⟩
    · exact Option.filter_eq_some_iff.mpr ⟨rfl, decide_eq_true hconfigured.2.1⟩

theorem authorizeCommand_iff {r : FirstPartyAuthorize}
    {c : Expiring.Command String RedisValue} : authorizeCommand F r = .ok c ↔
      r.Admitted F ∧ c = .setEx (codeKey r.code) (.grant (r.grant F))
        (F.limsSsoCodeTtlSeconds.toNat * 1000) := by
  constructor
  · intro h
    refine ⟨?_, authorizeCommand_ok h⟩
    unfold authorizeCommand at h
    split at h
    · cases h
    · rename_i hconfig
      split_ifs at h with hbad howner hlasts
      simp only [not_or, ne_eq, not_not] at hbad
      exact ⟨requireLimsSsoConfig_ok.mp hconfig, hbad.1, hbad.2.1, hbad.2.2,
        howner, not_le.mp hlasts⟩
  · rintro ⟨h, rfl⟩
    unfold authorizeCommand
    rw [requireLimsSsoConfig_ok.mpr h.configured]
    dsimp only
    have hgood : ¬ (r.responseType ≠ "code" ∨ r.clientId ≠ F.limsSsoClientId ∨
        r.redirectUri ≠ F.limsSsoRedirectUri) := by
      simp [h.responseType, h.clientId, h.redirectUri]
    rw [if_neg hgood, if_neg (not_not.mpr h.owner), if_neg (not_le.mpr h.lasts)]

theorem redeemCommand_iff {r : FirstPartyRedeem} {c : Expiring.Command String RedisValue} :
    redeemCommand F r = .ok c ↔ r.Verified F ∧ c = .getDel (codeKey r.code) := by
  constructor
  · intro h
    refine ⟨?_, redeemCommand_ok h⟩
    unfold redeemCommand at h
    split_ifs at h with hgrant
    split at h
    · cases h
    · rename_i hverified
      obtain ⟨hconfigured, hid, hsecret, hascii⟩ := verifyLimsClient_ok.mp hverified
      exact ⟨not_not.mp hgrant, hconfigured, hid, hsecret, hascii⟩
  · rintro ⟨h, rfl⟩
    unfold redeemCommand
    rw [if_neg (not_not.mpr h.grantType), verifyLimsClient_ok.mpr
      ⟨h.configured, h.clientId, h.clientSecret, h.ascii⟩]

/-! ## What an attempt does to a code -/

/-- The authorization is executed: its code is stored. -/
def Attempt.Issues (F : FirstPartySettings) (e : Attempt) (p : FirstPartyAuthorize) : Prop :=
  e.request = .authorize p ∧ e.fate ≠ .unreachable ∧ p.Admitted F

/-- The redemption is executed: its code is gone. -/
def Attempt.Spends (F : FirstPartySettings) (e : Attempt) (code : String) : Prop :=
  ∃ r, e.request = .redeem r ∧ e.fate ≠ .unreachable ∧ r.Verified F ∧ r.code = code

theorem Attempt.executed_authorize {p : FirstPartyAuthorize} (h : e.Issues F p) :
    e.executed F = some (e.instant, .setEx (codeKey p.code) (.grant (p.grant F))
      (F.limsSsoCodeTtlSeconds.toNat * 1000)) := by
  obtain ⟨hr, hfate, hp⟩ := h
  unfold Attempt.executed
  rw [if_neg hfate, hr, OneTimeRequest.command, authorizeCommand_iff.mpr ⟨hp, rfl⟩]
  rfl

/-- The key of a code is set by an authorization and removed by a redemption. -/
theorem Attempt.executed_codeKey {x : ℕ × Expiring.Command String RedisValue}
    (h : e.executed F = some x) (hkey : x.2.key = codeKey code) :
    (∃ p, e.Issues F p ∧ p.code = code ∧ x.2 = .setEx (codeKey code) (.grant (p.grant F))
      (F.limsSsoCodeTtlSeconds.toNat * 1000)) ∨
    (e.Spends F code ∧ x.2 = .getDel (codeKey code)) := by
  obtain ⟨-, hfate, hcommand⟩ := Attempt.executed_instant h
  cases hr : e.request with
  | samlResponse config reading =>
    rw [hr] at hcommand
    obtain ⟨m, -, hx⟩ := setNx_of_read.mp hcommand
    rw [hx] at hkey
    exact absurd hkey.symm codeKey_ne_key
  | logoutRequest config reading =>
    rw [hr] at hcommand
    obtain ⟨m, -, hx⟩ := setNx_of_read.mp hcommand
    rw [hx] at hkey
    exact absurd hkey.symm codeKey_ne_key
  | authorize p =>
    rw [hr] at hcommand
    obtain ⟨hp, hx⟩ := authorizeCommand_iff.mp hcommand
    rw [hx] at hkey
    obtain rfl := codeKey_injective hkey
    exact .inl ⟨p, ⟨hr, hfate, hp⟩, rfl, hx⟩
  | redeem r =>
    rw [hr] at hcommand
    obtain ⟨hv, hx⟩ := redeemCommand_iff.mp hcommand
    rw [hx] at hkey
    obtain rfl := codeKey_injective hkey
    exact .inr ⟨⟨r, hr, hfate, hv, rfl⟩, hx⟩
  | blacklist jti ttl =>
    rw [hr] at hcommand
    rw [← Except.ok.inj hcommand] at hkey
    exact absurd hkey (ne_of_head head_blacklistKey head_codeKey (by decide))

/-- The attempt sets or removes the key of the code. -/
def Attempt.Touches (F : FirstPartySettings) (e : Attempt) (code : String) : Prop :=
  e.Spends F code ∨ ∃ p, e.Issues F p ∧ p.code = code

theorem Attempt.touches_iff : e.Touches F code ↔
    ∃ x, e.executed F = some x ∧ x.2.key = codeKey code := by
  constructor
  · rintro (⟨r, hr, hfate, hv, rfl⟩ | ⟨p, hp, rfl⟩)
    · refine ⟨(e.instant, .getDel (codeKey r.code)), ?_, rfl⟩
      unfold Attempt.executed
      rw [if_neg hfate, hr, OneTimeRequest.command, redeemCommand_iff.mpr ⟨hv, rfl⟩]
      rfl
    · exact ⟨_, Attempt.executed_authorize hp, rfl⟩
  · rintro ⟨x, hx, hkey⟩
    rcases Attempt.executed_codeKey hx hkey with ⟨p, hp, hcode, -⟩ | ⟨hspent, -⟩
    · exact .inr ⟨p, hp, hcode⟩
    · exact .inl hspent

theorem untouched_iff : (∀ e ∈ l, ¬ e.Touches F code) ↔
    ∀ x ∈ redisHistory F l, x.2.key ≠ codeKey code := by
  constructor
  · intro h x hx hkey
    obtain ⟨e, he, hx⟩ := List.mem_filterMap.mp hx
    exact h e he (Attempt.touches_iff.mpr ⟨x, hx, hkey⟩)
  · intro h e he htouches
    obtain ⟨x, hx, hkey⟩ := Attempt.touches_iff.mp htouches
    exact h x (List.mem_filterMap.mpr ⟨e, he, hx⟩) hkey

/-- The last thing that happened to a code is that it was issued, and its time lasts. -/
def Outstanding (F : FirstPartySettings) (before : List Attempt) (instant : ℕ)
    (p : FirstPartyAuthorize) : Prop :=
  ∃ b e a, before = b ++ e :: a ∧ e.Issues F p ∧ (∀ e' ∈ a, ¬ e'.Touches F p.code) ∧
    instant < e.instant + F.limsSsoCodeTtlSeconds.toNat * 1000

theorem Outstanding.admitted {instant : ℕ} {p : FirstPartyAuthorize}
    (h : Outstanding F before instant p) : p.Admitted F := by
  obtain ⟨b, e, a, -, hissues, -⟩ := h
  exact hissues.2.2

/-- **What Redis holds for a code** is the grant of an outstanding authorization. -/
theorem get_codeKey {instant : ℕ} {v : RedisValue} :
    (redisHistory F before).store.get instant (codeKey code) = some v ↔
      ∃ p, Outstanding F before instant p ∧ p.code = code ∧ v = .grant (p.grant F) := by
  rw [Expiring.History.get_iff]
  · constructor
    · rintro ⟨h₁, t, ttl, h₂, hsplit, hlt, huntouched⟩
      obtain ⟨b, e, a, rfl, rfl, he, rfl⟩ := redisHistory_split hsplit
      obtain ⟨hinstant, -, -⟩ := Attempt.executed_instant he
      obtain rfl : t = e.instant := hinstant
      rcases Attempt.executed_codeKey he rfl with ⟨p, hp, rfl, hx⟩ | ⟨-, hx⟩
      · injection hx with _ hv httl
        subst hv httl
        exact ⟨p, ⟨b, e, a, rfl, hp, untouched_iff.mpr huntouched, hlt⟩, rfl, rfl⟩
      · cases hx
    · rintro ⟨p, ⟨b, e, a, rfl, hp, huntouched, hlt⟩, rfl, rfl⟩
      exact ⟨_, _, _, _, redisHistory_cons_split (Attempt.executed_authorize hp), hlt,
        untouched_iff.mp huntouched⟩
  · intro x hx v ttl heq
    obtain ⟨e, -, hx⟩ := List.mem_filterMap.mp hx
    have hkey : x.2.key = codeKey code := by rw [heq]; rfl
    rcases Attempt.executed_codeKey hx hkey with ⟨p, -, -, hset⟩ | ⟨-, hget⟩
    · rw [hset] at heq
      cases heq
    · rw [hget] at heq
      cases heq

/-! ## Redemptions -/

variable {r : FirstPartyRedeem} {w w' : World} {res : AuthorizationCodeTokenResponse E}

/-- The redemption gets a reply of Redis. -/
theorem Attempt.reply_redeem (hr : e.request = .redeem r) (hv : r.Verified F) {held} :
    e.reply F before = some held ↔ e.fate = .answered ∧
      (redisHistory F before).store.get e.instant (codeKey r.code) = held := by
  unfold Attempt.reply
  rw [hr, OneTimeRequest.command, redeemCommand_iff.mpr ⟨hv, rfl⟩]
  cases hfate : e.fate with
  | answered => simp [Expiring.Command.key]
  | lost => simp
  | unreachable => simp

/-- What is answered for a grant. -/
theorem redeem_grant {g : FirstPartyGrant} (hv : r.Verified F) :
    (redeemFirstPartyAuthorizationCode E F r (some (some (.grant g)))).Exec w (.ok res) w' ↔
      ∃ t token, w.now ≤ t ∧ (numericDate t : ℤ) ≤ g.exp ∧ g.clientId = F.limsSsoClientId ∧
        g.redirectUri = r.redirectUri ∧ manageAllOrgs ∈ g.permissions ∧
        (createAccessToken E g.claims none).Exec { w with now := t } (.ok token) w' ∧
        res = { accessToken := token, expiresIn := E.accessTokenExpireMinutes * 60
                state := g.state } := by
  unfold redeemFirstPartyAuthorizationCode
  rw [redeemCommand_iff.mpr ⟨hv, rfl⟩]
  simp only [bind_eq, exec_time_bind]
  constructor
  · rintro ⟨t, ht, h⟩
    split at h
    · cases h.1
    · rename_i hgood
      simp only [not_or, not_lt, ne_eq, not_not, hv.clientId, Option.some_inj] at hgood
      obtain ⟨hexp, hclient, huri, howner⟩ := hgood
      rcases exec_bind.mp h with ⟨token, w₁, hmint, hret⟩ | ⟨x, -, hx⟩
      · obtain ⟨hres, rfl⟩ := hret
        exact ⟨t, token, ht, hexp, hclient, huri, howner, hmint, Except.ok.inj hres⟩
      · cases hx
  · rintro ⟨t, token, ht, hexp, hclient, huri, howner, hmint, rfl⟩
    refine ⟨t, ht, ?_⟩
    have hgood : ¬ (g.exp < numericDate t ∨ some g.clientId ≠ r.client.1 ∨
        g.redirectUri ≠ r.redirectUri ∨ manageAllOrgs ∉ g.permissions) := by
      simp [hexp, hv.clientId, hclient, huri, howner]
    rw [if_neg hgood]
    exact exec_bind.mpr (.inl ⟨token, w', hmint, rfl, rfl⟩)

/-- The last issue of an outstanding code comes after every attempt that touched it. -/
theorem Outstanding.issued_after {instant : ℕ} {p : FirstPartyAuthorize} {b a : List Attempt}
    {e' : Attempt} (h : Outstanding F before instant p) (hsplit : before = b ++ e' :: a)
    (hspent : e'.Spends F p.code) : ∃ e'' ∈ a, e''.Issues F p := by
  obtain ⟨b₀, e₀, a₀, rfl, hissues, huntouched, -⟩ := h
  rcases List.append_eq_append_iff.mp hsplit with ⟨c, -, hrest⟩ | ⟨c, -, hrest⟩
  · cases c with
    | nil =>
      obtain rfl : e₀ = e' := (List.cons.inj hrest).1
      obtain ⟨r, hr, -⟩ := hspent
      exact absurd (hissues.1.symm.trans hr) (by rintro ⟨⟩)
    | cons x c =>
      have hmem : e' ∈ a₀ := by simp [(List.cons.inj hrest).2]
      exact absurd (.inl hspent) (huntouched e' hmem)
  · cases c with
    | nil =>
      obtain rfl : e' = e₀ := (List.cons.inj hrest).1
      obtain ⟨r, hr, -⟩ := hspent
      exact absurd (hissues.1.symm.trans hr) (by rintro ⟨⟩)
    | cons x c => exact ⟨e₀, by simp [(List.cons.inj hrest).2], hissues⟩

theorem redeem_reply {reply : RedisReply}
    (h : (redeemFirstPartyAuthorizationCode E F r reply).Exec w (.ok res) w') :
    r.Verified F ∧ ∃ g, reply = some (some (.grant g)) := by
  unfold redeemFirstPartyAuthorizationCode at h
  split at h
  · cases h.1
  · cases h.1
  · cases h.1
  · cases h.1
  · rename_i hcommand
    exact ⟨(redeemCommand_iff.mp hcommand).1, _, rfl⟩

/-- **A code is redeemed once**: whatever requests are made at once, a redemption gets a token
exactly where Redis answers it, the registered client sends it with the registered redirect URI,
and its code is outstanding; the token is for the platform owner the code was issued to. Who
redeems a code that somebody redeemed before finds it only if it was issued again. -/
theorem first_party_code_once (hr : e.request = .redeem r) :
    ((redeemFirstPartyAuthorizationCode E F r (e.reply F before)).Exec w (.ok res) w' ↔
      e.fate = .answered ∧ r.Verified F ∧ r.redirectUri = F.limsSsoRedirectUri ∧
        ∃ p t token, Outstanding F before e.instant p ∧ p.code = r.code ∧ w.now ≤ t ∧
          (numericDate t : ℤ) ≤ numericDate p.clock + F.limsSsoCodeTtlSeconds ∧
          (createAccessToken E (p.grant F).claims none).Exec { w with now := t } (.ok token) w' ∧
          res = { accessToken := token, expiresIn := E.accessTokenExpireMinutes * 60
                  state := p.state }) ∧
    ((redeemFirstPartyAuthorizationCode E F r (e.reply F before)).Exec w (.ok res) w' →
      ∀ b e' a, before = b ++ e' :: a → e'.Spends F r.code →
        ∃ e'' ∈ a, ∃ p, e''.Issues F p ∧ p.code = r.code) := by
  have hexact : (redeemFirstPartyAuthorizationCode E F r (e.reply F before)).Exec w (.ok res) w' ↔
      e.fate = .answered ∧ r.Verified F ∧ r.redirectUri = F.limsSsoRedirectUri ∧
        ∃ p t token, Outstanding F before e.instant p ∧ p.code = r.code ∧ w.now ≤ t ∧
          (numericDate t : ℤ) ≤ numericDate p.clock + F.limsSsoCodeTtlSeconds ∧
          (createAccessToken E (p.grant F).claims none).Exec { w with now := t } (.ok token) w' ∧
          res = { accessToken := token, expiresIn := E.accessTokenExpireMinutes * 60
                  state := p.state } := by
    constructor
    · intro h
      obtain ⟨hv, g, hreply⟩ := redeem_reply h
      obtain ⟨hfate, hheld⟩ := (Attempt.reply_redeem hr hv).mp hreply
      obtain ⟨p, hp, hcode, hg⟩ := get_codeKey.mp hheld
      obtain rfl := RedisValue.grant.inj hg
      rw [hreply] at h
      obtain ⟨t, token, ht, hexp, -, huri, -, hmint, hres⟩ := (redeem_grant hv).mp h
      exact ⟨hfate, hv, huri.symm.trans hp.admitted.redirectUri, p, t, token, hp, hcode, ht, hexp,
        hmint, hres⟩
    · rintro ⟨hfate, hv, huri, p, t, token, hp, hcode, ht, hexp, hmint, hres⟩
      have hheld := get_codeKey.mpr ⟨p, hp, hcode, rfl⟩
      rw [(Attempt.reply_redeem hr hv).mpr ⟨hfate, hheld⟩]
      exact (redeem_grant hv).mpr ⟨t, token, ht, hexp, hp.admitted.clientId,
        hp.admitted.redirectUri.trans huri.symm, hp.admitted.owner, hmint, hres⟩
  refine ⟨hexact, fun h b e' a hsplit hspent => ?_⟩
  obtain ⟨-, -, -, p, -, -, hp, hcode, -⟩ := hexact.mp h
  rw [← hcode] at hspent
  obtain ⟨e'', hmem, hissues⟩ := hp.issued_after hsplit hspent
  exact ⟨e'', hmem, p, hissues, hcode⟩

/-! ## A run -/

def limsSettings : FirstPartySettings where
  limsSsoClientId := "lims"
  limsSsoClientSecret := "s3cret"
  limsSsoRedirectUri := "https://lims.omnibioai.org/callback"
  limsSsoCodeTtlSeconds := 60

/-- Ada, who owns the platform, asks for a code. -/
def adaGrant : FirstPartyAuthorize where
  clientId := "lims"
  redirectUri := "https://lims.omnibioai.org/callback"
  responseType := "code"
  state := "0123456789abcdef"
  nonce := none
  user := { sub := some (.user 1), permissions := [manageAllOrgs] }
  code := "c0de"
  jti := 9
  clock := 0
  state_length := by decide
  nonce_length := by simp

def adaAuthorize : Attempt := ⟨0, .authorize adaGrant, .answered⟩

def limsRedeem : FirstPartyRedeem where
  grantType := "authorization_code"
  code := "c0de"
  redirectUri := "https://lims.omnibioai.org/callback"
  clientId := none
  clientSecret := none
  basic := some ("lims", "s3cret")

def limsAttempt (instant : ℕ) (fate : Fate) : Attempt := ⟨instant, .redeem limsRedeem, fate⟩

def noRows : World := ⟨Database.empty, Database.empty, 0, 10, []⟩

/-- The code is good a millisecond before its minute is over, unless a redemption got there
first, even one whose answer was lost. -/
theorem first_party_code_once_ada :
    (∃ res w', (redeemFirstPartyAuthorizationCode .symbolic limsSettings limsRedeem
      ((limsAttempt 59999 .answered).reply limsSettings [adaAuthorize])).Exec
        noRows (.ok res) w' ∧ res.state = "0123456789abcdef") ∧
    ∀ res w', ¬ (redeemFirstPartyAuthorizationCode .symbolic limsSettings limsRedeem
      ((limsAttempt 59999 .answered).reply limsSettings
        [adaAuthorize, limsAttempt 1 .lost])).Exec noRows (.ok res) w' := by
  have hconfigured : limsSettings.Configured := ⟨by decide, by decide, by decide⟩
  have hverified : limsRedeem.Verified limsSettings :=
    ⟨rfl, hconfigured, rfl, rfl, by decide, by decide⟩
  have hadmitted : (adaGrant).Admitted limsSettings :=
    ⟨hconfigured, rfl, rfl, rfl, by decide, by decide⟩
  constructor
  · obtain ⟨w', token, hmint⟩ : ∃ w' token, (createAccessToken .symbolic
        (adaGrant.grant limsSettings).claims none).Exec noRows (.ok token) w' :=
      ⟨_, _, exec_run _ noRows⟩
    have hout : Outstanding limsSettings [adaAuthorize] 59999 adaGrant :=
      ⟨[], adaAuthorize, [], rfl, ⟨rfl, by decide, hadmitted⟩, by simp, by decide⟩
    have hlasts : (numericDate noRows.now : ℤ) ≤
        numericDate adaGrant.clock + limsSettings.limsSsoCodeTtlSeconds := by decide
    refine ⟨_, w', (first_party_code_once rfl).1.mpr ⟨rfl, hverified, rfl,
      adaGrant, noRows.now, token, hout, rfl, le_rfl, hlasts, hmint, rfl⟩, rfl⟩
  · intro res w' h
    have hspent : (limsAttempt 1 .lost).Spends limsSettings limsRedeem.code :=
      ⟨limsRedeem, rfl, by decide, hverified, rfl⟩
    obtain ⟨e'', hmem, -⟩ := (first_party_code_once rfl).2 h [adaAuthorize] _ [] rfl hspent
    exact absurd hmem List.not_mem_nil

end OmniAuth
