import OmniAuth.Token.Usable

/-!
# How long the blacklist lasts

`blacklist_access_token` gives its key a number of whole seconds, computed from
a naive clock reading that the server's own time zone shifts; the token is
rejected by `decode_token` from the end of the second named by its `exp`. In a
zone east of UTC the key outlives the token. In UTC and west of it the key is
gone before the token is, by a fraction of a second or by the whole offset.
-/

namespace OmniAuth

open Txn Prog

variable {E : Env}

/-! ## Access tokens -/

/-- `token` is an access token minted for `data`, which expires at the end of
the second `exp`. -/
def MintedAccess (E : Env) (data : Claims) (token : E.Token) (exp : ℕ) : Prop :=
  ∃ (expiresSeconds : Option ℕ) (w w' : World),
    (createAccessToken E data expiresSeconds).Exec w (.ok token) w' ∧
    exp = numericDate (w'.now + (match expiresSeconds with
      | some s => seconds s
      | none => minutes E.accessTokenExpireMinutes))

/-- The claims of an access token as they are signed. -/
structure IsAccess (E : Env) (data c : Claims) (exp : ℕ) : Prop where
  sub : c.sub = data.sub
  exp : c.exp = some exp
  jti : ∃ jti, c.jti = some jti

theorem MintedAccess.signed {data : Claims} {token : E.Token} {exp : ℕ}
    (h : MintedAccess E data token exp) : ∃ c, token = sign E c ∧ IsAccess E data c exp := by
  obtain ⟨expires, w, w', h, rfl⟩ := h
  simp only [createAccessToken, bind_eq, exec_time_bind, exec_draw_bind] at h
  obtain ⟨t, -, h, rfl⟩ := h
  exact ⟨_, Except.ok.inj h, rfl, rfl, _, rfl⟩

/-- What a signed token decodes to has the claims it was signed with. -/
theorem decodeTokenForAudience_sign_ok (hJ : E.jose.Lawful) {now : ℕ} {c payload : Claims}
    {audience : String} (h : decodeTokenForAudience E now (sign E c) audience = .ok payload) :
    payload = { c with
      iss := c.iss.orElse fun _ => some E.jwtIssuer
      aud := c.aud.orElse fun _ => some E.jwtAudience } ∧
    ∀ e, c.exp = some e → numericDate now ≤ e := by
  rw [decodeTokenForAudience_sign hJ] at h
  simp only [Claims.validate] at h
  split at h
  · cases h
  · rename_i c' hv
    split at hv
    · cases hv
    · rename_i hexp
      split at hv
      · cases hv
      · obtain rfl := Except.ok.inj hv
        split at h
        · cases h
        · refine ⟨(Except.ok.inj h).symm, fun e he => ?_⟩
          simpa [onSome, he] using hexp

theorem decodeToken_sign_ok (hJ : E.jose.Lawful) {now : ℕ} {c payload : Claims}
    (h : decodeToken E now (sign E c) = .ok payload) :
    payload = { c with
      iss := c.iss.orElse fun _ => some E.jwtIssuer
      aud := c.aud.orElse fun _ => some E.jwtAudience } ∧
    ∀ e, c.exp = some e → numericDate now ≤ e :=
  decodeTokenForAudience_sign_ok hJ h

/-- A token that decodes goes on decoding until it has expired. -/
theorem decodeToken_later (hJ : E.jose.Lawful) {now t : ℕ} {c payload : Claims}
    (h : decodeToken E now (sign E c) = .ok payload) (ht : ∀ e, c.exp = some e → numericDate t ≤ e) :
    decodeToken E t (sign E c) = .ok payload := by
  have hlate : ¬ (onSome c.exp fun e => decide (e < numericDate t)) = true := by
    cases hexp : c.exp with
    | none => simp [onSome]
    | some e =>
      have := ht e hexp
      simpa [onSome] using this
  have hnow : ¬ (onSome c.exp fun e => decide (e < numericDate now)) = true := by
    intro hx
    rw [decodeToken, decodeTokenForAudience_sign hJ] at h
    simp only [Claims.validate, if_pos hx] at h
    cases h
  rw [decodeToken, decodeTokenForAudience_sign hJ] at h ⊢
  simp only [Claims.validate, if_neg hlate] at h ⊢
  simp only [if_neg hnow] at h
  exact h

/-! ## The two clocks -/

/-- **East of UTC** the naive reading is a whole second behind, or more. -/
def RunsBehind (utcOffset : ℤ) (now : ℕ) : Prop :=
  1 ≤ utcOffset ∧ (utcOffset = 1 → now = 0 ∨ seconds 1 ≤ now)

/-- In whole seconds the naive reading is behind Unix time exactly there. -/
theorem naiveTimestamp_lt (utcOffset : ℤ) (now : ℕ) :
    naiveTimestamp utcOffset now < numericDate now ↔ RunsBehind utcOffset now := by
  unfold naiveTimestamp RunsBehind numericDate seconds
  rw [Int.tdiv_eq_ediv]
  simp only [show Int.sign 1000000 = 1 from rfl]
  split
  · omega
  · omega

/-! ## The key and the token -/

variable {data : Claims} {token : E.Token} {exp jti now t : ℕ} {r : Redis} {ttl : ℤ}

/-- The key is there for `ttl` seconds from the millisecond it was set in. -/
theorem exists_setEx (hpos : 0 < ttl) :
    (r.setEx (millis now) (.blacklistJti jti) 1 ttl.toNat).exists? (millis t)
      (.blacklistJti jti) = true ↔ (millis t : ℤ) < millis now + 1000 * ttl := by
  have hentry : (r.setEx (millis now) (.blacklistJti jti) 1 ttl.toNat) (.blacklistJti jti) =
      some ⟨1, some (millis now + ttl.toNat * 1000)⟩ := Redis.put_self _ _
  have htoNat : (ttl.toNat : ℤ) = ttl := Int.toNat_of_nonneg (by omega)
  unfold Redis.exists?
  constructor
  · intro h
    obtain ⟨e, he⟩ := Option.isSome_iff_exists.mp h
    obtain ⟨hr, hlt⟩ := Redis.live_eq_some.mp he
    rw [hentry] at hr
    obtain rfl := Option.some.inj hr
    have := hlt _ rfl
    omega
  · intro h
    have hlive := Redis.live_eq_some.mpr ⟨hentry, fun x hx => by
      obtain rfl := Option.some.inj hx
      show millis t < millis now + ttl.toNat * 1000
      omega⟩
    rw [hlive]
    rfl

/-- What `blacklist_access_token` does with an access token that decodes. -/
theorem blacklistAccessToken_ok (hJ : E.jose.Lawful) {c payload : Claims} {utcOffset : ℤ}
    (hc : IsAccess E data c exp) (hjti : c.jti = some jti)
    (hdecode : decodeToken E now (sign E c) = .ok payload) :
    blacklistAccessToken E utcOffset now (some r) (sign E c) =
      .ok (some (r.setEx (millis now) (.blacklistJti jti) 1
        (max ((exp : ℤ) - naiveTimestamp utcOffset now) 1).toNat)) := by
  obtain ⟨rfl, -⟩ := decodeToken_sign_ok hJ hdecode
  simp only [blacklistAccessToken, hdecode, hjti, hc.exp, Option.getD_some]

/-- **The key outlives the token**: at every instant from `now` on at which the
token is not expired. -/
def Outlives (now exp : ℕ) (ttl : ℤ) : Prop :=
  ∀ t, now ≤ t → numericDate t ≤ exp → (millis t : ℤ) < millis now + 1000 * ttl

theorem outlives_iff {utcOffset : ℤ} (hexp : numericDate now ≤ exp) :
    Outlives now exp (max ((exp : ℤ) - naiveTimestamp utcOffset now) 1) ↔
      RunsBehind utcOffset now ∨ exp = numericDate now := by
  have hbehind := naiveTimestamp_lt utcOffset now
  unfold Outlives
  constructor
  · intro h
    by_contra hnot
    push Not at hnot
    have hahead : ¬ naiveTimestamp utcOffset now < numericDate now := fun hlt =>
      hnot.1 (hbehind.mp hlt)
    -- the last instant at which the token still decodes
    have hlast := h (seconds (exp + 1) - 1) (by unfold seconds numericDate at *; omega)
      (by unfold seconds numericDate at *; omega)
    unfold seconds numericDate millis at *
    omega
  · intro h t hnow ht
    rcases h with h | h
    · have hlt := hbehind.mpr h
      unfold numericDate millis at *
      omega
    · unfold numericDate millis at *
      omega

/-- A database in which nothing is revoked and everybody is active. -/
def allActive : Option Subject → Database
  | some (.user id) => { Database.empty with users := [{ id := id, status := .active }] }
  | _ => Database.empty

theorem not_subjectInactive_allActive {sub : Option Subject} {s : Subject} (hs : sub = some s)
    (huser : ∀ name, sub ≠ some (.system name)) : ¬ SubjectInactive (allActive sub) s := by
  subst hs
  cases s with
  | system name => exact absurd rfl (huser name)
  | user id =>
    intro h
    exact h { id := id, status := .active }
      (by simp [allActive, Database.userBySubject, Database.userById]) rfl

theorem revokedTokens_allActive (sub : Option Subject) : (allActive sub).revokedTokens = [] := by
  unfold allActive
  split <;> rfl

/-- **How far the blacklist covers a token.** From the instant it is
blacklisted, `assert_token_usable` rejects an access token for as long as
`decode_token` accepts it, whatever the database, exactly when it is not
accepted at that instant, or its subject is no user, or the server's clock
reading runs behind Unix time, or it is blacklisted in the last second of its
life. -/
theorem blacklist_covers_iff (hJ : E.jose.Lawful) (hmint : MintedAccess E data token exp)
    {utcOffset : ℤ} {r' : Redis}
    (hlogout : blacklistAccessToken E utcOffset now (some r) token = .ok (some r')) :
    (∀ t, now ≤ t → ∀ db payload, decodeToken E t token = .ok payload →
        ∃ x, assertTokenUsable t (some r') db payload = .error x) ↔
      (∃ x, decodeToken E now token = .error x) ∨
      (∃ name, data.sub = some (.system name)) ∨
      (1 ≤ utcOffset ∧ (utcOffset = 1 → now = 0 ∨ seconds 1 ≤ now)) ∨
      exp = numericDate now := by
  obtain ⟨c, rfl, hc⟩ := hmint.signed
  obtain ⟨jti, hjti⟩ := hc.jti
  cases hdecode : decodeToken E now (sign E c) with
  | error x =>
    refine iff_of_true (fun t ht db payload hd => ?_) (.inl ⟨x, rfl⟩)
    -- what decodes later decoded before
    obtain ⟨-, hle⟩ := decodeToken_sign_ok hJ hd
    have hearlier := decodeToken_later hJ hd fun e he => Nat.le_trans (Nat.div_le_div_right ht)
      (hle e he)
    rw [hdecode] at hearlier
    cases hearlier
  | ok payload =>
    rw [blacklistAccessToken_ok hJ hc hjti hdecode] at hlogout
    obtain rfl := Option.some.inj (Except.ok.inj hlogout)
    obtain ⟨-, hle⟩ := decodeToken_sign_ok hJ hdecode
    have hexp : numericDate now ≤ exp := hle exp hc.exp
    have houtlives := @outlives_iff exp now utcOffset hexp
    have hpos : 0 < max ((exp : ℤ) - naiveTimestamp utcOffset now) 1 := by omega
    constructor
    · intro h
      by_contra hnot
      have hshort : ¬ Outlives now exp (max ((exp : ℤ) - naiveTimestamp utcOffset now) 1) := by
        rw [houtlives]
        rintro (hbehind | hlast)
        · exact hnot (.inr (.inr (.inl hbehind)))
        · exact hnot (.inr (.inr (.inr hlast)))
      unfold Outlives at hshort
      push Not at hshort
      obtain ⟨t, hnow, ht, hgone⟩ := hshort
      -- the token decodes at `t`, the key is gone, and nothing else stands in its way
      have hlater := decodeToken_later hJ hdecode fun e he => by
        rw [hc.exp] at he
        exact Option.some.inj he ▸ ht
      obtain ⟨hsigned, -⟩ := decodeToken_sign_ok hJ hlater
      have hsub : payload.sub = data.sub := by rw [hsigned, ← hc.sub]
      have hjti' : payload.jti = some jti := by rw [hsigned, ← hjti]
      rcases assertTokenUsable_rejects.mp (h t hnow (allActive data.sub) payload hlater) with
        ⟨j, hj, hrevoked⟩ | ⟨s, hs, hinactive⟩
      · obtain rfl := Option.some.inj (hjti'.symm.trans hj)
        rcases hrevoked with hnone | ⟨r', hr, hlive⟩ | ⟨row, hrow, -⟩
        · cases hnone
        · obtain rfl := Option.some.inj hr
          have := (exists_setEx hpos).mp hlive
          omega
        · rw [revokedTokens_allActive] at hrow
          cases hrow
      · exact not_subjectInactive_allActive (hsub.symm.trans hs)
          (fun name hname => hnot (.inr (.inl ⟨name, hname⟩))) hinactive
    · intro h t hnow db payload' hd
      obtain ⟨hsigned, hle'⟩ := decodeToken_sign_ok hJ hd
      refine assertTokenUsable_rejects.mpr ?_
      rcases h with ⟨x, hx⟩ | ⟨name, hname⟩ | h
      · cases hx
      · refine .inr ⟨.system name, by rw [hsigned, ← hname, ← hc.sub], fun user huser => ?_⟩
        cases huser
      · have hlive := houtlives.mpr h t hnow (hle' exp hc.exp)
        refine .inl ⟨jti, by rw [hsigned, ← hjti], .inr (.inl ⟨_, rfl, ?_⟩)⟩
        exact (exists_setEx hpos).mpr hlive

/-! ## A token of user 1 -/

/-- Minted at the start of 1970, with the default quarter of an hour to live. -/
def quarterHourToken : Env.symbolic.Token :=
  sign .symbolic { sub := some (.user 1), type := some .access, jti := some 7, exp := some 900 }

theorem quarterHourToken_minted :
    MintedAccess .symbolic { sub := some (.user 1) } quarterHourToken 900 :=
  ⟨none, ⟨.empty, .empty, 0, 7, []⟩, ⟨.empty, .empty, 0, 8, []⟩, ⟨0, Nat.le_refl 0, rfl, rfl⟩, rfl⟩

/-- Redis after the token was blacklisted, ten seconds later. -/
def loggedOut (utcOffset : ℤ) : Redis :=
  Redis.empty.setEx (millis (seconds 10)) (.blacklistJti 7) 1
    (max (900 - naiveTimestamp utcOffset (seconds 10)) 1).toNat

theorem quarterHourToken_logout (utcOffset : ℤ) :
    blacklistAccessToken .symbolic utcOffset (seconds 10) (some .empty) quarterHourToken =
      .ok (some (loggedOut utcOffset)) := rfl

/-- In central Europe it stays out. -/
theorem blacklist_covers_iff_east :
    MintedAccess .symbolic { sub := some (.user 1) } quarterHourToken 900 ∧
    ∀ t, seconds 10 ≤ t → ∀ db payload,
      decodeToken .symbolic t quarterHourToken = .ok payload →
        ∃ x, assertTokenUsable t (some (loggedOut 3600)) db payload = .error x :=
  ⟨quarterHourToken_minted, (blacklist_covers_iff Jose.symbolic_lawful quarterHourToken_minted
    (quarterHourToken_logout 3600)).mpr (.inr (.inr (.inl (by decide))))⟩

/-- **In New York it is back after a second.** The five hours the zone is west
of UTC make the remaining lifetime negative, so the key is given one second. -/
theorem blacklist_west_of_utc :
    MintedAccess .symbolic { sub := some (.user 1) } quarterHourToken 900 ∧
    blacklistAccessToken .symbolic (-18000) (seconds 10) (some .empty) quarterHourToken =
      .ok (some (loggedOut (-18000))) ∧
    ¬ ∀ t, seconds 10 ≤ t → ∀ db payload,
      decodeToken .symbolic t quarterHourToken = .ok payload →
        ∃ x, assertTokenUsable t (some (loggedOut (-18000))) db payload = .error x := by
  refine ⟨quarterHourToken_minted, quarterHourToken_logout _, fun h => ?_⟩
  obtain ⟨x, hx⟩ := h (seconds 12) (by decide) (allActive (some (.user 1))) _ rfl
  have husable : assertTokenUsable (seconds 12) (some (loggedOut (-18000)))
      (allActive (some (.user 1))) quarterHourToken.2 = .ok () := by decide
  exact nomatch husable.symm.trans hx

end OmniAuth
