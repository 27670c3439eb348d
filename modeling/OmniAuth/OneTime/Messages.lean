import OmniAuth.Audit.Json
import OmniAuth.OneTime.Service

/-!
# SAML messages are used once

A message that is accepted is not accepted again for ten minutes, and one that nobody used in
the last ten minutes is. The keys of Redis tell the messages of two organizations apart, and
none of them is a key of a code or of the blacklist.
-/

namespace OmniAuth

open Codec

variable {F : FirstPartySettings} {m m' : SamlMessage} {l before : List Attempt} {e : Attempt}

/-! ## Keys -/

/-- A number, up to the colon behind it. -/
theorem number_colon {n n' : ℕ} {r r' : List Char}
    (h : (toString n).toList ++ ':' :: r = (toString n').toList ++ ':' :: r') :
    n = n' ∧ r = r' := by
  have hdigit : ∀ n : ℕ, ∀ c ∈ (toString n).toList, c ≠ ':' := by
    rintro n c hc rfl
    rw [Nat.toString_eq_ofList_toDigits, String.toList_ofList] at hc
    exact absurd (Nat.isDigit_of_mem_toDigits (by decide) (by decide) hc) (by decide)
  obtain ⟨htext, hrest⟩ := run_splits (hdigit n) (hdigit n') (by simp) (by simp) h
  rw [Nat.toString_eq_ofList_toDigits, Nat.toString_eq_ofList_toDigits, String.toList_ofList,
    String.toList_ofList] at htext
  exact ⟨Json.toDigits_injective htext, (List.cons.inj hrest).2⟩

/-- **The key names the message.** -/
theorem SamlMessage.key_injective (h : m.key = m'.key) : m = m' := by
  obtain ⟨slo, org, config, id⟩ := m
  obtain ⟨slo', org', config', id'⟩ := m'
  have htext := congrArg String.toList h
  simp only [SamlMessage.key, SamlMessage.keyPrefix, String.toList_append, List.append_assoc]
    at htext
  have hcolon : (":" : String).toList = [':'] := rfl
  simp only [hcolon, List.cons_append, List.nil_append] at htext
  have hword : ∀ slo : Bool, ∀ c ∈ (if slo then "saml_slo_replay" else "saml_replay").toList,
      c ≠ ':' := by
    intro slo
    cases slo <;> simp
  obtain ⟨hslo, htext⟩ := run_splits (hword slo) (hword slo') (by simp) (by simp) htext
  obtain ⟨horg, htext⟩ := number_colon (List.cons.inj htext).2
  obtain ⟨hconfig, htext⟩ := number_colon htext
  have hid := String.toList_injective htext
  subst horg hconfig hid
  cases slo <;> cases slo' <;> first | rfl | exact absurd hslo (by decide)

/-- The letter a key begins with tells what it is for. -/
theorem SamlMessage.head_key : m.key.toList.head? = some 's' := by
  have hword : ∀ slo : Bool,
      (if slo then "saml_slo_replay" else "saml_replay").toList.head? = some 's' := by decide
  simp only [SamlMessage.key, SamlMessage.keyPrefix, String.toList_append, List.head?_append,
    hword, Option.some_or]

theorem head_codeKey {code : String} : (codeKey code).toList.head? = some 'o' := by
  have hword : "oauth:first-party:".toList.head? = some 'o' := rfl
  unfold codeKey
  rw [String.toList_append, List.head?_append, hword, Option.some_or]

theorem head_blacklistKey {jti : String} : (blacklistKey jti).toList.head? = some 'b' := by
  have hword : "blacklist:jti:".toList.head? = some 'b' := rfl
  unfold blacklistKey
  rw [String.toList_append, List.head?_append, hword, Option.some_or]

theorem ne_of_head {s t : String} {c d : Char} (hs : s.toList.head? = some c)
    (ht : t.toList.head? = some d) (hne : c ≠ d) : s ≠ t := by
  rintro rfl
  exact hne (Option.some.inj (hs.symm.trans ht))

theorem codeKey_ne_key {code : String} : codeKey code ≠ m.key :=
  ne_of_head head_codeKey SamlMessage.head_key (by decide)

theorem blacklistKey_ne_key {jti : String} : blacklistKey jti ≠ m.key :=
  ne_of_head head_blacklistKey SamlMessage.head_key (by decide)

theorem codeKey_injective {code code' : String} (h : codeKey code = codeKey code') :
    code = code' := by
  have htext := congrArg String.toList h
  unfold codeKey at htext
  rw [String.toList_append, String.toList_append] at htext
  exact String.toList_injective (List.append_cancel_left htext)

/-! ## What an attempt does to a key -/

/-- The attempts behind a place in the history. -/
theorem redisHistory_split {h₁ h₂ : Expiring.History String RedisValue}
    {x : ℕ × Expiring.Command String RedisValue} (h : redisHistory F l = h₁ ++ x :: h₂) :
    ∃ b e a, l = b ++ e :: a ∧ redisHistory F b = h₁ ∧ e.executed F = some x ∧
      redisHistory F a = h₂ := by
  obtain ⟨b, r, rfl, hb, hr⟩ := List.filterMap_eq_append_iff.mp h
  obtain ⟨skipped, e, a, rfl, hskipped, he, ha⟩ := List.filterMap_eq_cons_iff.mp hr
  refine ⟨b ++ skipped, e, a, by simp, ?_, he, ha⟩
  have hnone : skipped.filterMap (·.executed F) = [] := List.filterMap_eq_nil_iff.mpr hskipped
  unfold redisHistory
  rw [List.filterMap_append, hb, hnone, List.append_nil]

theorem redisHistory_cons_split {b a : List Attempt} {x : ℕ × Expiring.Command String RedisValue}
    (he : e.executed F = some x) :
    redisHistory F (b ++ e :: a) = redisHistory F b ++ x :: redisHistory F a := by
  unfold redisHistory
  rw [List.filterMap_append, List.filterMap_cons_some he]

theorem Attempt.executed_instant {x : ℕ × Expiring.Command String RedisValue}
    (h : e.executed F = some x) : x.1 = e.instant ∧ e.fate ≠ .unreachable ∧
      e.request.command F = .ok x.2 := by
  unfold Attempt.executed at h
  split at h
  · cases h
  · rename_i hfate
    obtain ⟨c, hc, rfl⟩ := Option.map_eq_some_iff.mp h
    refine ⟨rfl, hfate, ?_⟩
    cases hcommand : e.request.command F with
    | error x =>
      rw [hcommand] at hc
      cases hc
    | ok c' =>
      rw [hcommand] at hc
      rw [Option.some.inj hc]

theorem authorizeCommand_ok {r : FirstPartyAuthorize} {c : Expiring.Command String RedisValue}
    (h : authorizeCommand F r = .ok c) :
    c = .setEx (codeKey r.code) (.grant (r.grant F)) (F.limsSsoCodeTtlSeconds.toNat * 1000) := by
  unfold authorizeCommand at h
  split at h
  · cases h
  · split_ifs at h
    exact (Except.ok.inj h).symm

theorem redeemCommand_ok {r : FirstPartyRedeem} {c : Expiring.Command String RedisValue}
    (h : redeemCommand F r = .ok c) : c = .getDel (codeKey r.code) := by
  unfold redeemCommand at h
  split_ifs at h
  split at h
  · cases h
  · exact (Except.ok.inj h).symm

theorem setNx_of_read {β : Type} {x : Except Err (SamlMessage × β)}
    {c : Expiring.Command String RedisValue} :
    (x.map fun p => p.1.setNx) = .ok c ↔ ∃ m, x.toOption.map Prod.fst = some m ∧ c = m.setNx := by
  cases x with
  | error x =>
    constructor
    · rintro ⟨⟩
    · rintro ⟨m, ⟨⟩, -⟩
  | ok p =>
    constructor
    · intro h
      exact ⟨p.1, rfl, (Except.ok.inj h).symm⟩
    · rintro ⟨m, hm, rfl⟩
      rw [← Option.some.inj hm]
      rfl

/-- **Only a request that presents the message** touches its key. -/
theorem OneTimeRequest.command_key {r : OneTimeRequest} {c : Expiring.Command String RedisValue}
    (h : r.command F = .ok c) : c.key = m.key ↔ r.message = some m := by
  have hread : ∀ {β : Type} {x : Except Err (SamlMessage × β)},
      (x.map fun p => p.1.setNx) = .ok c →
        (c.key = m.key ↔ x.toOption.map Prod.fst = some m) := by
    intro β x hx
    obtain ⟨m₀, hm₀, rfl⟩ := setNx_of_read.mp hx
    rw [hm₀, Option.some_inj]
    exact ⟨SamlMessage.key_injective, congrArg SamlMessage.key⟩
  cases r with
  | samlResponse config reading => exact hread h
  | logoutRequest config reading => exact hread h
  | authorize r =>
    refine iff_of_false ?_ (by rintro ⟨⟩)
    obtain rfl := authorizeCommand_ok h
    exact codeKey_ne_key
  | redeem r =>
    refine iff_of_false ?_ (by rintro ⟨⟩)
    obtain rfl := redeemCommand_ok h
    exact codeKey_ne_key
  | blacklist jti ttl =>
    refine iff_of_false ?_ (by rintro ⟨⟩)
    obtain rfl := Except.ok.inj h
    exact blacklistKey_ne_key

theorem OneTimeRequest.command_of_message {r : OneTimeRequest} (h : r.message = some m) :
    r.command F = .ok m.setNx := by
  cases r with
  | samlResponse config reading => exact setNx_of_read.mpr ⟨m, h, rfl⟩
  | logoutRequest config reading => exact setNx_of_read.mpr ⟨m, h, rfl⟩
  | authorize r => cases h
  | redeem r => cases h
  | blacklist jti ttl => cases h

/-! ## The guard -/

/-- The message of the attempt is accepted. -/
def Attempt.Accepted (F : FirstPartySettings) (before : List Attempt) (e : Attempt) : Prop :=
  match e.request with
  | .samlResponse config reading =>
      ∃ identity, validateSamlResponse config reading (e.reply F before) = .ok identity
  | .logoutRequest config reading =>
      ∃ identity, validateSloLogoutRequest config reading (e.reply F before) = .ok identity
  | _ => False

/-- The attempt is executed, presents the message and finds its key free. -/
def Attempt.Takes (F : FirstPartySettings) (before : List Attempt) (e : Attempt)
    (m : SamlMessage) : Prop :=
  e.request.message = some m ∧ e.fate ≠ .unreachable ∧
    (redisHistory F before).store.get e.instant m.key = none

/-- A reply of Redis that lets the message pass. -/
theorem Attempt.reply_free (h : e.request.message = some m) :
    e.reply F before = some none ↔
      e.fate = .answered ∧ (redisHistory F before).store.get e.instant m.key = none := by
  unfold Attempt.reply
  rw [OneTimeRequest.command_of_message h]
  cases hfate : e.fate with
  | answered => simp [SamlMessage.setNx, Expiring.Command.key]
  | lost => simp
  | unreachable => simp

theorem guarded_ok {β : Type} {x : Except Err (SamlMessage × β)} {errorCls : String → Err}
    {reply : RedisReply} :
    (∃ b, (x >>= fun read => rejectIfReplayed errorCls reply >>= fun _ => pure read.2) = .ok b) ↔
      (∃ m, x.toOption.map Prod.fst = some m) ∧ reply = some none := by
  cases x with
  | error x =>
    constructor
    · rintro ⟨b, ⟨⟩⟩
    · rintro ⟨⟨m, ⟨⟩⟩, -⟩
  | ok p =>
    have hread : ∃ m, (Except.ok p : Except Err (SamlMessage × β)).toOption.map Prod.fst = some m :=
      ⟨p.1, rfl⟩
    rw [and_iff_right hread]
    cases reply with
    | none =>
      constructor
      · rintro ⟨b, ⟨⟩⟩
      · rintro ⟨⟩
    | some held =>
      cases held with
      | none => exact iff_of_true ⟨p.2, rfl⟩ rfl
      | some v =>
        constructor
        · rintro ⟨b, ⟨⟩⟩
        · rintro ⟨⟩

/-- **What is accepted**: an answered attempt that took the key. -/
theorem Attempt.accepted_iff : e.Accepted F before ↔
    ∃ m, e.fate = .answered ∧ e.Takes F before m := by
  have haccepted : e.Accepted F before ↔
      (∃ m, e.request.message = some m) ∧ e.reply F before = some none := by
    unfold Attempt.Accepted
    cases e.request with
    | samlResponse config reading => exact guarded_ok
    | logoutRequest config reading => exact guarded_ok
    | authorize r => exact iff_of_false id (by rintro ⟨⟨m, ⟨⟩⟩, -⟩)
    | redeem r => exact iff_of_false id (by rintro ⟨⟨m, ⟨⟩⟩, -⟩)
    | blacklist jti ttl => exact iff_of_false id (by rintro ⟨⟨m, ⟨⟩⟩, -⟩)
  rw [haccepted]
  constructor
  · rintro ⟨⟨m, hm⟩, hreply⟩
    obtain ⟨hfate, hfree⟩ := (Attempt.reply_free hm).mp hreply
    exact ⟨m, hfate, hm, by rw [hfate]; decide, hfree⟩
  · rintro ⟨m, hfate, hm, -, hfree⟩
    exact ⟨⟨m, hm⟩, (Attempt.reply_free hm).mpr ⟨hfate, hfree⟩⟩

/-! ## The window -/

theorem redisHistory_until
    (hclock : (before ++ [e]).Pairwise fun e e' => e.instant ≤ e'.instant) :
    (redisHistory F before).Until e.instant := by
  obtain ⟨hpair, -, hlast⟩ := List.pairwise_append.mp hclock
  constructor
  · refine List.pairwise_filterMap.mpr (hpair.imp ?_)
    intro e₁ e₂ hle x hx y hy
    rw [(Attempt.executed_instant hx).1, (Attempt.executed_instant hy).1]
    exact hle
  · intro x hx
    obtain ⟨e', he', hx⟩ := List.mem_filterMap.mp hx
    rw [(Attempt.executed_instant hx).1]
    exact hlast e' he' e (List.mem_singleton_self e)

/-- The commands that took the key are the attempts that did. -/
theorem takes_iff {t ttl : ℕ} : (redisHistory F before).Takes m.key t ttl ↔
    ∃ b e a, before = b ++ e :: a ∧ e.Takes F b m ∧ e.instant = t ∧
      samlReplayTtlSeconds * 1000 = ttl := by
  constructor
  · rintro ⟨h₁, v, h₂, hsplit, hfree⟩
    obtain ⟨b, e, a, rfl, rfl, he, rfl⟩ := redisHistory_split hsplit
    obtain ⟨hinstant, hfate, hcommand⟩ := Attempt.executed_instant he
    have hm := (OneTimeRequest.command_key hcommand).mp rfl
    have hsame := Except.ok.inj ((OneTimeRequest.command_of_message hm).symm.trans hcommand)
    injection hsame with _ _ httl
    obtain rfl : t = e.instant := hinstant
    exact ⟨b, e, a, rfl, ⟨hm, hfate, hfree⟩, rfl, httl⟩
  · rintro ⟨b, e, a, rfl, ⟨hm, hfate, hfree⟩, rfl, rfl⟩
    have he : e.executed F = some (e.instant, m.setNx) := by
      unfold Attempt.executed
      rw [if_neg hfate, OneTimeRequest.command_of_message hm]
      rfl
    exact ⟨redisHistory F b, .one, redisHistory F a, redisHistory_cons_split he, hfree⟩

/-- A message's key is free once ten minutes have passed since it was last taken. -/
theorem message_free_iff
    (hclock : (before ++ [e]).Pairwise fun e e' => e.instant ≤ e'.instant) :
    (redisHistory F before).store.get e.instant m.key = none ↔
      ∀ b e' a, before = b ++ e' :: a → e'.Takes F b m →
        e'.instant + samlReplayTtlSeconds * 1000 ≤ e.instant := by
  rw [Expiring.History.free_iff (redisHistory_until hclock)]
  · constructor
    · intro h b e' a hsplit htakes
      exact h e'.instant _ (takes_iff.mpr ⟨b, e', a, hsplit, htakes, rfl, rfl⟩)
    · intro h t ttl htakes
      obtain ⟨b, e', a, hsplit, htook, rfl, rfl⟩ := takes_iff.mp htakes
      exact h b e' a hsplit htook
  · intro x hx hkey
    obtain ⟨e', -, hx⟩ := List.mem_filterMap.mp hx
    obtain ⟨-, -, hcommand⟩ := Attempt.executed_instant hx
    have hm := (OneTimeRequest.command_key hcommand).mp hkey
    have hsame := Except.ok.inj ((OneTimeRequest.command_of_message hm).symm.trans hcommand)
    exact ⟨_, _, hsame.symm⟩

/-- **A SAML message is used once**: whatever requests are made at once, one is accepted exactly
where Redis answers it and no attempt took the message's key in the ten minutes before, and two
that are accepted are ten minutes apart. -/
theorem saml_message_once
    (hclock : (before ++ [e]).Pairwise fun e e' => e.instant ≤ e'.instant) :
    (e.Accepted F before ↔ e.fate = .answered ∧ ∃ m, e.request.message = some m ∧
      ∀ b e' a, before = b ++ e' :: a → e'.Takes F b m →
        e'.instant + samlReplayTtlSeconds * 1000 ≤ e.instant) ∧
    ∀ b e' a, before = b ++ e' :: a → e'.request.message = e.request.message →
      e'.Accepted F b → e.Accepted F before →
        e'.instant + samlReplayTtlSeconds * 1000 ≤ e.instant := by
  constructor
  · rw [Attempt.accepted_iff]
    constructor
    · rintro ⟨m, hfate, hm, -, hfree⟩
      exact ⟨hfate, m, hm, (message_free_iff hclock).mp hfree⟩
    · rintro ⟨hfate, m, hm, hspent⟩
      exact ⟨m, hfate, hm, by rw [hfate]; decide, (message_free_iff hclock).mpr hspent⟩
  · intro b e' a hsplit hsame hfirst hsecond
    obtain ⟨m, -, htakes⟩ := Attempt.accepted_iff.mp hfirst
    obtain ⟨m', -, hm', -, hfree⟩ := Attempt.accepted_iff.mp hsecond
    obtain rfl : m = m' := Option.some.inj (htakes.1.symm.trans (hsame.trans hm'))
    exact (message_free_iff hclock).mp hfree b e' a hsplit htakes

/-- A `SAMLResponse` for Ada. -/
def adaResponse (instant : ℕ) (fate : Fate) : Attempt where
  instant := instant
  request := .samlResponse
    { id := 1, organizationId := 7, status := .active, allowedDomains := [], enforced := false }
    (some ⟨true, "ada", "_a1", none⟩)
  fate := fate

/-- The answer to the first attempt is lost: the response is spent all the same, for ten
minutes. -/
theorem saml_message_once_lost :
    ¬ (adaResponse 599999 .answered).Accepted .default [adaResponse 0 .lost] ∧
      (adaResponse 600000 .answered).Accepted .default [adaResponse 0 .lost] := by
  have htakes : (adaResponse 0 .lost).Takes .default [] ⟨false, 7, 1, "_a1"⟩ :=
    ⟨rfl, by decide, rfl⟩
  constructor
  · intro haccepted
    have hclock : ([adaResponse 0 .lost] ++ [adaResponse 599999 .answered]).Pairwise
        fun e e' => e.instant ≤ e'.instant := by simp [adaResponse]
    obtain ⟨-, m, hm, hspent⟩ := (saml_message_once hclock).1.mp haccepted
    obtain rfl : ⟨false, 7, 1, "_a1"⟩ = m := Option.some.inj hm
    exact absurd (hspent [] _ [] rfl htakes) (by decide)
  · have hclock : ([adaResponse 0 .lost] ++ [adaResponse 600000 .answered]).Pairwise
        fun e e' => e.instant ≤ e'.instant := by simp [adaResponse]
    refine (saml_message_once hclock).1.mpr ⟨rfl, _, rfl, ?_⟩
    intro b e' a hsplit _
    have hmem : e' ∈ [adaResponse 0 .lost] := by simp [hsplit]
    rw [List.mem_singleton.mp hmem]
    decide

end OmniAuth
