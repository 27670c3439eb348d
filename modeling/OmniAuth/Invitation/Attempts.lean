import OmniAuth.Invitation.Refusal

/-!
# Counting wrong setup codes

A code that is wrong costs the invitation an attempt, if the comparison returns: a text that
passes `str.isdigit` and the length test but is not ASCII makes `hmac.compare_digest` raise,
and nothing is counted.
-/

namespace OmniAuth

open Txn Prog

variable {α : Type} {A : AppEnv} {secret code : String}

/-! ## The codes

A code is six digits, in ASCII. -/

theorem isAscii_append (a b : String) : isAscii (a ++ b) = (isAscii a && isAscii b) := by
  simp only [isAscii, String.toList_append, List.all_append]

theorem isAscii_toString (n : ℕ) : isAscii (toString n) = true := by
  rw [isAscii, List.all_eq_true]
  intro c hc
  have hdigit : c.isDigit = true :=
    Nat.isDigit_of_mem_toDigits (b := 10) (n := n) (by decide) (by decide) (by simpa using hc)
  simp only [Char.isDigit, Bool.and_eq_true, decide_eq_true_eq] at hdigit
  have hle : c.toNat ≤ 57 := UInt32.le_iff_toNat_le.mp hdigit.2
  exact decide_eq_true (by omega)

theorem isAscii_pushn {s : String} (h : isAscii s = true) (n : ℕ) :
    isAscii (s.pushn '0' n) = true := by
  rw [String.pushn_eq_repeat_push]
  induction n with
  | zero => exact h
  | succ n ih =>
    rw [Nat.repeat, isAscii, String.toList_push, List.all_append]
    exact (Bool.and_eq_true _ _).mpr ⟨ih, by decide⟩

theorem isAscii_sixDigits (n : ℕ) : isAscii (sixDigits n) = true := by
  rw [sixDigits, isAscii_append, isAscii_toString, isAscii_pushn (by decide)]
  rfl

/-- The secret is base32. -/
def SoundSecret (A : AppEnv) (secret : String) : Prop :=
  (A.b32decode (A.upper secret)).isSome

theorem isAscii_totpCode {counter : ℕ} (h : A.totpCode secret counter = some code) :
    isAscii code = true := by
  obtain ⟨key, -, rfl⟩ := Option.map_eq_some_iff.mp h
  exact isAscii_sixDigits _

/-- **A sound secret has a code at every counter**, in ASCII. -/
theorem SoundSecret.totpCode (h : SoundSecret A secret) (counter : ℕ) :
    ∃ candidate, A.totpCode secret counter = some candidate ∧ isAscii candidate = true := by
  obtain ⟨key, hkey⟩ := Option.isSome_iff_exists.mp h
  have hcode : A.totpCode secret counter =
      some (sixDigits (truncatedDigest (A.hmacSha1 key (packCounter counter)) % 10 ^ 6)) := by
    unfold AppEnv.totpCode
    rw [hkey]
    rfl
  exact ⟨_, hcode, isAscii_totpCode hcode⟩

/-! ## The comparison -/

/-- The code is one of the secret in the window around this time. -/
def CodeValid (A : AppEnv) (secret code : String) (now : ℕ) : Prop :=
  ∃ counter ∈ [now / 1000000 / 30 - 1, now / 1000000 / 30, now / 1000000 / 30 + 1],
    A.totpCode secret counter = some code

/-- **A code outside ASCII makes the first comparison raise.** -/
theorem matchedCounter_raises (hsecret : SoundSecret A secret) (hcode : isAscii code = false)
    (counter : ℕ) (rest : List ℕ) : matchedCounter A secret code (counter :: rest) = none := by
  obtain ⟨candidate, hcandidate, -⟩ := hsecret.totpCode counter
  have hraises : compareDigest candidate code = none := by
    simp only [compareDigest, hcode, Bool.and_false, Bool.false_eq_true, if_false]
  simp only [matchedCounter, hcandidate, hraises]

/-- A code in ASCII is compared with every candidate, up to the first that it is. -/
theorem matchedCounter_returns (hsecret : SoundSecret A secret) (hcode : isAscii code = true)
    (counters : List ℕ) :
    ∃ found, matchedCounter A secret code counters = some found ∧
      ∀ counter, found = some counter →
        counter ∈ counters ∧ A.totpCode secret counter = some code := by
  induction counters with
  | nil => exact ⟨none, rfl, fun counter h => by cases h⟩
  | cons counter rest ih =>
    obtain ⟨candidate, hcandidate, hascii⟩ := hsecret.totpCode counter
    have hcompared : compareDigest candidate code =
        some (decide (candidate = code)) := by
      simp only [compareDigest, hascii, hcode, Bool.and_true, if_true]
    by_cases hsame : candidate = code
    · refine ⟨some counter, ?_, fun c hc => ?_⟩
      · simp only [matchedCounter, hcandidate, hcompared, decide_eq_true hsame]
      · obtain rfl := Option.some.inj hc
        exact ⟨List.mem_cons_self, hsame ▸ hcandidate⟩
    · obtain ⟨found, hfound, hmember⟩ := ih
      refine ⟨found, ?_, fun c hc => ?_⟩
      · simp only [matchedCounter, hcandidate, hcompared, decide_eq_false hsame, hfound]
      · obtain ⟨hc, hvalid⟩ := hmember c hc
        exact ⟨List.mem_cons_of_mem _ hc, hvalid⟩

theorem matchedStepAt_returns_iff (hsecret : SoundSecret A secret) (code : String) {now : ℕ}
    (hnow : 30000000 ≤ now) :
    (matchedStepAt A secret code (now / 1000000)).isSome ↔ isAscii code = true := by
  have hperiod : ¬ now / 1000000 < 30 := by omega
  rw [matchedStepAt, if_neg hperiod]
  cases hcode : isAscii code with
  | false => simp only [matchedCounter_raises hsecret hcode, Option.isSome_none]
  | true =>
    obtain ⟨found, hfound, -⟩ := matchedCounter_returns hsecret hcode
      [now / 1000000 / 30 - 1, now / 1000000 / 30, now / 1000000 / 30 + 1]
    simp only [hfound, Option.isSome_some]

/-- A code in ASCII that is not valid matches nothing. -/
theorem matchedStepAt_of_not_valid (hsecret : SoundSecret A secret) {now : ℕ}
    (hnow : 30000000 ≤ now) (hcode : isAscii code = true) (hvalid : ¬ CodeValid A secret code now) :
    matchedStepAt A secret code (now / 1000000) = some none := by
  have hperiod : ¬ now / 1000000 < 30 := by omega
  rw [matchedStepAt, if_neg hperiod]
  obtain ⟨found, hfound, hmember⟩ := matchedCounter_returns hsecret hcode
    [now / 1000000 / 30 - 1, now / 1000000 / 30, now / 1000000 / 30 + 1]
  cases found with
  | none => exact hfound
  | some counter =>
    have hcounter := hmember counter rfl
    exact absurd ⟨counter, hcounter⟩ hvalid

/-- `_totp_matched_step` returns on what it sorts out at once, and on ASCII. -/
theorem totpMatchedStep_returns_iff (hsecret : SoundSecret A secret) {w w' : World}
    {r : Except Err (Option ℕ)} (hnow : 30000000 ≤ w.now)
    (hexec : (totpMatchedStep A secret code).Exec w r w') :
    (∃ step, r = .ok step) ↔ malformedCode A code = true ∨ isAscii code = true := by
  unfold totpMatchedStep at hexec
  split at hexec
  · rename_i hmalformed
    obtain ⟨rfl, -⟩ := hexec
    exact ⟨fun _ => .inl hmalformed, fun _ => ⟨_, rfl⟩⟩
  rename_i hwell
  obtain ⟨now, hle, hexec⟩ := exec_time_bind.mp hexec
  have hreturns := matchedStepAt_returns_iff hsecret code (hnow.trans hle)
  cases hstep : matchedStepAt A secret code (now / 1000000) with
  | none =>
    rw [hstep] at hexec hreturns
    obtain ⟨rfl, -⟩ := hexec
    constructor
    · rintro ⟨step, hr⟩
      cases hr
    · rintro (hmalformed | hascii)
      · exact absurd hmalformed hwell
      · exact absurd (hreturns.mpr hascii) nofun
  | some step =>
    rw [hstep] at hexec hreturns
    obtain ⟨rfl, -⟩ := hexec
    exact ⟨fun _ => .inr (hreturns.mp rfl), fun _ => ⟨_, rfl⟩⟩

theorem verifyTotpCode_returns_iff (hsecret : SoundSecret A secret) {w w' : World}
    {r : Except Err Bool} (hnow : 30000000 ≤ w.now)
    (hexec : (verifyTotpCode A secret code).Exec w r w') :
    (∃ verified, r = .ok verified) ↔ malformedCode A code = true ∨ isAscii code = true := by
  obtain ⟨step, w₁, hstep, hret⟩ | ⟨x, hstep, rfl⟩ := exec_bind.mp hexec
  · rw [← totpMatchedStep_returns_iff hsecret hnow hstep]
    obtain ⟨rfl, -⟩ := hret
    exact ⟨fun _ => ⟨step, rfl⟩, fun _ => ⟨_, rfl⟩⟩
  · rw [← totpMatchedStep_returns_iff hsecret hnow hstep]
    constructor
    · rintro ⟨verified, hr⟩
      cases hr
    · rintro ⟨step, hr⟩
      cases hr

/-! ## The count -/

/-- The answer to a wrong code of a new user. -/
def mfaInvalid : Err := .organizationInvitation "mfa_invalid" "Invalid MFA code" 400

/-- The call answers that the code is wrong, and the invitation has one attempt more and is
revoked if that is the last. -/
def Counted (A : AppEnv) (i : OrganizationInvitation) (db : Database) (r : Except Err α)
    (w : World) : Prop :=
  r = .error mfaInvalid ∧ ∃ revokedAt : Option ℕ,
    w.base.organizationInvitations = db.organizationInvitations.map (fun j =>
      if j.id = i.id then j.fail (i.mfaAttempts + 1) revokedAt else j) ∧
    (revokedAt.isSome ↔ A.orgInvitationMaxAcceptAttempts ≤ i.mfaAttempts + 1)

/-- The call comes to compare the code, and the comparison returns. -/
structure Database.Compares (db : Database) (A : AppEnv) (i : OrganizationInvitation)
    (password encrypted code : String) : Prop where
  active : db.organizationActive i.organizationId = true
  account : db.userByEmail i.invitedEmail = none
  policy : A.passwordPolicy password i.invitedEmail = none
  decrypts : (A.decrypt encrypted).isSome
  given : code ≠ ""
  comparable : malformedCode A code = true ∨ isAscii code = true

variable {w : World} {i : OrganizationInvitation}

theorem fail_fail (attempts : ℕ) (t : ℕ) (j : OrganizationInvitation) :
    (j.fail attempts none).fail attempts (some t) = j.fail attempts (some t) := rfl

/-- The rows after the last attempt: the second update covers the first. -/
theorem map_fail_fail (id attempts t : ℕ) (rows : List OrganizationInvitation) :
    ((rows.map fun j => if j.id = id then j.fail attempts none else j).map fun j =>
      if j.id = id then j.fail attempts (some t) else j) =
      rows.map fun j => if j.id = id then j.fail attempts (some t) else j := by
  rw [List.map_map]
  refine List.map_congr_left fun j _ => ?_
  by_cases hid : j.id = id
  · have hfailed : (j.fail attempts none).id = id := hid
    simp only [Function.comp_apply, if_pos hid, if_pos hfailed, fail_fail]
  · simp only [Function.comp_apply, if_neg hid]

/-- **One attempt, and the last revokes.** -/
theorem countAttempt_ends (reason : String) (hrested : w.cur = w.base) :
    (countAttempt A i none reason "Invalid MFA code").Ends w fun r w' =>
      Counted A i w.base r w' := by
  refine ends_returning_bind.mpr ⟨fun eff heff => ?_, fun x hx => nomatch hx⟩
  obtain rfl := Except.ok.inj heff
  refine ends_handle.mpr fun r w₁ hexec => ?_
  obtain ⟨rfl, t, e, rfl⟩ := logEvent_exec hexec
  show (ite _ _ _ : Op Unit).Ends _ _
  split
  · rename_i hlast
    refine ends_time_bind.mpr fun now _ => ?_
    refine ends_returning_bind.mpr ⟨fun eff heff => ?_, fun x hx => nomatch hx⟩
    obtain rfl := Except.ok.inj heff
    refine ends_commitNow_bind.mpr (ends_raise.mpr ⟨rfl, some now, ?_, fun _ => hlast, fun _ => rfl⟩)
    rw [← hrested]
    exact map_fail_fail i.id (i.mfaAttempts + 1) now w.cur.organizationInvitations
  · rename_i hmore
    refine ends_commitNow_bind.mpr (ends_raise.mpr ⟨rfl, none, ?_, nofun, fun h => absurd h hmore⟩)
    rw [← hrested]
    rfl

/-- What a code that is not valid up to `t'` makes of the verification. -/
theorem verifyTotpCode_ends {t' : ℕ} (hsecret : SoundSecret A secret) (hnow : 30000000 ≤ w.now)
    (hvalid : ∀ now, w.now ≤ now → now ≤ t' → ¬ CodeValid A secret code now) :
    (verifyTotpCode A secret code).Ends w fun r w' =>
      (∃ now, w' = { w with now := now } ∧ w.now ≤ now ∧
        ((malformedCode A code = true ∨ isAscii code = true) ∧ r = .ok false ∨
          ¬ (malformedCode A code = true ∨ isAscii code = true) ∧
            r = .error (.runtime "code comparison"))) ∨ t' < w'.now := by
  refine ends_handle.mpr ?_
  unfold totpMatchedStep
  split
  · rename_i hmalformed
    exact ends_ret.mpr (ends_ret.mpr (.inl ⟨w.now, rfl, le_rfl, .inl ⟨.inl hmalformed, rfl⟩⟩))
  rename_i hwell
  refine ends_time_bind.mpr fun now hle => ?_
  by_cases hlate : t' < now
  · exact fun r w₁ hexec r' w₂ hexec' =>
      .inr (hlate.trans_le (hexec.mono.1.trans hexec'.mono.1))
  have hreturns := matchedStepAt_returns_iff hsecret code (hnow.trans hle)
  by_cases hascii : isAscii code = true
  · rw [matchedStepAt_of_not_valid hsecret (hnow.trans hle) hascii
      (hvalid now hle (not_lt.mp hlate))]
    exact ends_ret.mpr (ends_ret.mpr (.inl ⟨now, rfl, hle, .inl ⟨.inr hascii, rfl⟩⟩))
  · cases hstep : matchedStepAt A secret code (now / 1000000) with
    | some step =>
      rw [hstep] at hreturns
      exact absurd (hreturns.mp rfl) hascii
    | none =>
      refine ends_raise.mpr (ends_raise.mpr (.inl ⟨now, rfl, hle, .inr ⟨?_, rfl⟩⟩))
      rintro (hmalformed | h)
      · exact hwell hmalformed
      · exact hascii h

/-! ## The acceptance -/

theorem organizationInvitation_ne {code message : String} {status : ℕ}
    (h : code ≠ "mfa_invalid") :
    (Except.error (.organizationInvitation code message status) : Except Err α) ≠
      .error mfaInvalid := by
  intro heq
  exact h (Err.organizationInvitation.inj (Except.error.inj heq)).1

theorem runtime_ne {message : String} :
    (Except.error (.runtime message) : Except Err α) ≠ .error mfaInvalid := by
  intro heq
  cases Except.error.inj heq

/-- What becomes of a call with a wrong code that runs alone: the attempt is counted exactly
where the comparison is reached and returns. -/
def Tallied (A : AppEnv) (i : OrganizationInvitation) (password encrypted code : String)
    (db : Database) (t' : ℕ) (r : Except Err α) (w : World) : Prop :=
  (db.Compares A i password encrypted code ∧ Counted A i db r w) ∨
    (¬ db.Compares A i password encrypted code ∧ r ≠ .error mfaInvalid) ∨ t' < w.now

variable {password encrypted : String} {t' : ℕ}

/-- The invitation is set up with a sound secret, of which the code is none. -/
structure WrongCode (A : AppEnv) (i : OrganizationInvitation) (encrypted code : String)
    (t t' : ℕ) : Prop where
  enrolled : i.mfaSecretEncrypted = some encrypted
  nonempty : encrypted ≠ ""
  sound : ∀ secret, A.decrypt encrypted = some secret → SoundSecret A secret
  invalid : ∀ secret, A.decrypt encrypted = some secret →
    ∀ now, t ≤ now → now ≤ t' → ¬ CodeValid A secret code now

theorem acceptAsNewUser_tallied {again : Database → Option Accepted} (hrested : w.cur = w.base)
    (hwrong : WrongCode A i encrypted code w.now t') (hnow : 30000000 ≤ w.now)
    (hactive : w.base.organizationActive i.organizationId = true)
    (hneeds : policyRequiresMfa w.base i.organizationId = true) :
    (acceptAsNewUser A i password (some code) again).Ends w
      (Tallied A i password encrypted code w.base t') := by
  refine ends_query_bind.mpr ?_
  rw [hrested]
  cases haccount : w.base.userByEmail i.invitedEmail with
  | some user =>
    refine ends_raise.mpr (.inr (.inl ⟨fun h => ?_, organizationInvitation_ne (by decide)⟩))
    rw [h.account] at haccount
    cases haccount
  | none =>
  cases hpolicy : A.passwordPolicy password i.invitedEmail with
  | some message =>
    refine ends_raise.mpr (.inr (.inl ⟨fun h => ?_, organizationInvitation_ne (by decide)⟩))
    rw [h.policy] at hpolicy
    cases hpolicy
  | none =>
  refine ends_query_bind.mpr ?_
  rw [hrested, if_pos hneeds]
  refine ends_handle.mpr ?_
  unfold checkSetupCode
  rw [hwrong.enrolled, Option.filter_some, if_pos (decide_eq_true hwrong.nonempty)]
  by_cases hgiven : code = ""
  · rw [hgiven]
    refine ends_raise.mpr (ends_raise.mpr (Or.inr (Or.inl ⟨fun h => h.given rfl, ?_⟩)))
    exact organizationInvitation_ne (by decide)
  rw [Option.filter_some, if_pos (decide_eq_true hgiven)]
  dsimp only
  cases hdecrypt : A.decrypt encrypted with
  | none =>
    refine ends_raise.mpr (ends_raise.mpr (Or.inr (Or.inl ⟨fun h => ?_, runtime_ne⟩)))
    have hsome := h.decrypts
    rw [hdecrypt] at hsome
    cases hsome
  | some secret =>
    refine ends_handle.mpr ((verifyTotpCode_ends (hwrong.sound _ hdecrypt) hnow
      (hwrong.invalid _ hdecrypt)).mono fun r w₁ hr => ?_)
    rcases hr with ⟨now, rfl, hle, ⟨hcomparable, rfl⟩ | ⟨hraises, rfl⟩⟩ | hlate
    · refine (countAttempt_ends (w := { w with now := now }) _ hrested).mono fun r w₂ hcounted => ?_
      obtain ⟨rfl, hrows⟩ := hcounted
      refine ends_raise.mpr (.inl ⟨?_, rfl, hrows⟩)
      exact ⟨hactive, haccount, hpolicy, by rw [hdecrypt]; rfl, hgiven, hcomparable⟩
    · exact ends_raise.mpr (ends_raise.mpr
        (Or.inr (Or.inl ⟨fun h => hraises h.comparable, runtime_ne⟩)))
    · exact fun r w₂ hexec r' w₃ hexec' =>
        Or.inr (Or.inr (hlate.trans_le (hexec.mono.1.trans hexec'.mono.1)))

/-- An organization that is not active. -/
theorem acceptNewUser_inactive {token : String} {totpCode : Option String}
    (h : w.cur.Awaits A token i) (hactive : w.cur.organizationActive i.organizationId ≠ true) :
    (acceptNewUser A token password totpCode).Ends w fun r w' =>
      r = .error (.organizationInvitation "organization_unavailable"
        "Organization is not accepting invitations" 409) ∨ i.expiresAt ≤ w'.now := by
  simp only [acceptNewUser, bind_eq]
  refine ends_query_bind.mpr ?_
  rw [h.acceptedNewUser]
  have hpending : (pendingInvitation A token).Ends w fun r w' =>
      r = .error (.organizationInvitation "organization_unavailable"
        "Organization is not accepting invitations" 409) ∨ i.expiresAt ≤ w'.now := by
    simp only [pendingInvitation, h.wellFormed, Bool.false_eq_true, if_false, bind_eq]
    refine ends_returning_bind.mpr ⟨fun eff heff => ?_, fun x hx => by cases hx⟩
    obtain rfl := Except.ok.inj heff
    simp only [h.found, h.pending, ne_eq, not_true_eq_false, if_false]
    refine ends_time_bind.mpr fun t ht => ?_
    split
    · rename_i hexpired
      exact fun r w' hexec => .inr (hexpired.trans hexec.mono.1)
    · have hstill : ¬ Database.organizationActive (id w.cur) i.organizationId = true := hactive
      refine ends_query_bind.mpr ?_
      rw [if_neg hstill]
      exact ends_raise.mpr (.inl rfl)
  refine ends_handle.mpr (ends_handle.mpr (ends_handle.mpr (hpending.mono fun r w₁ hr => ?_)))
  rcases hr with rfl | hlate
  · exact ends_raise.mpr (ends_raise.mpr (ends_raise.mpr (.inl rfl)))
  · exact fun r w₂ hexec r' w₃ hexec' r'' w₄ hexec'' =>
      .inr (hlate.trans (hexec.mono.1.trans (hexec'.mono.1.trans hexec''.mono.1)))

/-- **Wrong codes are counted, where the comparison returns.** A call that runs alone, with a
code that is at no time of the call one of the invitation's secret, answers `mfa_invalid`
and costs the invitation one attempt exactly where it comes to compare the code and the code
is malformed or in ASCII; and neither verifier raises exactly there. -/
theorem invitation_attempts_counted (A : AppEnv) :
    (∀ (token password code encrypted : String) (i : OrganizationInvitation) (w w' : World)
      (r : Except Err Accepted), w.cur = w.base → w.base.Awaits A token i →
      policyRequiresMfa w.base i.organizationId = true →
      WrongCode A i encrypted code w.now w'.now → 30000000 ≤ w.now → w'.now < i.expiresAt →
      (acceptNewUser A token password (some code)).close.Exec w r w' →
      (Counted A i w.base r w' ↔ w.base.Compares A i password encrypted code)) ∧
    ∀ (secret code : String) (w : World), SoundSecret A secret → 30000000 ≤ w.now →
      (∀ matched w', (totpMatchedStep A secret code).Exec w matched w' →
        ((∃ step, matched = .ok step) ↔ malformedCode A code = true ∨ isAscii code = true)) ∧
      ∀ verified w', (verifyTotpCode A secret code).Exec w verified w' →
        ((∃ b, verified = .ok b) ↔ malformedCode A code = true ∨ isAscii code = true) := by
  refine ⟨?_, fun secret code w hsecret hnow =>
    ⟨fun matched w' hexec => totpMatchedStep_returns_iff hsecret hnow hexec,
      fun verified w' hexec => verifyTotpCode_returns_iff hsecret hnow hexec⟩⟩
  intro token password code encrypted i w w' r hrested hawaits hneeds hwrong hnow hexpires hexec
  by_cases hactive : w.base.organizationActive i.organizationId = true
  · have hends : (acceptNewUser A token password (some code)).close.Ends w fun r w₁ =>
        Tallied A i password encrypted code w.base w'.now r w₁ ∨ i.expiresAt ≤ w₁.now := by
      refine ends_close.mpr (acceptNewUser_ends (hrested ▸ hawaits) (hrested ▸ hactive)
        (fun t ht => ?_) fun r w₁ hlate => .inr hlate)
      have hfrom : WrongCode A i encrypted code t w'.now :=
        ⟨hwrong.enrolled, hwrong.nonempty, hwrong.sound, fun secret hsecret now hle =>
          hwrong.invalid secret hsecret now (ht.trans hle)⟩
      exact (acceptAsNewUser_tallied (w := { w with now := t }) hrested hfrom (hnow.trans ht)
        hactive hneeds).mono fun r w₁ hr => .inl hr
    rcases hends r w' hexec with (⟨hcompares, hcounted⟩ | ⟨hnot, hr⟩ | hlate) | hlate
    · exact ⟨fun _ => hcompares, fun _ => hcounted⟩
    · exact ⟨fun hcounted => absurd hcounted.1 hr, fun hcompares => absurd hcompares hnot⟩
    · exact absurd hlate (lt_irrefl _)
    · exact absurd hlate (not_le.mpr hexpires)
  · have hends : (acceptNewUser A token password (some code)).close.Ends w fun r w₁ =>
        r = .error (.organizationInvitation "organization_unavailable"
          "Organization is not accepting invitations" 409) ∨ i.expiresAt ≤ w₁.now :=
      ends_close.mpr (acceptNewUser_inactive (hrested ▸ hawaits) (hrested ▸ hactive))
    refine ⟨fun hcounted => ?_, fun hcompares => absurd hcompares.active hactive⟩
    rcases hends r w' hexec with hr | hlate
    · have hmfa := hcounted.1
      rw [hr] at hmfa
      exact absurd hmfa (organizationInvitation_ne (by decide))
    · exact absurd hlate (not_le.mpr hexpires)

/-- An organization that requires a second factor, and its one invitation, of the token `7`,
with a secret set up. -/
def enrolling : World where
  base := enrolled
  cur := enrolled
  now := 30000000
  next := 4
  log := []
where
  enrolled : Database :=
    { Database.empty with
      organizations := [{ id := 1, slug := "lab", status := .active }]
      organizationMfaPolicies := [⟨1, true, false⟩]
      organizationInvitations :=
        [{ id := 3, organizationId := 1, invitedByUserId := 2, invitedEmail := "a", roleNames := []
           tokenHash := AppEnv.symbolic.invitationHash "7", activeKey := some 1, status := .pending
           createdAt := 0, expiresAt := 40000000, mfaSecretEncrypted := some "s" }] }

/-- `AppEnv.symbolic` with the Arabic-Indic digits as digits, which they are to
`str.isdigit`. -/
def arabicDigits : AppEnv :=
  { AppEnv.symbolic with
    isDigit := fun s => s ≠ "" ∧ s.toList.all fun c => c.isDigit || (1632 ≤ c.toNat ∧ c.toNat ≤ 1641) }

/-- Six digits that are not ASCII raise, and cost nothing. -/
theorem invitation_attempt_lost :
    ¬ ∀ (code : String) (w' : World) (r : Except Err Accepted),
      (∀ now, enrolling.now ≤ now → now ≤ w'.now → ¬ CodeValid arabicDigits "s" code now) →
      (acceptNewUser arabicDigits "7" "b" (some code)).close.Exec enrolling r w' →
      Counted arabicDigits (enrolling.base.organizationInvitations.head (by decide)) enrolling.base
        r w' := by
  intro hall
  have hexec := exec_run (acceptNewUser arabicDigits "7" "b" (some "١٢٣٤٥٦")).close enrolling
  have hinvalid : ∀ now, ¬ CodeValid arabicDigits "s" "١٢٣٤٥٦" now := by
    rintro now ⟨counter, -, hcode⟩
    exact absurd (isAscii_totpCode hcode) (by decide +kernel)
  obtain ⟨-, revokedAt, hrows, -⟩ := hall _ _ _ (fun now _ _ => hinvalid now) hexec
  have hplays : ((acceptNewUser arabicDigits "7" "b" (some "١٢٣٤٥٦")).close.run
      enrolling).2.base.organizationInvitations.map (·.mfaAttempts) = [0] := by decide +kernel
  rw [hrows] at hplays
  cases revokedAt <;> cases hplays

/-- A wrong code of six ASCII digits is compared, and counted. -/
theorem invitation_attempt_counted :
    (∃ (w' : World) (r : Except Err Accepted), Counted AppEnv.symbolic
      (enrolling.base.organizationInvitations.head (by decide)) enrolling.base r w') ∧
    ∃ (w' : World) (step : Option ℕ),
      (totpMatchedStep AppEnv.symbolic "s" "000009").Exec enrolling (.ok step) w' := by
  have hsecret : SoundSecret AppEnv.symbolic "s" := rfl
  constructor
  · have hexec := exec_run (acceptNewUser AppEnv.symbolic "7" "b" (some "000009")).close enrolling
    have hend : ((acceptNewUser AppEnv.symbolic "7" "b" (some "000009")).close.run enrolling).2.now
        = 30000000 := by decide +kernel
    have hinvalid : ¬ CodeValid AppEnv.symbolic "s" "000009" 30000000 := by
      rintro ⟨counter, hcounter, hcode⟩
      simp only [List.mem_cons, List.not_mem_nil, or_false] at hcounter
      rcases hcounter with rfl | rfl | rfl <;> exact absurd hcode (by decide +kernel)
    refine ⟨_, _, ((invitation_attempts_counted AppEnv.symbolic).1 "7" "b" "000009" "s" _ enrolling
      _ _ rfl ⟨by decide, by decide, by decide, by decide⟩ (by decide)
      ⟨rfl, by decide, fun secret hdecrypt => ?_, fun secret hdecrypt now hge hle => ?_⟩ le_rfl ?_
      hexec).mpr ⟨by decide, by decide, by decide, by decide, by decide, .inr (by decide)⟩⟩
    · obtain rfl := Option.some.inj hdecrypt
      exact hsecret
    · obtain rfl := Option.some.inj hdecrypt
      have hnow : now = 30000000 := le_antisymm (hend ▸ hle) hge
      exact hnow ▸ hinvalid
    · rw [hend]
      decide
  · have hexec := exec_run (totpMatchedStep AppEnv.symbolic "s" "000009") enrolling
    obtain ⟨step, hstep⟩ := (((invitation_attempts_counted AppEnv.symbolic).2 "s" "000009" enrolling
      hsecret le_rfl).1 _ _ hexec).mpr (.inr (by decide))
    rw [hstep] at hexec
    exact ⟨_, step, hexec⟩

end OmniAuth
