import OmniAuth.Txn.Claim
import OmniAuth.Txn.Noted
import OmniAuth.Mfa.Service
import OmniAuth.Session.Steps

/-!
# Every factor once

Any number of challenge requests and step-ups, interleaved statement by
statement, with failures. A TOTP step and a challenge's `jti` are rows of
UNIQUE tables, a recovery code is a row that a conditional `UPDATE` takes: they
are claims in the sense of `Txn.Claim`, and each program redeems only what it
has claimed and committed.
-/

namespace OmniAuth

open Txn Prog

/-- What may be redeemed once. -/
inductive MfaKey
  | totpStep (deviceId timeStep : ℕ)
  | recoveryCode (id : ℕ)
  | challenge (jti : ℕ)
  deriving DecidableEq

/-- What an event of the history redeems. -/
def Event.redeems : Event → Option MfaKey
  | .totpAccepted d t => some (.totpStep d t)
  | .recoveryCodeAccepted id => some (.recoveryCode id)
  | .challengeCompleted jti => jti.map .challenge
  | _ => none

namespace MfaKey

/-- Redeemed already, or not there to be redeemed. -/
def Taken (db : Database) : MfaKey → Prop
  | totpStep d t => ⟨d, t⟩ ∈ db.mfaUsedTotpSteps
  | recoveryCode id => ¬ ∃ c ∈ db.mfaRecoveryCodes, c.id = id ∧ c.usedAt = none
  | challenge jti => ∃ t ∈ db.revokedTokens, t.tokenJti = jti

def lock : MfaKey → RowKey
  | totpStep d t => .totpStep d t
  | recoveryCode id => .recoveryCode id
  | challenge jti => .tokenJti jti

/-- The statement takes the key from where it is executed. -/
def WonBy (stmt : Stmt) (seen : Database) : MfaKey → Prop
  | totpStep d t => stmt = .mfa (.insertUsedTotpStep d t)
  | recoveryCode id => (∃ t, stmt = .mfa (.consumeRecoveryCode id t)) ∧
      ∃ c ∈ seen.mfaRecoveryCodes, c.id = id ∧ c.usedAt = none
  | challenge jti => ∃ row, stmt = .mfa (.insertRevokedToken row) ∧ row.tokenJti = jti

/-- The event redeems the key. -/
def RedeemedBy (e : Event) (k : MfaKey) : Prop := e.redeems = some k

end MfaKey

/-- A new recovery code is the one row that frees a key. -/
def Stmt.FreesNothing : Stmt → Prop
  | .mfa (.insertRecoveryCode _) => False
  | _ => True

/-! ## The claims -/

/-- The tables of the claims are as they were. -/
structure Database.SameFactors (db db' : Database) : Prop where
  steps : db'.mfaUsedTotpSteps = db.mfaUsedTotpSteps
  codes : db'.mfaRecoveryCodes = db.mfaRecoveryCodes
  tokens : db'.revokedTokens = db.revokedTokens

theorem Database.SameFactors.taken {db db' : Database} (h : db.SameFactors db') (k : MfaKey) :
    k.Taken db' ↔ k.Taken db := by
  cases k with
  | totpStep d t => simp only [MfaKey.Taken, h.steps]
  | recoveryCode id => simp only [MfaKey.Taken, h.codes]
  | challenge jti => simp only [MfaKey.Taken, h.tokens]

/-- The statements on the three tables. -/
inductive Stmt.Claims : Stmt → Prop
  | step (d t : ℕ) : Claims (.mfa (.insertUsedTotpStep d t))
  | token (row : RevokedToken) : Claims (.mfa (.insertRevokedToken row))
  | consume (id t : ℕ) : Claims (.mfa (.consumeRecoveryCode id t))
  | mark (ids : List ℕ) (t : ℕ) : Claims (.mfa (.markRecoveryCodes ids t))

theorem sameFactors_mfa {stmt : MfaStmt} {seen : Database} {eff : Effect Database RowKey}
    (hf : Stmt.FreesNothing (.mfa stmt)) (hc : ¬ Stmt.Claims (.mfa stmt))
    (h : stmt.denote seen = .ok eff) (db : Database) : db.SameFactors (eff.delta db) := by
  cases stmt with
  | insertUsedTotpStep d t => exact absurd (.step d t) hc
  | insertRevokedToken row => exact absurd (.token row) hc
  | consumeRecoveryCode id t => exact absurd (.consume id t) hc
  | markRecoveryCodes ids t => exact absurd (.mark ids t) hc
  | insertRecoveryCode row => exact hf.elim
  | _ =>
    simp only [MfaStmt.denote] at h
    try split at h
    all_goals
      cases h
      try exact ⟨rfl, rfl, rfl⟩

/-- **The other statements leave the claims alone.** -/
theorem sameFactors_denote {stmt : Stmt} {seen : Database} {eff : Effect Database RowKey}
    (hf : stmt.FreesNothing) (hc : ¬ stmt.Claims) (h : denote stmt seen = .ok eff)
    (db : Database) : db.SameFactors (eff.delta db) := by
  cases stmt with
  | mfa stmt => exact sameFactors_mfa hf hc h db
  | credential stmt =>
    have hsteps := congrArg Database.mfaUsedTotpSteps (CredentialStmt.frame h db)
    have hcodes := congrArg Database.mfaRecoveryCodes (CredentialStmt.frame h db)
    have htokens := congrArg Database.revokedTokens (CredentialStmt.frame h db)
    exact ⟨hsteps, hcodes, htokens⟩
  | account stmt =>
    have hsteps := congrArg Database.mfaUsedTotpSteps (AccountStmt.frame h db)
    have hcodes := congrArg Database.mfaRecoveryCodes (AccountStmt.frame h db)
    have htokens := congrArg Database.revokedTokens (AccountStmt.frame h db)
    exact ⟨hsteps, hcodes, htokens⟩
  | org stmt =>
    have hsteps := congrArg Database.mfaUsedTotpSteps (OrgStmt.frame h db)
    have hcodes := congrArg Database.mfaRecoveryCodes (OrgStmt.frame h db)
    have htokens := congrArg Database.revokedTokens (OrgStmt.frame h db)
    exact ⟨hsteps, hcodes, htokens⟩
  | insertRefreshToken row =>
    simp only [denote] at h
    split at h
    · cases h
    · obtain rfl := Except.ok.inj h
      exact ⟨rfl, rfl, rfl⟩
  | insertSession row =>
    simp only [denote] at h
    split at h
    · cases h
    · obtain rfl := Except.ok.inj h
      exact ⟨rfl, rfl, rfl⟩
  | _ =>
    obtain rfl := Except.ok.inj h
    exact ⟨rfl, rfl, rfl⟩

/-! Denotations of the four. -/

theorem denote_insertUsedTotpStep {d t : ℕ} {seen : Database} {eff : Effect Database RowKey}
    (h : denote (.mfa (.insertUsedTotpStep d t)) seen = .ok eff) :
    ⟨d, t⟩ ∉ seen.mfaUsedTotpSteps ∧ eff.locks = [.totpStep d t] ∧
      ∀ db, eff.delta db = { db with mfaUsedTotpSteps := db.mfaUsedTotpSteps ++ [⟨d, t⟩] } := by
  simp only [denote, MfaStmt.denote] at h
  split at h
  · cases h
  · rename_i hfree
    obtain rfl := Except.ok.inj h
    exact ⟨hfree, rfl, fun _ => rfl⟩

theorem denote_insertRevokedToken {row : RevokedToken} {seen : Database}
    {eff : Effect Database RowKey} (h : denote (.mfa (.insertRevokedToken row)) seen = .ok eff) :
    (¬ ∃ t ∈ seen.revokedTokens, t.tokenJti = row.tokenJti) ∧ eff.locks = [.tokenJti row.tokenJti] ∧
      ∀ db, eff.delta db = { db with revokedTokens := db.revokedTokens ++ [row] } := by
  simp only [denote, MfaStmt.denote] at h
  split at h
  · cases h
  · rename_i hfree
    obtain rfl := Except.ok.inj h
    exact ⟨hfree, rfl, fun _ => rfl⟩

/-- Codes that are used stay used. -/
theorem Database.taken_useCodes {db : Database} {p : MFARecoveryCode → Bool} {t : ℕ} {k : MfaKey}
    (hk : k.Taken db) : k.Taken (db.useCodes p t) := by
  cases k with
  | recoveryCode id =>
    rintro ⟨c, hc, hid, hunused⟩
    simp only [Database.useCodes, List.mem_map] at hc
    obtain ⟨c₀, hc₀, rfl⟩ := hc
    split at hunused
    · cases hunused
    · rename_i hp
      rw [if_neg hp] at hid
      exact hk ⟨c₀, hc₀, hid, hunused⟩
  | _ => exact hk

/-- What a change of the codes takes is a code it matches. -/
theorem Database.of_taken_useCodes {db : Database} {p : MFARecoveryCode → Bool} {t : ℕ}
    {k : MfaKey} (hk : k.Taken (db.useCodes p t)) :
    k.Taken db ∨ ∃ id, k = .recoveryCode id ∧ ∃ c : MFARecoveryCode, c.id = id ∧ p c = true := by
  cases k with
  | recoveryCode id =>
    by_cases htaken : MfaKey.Taken db (.recoveryCode id)
    · exact .inl htaken
    · obtain ⟨c, hc, hid, hunused⟩ := not_not.mp htaken
      by_cases hp : p c = true
      · exact .inr ⟨id, rfl, c, hid, hp⟩
      · refine absurd ⟨c, ?_, hid, hunused⟩ hk
        refine List.mem_map.mpr ⟨c, hc, ?_⟩
        rw [if_neg hp]
  | _ => exact .inl hk

/-- **TOTP steps, recovery codes and challenges as claims.** -/
def mfaClaims : Txn.Claims AuthSig MfaKey where
  taken := MfaKey.Taken
  lock := MfaKey.lock
  wins := MfaKey.WonBy
  admits := Stmt.FreesNothing
  free := by
    intro stmt seen eff k h hk
    cases k with
    | totpStep d t =>
      obtain rfl : stmt = _ := hk
      exact (denote_insertUsedTotpStep h).1
    | recoveryCode id => exact not_not.mpr hk.2
    | challenge jti =>
      obtain ⟨row, rfl, rfl⟩ := hk
      exact (denote_insertRevokedToken h).1
  locked := by
    intro stmt seen eff k h hk
    cases k with
    | totpStep d t =>
      obtain rfl : stmt = _ := hk
      rw [(denote_insertUsedTotpStep h).2.1]
      exact List.mem_singleton.mpr rfl
    | recoveryCode id =>
      obtain ⟨⟨t, rfl⟩, -⟩ := hk
      obtain rfl := Except.ok.inj h
      exact List.mem_singleton.mpr rfl
    | challenge jti =>
      obtain ⟨row, rfl, rfl⟩ := hk
      rw [(denote_insertRevokedToken h).2.1]
      exact List.mem_singleton.mpr rfl
  takes := by
    intro stmt seen eff k h hk db
    cases k with
    | totpStep d t =>
      obtain rfl : stmt = _ := hk
      rw [(denote_insertUsedTotpStep h).2.2]
      simp [MfaKey.Taken]
    | recoveryCode id =>
      obtain ⟨⟨t, rfl⟩, -⟩ := hk
      obtain rfl := Except.ok.inj h
      rintro ⟨c, hc, hid, hunused⟩
      simp only [Database.useCodes, List.mem_map] at hc
      obtain ⟨c₀, hc₀, rfl⟩ := hc
      split at hunused
      · cases hunused
      · rename_i hp
        rw [if_neg hp] at hid
        exact hp (decide_eq_true ⟨hid, hunused⟩)
    | challenge jti =>
      obtain ⟨row, rfl, rfl⟩ := hk
      rw [(denote_insertRevokedToken h).2.2]
      exact ⟨row, by simp, rfl⟩
  keeps := by
    intro stmt seen eff k db hadm h hk
    by_cases hc : stmt.Claims
    · cases hc with
      | step d t =>
        rw [(denote_insertUsedTotpStep h).2.2]
        cases k with
        | totpStep d' t' => exact List.mem_append_left _ hk
        | _ => exact hk
      | token row =>
        rw [(denote_insertRevokedToken h).2.2]
        cases k with
        | challenge jti =>
          obtain ⟨r, hr, hjti⟩ := hk
          exact ⟨r, List.mem_append_left _ hr, hjti⟩
        | _ => exact hk
      | consume id t =>
        obtain rfl := Except.ok.inj h
        exact db.taken_useCodes hk
      | mark ids t =>
        obtain rfl := Except.ok.inj h
        exact db.taken_useCodes hk
    · exact ((sameFactors_denote hadm hc h db).taken k).mpr hk
  only := by
    intro stmt seen eff k db hadm h hk
    by_cases hc : stmt.Claims
    · cases hc with
      | step d t =>
        rw [(denote_insertUsedTotpStep h).2.2] at hk
        rw [(denote_insertUsedTotpStep h).2.1]
        cases k with
        | totpStep d' t' =>
          rcases List.mem_append.mp hk with hk | hk
          · exact .inl hk
          · cases List.mem_singleton.mp hk
            exact .inr (List.mem_singleton.mpr rfl)
        | _ => exact .inl hk
      | token row =>
        rw [(denote_insertRevokedToken h).2.2] at hk
        rw [(denote_insertRevokedToken h).2.1]
        cases k with
        | challenge jti =>
          obtain ⟨r, hr, rfl⟩ := hk
          rcases List.mem_append.mp hr with hr | hr
          · exact .inl ⟨r, hr, rfl⟩
          · obtain rfl := List.mem_singleton.mp hr
            exact .inr (List.mem_singleton.mpr rfl)
        | _ => exact .inl hk
      | consume id t =>
        obtain rfl := Except.ok.inj h
        rcases db.of_taken_useCodes hk with hk | ⟨id', rfl, c, rfl, hp⟩
        · exact .inl hk
        · rw [(of_decide_eq_true hp).1]
          exact .inr (List.mem_singleton.mpr rfl)
      | mark ids t =>
        obtain rfl := Except.ok.inj h
        rcases db.of_taken_useCodes hk with hk | ⟨id', rfl, c, rfl, hp⟩
        · exact .inl hk
        · exact .inr (List.mem_map_of_mem (of_decide_eq_true hp))
    · exact .inl (((sameFactors_denote hadm hc h db).taken k).mp hk)

/-! ## The programs redeem what they have won -/

/-- Each program redeems only what it has won. -/
abbrev redeeming : Discipline AuthSig (Claims.Purse MfaKey) := mfaClaims.single MfaKey.RedeemedBy

/-- Steps that redeem nothing and free nothing. -/
def Plain : Label AuthSig → Prop
  | .wrote stmt _ _ => stmt.FreesNothing
  | .emitted e => ∀ k, ¬ MfaKey.RedeemedBy e k
  | _ => True

/-- All of `K` is won. -/
def Owns (K : MfaKey → Prop) (q : Claims.Purse MfaKey) : Prop := ∀ k, K k → q.won k

/-- The key of a challenge, where it has one. -/
def ChallengeKey (jti : Option ℕ) (k : MfaKey) : Prop := ∃ j, jti = some j ∧ k = .challenge j

variable {A : AppEnv} {α β : Type} {K : MfaKey → Prop} {q : Claims.Purse MfaKey}

theorem plain_of_within {P : Stmt → Prop} {o : Op α} (h : o.Within True (Writing True P))
    (hP : ∀ stmt, P stmt → stmt.FreesNothing) : o.Within True Plain := by
  refine h.mono fun ℓ hℓ => ?_
  cases ℓ with
  | wrote stmt seen eff => exact hP _ hℓ
  | emitted e =>
    obtain ⟨f, t, rfl⟩ := hℓ
    exact fun k => nofun
  | _ => trivial

theorem plain_of_reading {o : Op α} (h : o.Within True (Reading True)) : o.Within True Plain :=
  plain_of_within (within_of_reading (P := fun _ => False) h) fun _ h => h.elim

/-- **A plain step keeps what is won.** -/
theorem Plain.owns {ℓ : Label AuthSig} (hℓ : Plain ℓ) (hq : Owns K q) :
    redeeming.may q ℓ ∧ Owns K (redeeming.next q ℓ) := by
  cases ℓ with
  | wrote stmt seen eff => exact ⟨hℓ, hq⟩
  | emitted e =>
    refine ⟨fun k hk => absurd hk (hℓ k), fun k hk => ⟨hq k hk, hℓ k⟩⟩
  | committed => exact ⟨trivial, fun k hk => .inl (hq k hk)⟩
  | commitLost x => exact ⟨trivial, fun k hk => .inl (hq k hk)⟩
  | _ => exact ⟨trivial, hq⟩

theorem plain_bind {o : Op α} {k : α → Op β} {post : Except Err β → Claims.Purse MfaKey → Prop}
    (h : o.Within True Plain) (hq : Owns K q)
    (hk : ∀ a q', Owns K q' → (k a).Follows redeeming True post q')
    (hx : ∀ x q', post (.error x) q') : (o.bind k).Follows redeeming True post q :=
  h.follows_bind (fun _ _ hT hA => (Plain.owns hA hT).1) (fun _ _ hT hA => (Plain.owns hA hT).2)
    hq hk fun x q' _ => hx x q'

/-- The end of a program, where nothing is asked any more. -/
theorem plain_follows {o : Op α} (h : o.Within True Plain) :
    o.Follows redeeming True (fun _ _ => True) q :=
  (h.follows (T := Owns fun _ => False) (fun _ _ hT hA => (Plain.owns hA hT).1)
    (fun _ _ hT hA => (Plain.owns hA hT).2) fun _ hk => hk.elim).mono fun _ _ _ => trivial

/-- A program of which nothing is asked, and then `k`, which needs nothing won. -/
theorem redeeming_bind {o : Op α} {k : α → Op β} {q : Claims.Purse MfaKey}
    (h : ∀ q, o.Follows redeeming True (fun _ _ => True) q)
    (hk : ∀ a q, (k a).Follows redeeming True (fun _ _ => True) q) :
    (o.bind k).Follows redeeming True (fun _ _ => True) q := by
  refine (h q).handle fun r q' _ => ?_
  cases r with
  | ok a => exact hk a q'
  | error x => trivial

theorem redeeming_orElse {o : Op α} {f : Err → Op α}
    (h : ∀ q, o.Follows redeeming True (fun _ _ => True) q)
    (hf : ∀ x q, (f x).Follows redeeming True (fun _ _ => True) q) (q : Claims.Purse MfaKey) :
    (o.orElse f).Follows redeeming True (fun _ _ => True) q := by
  refine (h q).handle fun r q' _ => ?_
  cases r with
  | ok a => trivial
  | error x => exact hf x q'

theorem execute_plain {stmt : Stmt} (h : stmt.FreesNothing) :
    (execute stmt : Op Unit).Within True Plain :=
  within_returning (fun _ _ => h) (fun _ _ => trivial) fun _ _ => trivial

theorem logEvent_plain (event : AuditEvent) (commit : Bool) :
    (logEvent event commit).Within True Plain :=
  plain_of_within (logEvent_within event commit) fun stmt h => by
    cases stmt <;> first | exact h.elim | trivial

theorem generateTokens_plain {E : Env} (user : User) (authMethod : AuthMethod)
    (idpOrgId : Option ℕ) (client : ClientInfo) :
    (generateTokens E user authMethod idpOrgId client).Within True Plain :=
  plain_of_within (generateTokens_within user authMethod idpOrgId client) fun stmt h => by
    cases stmt <;> first | trivial | exact h.elim False.elim False.elim

theorem createMfaChallengeToken_within {F : Prop} {E : Env} (userId : ℕ) (login : LoginContext)
    (stage : Option Stage) : (createMfaChallengeToken E userId login stage).Within F (Reading F) :=
  time_within.bind fun _ => draw_within.bind fun _ => trivial

theorem refreshUser_within {F : Prop} (userId : ℕ) : (refreshUser userId).Within F (Reading F) := by
  refine (query_within _).bind fun user => ?_
  cases user <;> trivial

/-! ### TOTP -/

theorem tryClaimTotpStep_follows (deviceId timeStep : ℕ) (q : Claims.Purse MfaKey) :
    (tryClaimTotpStep deviceId timeStep).Follows redeeming True (fun _ _ => True) q := by
  refine redeeming_orElse (fun q => ?_) (fun x q => ?_) q
  · refine follows_returning_bind.mpr ⟨fun seen eff _ _ => ⟨trivial, ?_⟩,
      fun seen x _ _ => ⟨trivial, trivial⟩, fun _ x => trivial⟩
    refine follows_commitNow_bind.mpr ⟨fun _ => ⟨trivial, ?_⟩,
      fun _ x => ⟨trivial, trivial, trivial⟩⟩
    refine follows_note_bind.mpr fun _ => ⟨fun k hk => ?_, trivial⟩
    -- the step was taken by the insert and won by the commit
    obtain rfl : _ = k := Option.some.inj hk
    exact .inr (.inr rfl)
  · trivial

theorem totpMatchedStep_within {F : Prop} (secret code : String) :
    (totpMatchedStep A secret code).Within F (Reading F) := by
  unfold totpMatchedStep
  split
  · trivial
  refine time_within.bind fun now => ?_
  split <;> trivial

theorem claimDevice_follows (code : String) (device : MFADevice) (q : Claims.Purse MfaKey) :
    (claimDevice A code device).Follows redeeming True (fun _ _ => True) q := by
  unfold claimDevice
  split
  · trivial
  · refine redeeming_bind (fun q => plain_follows (plain_of_reading (totpMatchedStep_within _ _)))
      fun step q => ?_
    cases step with
    | none => trivial
    | some step => exact redeeming_bind (tryClaimTotpStep_follows device.id step) fun _ _ => trivial

theorem matchDevice_follows (code : String) (devices : List MFADevice)
    (q : Claims.Purse MfaKey) :
    (matchDevice A code devices).Follows redeeming True (fun _ _ => True) q := by
  induction devices generalizing q with
  | nil => trivial
  | cons device rest ih =>
    refine redeeming_bind (fun q => ?_) fun claim q => ?_
    · refine redeeming_orElse (claimDevice_follows code device) (fun x q => ?_) q
      trivial
    · split
      · trivial
      · exact redeeming_bind ih fun _ _ => trivial
      · exact ih q

theorem verifyUserTotpStepUp_follows (userId : ℕ) (code : String) (q : Claims.Purse MfaKey) :
    (verifyUserTotpStepUp A userId code).Follows redeeming True (fun _ _ => True) q := by
  unfold verifyUserTotpStepUp
  split
  · trivial
  refine redeeming_bind (fun q => plain_follows (plain_of_reading (query_within _)))
    fun devices q => ?_
  exact redeeming_bind (matchDevice_follows code devices) fun _ q => trivial

/-! ### Recovery codes and email codes -/

theorem tryConsumeRecoveryCode_follows (codeId : ℕ) (q : Claims.Purse MfaKey) :
    (tryConsumeRecoveryCode codeId).Follows redeeming True (fun _ _ => True) q := by
  refine follows_time_bind.mpr fun now _ => ?_
  refine follows_returning_bind.mpr ⟨fun seen eff hden _ => ⟨trivial, ?_⟩,
    fun seen x _ _ => ⟨trivial, trivial⟩, fun _ x => trivial⟩
  refine follows_commitNow_bind.mpr ⟨fun _ => ⟨trivial, ?_⟩, fun _ x => ⟨trivial, trivial, trivial⟩⟩
  by_cases hclaimed : seen.unusedCodes codeId = 1
  · simp only [hclaimed, if_true]
    refine follows_note_bind.mpr fun _ => ⟨fun k hk => ?_, trivial⟩
    obtain rfl : _ = k := Option.some.inj hk
    -- one row was unused where the update was executed
    have hpos : 0 < seen.unusedCodes codeId := by omega
    obtain ⟨c, hc⟩ := List.length_pos_iff_exists_mem.mp hpos
    obtain ⟨hmem, hunused⟩ := List.mem_filter.mp hc
    exact .inr (.inr ⟨⟨now, rfl⟩, c, hmem, of_decide_eq_true hunused⟩)
  · simp only [hclaimed, if_false]
    trivial

/-- Statements on the rows of email codes. -/
def Stmt.OfEmailCodes : Stmt → Prop
  | .mfa (.countOtpAttempt _ _) | .mfa (.invalidateEmailOtp _ _) => True
  | .mfa (.consumeEmailOtp _ _ _ _) => True
  | _ => False

theorem verifyCode_within (userId : ℕ) (jti : Option ℕ) (code : String) :
    (verifyCode A userId jti code).Within True (Writing True Stmt.OfEmailCodes) := by
  refine (within_of_reading (query_within _)).bind fun row => ?_
  refine (within_of_reading time_within).bind fun now => ?_
  split
  · trivial
  split
  · trivial
  split
  · trivial
  split
  · trivial
  split
  · refine Within.bind (within_returning (fun _ _ => trivial) (fun _ _ => trivial) fun hF _ => hF)
      fun changed => ?_
    split
    · trivial
    refine (within_of_reading (query_within _)).bind fun attempts => ?_
    split
    · trivial
    · exact Within.bind (execute_within trivial) fun _ => trivial
  · refine Within.bind (within_returning (fun _ _ => trivial) (fun _ _ => trivial) fun hF _ => hF)
      fun claimed => ?_
    split
    · exact ⟨trivial, trivial⟩
    · exact commitNow_within.bind fun _ => trivial

theorem verifyCode_plain (userId : ℕ) (jti : Option ℕ) (code : String) :
    (verifyCode A userId jti code).Within True Plain :=
  plain_of_within (verifyCode_within userId jti code) fun stmt h => by
    cases stmt with
    | mfa stmt => cases stmt <;> first | exact h.elim | trivial
    | _ => exact h.elim

/-! ### The challenge -/

theorem flushVerified_plain (userId now : ℕ) (deviceId : Option ℕ) :
    (flushVerified userId now deviceId).Within True Plain := by
  refine Within.bind (execute_plain trivial) fun _ => ?_
  cases deviceId with
  | none => trivial
  | some deviceId => exact execute_plain trivial

/-- A challenge that was consumed is won. -/
theorem consumeChallengeJti_follows (userId now : ℕ) (deviceId jti : Option ℕ)
    (q : Claims.Purse MfaKey) :
    (consumeChallengeJti userId now deviceId jti).Follows redeeming True
      (fun r q => ∀ a, r = .ok a → Owns (ChallengeKey jti) q) q := by
  have hnone : Owns (fun _ => False) q := fun _ hk => hk.elim
  unfold consumeChallengeJti
  split
  · refine plain_bind (flushVerified_plain userId now deviceId) hnone (fun _ q' _ => ?_) nofun
    refine ⟨fun _ => ⟨trivial, fun _ _ k hk => ?_⟩, fun _ x => ⟨nofun, trivial, nofun⟩⟩
    obtain ⟨_, hjti, _⟩ := hk
    cases hjti
  · rename_i jti
    refine Follows.orElse (M := fun _ _ => True) ?_ fun x q' _ => nofun
    refine plain_bind (flushVerified_plain userId now deviceId) hnone (fun _ q' _ => ?_)
      fun x q' => trivial
    refine follows_draw_bind.mpr fun id _ => ?_
    refine follows_returning_bind.mpr ⟨fun seen eff _ _ => ⟨trivial, ?_⟩,
      fun seen x _ _ => ⟨trivial, trivial⟩, fun _ x => trivial⟩
    refine ⟨fun _ => ⟨trivial, fun _ _ k hk => ?_⟩, fun _ x => ⟨trivial, trivial, trivial⟩⟩
    obtain ⟨j, hj, rfl⟩ := hk
    obtain rfl := Option.some.inj hj
    exact .inr (.inr ⟨⟨id, jti⟩, rfl, rfl⟩)

/-- The note of a completed challenge redeems the challenge and nothing else. -/
theorem note_completed_bind {k : Unit → Op β} {jti : Option ℕ}
    (hq : Owns (ChallengeKey jti) q) (hk : ∀ q, (k ()).Follows redeeming True (fun _ _ => True) q) :
    ((note (.challengeCompleted jti) : Op Unit).bind k).Follows redeeming True
      (fun _ _ => True) q := by
  refine follows_note_bind.mpr fun _ => ⟨fun k' hk' => ?_, hk _⟩
  cases jti with
  | none => cases hk'
  | some jti => exact hq k' ⟨jti, rfl, (Option.some.inj hk').symm⟩

theorem finishLogin_follows (payload : Claims) (user : User)
    (hq : Owns (ChallengeKey payload.jti) q) :
    (finishLogin A payload user).Follows redeeming True (fun _ _ => True) q :=
  note_completed_bind hq fun _ => redeeming_bind
    (fun _ => plain_follows (generateTokens_plain _ _ _ _)) fun _ _ => trivial

/-- What comes after the consumption of a challenge owns the challenge. -/
theorem consumed_bind {k : Unit → Op (LoginReply A)} (payload : Claims) (userId now : ℕ)
    (deviceId : Option ℕ)
    (hk : ∀ q, Owns (ChallengeKey payload.jti) q →
      (k ()).Follows redeeming True (fun _ _ => True) q) :
    ((consumeChallengeJti userId now deviceId payload.jti).bind k).Follows redeeming True
      (fun _ _ => True) q := by
  refine (consumeChallengeJti_follows userId now deviceId payload.jti q).handle fun r q' hr => ?_
  cases r with
  | ok a => exact hk q' (hr a rfl)
  | error x => trivial

theorem completeChallenge_follows (payload : Claims) (userId : ℕ) (deviceId : Option ℕ)
    (event : AuditEvent) (q : Claims.Purse MfaKey) :
    (completeChallenge A payload userId deviceId event).Follows redeeming True
      (fun _ _ => True) q := by
  refine follows_time_bind.mpr fun now _ => ?_
  refine consumed_bind payload userId now deviceId fun q hq => ?_
  refine plain_bind (logEvent_plain _ _) hq (fun _ q hq => ?_) fun _ _ => trivial
  refine plain_bind (plain_of_reading (refreshUser_within userId)) hq (fun user q hq => ?_)
    fun _ _ => trivial
  exact finishLogin_follows payload user hq

theorem completeEmailStage_follows (payload : Claims) (userId : ℕ) (organizationId : Option ℕ)
    (q : Claims.Purse MfaKey) :
    (completeEmailStage A payload userId organizationId).Follows redeeming True
      (fun _ _ => True) q := by
  refine follows_time_bind.mpr fun now _ => ?_
  refine consumed_bind payload userId now none fun q hq => ?_
  refine plain_bind (logEvent_plain _ _) hq (fun _ q hq => ?_) fun _ _ => trivial
  refine plain_bind (plain_of_reading (refreshUser_within userId)) hq (fun user q hq => ?_)
    fun _ _ => trivial
  split
  · refine note_completed_bind hq fun q => redeeming_bind (fun q => plain_follows ?_) fun _ q => trivial
    exact plain_of_reading (createMfaChallengeToken_within _ _ _)
  · exact finishLogin_follows payload user hq

theorem refuseCode_follows (payload : Claims) (userId : ℕ) (organizationId : Option ℕ)
    (r : ChallengeRequest A) (q : Claims.Purse MfaKey) :
    (refuseCode A payload userId organizationId r).Follows redeeming True (fun _ _ => True) q := by
  have htriggered : ∀ locked,
      (auditTriggered userId organizationId r.clientIp locked).Within True Plain := by
    intro locked
    induction locked with
    | nil => trivial
    | cons d rest ih => exact (logEvent_plain _ _).bind fun _ => ih
  refine redeeming_bind (fun q => plain_follows (htriggered _)) fun _ q => ?_
  exact redeeming_bind (fun q => plain_follows (logEvent_plain _ _)) fun _ q => trivial

theorem tryDevices_follows (payload : Claims) (r : ChallengeRequest A) (devices : List MFADevice)
    (q : Claims.Purse MfaKey) :
    (tryDevices A payload r devices).Follows redeeming True (fun _ _ => True) q := by
  unfold tryDevices
  split
  · exact redeeming_bind (matchDevice_follows r.code devices) fun _ _ => trivial
  · trivial

theorem tryRecoveryCode_follows (payload : Claims) (r : ChallengeRequest A) (userId : ℕ)
    (q : Claims.Purse MfaKey) :
    (tryRecoveryCode A payload r userId).Follows redeeming True (fun _ _ => True) q := by
  unfold tryRecoveryCode
  split
  · refine redeeming_bind (fun q => ?_) fun found q => ?_
    · refine redeeming_orElse (fun q => plain_follows (plain_of_reading (query_within _)))
        (fun x q => ?_) q
      trivial
    · cases found with
      | none => trivial
      | some code => exact tryConsumeRecoveryCode_follows code.id q
  · trivial

theorem tryEmailCode_follows (payload : Claims) (r : ChallengeRequest A) (userId : ℕ)
    (q : Claims.Purse MfaKey) :
    (tryEmailCode A payload r userId).Follows redeeming True (fun _ _ => True) q := by
  unfold tryEmailCode
  split
  · refine redeeming_bind (fun q => plain_follows (plain_of_reading (refreshUser_within userId)))
      fun user q => ?_
    split
    · refine redeeming_orElse (fun q => plain_follows (verifyCode_plain _ _ _)) (fun x q => ?_) q
      trivial
    · trivial
  · trivial

theorem answerChallenge_follows (payload : Claims) (r : ChallengeRequest A) (user : User)
    (q : Claims.Purse MfaKey) :
    (answerChallenge A payload r user).Follows redeeming True (fun _ _ => True) q := by
  have hread : ∀ {γ : Type} (f : Database → γ) (q : Claims.Purse MfaKey),
      (query f : Op γ).Follows redeeming True (fun _ _ => True) q :=
    fun f q => plain_follows (plain_of_reading (query_within f))
  refine redeeming_bind (hread _) fun devices q => ?_
  refine redeeming_bind (tryDevices_follows payload r devices) fun matchedDevice q => ?_
  refine redeeming_bind (hread _) fun membership q => ?_
  cases matchedDevice with
  | some device => exact completeChallenge_follows payload _ _ _ q
  | none =>
    refine redeeming_bind (tryRecoveryCode_follows payload r user.id) fun recovered q => ?_
    split
    · exact completeChallenge_follows payload _ _ _ q
    refine redeeming_bind (tryEmailCode_follows payload r user.id) fun emailMatched q => ?_
    split
    · exact completeEmailStage_follows payload _ _ q
    · exact refuseCode_follows payload _ _ r q

/-- **A challenge request redeems only what it has won.** -/
theorem verifyMfaChallenge_follows (r : ChallengeRequest A) (q : Claims.Purse MfaKey) :
    (verifyMfaChallenge A r).Follows redeeming True (fun _ _ => True) q := by
  refine follows_time_bind.mpr fun now _ => ?_
  split
  · trivial
  rename_i payload _
  split
  · trivial
  split
  · trivial
  have hread : ∀ {γ : Type} (f : Database → γ) (q : Claims.Purse MfaKey),
      (query f : Op γ).Follows redeeming True (fun _ _ => True) q :=
    fun f q => plain_follows (plain_of_reading (query_within f))
  refine redeeming_bind (hread _) fun revoked q => ?_
  refine redeeming_bind (hread _) fun user q => ?_
  split
  · trivial
  split
  · trivial
  rename_i user
  split
  · trivial
  split
  · trivial
  split
  · trivial
  exact answerChallenge_follows payload r user q

/-! ## A success notes what it redeemed -/

/-- A step-up that succeeds comes after the note of the step it accepted. -/
def Accepts (ok : Bool) (q : Event → Prop) : Prop :=
  ok = true → ∃ deviceId timeStep, q (.totpAccepted deviceId timeStep)

theorem tryClaimTotpStep_noting (deviceId timeStep : ℕ) (q : Event → Prop) :
    (tryClaimTotpStep deviceId timeStep).Follows noting True
      (fun r q => ∀ claimed, r = .ok claimed → Accepts claimed q) q := by
  refine Follows.orElse (M := fun _ _ => True) ?_ fun x q _ => ?_
  · refine noting_bind (fun _ _ => noting_bind (fun _ q => ?_) fun _ _ => trivial)
      fun _ _ => trivial
    refine noting_note fun r q hq => ?_
    cases r with
    | ok ok =>
      rintro _ _ _
      exact ⟨_, _, hq⟩
    | error x => trivial
  · rintro _ ⟨⟩
    exact nofun

theorem claimDevice_noting (code : String) (device : MFADevice) (q : Event → Prop) :
    (claimDevice A code device).Follows noting True
      (fun r q => ∀ claimed, r = .ok (some claimed) → Accepts claimed q) q := by
  unfold claimDevice
  split
  · exact nofun
  refine noting_bind (fun step q => ?_) fun _ _ => nofun
  cases step with
  | none => exact nofun
  | some step =>
    refine (tryClaimTotpStep_noting device.id step q).handle fun r q hr => ?_
    cases r with
    | error x => exact nofun
    | ok claimed =>
      rintro _ ⟨⟩
      exact hr claimed rfl

theorem matchDevice_noting (code : String) (devices : List MFADevice) (q : Event → Prop) :
    (matchDevice A code devices).Follows noting True
      (fun r q => ∀ found, r = .ok found → Accepts found.1.isSome q) q := by
  induction devices generalizing q with
  | nil =>
    rintro _ ⟨⟩
    exact nofun
  | cons device rest ih =>
    refine Follows.bind (M := fun claim q => ∀ claimed, claim = some claimed → Accepts claimed q) ?_
      fun claim q hclaim => ?_
    · refine Follows.orElse (M := fun _ _ => True) ((claimDevice_noting code device q).mono ?_)
        fun x q _ => nofun
      rintro (x | claim) q h
      · trivial
      · rintro claimed rfl
        exact h claimed rfl
    · split
      · rintro _ ⟨⟩
        exact fun _ => hclaim true rfl rfl
      · refine (ih q).handle fun r q hr => ?_
        cases r with
        | error x => exact nofun
        | ok found =>
          rintro _ ⟨⟩
          exact hr found rfl
      · exact ih q

theorem verifyUserTotpStepUp_noting (userId : ℕ) (code : String) (q : Event → Prop) :
    (verifyUserTotpStepUp A userId code).Follows noting True
      (fun r q => ∀ verified, r = .ok verified → Accepts verified.1 q) q := by
  unfold verifyUserTotpStepUp
  split
  · rintro _ ⟨⟩
    exact nofun
  refine noting_bind (fun devices q => ?_) fun _ _ => nofun
  refine (matchDevice_noting code devices q).handle fun r q h => ?_
  cases r with
  | ok found =>
    rintro _ ⟨⟩
    exact h found rfl
  | error x => exact nofun

/-- What a challenge was answered with: a step of a device, a recovery code, or an email code,
where the challenge and the request leave room for it. -/
def Proven (payload : Claims) (r : ChallengeRequest A) (q : Event → Prop) : Prop :=
  (payload.requiredStage ≠ some .email ∧ (r.method = none ∨ r.method = some .totp)) ∧
      (∃ deviceId timeStep, q (.totpAccepted deviceId timeStep)) ∨
    (payload.requiredStage ≠ some .email ∧ (r.method = none ∨ r.method = some .recoveryCode)) ∧
      (∃ codeId, q (.recoveryCodeAccepted codeId)) ∨
    payload.requiredStage ≠ some .totp ∧ (r.method = none ∨ r.method = some .email)

theorem Proven.mono {payload : Claims} {r : ChallengeRequest A} {q q' : Event → Prop}
    (h : Proven payload r q) (hsub : ∀ e, q e → q' e) : Proven payload r q' := by
  rcases h with ⟨hoffered, deviceId, timeStep, hq⟩ | ⟨hoffered, codeId, hq⟩ | hemail
  · exact .inl ⟨hoffered, deviceId, timeStep, hsub _ hq⟩
  · exact .inr (.inl ⟨hoffered, codeId, hsub _ hq⟩)
  · exact .inr (.inr hemail)

/-- A login reply comes after the note of the challenge it answers, and of what that was
answered with. -/
def Completes (r : ChallengeRequest A) (res : Except Err (LoginReply A)) (q : Event → Prop) :
    Prop :=
  ∀ reply, res = .ok reply → ∃ now payload,
    decodeToken A.toEnv now r.challengeToken = .ok payload ∧ q (.challengeCompleted payload.jti) ∧
      Proven payload r q

theorem finishLogin_noting {payload : Claims} {user : User}
    {post : Except Err (LoginReply A) → (Event → Prop) → Prop}
    (hpost : ∀ r q, q (.challengeCompleted payload.jti) → post r q) (q : Event → Prop) :
    (finishLogin A payload user).Follows noting True post q :=
  noting_note hpost

theorem completeChallenge_noting {payload : Claims} {userId : ℕ} {deviceId : Option ℕ}
    {event : AuditEvent} {post : Except Err (LoginReply A) → (Event → Prop) → Prop}
    (hpost : ∀ r q, q (.challengeCompleted payload.jti) → post r q) (hx : ∀ x q, post (.error x) q)
    (q : Event → Prop) :
    (completeChallenge A payload userId deviceId event).Follows noting True post q :=
  noting_bind (fun _ _ => noting_bind (fun _ _ => noting_bind (fun _ _ => noting_bind
    (fun _ q => finishLogin_noting hpost q) hx) hx) hx) hx

theorem completeEmailStage_noting {payload : Claims} {userId : ℕ} {organizationId : Option ℕ}
    {post : Except Err (LoginReply A) → (Event → Prop) → Prop}
    (hpost : ∀ r q, q (.challengeCompleted payload.jti) → post r q) (hx : ∀ x q, post (.error x) q)
    (q : Event → Prop) :
    (completeEmailStage A payload userId organizationId).Follows noting True post q := by
  refine noting_bind (fun _ _ => noting_bind (fun _ _ => noting_bind (fun _ _ => noting_bind
    (fun user q => ?_) hx) hx) hx) hx
  split
  · exact noting_note hpost
  · exact finishLogin_noting hpost q

theorem tryDevices_noting (payload : Claims) (r : ChallengeRequest A) (devices : List MFADevice)
    (q : Event → Prop) :
    (tryDevices A payload r devices).Follows noting True
      (fun res q => ∀ device, res = .ok (some device) → Proven payload r q) q := by
  unfold tryDevices
  split
  · rename_i hoffered
    refine (matchDevice_noting r.code devices q).handle fun res q hres => ?_
    cases res with
    | error x => exact nofun
    | ok found =>
      intro device hdevice
      have hfound : found.1 = some device := Except.ok.inj hdevice
      exact .inl ⟨hoffered, hres found rfl (by rw [hfound]; rfl)⟩
  · exact nofun

theorem tryRecoveryCode_noting (payload : Claims) (r : ChallengeRequest A) (userId : ℕ)
    (q : Event → Prop) :
    (tryRecoveryCode A payload r userId).Follows noting True
      (fun res q => res = .ok true → Proven payload r q) q := by
  unfold tryRecoveryCode
  split
  · rename_i hoffered
    refine noting_bind (fun found q => ?_) fun _ _ => nofun
    cases found with
    | none => exact nofun
    | some code =>
      refine noting_bind (fun now q => noting_bind (fun claimed q => noting_bind (fun _ q => ?_)
        fun _ _ => nofun) fun _ _ => nofun) fun _ _ => nofun
      split
      · exact noting_note fun res q hq _ => .inr (.inl ⟨hoffered, _, hq⟩)
      · exact nofun
  · exact nofun

theorem tryEmailCode_noting (payload : Claims) (r : ChallengeRequest A) (userId : ℕ)
    (q : Event → Prop) :
    (tryEmailCode A payload r userId).Follows noting True
      (fun res q => res = .ok true → Proven payload r q) q := by
  unfold tryEmailCode
  split
  · rename_i hoffered
    exact (follows_free (T := fun _ => True) _ (fun _ _ _ => trivial) (fun _ _ _ => trivial)
      trivial).mono fun _ _ _ _ => .inr (.inr hoffered)
  · exact nofun

/-- What comes after a factor is proven. -/
theorem proven_follows {payload : Claims} {r : ChallengeRequest A} {p : Op (LoginReply A)}
    {now : ℕ} {q : Event → Prop} (hdecode : decodeToken A.toEnv now r.challengeToken = .ok payload)
    (hproven : Proven payload r q)
    (hp : p.Follows noting True (fun res (q : Event → Prop) => ∀ reply, res = .ok reply →
      q (.challengeCompleted payload.jti)) q) :
    p.Follows noting True (Completes r) q :=
  (hp.stable (T := Proven payload r) (fun _ _ h => h.mono fun _ he => noting_next he) hproven).mono
    fun _ _ h reply hreply => ⟨now, payload, hdecode, h.1 reply hreply, h.2⟩

theorem answerChallenge_noting {payload : Claims} {r : ChallengeRequest A} {user : User} {now : ℕ}
    (hdecode : decodeToken A.toEnv now r.challengeToken = .ok payload) (q : Event → Prop) :
    (answerChallenge A payload r user).Follows noting True (Completes r) q := by
  have hx : ∀ x q, Completes (A := A) r (.error x) q := fun _ _ => nofun
  have hpost : ∀ (res : Except Err (LoginReply A)) (q : Event → Prop),
      q (.challengeCompleted payload.jti) →
        ∀ reply, res = .ok reply → q (.challengeCompleted payload.jti) := fun _ _ hq _ _ => hq
  refine noting_bind (fun devices q => ?_) hx
  refine (tryDevices_noting payload r devices q).handle fun res q hdevice => ?_
  cases res with
  | error x => exact hx x q
  | ok device =>
  cases device with
  | some device =>
    refine proven_follows hdecode (hdevice device rfl) ?_
    exact noting_bind (fun _ q => completeChallenge_noting hpost (fun _ _ => nofun) q)
      fun _ _ => nofun
  | none =>
    refine noting_bind (fun membership q => ?_) hx
    refine (tryRecoveryCode_noting payload r user.id q).handle fun res q hrecovered => ?_
    cases res with
    | error x => exact hx x q
    | ok recovered =>
    cases recovered with
    | true =>
      exact proven_follows hdecode (hrecovered rfl)
        (completeChallenge_noting hpost (fun _ _ => nofun) q)
    | false =>
      refine (tryEmailCode_noting payload r user.id q).handle fun res q hemail => ?_
      cases res with
      | error x => exact hx x q
      | ok emailMatched =>
      cases emailMatched with
      | true =>
        exact proven_follows hdecode (hemail rfl)
          (completeEmailStage_noting hpost (fun _ _ => nofun) q)
      | false => exact noting_bind (fun _ _ => noting_bind (fun _ q => hx _ q) hx) hx

theorem verifyMfaChallenge_noting (r : ChallengeRequest A) (q : Event → Prop) :
    (verifyMfaChallenge A r).Follows noting True (Completes r) q := by
  have hx : ∀ x q, Completes (A := A) r (.error x) q := fun _ _ => nofun
  refine follows_time_bind.mpr fun now _ => ?_
  split
  · exact hx _ _
  rename_i payload hdecode
  split
  · exact hx _ _
  split
  · exact hx _ _
  refine noting_bind (fun revoked _ => noting_bind (fun user q => ?_) hx) hx
  split
  · exact hx _ _
  split
  · exact hx _ _
  split
  · exact hx _ _
  split
  · exact hx _ _
  split
  · exact hx _ _
  exact answerChallenge_noting hdecode q

/-! ## Many requests -/

/-- A request to one of the two functions that check a factor. -/
inductive FactorCall (A : AppEnv)
  | challenge (r : ChallengeRequest A)
  | stepUp (userId : ℕ) (code : String)

inductive FactorReply (A : AppEnv)
  | login (reply : LoginReply A)
  | verified (ok : Bool)

def FactorCall.op : FactorCall A → Op (FactorReply A)
  | challenge r => do
      let reply ← verifyMfaChallenge A r
      return .login reply
  | stepUp userId code => do
      let verified ← verifyUserTotpStepUp A userId code
      return .verified verified.1

theorem FactorCall.redeems (call : FactorCall A) :
    call.op.close.Follows redeeming True (fun _ _ => True) (Claims.Purse.empty MfaKey) := by
  refine Follows.close ?_
  cases call with
  | challenge r => exact redeeming_bind (verifyMfaChallenge_follows r) fun _ _ => trivial
  | stepUp userId code =>
    exact redeeming_bind (verifyUserTotpStepUp_follows userId code) fun _ _ => trivial

/-- What a call's success comes after. -/
def FactorCall.Vouches (call : FactorCall A) (r : Except Err (FactorReply A)) (q : Event → Prop) :
    Prop :=
  match call, r with
  | challenge c, .ok (.login _) => ∃ now payload,
      decodeToken A.toEnv now c.challengeToken = .ok payload ∧
        q (.challengeCompleted payload.jti) ∧ Proven payload c q
  | stepUp _ _, .ok (.verified true) =>
      ∃ deviceId timeStep, q (.totpAccepted deviceId timeStep)
  | _, _ => True

theorem FactorCall.vouches_mono {call : FactorCall A} {r : Except Err (FactorReply A)}
    {q q' : Event → Prop} (hsub : ∀ e, q e → q' e) (h : call.Vouches r q) : call.Vouches r q' := by
  match call, r with
  | challenge c, .ok (.login _) =>
    obtain ⟨now, payload, hdecode, hq, hproven⟩ := h
    exact ⟨now, payload, hdecode, hsub _ hq, hproven.mono hsub⟩
  | stepUp _ _, .ok (.verified true) =>
    obtain ⟨deviceId, timeStep, hq⟩ := h
    exact ⟨deviceId, timeStep, hsub _ hq⟩
  | challenge c, .ok (.verified _) => trivial
  | challenge c, .error _ => trivial
  | stepUp _ _, .ok (.login _) => trivial
  | stepUp _ _, .ok (.verified false) => trivial
  | stepUp _ _, .error _ => trivial

theorem FactorCall.noting (call : FactorCall A) :
    call.op.close.Follows Txn.noting True call.Vouches fun _ => False := by
  refine Follows.close ?_
  cases call with
  | challenge c =>
    refine (verifyMfaChallenge_noting c _).handle fun r q h => ?_
    cases r with
    | ok reply => exact h reply rfl
    | error x => trivial
  | stepUp userId code =>
    refine (verifyUserTotpStepUp_noting userId code _).handle fun r q h => ?_
    cases r with
    | error x => trivial
    | ok verified =>
      obtain ⟨ok, ended⟩ := verified
      cases ok with
      | true => exact h _ rfl rfl
      | false => trivial

/-- A list no two entries of which match has one match at most. -/
theorem length_filter_le_one {γ : Type} {l : List γ} {p : γ → Prop} [DecidablePred p]
    (h : l.Pairwise fun a b => p a → ¬ p b) : (l.filter fun a => p a).length ≤ 1 := by
  have hf : (l.filter fun a => p a).Pairwise fun a b => p a → ¬ p b := h.filter _
  have hmem : ∀ a ∈ l.filter fun a => p a, p a := by
    intro a ha
    exact of_decide_eq_true (List.mem_filter.mp ha).2
  match hl : l.filter fun a => p a with
  | [] => simp
  | [a] => simp
  | a :: b :: rest =>
    rw [hl] at hf hmem
    obtain ⟨hab, -⟩ := List.pairwise_cons.mp hf
    exact absurd (hmem b (by simp)) (hab b (by simp) (hmem a (by simp)))

/-- **Every factor is used once.** In any interleaving of challenge requests and
step-ups, whatever fails: a TOTP step of a device, a recovery code and a
challenge are each redeemed at most once in the history; and a challenge
request that has answered has redeemed the challenge it presented, and the TOTP
step or the recovery code it was answered with, and a step-up that has
succeeded a TOTP step. -/
theorem factors_used_once {ι : Type} [DecidableEq ι] (calls : ι → FactorCall A) {db : Database}
    {now next : ℕ} {s : Sys AuthSig ι (FactorReply A)}
    (hrun : Sys.Run True (fun _ _ _ => True)
      (Sys.start db now next fun i => (calls i).op.close) s) :
    (∀ k, (s.log.filter fun a => a.2.redeems = some k).length ≤ 1) ∧
      ∀ i r, (s.proc i).reply? = some r → (calls i).Vouches r fun e => (i, e) ∈ s.log := by
  refine ⟨fun k => ?_, fun i r hr => ?_⟩
  · have honce := mfaClaims.single_use (fun i => (calls i).redeems) hrun
    exact length_filter_le_one (honce.imp fun hab => hab k)
  · have hcrash : ∀ i x q, (calls i).Vouches (.error x) q := by
      intro i x q
      cases calls i <;> trivial
    obtain ⟨q, hq, hlog⟩ := noted_of_reply (fun i => (calls i).noting) hcrash hrun hr
    exact (calls i).vouches_mono hlog hq

/-! ## A run -/

/-- One user with one verified device. -/
def oneDevice : Database := { Database.empty with
  users := [{ id := 7, status := .active, mfaEnabled := true }]
  mfaDevices := [{ id := 1, userId := 7, encryptedSecret := "", verifiedAt := some 0 }] }

/-- Two step-ups with the same code, within its minute. -/
def sameCode : Sys AuthSig Bool (FactorReply AppEnv.symbolic) :=
  Sys.start oneDevice (minutes 1) 0 fun _ =>
    (FactorCall.stepUp (A := AppEnv.symbolic) 7 "000002").op.close

/-- Both have matched the code before either claims its step. -/
def matchedTwice : List Bool :=
  [false, false, true, true, false, false, false, false, true, true, true]

/-- What the replies say. -/
def FactorReply.accepted : FactorReply A → Bool
  | verified ok => ok
  | login _ => true

/-- Of the two, the first is accepted and the second is not. -/
theorem factors_used_once_matchedTwice :
    ∃ s, sameCode.follow (fun _ _ _ => True) matchedTwice = some s ∧
      (s.proc true).reply?.map (fun r => r.toOption.map FactorReply.accepted) =
        some (some false) ∧
      (s.log.filter fun a => a.2.redeems = some (.totpStep 1 2)).length ≤ 1 ∧
      (false, Event.totpAccepted 1 2) ∈ s.log := by
  have hplays : (sameCode.follow (fun _ _ _ => True) matchedTwice).isSome := by decide
  have hloser : (sameCode.follow (fun _ _ _ => True) matchedTwice).all (fun s => decide
      ((s.proc true).reply?.map (fun r => r.toOption.map FactorReply.accepted) =
        some (some false))) = true := by decide
  have hlog : (sameCode.follow (fun _ _ _ => True) matchedTwice).all
      (fun s => decide ((false, Event.totpAccepted 1 2) ∈ s.log)) = true := by decide
  obtain ⟨s, hs⟩ := Option.isSome_iff_exists.mp hplays
  rw [hs] at hloser hlog
  have honce := factors_used_once
    (fun _ : Bool => FactorCall.stepUp (A := AppEnv.symbolic) 7 "000002")
    (Sys.run_of_follow _ hs).mayFail
  exact ⟨s, hs, of_decide_eq_true hloser, honce.1 _, of_decide_eq_true hlog⟩

end OmniAuth
