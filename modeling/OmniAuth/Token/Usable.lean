import OmniAuth.Model.Jwt
import OmniAuth.Throttle.Service
import Mathlib.Data.Int.Order.Basic

/-!
# Whether a token is usable

`app/core/token_revocation.py` and `rbac.get_current_user`: the blacklist of
access tokens in Redis, the `revoked_tokens` table, the status of the subject,
and the types that are turned away. Each function reads and decides; the
instant of the request, Redis (`none` when it cannot be asked) and the
database are its arguments.
-/

namespace OmniAuth

/-- `users.id == sub`. -/
def Database.userBySubject (db : Database) : Subject → Option User
  | .user id => db.userById id
  | .system _ => none

/-! ## `token_revocation` -/

/-- `int(datetime.utcnow().timestamp())` where the zone of the server is
`utcOffset` seconds east of UTC: the naive UTC reading is taken for local time,
and the fraction is cut off towards zero. -/
def naiveTimestamp (utcOffset : ℤ) (now : ℕ) : ℤ :=
  ((now : ℤ) - utcOffset * 1000000).tdiv 1000000

/-- `blacklist_access_token`: Redis afterwards. -/
def blacklistAccessToken (E : Env) (utcOffset : ℤ) (now : ℕ) (redis : Option Redis)
    (accessToken : E.Token) : Except Err (Option Redis) :=
  match decodeToken E now accessToken with
  | .error _ => .ok redis
  | .ok payload =>
      match payload.jti with
      | none => .ok redis
      | some jti =>
          let exp : ℤ := payload.exp.getD 0
          let ttl := max (exp - naiveTimestamp utcOffset now) 1
          match redis with
          | none => .error (.http 503 "Authentication state unavailable")
          | some r => .ok (some (r.setEx (millis now) (.blacklistJti jti) 1 ttl.toNat))

variable (now : ℕ) (redis : Option Redis) (db : Database)

/-- The part of `assert_token_usable` about the `jti`. -/
def assertJtiNotRevoked : Option ℕ → Except Err Unit
  | none => .ok ()
  | some jti =>
      match redis with
      | none => .error (.http 503 "Authentication state unavailable")
      | some r =>
          if r.exists? (millis now) (.blacklistJti jti) then .error (.http 401 "Token revoked")
          else if ∃ t ∈ db.revokedTokens, t.tokenJti = jti then .error (.http 401 "Token revoked")
          else .ok ()

/-- The part of `assert_token_usable` about the `sub`. -/
def assertSubjectActive : Option Subject → Except Err Unit
  | none => .ok ()
  | some sub =>
      if onSome (db.userBySubject sub) fun user => user.status = .active then .ok ()
      else .error (.http 401 "User inactive")

/-- `assert_token_usable` -/
def assertTokenUsable (payload : Claims) : Except Err Unit :=
  match assertJtiNotRevoked now redis db payload.jti with
  | .error x => .error x
  | .ok () => assertSubjectActive db payload.sub

/-! ## `rbac` -/

/-- The claims `get_current_user` turns away once the token is usable. -/
def Claims.Barred (payload : Claims) : Prop :=
  payload.authMethod = some .clientCredentials ∨ payload.type = some .delegatedExecution ∨
    payload.type = some .mfaChallenge ∨ payload.type = some .mfaEnrollment

instance (payload : Claims) : Decidable payload.Barred := by
  unfold Claims.Barred
  infer_instance

/-- `get_current_user` -/
def getCurrentUser (E : Env) (token : E.Token) : Except Err Claims :=
  match decodeToken E now token with
  | .error _ => .error (.http 401 "Invalid token")
  | .ok payload =>
      match assertTokenUsable now redis db payload with
      | .error x => .error x
      | .ok () => if payload.Barred then .error (.http 401 "Invalid token") else .ok payload

/-! ## What the checks come to -/

variable {now redis db}

/-- A `jti` that is revoked, or cannot be asked about. -/
def JtiRevoked (now : ℕ) (redis : Option Redis) (db : Database) (jti : ℕ) : Prop :=
  redis = none ∨ (∃ r, redis = some r ∧ r.exists? (millis now) (.blacklistJti jti) = true) ∨
    ∃ t ∈ db.revokedTokens, t.tokenJti = jti

/-- A subject that is no active user. -/
def SubjectInactive (db : Database) (sub : Subject) : Prop :=
  ∀ user, db.userBySubject sub = some user → user.status ≠ .active

theorem assertJtiNotRevoked_rejects {jti : Option ℕ} :
    (∃ x, assertJtiNotRevoked now redis db jti = .error x) ↔
      ∃ j, jti = some j ∧ JtiRevoked now redis db j := by
  unfold assertJtiNotRevoked JtiRevoked
  cases jti with
  | none => simp
  | some j =>
    cases redis with
    | none => simp
    | some r =>
      dsimp only
      split
      · rename_i h
        simp [h]
      · rename_i h
        split
        · rename_i hrow
          exact iff_of_true ⟨_, rfl⟩ ⟨j, rfl, .inr (.inr hrow)⟩
        · rename_i hrow
          refine iff_of_false (fun ⟨x, hx⟩ => by cases hx) ?_
          rintro ⟨_, ⟨⟩, hnone | ⟨r', hr, hlive⟩ | hlisted⟩
          · cases hnone
          · cases hr
            exact h hlive
          · exact hrow hlisted

theorem assertSubjectActive_rejects {sub : Option Subject} :
    (∃ x, assertSubjectActive db sub = .error x) ↔ ∃ s, sub = some s ∧ SubjectInactive db s := by
  unfold assertSubjectActive SubjectInactive
  cases sub with
  | none => simp
  | some s =>
    cases huser : db.userBySubject s with
    | none => simp [onSome, huser]
    | some user =>
      by_cases hactive : user.status = .active <;> simp [onSome, huser, hactive]

/-- **A token is not usable** exactly when its `jti` is revoked or its subject
is no active user. -/
theorem assertTokenUsable_rejects {payload : Claims} :
    (∃ x, assertTokenUsable now redis db payload = .error x) ↔
      (∃ j, payload.jti = some j ∧ JtiRevoked now redis db j) ∨
      ∃ s, payload.sub = some s ∧ SubjectInactive db s := by
  rw [← assertJtiNotRevoked_rejects, ← assertSubjectActive_rejects]
  unfold assertTokenUsable
  cases assertJtiNotRevoked now redis db payload.jti with
  | error x => simp
  | ok _ => simp

variable {E : Env}

/-- **What `get_current_user` turns away.** -/
theorem getCurrentUser_rejects {token : E.Token} :
    (∃ x, getCurrentUser now redis db E token = .error x) ↔
      ∀ payload, decodeToken E now token = .ok payload →
        payload.Barred ∨ (∃ j, payload.jti = some j ∧ JtiRevoked now redis db j) ∨
        ∃ s, payload.sub = some s ∧ SubjectInactive db s := by
  unfold getCurrentUser
  cases hdecode : decodeToken E now token with
  | error x => simp
  | ok payload =>
    dsimp only
    cases hassert : assertTokenUsable now redis db payload with
    | error x =>
      have hreject := assertTokenUsable_rejects.mp ⟨x, hassert⟩
      refine iff_of_true ⟨x, rfl⟩ ?_
      rintro _ ⟨⟩
      exact .inr hreject
    | ok _ =>
      have haccept : ¬ ((∃ j, payload.jti = some j ∧ JtiRevoked now redis db j) ∨
          ∃ s, payload.sub = some s ∧ SubjectInactive db s) := by
        rw [← assertTokenUsable_rejects, hassert]
        rintro ⟨x, hx⟩
        cases hx
      by_cases hbarred : payload.Barred
      · simp [hbarred]
      · simp only [hbarred, if_false]
        refine iff_of_false (fun ⟨x, hx⟩ => by cases hx) fun h => ?_
        rcases h payload rfl with h | h
        · exact hbarred h
        · exact haccept h

/-- What it returns, it decoded. -/
theorem getCurrentUser_ok {token : E.Token} {payload : Claims}
    (h : getCurrentUser now redis db E token = .ok payload) :
    decodeToken E now token = .ok payload ∧ ¬ payload.Barred ∧
      (∀ j, payload.jti = some j → ¬ JtiRevoked now redis db j) ∧
      ∀ s, payload.sub = some s → ¬ SubjectInactive db s := by
  have hnot : ¬ ∃ x, getCurrentUser now redis db E token = .error x := by
    rintro ⟨x, hx⟩
    rw [h] at hx
    cases hx
  have hdecode : decodeToken E now token = .ok payload := by
    unfold getCurrentUser at h
    split at h
    · cases h
    · rename_i payload' hd
      split at h
      · cases h
      · split at h
        · cases h
        · rw [hd, Except.ok.inj h]
  rw [getCurrentUser_rejects] at hnot
  refine ⟨hdecode, fun hb => hnot ?_, fun j hj hr => hnot ?_, fun s hs hi => hnot ?_⟩ <;>
    intro p hp <;> (rw [hdecode] at hp; obtain rfl := Except.ok.inj hp)
  · exact .inl hb
  · exact .inr (.inl ⟨j, hj, hr⟩)
  · exact .inr (.inr ⟨s, hs, hi⟩)

end OmniAuth
