import OmniAuth.Login.Landing

/-!
# Whom the entry points sign in

A password login and the answer to a challenge look at the status of the account; a new
account is active. The entry points that land on an account that is there already do not
look: they mint for whatever account they find, unless something else stands in the way.
-/

namespace OmniAuth

open Txn Prog

variable {A : AppEnv} {w w' : World}

/-! ## New rows -/

/-- The account is there and active. -/
def Database.ActiveUser (db : Database) (userId : ℕ) : Prop :=
  ∃ user, db.userById userId = some user ∧ user.status = .active

/-- The account is active in what is committed and in what is seen. -/
def ActiveIn (userId : ℕ) (w : World) : Prop := Both (fun db : Database => db.ActiveUser userId) w

/-- The refresh tokens and the sessions that were not there before are of active
accounts. -/
structure Database.OnlyActive (db db' : Database) : Prop where
  tokens : ∀ r' ∈ db'.refreshTokens,
    (∃ r ∈ db.refreshTokens, r.id = r'.id ∧ r.userId = r'.userId) ∨ db'.ActiveUser r'.userId
  sessions : ∀ s' ∈ db'.sessions,
    (∃ s ∈ db.sessions, s.id = s'.id ∧ s.userId = s'.userId) ∨ db'.ActiveUser s'.userId

theorem Database.activeUser_of_account {db : Database} {user : User} (h : db.HasAccount user)
    (hactive : user.status = .active) : db.ActiveUser user.id := by
  obtain ⟨u, hu, hsame⟩ := h
  exact ⟨u, hu, hsame.status.trans hactive⟩

theorem Stmt.KeepsAccounts.activeUser {stmt : Stmt} {seen : Database}
    {eff : Effect Database RowKey} {userId : ℕ} (hk : stmt.KeepsAccounts)
    (h : denote stmt seen = .ok eff) (hactive : seen.ActiveUser userId) :
    (eff.delta seen).ActiveUser userId := by
  obtain ⟨user, huser, hstatus⟩ := hactive
  obtain rfl : user.id = userId := by simpa using List.find?_some huser
  have haccount : seen.HasAccount user := ⟨user, huser, .refl user⟩
  exact Database.activeUser_of_account (hk.account h haccount) hstatus

theorem Database.SameLogins.onlyActive {db db' : Database} (h : db.SameLogins db') :
    db.OnlyActive db' := by
  refine ⟨fun r hr => .inl ⟨r, ?_, rfl, rfl⟩, fun s hs => .inl ⟨s, ?_, rfl, rfl⟩⟩
  · rwa [h.tokens] at hr
  · rwa [h.sessions] at hs

/-- Where the tokens and the sessions stay as they are. -/
theorem Database.OnlyActive.same {db a b : Database} (h : db.OnlyActive a)
    (htokens : b.refreshTokens = a.refreshTokens) (hsessions : b.sessions = a.sessions)
    (hkeep : ∀ userId, a.ActiveUser userId → b.ActiveUser userId) : db.OnlyActive b := by
  refine ⟨fun r hr => ?_, fun s hs => ?_⟩
  · rw [htokens] at hr
    exact (h.tokens r hr).imp_right (hkeep _)
  · rw [hsessions] at hs
    exact (h.sessions s hs).imp_right (hkeep _)

/-- Where they change for an active account only. -/
theorem Database.OnlyActive.logins {db a b : Database} {userId : ℕ} (h : db.OnlyActive a)
    (hlogins : a.LoginsOf userId b) (hkeep : ∀ userId, a.ActiveUser userId → b.ActiveUser userId)
    (hactive : b.ActiveUser userId) : db.OnlyActive b := by
  refine ⟨fun r' hr' => ?_, fun s' hs' => ?_⟩
  · rcases hlogins.tokens r' hr' with ⟨r, hr, hid, huser⟩ | hown
    · rcases h.tokens r hr with ⟨r₀, hr₀, hid₀, huser₀⟩ | hbefore
      · exact .inl ⟨r₀, hr₀, hid₀.trans hid, huser₀.trans huser⟩
      · exact .inr (huser ▸ hkeep _ hbefore)
    · exact .inr (hown ▸ hactive)
  · rcases hlogins.sessions s' hs' with ⟨s, hs, hid, huser⟩ | hown
    · rcases h.sessions s hs with ⟨s₀, hs₀, hid₀, huser₀⟩ | hbefore
      · exact .inl ⟨s₀, hs₀, hid₀.trans hid, huser₀.trans huser⟩
      · exact .inr (huser ▸ hkeep _ hbefore)
    · exact .inr (hown ▸ hactive)

section

variable {α : Type} {F : Prop} {db : Database} {o : Op α}

theorem onlyActive_beside {stmt : Stmt} {seen : Database} {eff : Effect Database RowKey}
    (hb : stmt.Beside) (h : denote stmt seen = .ok eff) (ho : db.OnlyActive seen) :
    db.OnlyActive (eff.delta seen) := by
  have hsame := hb.sameLogins h
  exact ho.same hsame.tokens hsame.sessions fun _ => (hb.for 0).keepsAccounts.activeUser h

/-- Outside the decision nobody is signed in. -/
theorem onlyActive_preliminary {I : OAuthAccount → Prop}
    (h : o.Within F (Executing (Stmt.Preliminary I))) : o.Preserves db.OnlyActive :=
  h.preserves fun hstmt hden => onlyActive_beside hstmt.1 hden

theorem activeUser_preliminary {I : OAuthAccount → Prop} {userId : ℕ}
    (h : o.Within F (Executing (Stmt.Preliminary I))) :
    o.Preserves fun db : Database => db.ActiveUser userId :=
  h.preserves fun hstmt hden => (hstmt.1.for 0).keepsAccounts.activeUser hden

/-- A challenge signs nobody in. -/
theorem onlyActive_challenge (h : o.Within F (Executing Stmt.OfChallenge)) :
    o.Preserves db.OnlyActive := by
  refine h.preserves fun {stmt seen eff} hstmt hden ho => ?_
  have hframe := Stmt.OfChallenge.frame hstmt hden seen
  have htokens := congrArg Database.refreshTokens hframe
  have hsessions := congrArg Database.sessions hframe
  have husers := congrArg Database.users hframe
  refine ho.same htokens hsessions fun userId hactive => ?_
  obtain ⟨user, huser, hstatus⟩ := hactive
  refine ⟨user, ?_, hstatus⟩
  simp only [Database.userById] at huser ⊢
  rw [← huser]
  exact congrArg (List.find? _) husers

/-- What is written for an active user is for an active account. -/
theorem onlyActive_for {u : ℕ} (h : o.Within F (Executing (Stmt.For u)))
    (ho : Both db.OnlyActive w) (hactive : ActiveIn u w) :
    o.Ends w fun _ => Both db.OnlyActive := by
  have hkeeps : o.Preserves fun db' : Database => db.OnlyActive db' ∧ db'.ActiveUser u := by
    refine h.preserves fun {stmt seen eff} hstmt hden hp => ?_
    have hkeep : ∀ userId, seen.ActiveUser userId → (eff.delta seen).ActiveUser userId :=
      fun userId => hstmt.keepsAccounts.activeUser hden
    exact ⟨hp.1.logins (hstmt.loginsOf hden) hkeep (hkeep _ hp.2), hkeep _ hp.2⟩
  exact (hkeeps w ⟨⟨ho.1, hactive.1⟩, ho.2, hactive.2⟩).mono fun _ _ h => ⟨h.1.1, h.2.1⟩

end

/-! ## The decision about an account -/

section

variable {db : Database} {n : ℕ} {l : Landing}

/-- Where tokens are not what is decided, it signs in nobody. -/
theorem issueTokensOrChallenge_other {user : User} {login : LoginContext}
    (ho : Both db.OnlyActive w) (hdecided : w.cur.decideLogin A user login ≠ .issue) :
    (issueTokensOrChallenge A user login).Ends w fun _ => Both db.OnlyActive := by
  have hdecision : (generateTokensOrMfaChallenge A user login {} true).Ends w fun _ =>
      Both db.OnlyActive := by
    intro r w' hexec
    cases hd : w.cur.decideLogin A user login with
    | issue => exact absurd hd hdecided
    | enroll =>
      obtain ⟨-, rfl⟩ := (decided_enroll hd).mp hexec
      exact ho
    | challenge =>
      exact onlyActive_challenge (challengeLogin_within (F := True) _ _ _ _) w ho _ _
        ((decided_challenge hd).mp hexec)
  refine (hdecision.bind_world fun reply w' hw' => ends_ret.mpr hw').orElse_world
    fun x w' hw' => ?_
  -- the demand to enroll comes with an enrollment token
  have henroll : (createEnrollmentToken A user.id).Preserves db.OnlyActive :=
    onlyActive_preliminary (createEnrollmentToken_preliminary (F := True) (I := fun _ => True) _)
  split
  · exact henroll.bind (fun _ => preserves_ret _) w' hw'
  · exact ends_raise.mpr hw'

/-- **The account is active, or no tokens are issued.** -/
theorem settles_onlyActive (h : l.user.status = .active ∨ l.decision A db ≠ .issue) :
    db.Settles A n l db.OnlyActive := by
  intro user w hlanded
  have ho : Both db.OnlyActive w :=
    ⟨hlanded.undecided.1.1.onlyActive, hlanded.undecided.2.1.onlyActive⟩
  rcases h with hactive | hother
  · refine onlyActive_for (issueTokensOrChallenge_for (F := True) _ _) ho ?_
    rw [hlanded.same.id]
    exact ⟨Database.activeUser_of_account hlanded.undecided.1.2 hactive,
      Database.activeUser_of_account hlanded.undecided.2.2 hactive⟩
  · exact issueTokensOrChallenge_other ho (by rwa [hlanded.decided])

/-- The user has a session that was not there before. -/
def Database.SignedIn (db : Database) (user : User) (db' : Database) : Prop :=
  ∃ s ∈ db'.sessions, (∀ s₀ ∈ db.sessions, s₀.id ≠ s.id) ∧ s.userId = user.id

/-- **Tokens are issued, so there is a new session.** -/
theorem settles_signedIn (hunused : db.Unused A n) (h : l.decision A db = .issue) :
    db.Settles A n l fun db' => db.SignedIn l.user db' ∧ db'.HasAccount l.user := by
  intro user w hlanded
  have hdecided : w.cur.decideLogin A user l.login = .issue := hlanded.decided.trans h
  have hsame : db.SameLogins w.cur := hlanded.undecided.2.1
  have hbelow : w.cur.Below w.next := by
    have hlater := hunused.below.mono hlanded.next
    refine ⟨?_, ?_⟩
    · rw [hsame.tokens]
      exact hlater.token
    · rw [hsame.sessions]
      exact hlater.session
  have hhash : ¬ w.cur.HashTaken A.toEnv (w.next + 1) := by
    unfold Database.HashTaken
    rw [hsame.tokens]
    exact hunused.hashes _ (by have := hlanded.next; omega)
  -- the tokens and the session are written and committed
  have hissued : ∀ r w', (issueTokens A user l.login {}).Exec w r w' →
      (∃ tokens, r = .ok tokens) ∧ Both (db.SignedIn l.user) w' := by
    intro r w' hexec
    rcases generateTokens_exec hbelow hexec with ⟨_, -, -, htaken⟩ | ⟨tokens, rfl, L, -⟩
    · exact absurd htaken hhash
    have hsigned : db.SignedIn l.user w'.cur := by
      refine ⟨L.session, ?_, fun s₀ hs₀ => ?_, L.session_userId.trans hlanded.same.id⟩
      · rw [L.cur_eq]
        exact List.mem_append_right _ (List.mem_singleton.mpr rfl)
      · have hold := (hunused.below.session s₀ hs₀).1
        have hnew := L.session_id_lower
        have hnext := hlanded.next
        omega
    exact ⟨⟨_, rfl⟩, by rw [L.base_eq]; exact hsigned, hsigned⟩
  have hsigns : (issueTokensOrChallenge A user l.login).Ends w fun _ =>
      Both (db.SignedIn l.user) := by
    intro r w' hexec
    rcases exec_orElse.mp hexec with ⟨reply, hrun, rfl⟩ | ⟨x, w₁, hrun, -⟩
    · obtain ⟨result, w₁, hdecide, -, rfl⟩ | ⟨_, _, hx⟩ := exec_bind.mp hrun
      · obtain ⟨tokens, w₂, hissue, -, rfl⟩ | ⟨_, _, hx⟩ :=
          exec_bind.mp ((decided_issue hdecided).mp hdecide)
        · exact (hissued _ _ hissue).2
        · cases hx
      · cases hx
    · obtain ⟨_, _, _, hx, _⟩ | ⟨x, hdecide, -⟩ := exec_bind.mp hrun
      · cases hx
      obtain ⟨_, _, _, hx, _⟩ | ⟨x, hissue, -⟩ :=
        exec_bind.mp ((decided_issue hdecided).mp hdecide)
      · cases hx
      · obtain ⟨⟨_, hx⟩, -⟩ := hissued _ _ hissue
        cases hx
  have haccount : (issueTokensOrChallenge A user l.login).Preserves
      fun db : Database => db.HasAccount l.user :=
    (issueTokensOrChallenge_for (F := True) user l.login).preserves
      fun hstmt hden => hstmt.keepsAccounts.account hden
  refine (hsigns.and (haccount w ⟨hlanded.undecided.1.2, hlanded.undecided.2.2⟩)).mono ?_
  rintro r w' ⟨hsigned, hthere⟩
  exact ⟨⟨hsigned.1, hthere.1⟩, hsigned.2, hthere.2⟩

end

/-! ## Accounts that were looked at -/

/-- A user who is in the table is found by the primary key. -/
theorem Database.userById_of_mem {db : Database} (hkeys : (db.users.map (·.id)).Nodup) {user : User}
    (h : user ∈ db.users) : db.userById user.id = some user := by
  have hsome : (db.userById user.id).isSome :=
    List.find?_isSome.mpr ⟨user, h, decide_eq_true rfl⟩
  obtain ⟨found, hfound⟩ := Option.isSome_iff_exists.mp hsome
  have hid : found.id = user.id := by simpa using List.find?_some hfound
  rw [hfound, List.inj_on_of_nodup_map hkeys (List.mem_of_find?_eq_some hfound) h hid]

theorem activeIn_of_mem {user : User} (hidle : w.base = w.cur)
    (hkeys : (w.cur.users.map (·.id)).Nodup) (h : user ∈ w.cur.users)
    (hactive : user.status = .active) : ActiveIn user.id w := by
  have hfound : w.cur.ActiveUser user.id := ⟨user, Database.userById_of_mem hkeys h, hactive⟩
  exact ⟨by rw [hidle]; exact hfound, hfound⟩

/-- The account stays active while the entry point does something else. -/
theorem activeIn_bind {α β : Type} {I : OAuthAccount → Prop} {userId : ℕ} {o : Op α}
    {f : α → Op β} {post : Except Err β → World → Prop} (hw : ActiveIn userId w)
    (h : o.Within True (Executing (Stmt.Preliminary I)))
    (hf : ∀ a w', ActiveIn userId w' → (f a).Ends w' post) (hx : ∀ x w', post (.error x) w') :
    (o.bind f).Ends w post := by
  refine ends_handle.mpr ((activeUser_preliminary h w hw).mono fun r w' hw' => ?_)
  cases r with
  | ok a => exact hf a w' hw'
  | error x => exact ends_raise.mpr (hx x w')

/-- A user object that is loaded again is the user's. -/
theorem ends_refreshUser {userId : ℕ} {post : Except Err User → World → Prop}
    (h : ∀ user, user.id = userId → post (.ok user) w) (hx : post (.error .database) w) :
    (refreshUser userId).Ends w post := by
  simp only [refreshUser, bind_eq, ends_query_bind]
  split
  · rename_i user huser
    exact ends_ret.mpr (h user (by simpa using List.find?_some huser))
  · exact ends_raise.mpr hx

theorem ends_refreshUser_bind {β : Type} {userId : ℕ} {f : User → Op β}
    {post : Except Err β → World → Prop} (hf : ∀ user, user.id = userId → (f user).Ends w post)
    (hx : post (.error .database) w) : ((refreshUser userId).bind f).Ends w post :=
  ends_handle.mpr (ends_refreshUser hf (ends_raise.mpr hx))

/-! ### A password -/

/-- Who is authenticated is active. -/
theorem authenticateUser_ends (email password : String) (clientIp : Option String)
    (newlyLocked : List (String × ℕ)) (hidle : w.base = w.cur)
    (hkeys : (w.cur.users.map (·.id)).Nodup) :
    (authenticateUser A email password clientIp newlyLocked).Ends w fun r w' =>
      ∀ user, r = .ok (some user) → ActiveIn user.id w' := by
  -- a failed attempt authenticates nobody
  have hfail : ∀ (user : Option User) (reason : String) (w : World),
      (failLogin email clientIp newlyLocked user reason).Ends w fun r w' =>
        ∀ user, r = .ok (some user) → ActiveIn user.id w' := by
    intro user reason w r w' hexec
    have hnobody : (failLogin email clientIp newlyLocked user reason).Yields
        fun r => ∀ user, r ≠ .ok (some user) := by
      refine yields_bind _ (fun _ => ?_) (fun x user hx => by cases hx)
      refine yields_bind _ (fun _ => ?_) (fun x user hx => by cases hx)
      refine yields_bind _ (fun _ => ?_) (fun x user hx => by cases hx)
      intro user hx
      cases hx
    intro user hr
    exact absurd hr (hnobody.exec hexec user)
  simp only [authenticateUser, bind_eq, ends_query_bind]
  split
  · exact hfail _ _ _
  rename_i user huser
  split
  · exact hfail _ _ _
  rename_i hstatus
  have hactive : ActiveIn user.id w :=
    activeIn_of_mem hidle hkeys (List.mem_of_find?_eq_some huser) (by simpa using hstatus)
  split
  · exact hfail _ _ _
  rename_i hash _
  simp only [checkPassword, bind_eq, ends_note_bind]
  split
  · exact hfail _ _ _
  simp only [ends_note_bind]
  have hraised : ∀ (x : Err) (w' : World) (user : User),
      (.error x : Except Err (Option User)) = .ok (some user) → ActiveIn user.id w' :=
    fun x w' user hx => by cases hx
  have hend : ∀ w, ActiveIn user.id w →
      ((logEvent
        { eventType := .loginSuccess
          actorUserId := some user.id
          targetUserId := some user.id
          resourceType := some "user"
          resourceId := some user.id
          metadata := [("email", email)] } true).bind fun _ =>
        (refreshUser user.id).bind fun user => (ret (some user) : Op (Option User))).Ends w
        fun r w' => ∀ user, r = .ok (some user) → ActiveIn user.id w' := by
    intro w hw
    refine activeIn_bind (I := fun _ => True) hw (logEvent_preliminary (by simp) _)
      (fun _ w₂ hw₂ => ?_) hraised
    refine ends_refreshUser_bind (fun user' hid => ends_ret.mpr ?_) (hraised _ _)
    rintro _ ⟨⟩
    rw [hid]
    exact hw₂
  split
  · simp only [ends_draw_bind]
    exact activeIn_bind (I := fun _ => True) hactive (execute_executing ⟨trivial, trivial⟩)
      (fun _ w₁ hw₁ => hend w₁ hw₁) hraised
  · exact hend _ hactive

theorem passwordLogin_onlyActive (r : LoginRequest) (hidle : w.base = w.cur)
    (hkeys : (w.cur.users.map (·.id)).Nodup) :
    (passwordLogin A r).Ends w fun _ => Both w.cur.OnlyActive := by
  have hrefl : w.cur.OnlyActive w.cur := (Database.SameLogins.refl _).onlyActive
  refine ends_reading_bind (refuseEnforced_within _) ⟨hidle, rfl, le_refl _⟩ (fun _ w₁ hw₁ => ?_)
    fun x w₁ hw₁ => ⟨hw₁.base ▸ hrefl, hw₁.cur ▸ hrefl⟩
  have ho : Both w.cur.OnlyActive w₁ := ⟨hw₁.base ▸ hrefl, hw₁.cur ▸ hrefl⟩
  simp only [bind_eq, ends_note_bind]
  split
  · exact ends_raise.mpr ho
  have hpreserves : (authenticateUser A r.email r.password r.clientIp
      r.throttle.newlyLocked).Preserves w.cur.OnlyActive :=
    onlyActive_preliminary (authenticateUser_preliminary (F := True) (I := fun _ => True) _ _ _ _)
  have hactive := authenticateUser_ends (A := A)
    (w := { w₁ with log := w₁.log ++ [.throttleChecked r.email] }) r.email r.password r.clientIp
    r.throttle.newlyLocked (hw₁.base.trans hw₁.cur.symm) (hw₁.cur ▸ hkeys)
  refine ends_handle.mpr ((hactive.and (hpreserves _ ho)).mono ?_)
  rintro reply w₂ ⟨hactive, ho₂⟩
  rcases reply with x | user?
  · exact ends_raise.mpr ho₂
  cases user? with
  | none => exact ends_raise.mpr ho₂
  | some user =>
    have hsigns := onlyActive_for (generateTokensOrMfaChallenge_for (F := True) (A := A) user
      { authMethod := .password } { clientIp := r.clientIp, userAgent := r.userAgent } r.mailSent)
      ho₂ (hactive user rfl)
    refine (hsigns.bind_world fun _ w₃ hw₃ => ends_ret.mpr hw₃).orElse_world fun x w₃ hw₃ => ?_
    have henroll : (createEnrollmentToken A user.id).Preserves w.cur.OnlyActive :=
      onlyActive_preliminary (createEnrollmentToken_preliminary (F := True) (I := fun _ => True) _)
    split
    · exact henroll.bind (fun _ => preserves_ret _) w₃ hw₃
    all_goals exact ends_raise.mpr hw₃

/-! ### A challenge -/

theorem verifyMfaChallenge_onlyActive (r : ChallengeRequest A) (hidle : w.base = w.cur) :
    (verifyMfaChallenge A r).Ends w fun _ => Both w.cur.OnlyActive := by
  have hrefl : w.cur.OnlyActive w.cur := (Database.SameLogins.refl _).onlyActive
  have ho : Both w.cur.OnlyActive w := ⟨by rw [hidle]; exact hrefl, hrefl⟩
  simp only [verifyMfaChallenge, bind_eq, ends_time_bind]
  intro t ht
  split
  · exact ends_raise.mpr ho
  rename_i payload _
  split
  · exact ends_raise.mpr ho
  split
  · exact ends_raise.mpr ho
  simp only [ends_query_bind]
  split
  · exact ends_raise.mpr ho
  split
  · exact ends_raise.mpr ho
  rename_i user huser
  split
  · exact ends_raise.mpr ho
  rename_i hstatus
  have hactive : w.cur.ActiveUser user.id := by
    obtain ⟨userId, -, hfound⟩ := Option.bind_eq_some_iff.mp huser
    have hid : user.id = userId := by simpa using List.find?_some hfound
    exact ⟨user, by rw [hid]; exact hfound, by simpa using hstatus⟩
  split
  · exact ends_raise.mpr ho
  split
  · exact ends_raise.mpr ho
  · exact onlyActive_for (w := { w with now := t }) (answerChallenge_for payload r user) ho
      ⟨by rw [hidle]; exact hactive, hactive⟩

/-! ### A new account -/

/-- Inside a transaction what is committed stays, and active accounts stay active. -/
theorem activeUser_inside {α : Type} {I : OAuthAccount → Prop} {o : Op α}
    (h : o.Within False (Inside (Stmt.Preliminary I))) :
    o.Ends w fun _ w' => w'.base = w.base ∧
      ∀ userId, w.cur.ActiveUser userId → w'.cur.ActiveUser userId := by
  have hends := h.ends (w := w)
    (R := fun db db' : Database => ∀ userId, db.ActiveUser userId → db'.ActiveUser userId)
    (fun _ _ h => h) (fun h h' userId hu => h' userId (h userId hu))
    (fun hstmt hden _ => (hstmt.1.for 0).keepsAccounts.activeUser hden) id id
  exact hends.mono fun _ _ h => ⟨h.1, h.2.1⟩

/-- The row of a new account, let through. -/
theorem insertUser_active {user : User} {db : Database} {eff : Effect Database RowKey}
    (hactive : user.status = .active)
    (h : denote (.account (.insertUser user)) db = .ok eff) :
    (eff.delta db).ActiveUser user.id := by
  simp only [denote, AccountStmt.denote] at h
  split at h
  · cases h
  rename_i hnew
  obtain rfl := Except.ok.inj h
  refine ⟨user, ?_, hactive⟩
  have hnone : db.users.find? (·.id = user.id) = none := by
    refine List.find?_eq_none.mpr fun u hu => ?_
    have hother : u.id ≠ user.id := fun hid => hnew ⟨u, hu, .inl hid⟩
    simpa using hother
  simp only [Database.userById, List.find?_append, hnone, Option.none_or, List.find?_singleton]
  simp

/-- What `create_user_with_oauth` ends in: an active account, or nothing committed. -/
theorem createUserWithOauth_ends (identity : Identity) (commit : Bool) :
    (createUserWithOauth identity commit).Ends w fun r w' => match r with
      | .ok user => w'.cur.ActiveUser user.id ∧
          w'.base = if commit then w'.cur else w.base
      | .error x => x = .integrity → w'.base = w.base := by
  simp only [createUserWithOauth, bind_eq]
  refine Ends.bind (M := fun _ w' => w' = w) ?_ ?_
  · unfold assertSingleIdpScope
    split
    · exact ends_raise.mpr fun hx => by cases hx
    · exact ends_ret.mpr rfl
  rintro - w rfl
  simp only [ends_draw_bind, execute]
  refine ends_returning_bind.mpr ⟨fun eff heff => ?_, fun x _ _ => rfl⟩
  have hnew := insertUser_active rfl heff
  -- the role and the identity of the new account
  refine Ends.bind (M := fun _ w' => w'.base = w.base ∧ w'.cur.ActiveUser w.next)
    ((activeUser_inside (assignDefaultRole_inside (I := fun _ => True) _)).mono ?_) ?_
  · rintro r w' ⟨hbase, hkeep⟩
    cases r with
    | ok _ => exact ⟨hbase, hkeep _ hnew⟩
    | error x => exact fun _ => hbase
  rintro - w₁ ⟨hbase₁, hactive₁⟩
  refine Ends.bind (M := fun _ w' => w'.base = w.base ∧ w'.cur.ActiveUser w.next)
    ((activeUser_inside (addOAuthAccount_inside (I := fun _ => True) (fun _ _ => trivial) _)).mono
      ?_) ?_
  · rintro r w' ⟨hbase, hkeep⟩
    cases r with
    | ok _ => exact ⟨hbase.trans hbase₁, hkeep _ hactive₁⟩
    | error x => exact fun _ => hbase.trans hbase₁
  rintro - w₂ ⟨hbase₂, hactive₂⟩
  cases commit with
  | false =>
    refine ends_refreshUser (fun user hid => ⟨?_, hbase₂⟩) fun hx => by cases hx
    rw [hid]
    exact hactive₂
  | true =>
    simp only [if_true, ends_commitNow_bind]
    refine ends_refreshUser (fun user hid => ⟨?_, rfl⟩) fun hx => by cases hx
    rw [hid]
    exact hactive₂

/-! ### The entry points that find no account -/

section

variable {t : ℕ}

/-- A new account is signed in once it is committed. -/
theorem createUserWithOauth_bind {β : Type} {db : Database} {identity : Identity} {commit : Bool}
    {f : User → Op β} {post : Except Err β → World → Prop} (ho : Both db.OnlyActive w)
    (hf : ∀ (user : User) (w' : World), Both db.OnlyActive w' → w'.cur.ActiveUser user.id →
      w'.base = (if commit then w'.cur else w.base) → (f user).Ends w' post)
    (hx : ∀ x w', Both db.OnlyActive w' → (x = .integrity → w'.base = w.base) →
      post (.error x) w') :
    ((createUserWithOauth identity commit).bind f).Ends w post := by
  have hpreserves : (createUserWithOauth identity commit).Preserves db.OnlyActive :=
    onlyActive_preliminary (createUserWithOauth_preliminary (F := True) (I := fun _ => True)
      (fun _ _ => trivial) commit)
  refine ends_handle.mpr (((createUserWithOauth_ends identity commit).and
    (hpreserves w ho)).mono ?_)
  rintro r w' ⟨hends, ho'⟩
  cases r with
  | ok user => exact hf user w' ho' hends.1 hends.2
  | error x => exact ends_raise.mpr (hx x w' ho' hends)

theorem refuseEnforced_refuses {email : String} {β : Type} {f : Unit → Op β} {Q : World → Prop}
    (h : (findEnforcedOrgForEmail A w.cur email).isSome ∨
      (findEnforcedSamlOrgForEmail A w.cur email).isSome) (hQ : Q w) :
    ((refuseEnforced A email).bind f).Ends w fun _ => Q := by
  simp only [refuseEnforced, refuseIfFound, bind_eq, bind_bind, ends_query_bind]
  cases hsso : findEnforcedOrgForEmail A w.cur email with
  | some config =>
    simp only [bind_bind, ends_query_bind]
    split <;> exact ends_raise.mpr hQ
  | none =>
    cases hsaml : findEnforcedSamlOrgForEmail A w.cur email with
    | some config =>
      simp only [pure_eq, ret_bind, bind_bind, ends_query_bind, hsaml]
      split <;> exact ends_raise.mpr hQ
    | none =>
      rw [hsso, hsaml] at h
      simp at h

/-- Programs that stand beside the login, as a whole. -/
theorem ends_preliminary {α : Type} {db : Database} {I : OAuthAccount → Prop} {o : Op α}
    (ho : Both db.OnlyActive w) (h : o.Within True (Executing (Stmt.Preliminary I))) :
    o.Ends w fun _ => Both db.OnlyActive := onlyActive_preliminary h w ho

/-- A consumer identity that is linked to nobody. -/
theorem oauthUnlinked_onlyActive {db : Database} {identity : Identity}
    (ho : Both db.OnlyActive w) (hidle : w.base = w.cur) (hkeys : (w.cur.users.map (·.id)).Nodup) :
    (oauthUnlinked A identity).Ends w fun _ => Both db.OnlyActive := by
  simp only [oauthUnlinked, bind_eq, ends_query_bind]
  split
  · rename_i user huser
    simp only [ends_query_bind]
    split
    · refine ends_preliminary (I := fun _ => True) ho ?_
      refine (issueLinkConfirmation_preliminary _ _ _).bind fun _ => ?_
      exact (logEvent_preliminary (by simp) _).bind fun _ => trivial
    · -- linked without being asked, since active and without a password
      rename_i hauto
      have hactive : user.status = .active := by
        have hcan : w.cur.canAutoLink user = true := by simpa using hauto
        unfold Database.canAutoLink at hcan
        simp only [Bool.and_eq_true, decide_eq_true_eq] at hcan
        exact hcan.1.2
      have hin := activeIn_of_mem hidle hkeys (List.mem_of_find?_eq_some huser) hactive
      refine onlyActive_for (F := True) (u := user.id) ?_ ho hin
      refine (for_of_preliminary (I := fun _ => True)
        (linkOauthToExistingUser_preliminary (fun _ _ => trivial) _ _) _).bind fun _ => ?_
      refine (for_of_preliminary (I := fun _ => True) (logEvent_preliminary (by simp) _) _).bind
        fun _ => commitNow_executing.bind fun _ => ?_
      exact refreshUser_bind_executing fun user hid => hid ▸ oauthSignIn_for _ _ _
  · simp only [ends_time_bind, ends_query_bind]
    intro t ht
    split
    · exact ends_preliminary (I := fun _ => True) ho
        ((logEvent_preliminary (by simp) _).bind fun _ => trivial)
    refine createUserWithOauth_bind (w := { w with now := t }) ho (fun user w₁ ho₁ hactive _ => ?_)
      fun x w' ho' _ => ho'
    refine ends_handle.mpr fun r w₂ hlog => ?_
    obtain ⟨rfl, t', e, rfl⟩ := logEvent_exec hlog
    have ho₂ : db.OnlyActive (w₁.cur.insertAudit e) := ho₁.2.same rfl rfl fun _ h => h
    have hin : (w₁.cur.insertAudit e).ActiveUser user.id := hactive
    simp only [ends_commitNow_bind]
    exact onlyActive_for (refreshUser_bind_executing (F := True) fun user' hid =>
      hid ▸ oauthSignIn_for _ _ _) ⟨ho₂, ho₂⟩ ⟨hin, hin⟩

/-- The attempts of a SAML login one after the other: one that fails leaves everything as it
was. -/
theorem completeSamlLogin_onlyActive {db : Database} {org : Organization} {config : IdpConfig}
    {identity : SamlIdentity}
    (hlinked : db.findLinkedUser "saml" identity.nameId none (some config.id) = none)
    (attempts : ℕ) (hbase : w.base = db) (hcur : w.cur = db) :
    (completeSamlLogin A org config identity attempts).Ends w fun _ => Both db.OnlyActive := by
  induction attempts generalizing w with
  | zero =>
    have hrefl : db.OnlyActive db := (Database.SameLogins.refl _).onlyActive
    exact ends_raise.mpr ⟨hbase ▸ hrefl, hcur ▸ hrefl⟩
  | succ attempts ih =>
    have hrefl : db.OnlyActive db := (Database.SameLogins.refl _).onlyActive
    have ho : Both db.OnlyActive w := ⟨hbase ▸ hrefl, hcur ▸ hrefl⟩
    simp only [completeSamlLogin, bind_eq, ends_query_bind, hcur, hlinked]
    split
    · exact ends_preliminary (I := fun _ => True) ho
        ((issueLinkConfirmation_preliminary _ _ _).bind fun _ => trivial)
    refine Ends.bind (M := fun created w' => Both db.OnlyActive w' ∧
        (∀ user, created = some user → ActiveIn user.id w') ∧
        (created = none → w'.base = db ∧ w'.cur = db)) ?_ ?_
    · refine Ends.orElse (M := fun (x : Err) w' => Both db.OnlyActive w' ∧
        (x = .integrity → w'.base = db)) ?_ ?_
      · refine createUserWithOauth_bind ho (fun user w₁ ho₁ hactive hcommitted => ?_)
          fun x w' ho' hfailed => ⟨ho', fun hx => (hfailed hx).trans hbase⟩
        refine ends_ret.mpr ⟨ho₁, ?_, fun hnone => by cases hnone⟩
        rintro _ ⟨⟩
        exact ⟨by rw [hcommitted]; exact hactive, hactive⟩
      · rintro x w₁ ⟨ho₁, hfailed⟩
        split
        · simp only [ends_rollbackNow_bind]
          have hback := hfailed rfl
          refine ends_ret.mpr ⟨⟨ho₁.1, ho₁.1⟩, ?_, fun _ => ⟨hback, hback⟩⟩
          intro user hsome
          cases hsome
        · exact ends_raise.mpr ho₁
    · rintro created w₁ ⟨ho₁, hactive, hback⟩
      cases created with
      | some user =>
        refine onlyActive_for (F := True) (u := user.id) ?_ ho₁ (hactive user rfl)
        refine (for_of_preliminary (I := fun _ => True) (jitProvisionMembership_preliminary _ _)
          _).bind fun _ => ?_
        exact refreshUser_bind_executing fun user' hid => hid ▸ issueTokensOrChallenge_for _ _
      | none => exact ih (hback rfl).1 (hback rfl).2

/-- An identity that cannot be stored is not linked. -/
theorem linkOauthToExistingUser_refuses {user : User} {identity : Identity}
    (h : ¬ identity.Linkable w.cur) :
    (linkOauthToExistingUser user identity true).Ends w fun r _ => ∃ x, r = .error x := by
  simp only [linkOauthToExistingUser, assertSingleIdpScope, bind_eq]
  split
  · exact ends_raise.mpr ⟨_, rfl⟩
  rename_i hscope
  simp only [pure_eq, ret_bind, addOAuthAccount, bind_eq, bind_bind, ends_draw_bind, execute]
  refine ends_returning_bind.mpr ⟨fun eff heff => ?_, fun x _ => ⟨x, rfl⟩⟩
  simp only [denote, AccountStmt.denote] at heff
  split at heff
  · cases heff
  rename_i hfree
  refine absurd ⟨hscope, fun a ha k hk hmem => hfree ⟨a, ha, .inr ⟨k, hk, hmem⟩⟩⟩ h

/-- An address nobody has is given an active account. -/
theorem getOrCreateUserForEmail_ends {db : Database} {email : String}
    (ho : Both db.OnlyActive w) (hnone : w.cur.userByEmail email = none) :
    (getOrCreateUserForEmail email).Ends w fun r w' => Both db.OnlyActive w' ∧
      ∀ user, r = .ok user → w'.cur.ActiveUser user.id := by
  simp only [getOrCreateUserForEmail, bind_eq, ends_query_bind, hnone, ends_draw_bind, execute]
  refine ends_returning_bind.mpr ⟨fun eff heff => ?_, fun x _ => ⟨ho, fun user hx => by cases hx⟩⟩
  have hden : denote (.account (.insertUser
      { id := w.next, email := some email, status := .active })) w.cur = .ok eff := heff
  have hnew := insertUser_active rfl hden
  have ho₁ := onlyActive_beside (by trivial) hden ho.2
  have hpreserves : ∀ user : User, (assignDefaultRole user).Preserves db.OnlyActive := fun user =>
    onlyActive_preliminary (preliminary_of_inside (assignDefaultRole_inside (F := True)
      (I := fun _ => True) user))
  refine ends_handle.mpr fun r w₁ hexec => ?_
  have ho₂ : Both db.OnlyActive w₁ := hpreserves _
    { w with cur := eff.delta w.cur, next := w.next + 1 } ⟨ho.1, ho₁⟩ r w₁ hexec
  obtain ⟨-, hkeep⟩ :=
    activeUser_inside (assignDefaultRole_inside (I := fun _ => True) _) r w₁ hexec
  cases r with
  | error x => exact ends_raise.mpr ⟨ho₂, fun user hx => by cases hx⟩
  | ok _ =>
    refine ends_refreshUser (fun user hid => ⟨ho₂, ?_⟩) ⟨ho₂, fun user hx => by cases hx⟩
    rintro _ ⟨⟩
    rw [hid]
    exact hkeep _ hnew

section

variable (hidle : w.base = w.cur)
include hidle

theorem Database.onlyActive_idle : Both w.cur.OnlyActive w := by
  have hrefl : w.cur.OnlyActive w.cur := (Database.SameLogins.refl _).onlyActive
  exact ⟨by rw [hidle]; exact hrefl, hrefl⟩

theorem OAuthCallback.onlyActive {r : OAuthCallback A} (hkeys : (w.cur.users.map (·.id)).Nodup)
    (hl : OAuthCallback.landing A w.cur t r = none) :
    ((oauthCallback A r).reading t).Ends { w with now := t } fun _ => Both w.cur.OnlyActive := by
  have ho := Database.onlyActive_idle hidle
  unfold OAuthCallback.landing at hl
  simp only [oauthCallback, bind_eq, reading_time_bind]
  split
  · exact ends_raise.mpr ho
  rename_i hstate
  unfold completeOauthFlow
  split
  · exact ends_preliminary (I := fun _ => True) ho
      ((logEvent_preliminary (by simp) _).bind fun _ => trivial)
  · exact ends_raise.mpr ho
  rename_i sub email hanswer
  simp only [hstate, hanswer] at hl
  by_cases henforced : (findEnforcedOrgForEmail A w.cur email).isSome ∨
      (findEnforcedSamlOrgForEmail A w.cur email).isSome
  · exact refuseEnforced_refuses (w := { w with now := t }) henforced ho
  rw [if_neg henforced] at hl
  obtain ⟨hsso, hsaml⟩ := not_or.mp henforced
  refine (refuseEnforced_ends (w := { w with now := t }) (by simpa using hsso)
    (by simpa using hsaml)).mpr ?_
  simp only [bind_eq, ends_query_bind, Option.map_eq_none_iff.mp hl]
  exact oauthUnlinked_onlyActive ho hidle hkeys

theorem OidcCallback.onlyActive {r : OidcCallback A}
    (hl : OidcCallback.landing A w.cur t r = none) :
    ((oidcCallback A r).reading t).Ends { w with now := t } fun _ => Both w.cur.OnlyActive := by
  have ho := Database.onlyActive_idle hidle
  unfold OidcCallback.landing at hl
  simp only [oidcCallback, bind_eq, reading_time_bind, ends_query_bind]
  split
  · exact ends_raise.mpr ho
  rename_i org config hstate
  split
  · exact ends_raise.mpr ho
  rename_i sub email hanswer
  simp only [hstate, hanswer] at hl
  simp only [ends_query_bind, Option.map_eq_none_iff.mp hl]
  split
  · exact ends_preliminary (I := fun _ => True) ho
      ((issueLinkConfirmation_preliminary _ _ _).bind fun _ => trivial)
  refine createUserWithOauth_bind (w := { w with now := t }) ho
    (fun user w₁ ho₁ hactive hbase => ?_) fun x w' ho' _ => ho'
  refine onlyActive_for (F := True) (u := user.id) ?_ ho₁
    ⟨by rw [hbase]; exact hactive, hactive⟩
  refine (for_of_preliminary (I := fun _ => True) (jitProvisionMembership_preliminary _ _) _).bind
    fun _ => ?_
  exact refreshUser_bind_executing fun user' hid => hid ▸ issueTokensOrChallenge_for _ _

theorem SamlAcs.onlyActive {r : SamlAcs A} (hl : SamlAcs.landing A w.cur t r = none) :
    ((samlAcs A r).reading t).Ends { w with now := t } fun _ => Both w.cur.OnlyActive := by
  have ho := Database.onlyActive_idle hidle
  unfold SamlAcs.landing at hl
  cases hrelay : r.relayState with
  | none =>
    simp only [samlAcs, hrelay]
    exact ends_raise.mpr ho
  | some relayState =>
    simp only [samlAcs, hrelay, bind_eq, reading_time_bind, ends_query_bind]
    rw [hrelay] at hl
    split
    · exact ends_raise.mpr ho
    rename_i org config hstate
    split
    · exact ends_raise.mpr ho
    rename_i identity hanswer
    simp only [Option.map_some, hstate, hanswer] at hl
    split
    · exact ends_raise.mpr ho
    rename_i hat
    rw [if_neg hat] at hl
    exact completeSamlLogin_onlyActive (w := { w with now := t }) (Option.map_eq_none_iff.mp hl) 2
      hidle rfl

theorem LinkConfirm.onlyActive {r : LinkConfirm A} (hkeys : (w.cur.users.map (·.id)).Nodup)
    (hl : LinkConfirm.landing A w.cur t r = none) :
    ((confirmOauthLink A r).reading t).Ends { w with now := t } fun _ => Both w.cur.OnlyActive := by
  have ho := Database.onlyActive_idle hidle
  unfold LinkConfirm.landing at hl
  simp only [confirmOauthLink, bind_eq, reading_time_bind]
  split
  · exact ends_raise.mpr ho
  rename_i claims hclaims
  simp only [ends_query_bind]
  split
  · exact ends_raise.mpr ho
  rename_i user huser
  split
  · exact ends_raise.mpr ho
  rename_i hash hhash
  simp only [ends_note_bind]
  split
  · exact ends_raise.mpr ho
  rename_i hpassword
  obtain ⟨hfound, hid⟩ := Option.filter_eq_some_iff.mp huser
  simp only [hclaims] at hl
  by_cases hlinkable : claims.identity.Linkable w.cur
  · -- the account would be landed on
    rw [if_pos hlinkable] at hl
    have hverified : onSome (user.hashedPassword.filter (· ≠ "")) (A.verifyPassword r.password) =
        true := by
      rw [hhash]
      simpa [onSome] using hpassword
    have hchecked : (findUserByEmail A w.cur claims.identity.email).filter (fun user =>
        decide (user.id = claims.userId) &&
          onSome (user.hashedPassword.filter (· ≠ "")) (A.verifyPassword r.password)) =
        some user := Option.filter_eq_some_iff.mpr ⟨hfound, by rw [hid, hverified]; rfl⟩
    have hthere := Database.userById_of_mem hkeys (List.mem_of_find?_eq_some hfound)
    rw [hchecked, Option.bind_some, hthere] at hl
    cases hl
  · -- nothing is linked, and nobody signed in
    have hpreserves : (linkOauthToExistingUser user claims.identity true).Preserves
        w.cur.OnlyActive := onlyActive_preliminary (linkOauthToExistingUser_preliminary (F := True)
          (I := fun _ => True) (fun _ _ => trivial) _ _)
    simp only [linkAndSignIn, bind_eq]
    refine ends_handle.mpr (((linkOauthToExistingUser_refuses (w := { w with now := t, log := _ })
      hlinkable).and (hpreserves _ ho)).mono ?_)
    rintro r w' ⟨⟨x, rfl⟩, ho'⟩
    exact ends_raise.mpr ho'

theorem LicenseRequest.onlyActive {r : LicenseRequest} (hkeys : (w.cur.users.map (·.id)).Nodup)
    (hl : LicenseRequest.landing A w.cur t r = none) :
    ((licenseValidate A r).reading t).Ends { w with now := t } fun _ => Both w.cur.OnlyActive := by
  have ho := Database.onlyActive_idle hidle
  unfold LicenseRequest.landing at hl
  simp only [licenseValidate, validateAndConsume, bind_eq, bind_bind, reading_time_bind,
    ends_query_bind]
  split
  · exact ends_ret.mpr ho
  rename_i license hvalid
  simp only [hvalid] at hl
  have hnone : w.cur.userByEmail ((r.email.filter (· ≠ "")).getD license.email) = none := by
    refine Option.eq_none_iff_forall_ne_some.mpr fun user huser => ?_
    have hthere := Database.userById_of_mem hkeys (List.mem_of_find?_eq_some huser)
    rw [huser, Option.bind_some, hthere] at hl
    cases hl
  have hcreated := getOrCreateUserForEmail_ends (w := { w with now := t }) ho hnone
  refine ends_handle.mpr (hcreated.mono ?_)
  rintro reply w₁ ⟨ho₁, hactive⟩
  cases reply with
  | error x => exact ends_raise.mpr ho₁
  | ok user =>
    -- the use of the licence commits the account
    simp only [markUsed, bind_eq, bind_bind, ends_time_bind, execute]
    intro t' ht'
    refine ends_returning_bind.mpr ⟨fun eff heff => ?_, fun x hx => by cases hx⟩
    have hstmt : (Stmt.account (.useLicense license.id (if license.userId = none then
        some (user.id, license.usageCount + 1) else none) t')).Beside := trivial
    have ho₂ := onlyActive_beside hstmt heff ho₁.2
    have hin := (hstmt.for 0).keepsAccounts.activeUser heff (hactive user rfl)
    simp only [ends_commitNow_bind]
    refine onlyActive_for (F := True) (u := user.id) ?_ ⟨ho₂, ho₂⟩ ⟨hin, hin⟩
    refine (for_of_preliminary (I := fun _ => True) (refreshLicense_preliminary _) _).bind
      fun found => ?_
    split
    · refine Within.bind ?_ fun _ => answerLicense_for _ _
      unfold bindMachineId
      split
      · exact Within.bind (execute_executing trivial) fun _ => commitNow_executing
      · trivial
    · exact answerLicense_for _ _

/-- **Whom nobody was landed on** is new or was looked at. -/
theorem LoginCall.onlyActive {call : LoginCall A} (hkeys : (w.cur.users.map (·.id)).Nodup)
    (hl : call.landing A w.cur t = none) :
    (call.op.reading t).Ends { w with now := t } fun _ => Both w.cur.OnlyActive := by
  cases call with
  | password r =>
    have hends := passwordLogin_onlyActive (A := A) (w := { w with now := t }) r hidle hkeys
    exact hends.reading
  | oauth r => exact OAuthCallback.onlyActive hidle hkeys hl
  | linkConfirm r => exact LinkConfirm.onlyActive hidle hkeys hl
  | oidc r => exact OidcCallback.onlyActive hidle hl
  | saml r => exact SamlAcs.onlyActive hidle hl
  | license r => exact LicenseRequest.onlyActive hidle hkeys hl
  | challenge r =>
    have hends := verifyMfaChallenge_onlyActive (w := { w with now := t }) r hidle
    exact (hends.bind_world fun _ _ hw' => ends_ret.mpr hw').reading

end

end

/-! ## Who gets a session -/

/-- **Only active accounts get sessions**, exactly where no request lands on an account that
is not active and is issued tokens at once. -/
theorem only_active_iff {call : LoginCall A} (hidle : w.base = w.cur)
    (hkeys : (w.base.users.map (·.id)).Nodup) (hunused : w.base.Unused A w.next) :
    (∀ r w', call.op.Exec w r w' → w.base.OnlyActive w'.base) ↔
      ∀ t, w.now ≤ t → ∀ l, call.landing A w.base t = some l →
        l.user.status = .active ∨ l.decision A w.base ≠ .issue := by
  rw [hidle] at hkeys hunused ⊢
  constructor
  · intro hall t ht l hl
    by_contra hbad
    obtain ⟨hinactive, hissued⟩ := not_or.mp hbad
    let P : Database → Prop := fun db => w.cur.SignedIn l.user db ∧ db.HasAccount l.user
    have hP : ∀ {stmt : Stmt} {seen : Database} {eff : Effect Database RowKey}, stmt.Beside →
        denote stmt seen = .ok eff → P seen → P (eff.delta seen) := by
      rintro stmt seen eff hbeside hden ⟨⟨s, hs, hnew, huser⟩, hthere⟩
      refine ⟨⟨s, ?_, hnew, huser⟩, (hbeside.for 0).keepsAccounts.account hden hthere⟩
      rw [(hbeside.sameLogins hden).sessions]
      exact hs
    -- the run whose clock stands still at `t`
    have hexec := exec_run (call.op.reading t) { w with now := t }
    obtain ⟨⟨s, hs, hnew, huser⟩, u, hu, hsame⟩ :=
      (LoginCall.lands hl hidle hunused hP (settles_signedIn hunused (not_not.mp hissued)) _ _
        hexec).1
    obtain ⟨t', hrun⟩ := exec_of_reading ht hexec
    rcases (hall _ _ hrun).sessions s hs with ⟨s₀, hs₀, hid, -⟩ | ⟨u', hu', hactive⟩
    · exact hnew s₀ hs₀ hid
    · rw [huser] at hu'
      obtain rfl : u = u' := Option.some.inj (hu.symm.trans hu')
      exact hinactive (hsame.status.symm.trans hactive)
  · intro hcond r w' hexec
    have hends : call.op.Ends w fun _ => Both w.cur.OnlyActive := by
      refine ends_of_reading fun t ht => ?_
      cases hl : call.landing A w.cur t with
      | none => exact LoginCall.onlyActive hidle hkeys hl
      | some l =>
        exact LoginCall.lands hl hidle hunused onlyActive_beside
          (settles_onlyActive (hcond t ht l hl))
    exact (hends r w' hexec).1

/-- A user, and a licence for their address. -/
def licensedUser (status : UserStatus) : User :=
  { id := 1, email := some "ada@lab.org", status := status }

def licensedDatabase (status : UserStatus) : Database := { Database.empty with
  users := [licensedUser status]
  licenseKeys := [{ id := 1, key := some "K", email := "ada@lab.org" }] }

def licensedWorld (status : UserStatus) : World :=
  ⟨licensedDatabase status, licensedDatabase status, minutes 1, 10, []⟩

/-- They validate it. -/
def licenseLogin : LoginCall .symbolic := .license { key := "K" }

/-- **A licence signs in whoever has its address**, a suspended user too. -/
theorem only_active_suspended :
    ¬ ∀ r w', licenseLogin.op.Exec (licensedWorld .suspended) r w' →
      (licensedWorld .suspended).base.OnlyActive w'.base := by
  intro hall
  have honly := hall _ _ (exec_run licenseLogin.op (licensedWorld .suspended))
  have hsession : ∃ s ∈ (licenseLogin.op.run (licensedWorld .suspended)).2.base.sessions,
      s.userId = 1 := by decide
  have hstatus : ((licenseLogin.op.run (licensedWorld .suspended)).2.base.userById 1).map
      (·.status) = some .suspended := by decide
  obtain ⟨s, hs, huser⟩ := hsession
  rcases honly.sessions s hs with ⟨s₀, hs₀, -⟩ | ⟨user, hfound, hactive⟩
  · cases hs₀
  · rw [huser] at hfound
    rw [hfound, Option.map_some, hactive] at hstatus
    cases hstatus

/-- The user when active. -/
theorem only_active_licensed :
    (∃ s ∈ (licenseLogin.op.run (licensedWorld .active)).2.base.sessions, s.userId = 1) ∧
      (licensedWorld .active).base.OnlyActive
        (licenseLogin.op.run (licensedWorld .active)).2.base := by
  have hunused : (licensedWorld .active).base.Unused .symbolic (licensedWorld .active).next := by
    refine ⟨⟨?_, ?_⟩, ?_, ?_, ?_, ?_⟩
    · exact fun r hr => by cases hr
    · exact fun s hs => by cases hs
    · rintro j - ⟨r, hr, -⟩
      cases hr
    · exact fun r hr => by cases hr
    · exact fun m hm => by cases hm
    · exact fun a ha => by cases ha
  refine ⟨by decide, (only_active_iff rfl (by decide) hunused).mpr (fun t ht l hl => .inl ?_)
    _ _ (exec_run licenseLogin.op (licensedWorld .active))⟩
  have hlanding : licenseLogin.landing .symbolic (licensedWorld .active).base t =
      some { user := licensedUser .active, login := { authMethod := .license } } := rfl
  rw [hlanding] at hl
  obtain rfl := Option.some.inj hl
  rfl

end OmniAuth
