import OmniAuth.Session.Minting
import OmniAuth.Session.Sweep
import OmniAuth.Session.Lifetime

/-!
# What a suspension ends

`set_user_status` promises that suspending an account ends its sessions for
good: no later re-activation makes an old refresh token valid again. The
sweep ends what it finds. What it does not find stays: a token whose family
has no session of the user in the snapshot the sweep enumerates, and a token
committed after that snapshot was taken. Where neither occurs, the promise
holds in every interleaving.
-/

namespace OmniAuth

open Txn Prog

variable {E : Env} {ι : Type} [DecidableEq ι]

/-- Every live token of the user in `db` is of a family that has a session of
the user in `v`. -/
def CoveredBy (userId : ℕ) (v db : Database) : Prop :=
  ∀ r ∈ db.refreshTokens, r.userId = userId → r.revoked = false →
    v.owned userId r.familyId = true

instance (userId : ℕ) (v db : Database) : Decidable (CoveredBy userId v db) := by
  unfold CoveredBy
  infer_instance

/-- A step that commits no live token the sweep does not find. -/
def Orderly (userId : ℕ) (v : Database) (s : Sys AuthSig ι (Reply E)) (i : ι) :
    Label AuthSig → Prop
  | .committed => CoveredBy userId v (s.latest i)
  | _ => True

instance (userId : ℕ) (v : Database) (s : Sys AuthSig ι (Reply E)) (i : ι)
    (ℓ : Label AuthSig) : Decidable (Orderly userId v s i ℓ) :=
  match ℓ with
  | .committed => inferInstanceAs (Decidable (CoveredBy userId v (s.latest i)))
  | .read _ | .wrote _ _ _ | .refused _ _ _ | .rolledBack | .ticked _ | .drew _ | .emitted _
  | .faulted _ | .commitFailed _ | .commitLost _ | .crashed _ => isTrue trivial

/-- A token whose issuance began before `s₁`: its row was stored then, or it
was returned since by a request that had begun. -/
def IssuedBefore (s₁ s₂ : Sys AuthSig ι (Reply E)) (token : E.Token) : Prop :=
  (∃ r, s₁.db.tokenByHash (E.sha256 token) = some r) ∨
  ∃ i access, s₁.begun i = true ∧ (s₂.proc i).reply? = some (.ok (.tokens access token))

/-- The user whose row the token has. -/
def TokenOf (userId : ℕ) (db : Database) (token : E.Token) : Prop :=
  ∃ r, db.tokenByHash (E.sha256 token) = some r ∧ r.userId = userId

/-! ## The suspending request -/

/-- The families of the user that `v` shows are over, where it returned. -/
def Swept (userId : ℕ) (v : Database) {α : Type} (r : Except Err α) (q : Option Sweep) : Prop :=
  ∀ a, r = .ok a → Calm (fun f => v.owned userId (some f) = true) q

theorem setUserStatus_sweeping {user : User} {status : UserStatus} {reason : Option String}
    {actor : ℕ} {v : Database} {q : Option Sweep} (hstatus : status ≠ .active)
    (hchange : user.status ≠ status) (hq : Calm (fun _ => False) q) :
    (setUserStatus user status reason actor).Follows (sweeping v) False (Swept user.id v) q := by
  have hx : ∀ (x : Err) (q : Option Sweep), Swept (α := Unit) user.id v (.error x) q := nofun
  unfold setUserStatus
  split
  · exact hx _ _
  rw [if_neg fun h => hchange h.symm]
  simp only [bind_eq]
  intro now _
  refine sweeping_execute trivial (fun _ => rfl) hq (fun q hq => ?_) hx
  refine revokeAllSessionsForUser_sweeping hq (fun n q hq => ?_) hx
  simp only [logEvent, bind_eq, bind_bind]
  intro t _
  refine sweeping_execute trivial (fun _ => rfl) hq (fun q hq => ?_) hx
  exact ⟨fun _ => ⟨trivial, fun _ _ => hq.committed⟩, False.elim⟩

/-- A route that answers an error of the service by another sweeps as the service does. -/
theorem swept_orElse {userId : ℕ} {v : Database} {α : Type} {p : Op α} {f : Err → Op α}
    {q : Option Sweep} (h : p.Follows (sweeping v) False (Swept userId v) q)
    (hf : ∀ x, ∃ y, f x = raise y) :
    (p.orElse f).Follows (sweeping v) False (Swept userId v) q := by
  refine h.handle fun r q hq => ?_
  cases r with
  | ok a => exact hq
  | error x =>
    obtain ⟨y, hy⟩ := hf x
    show (f x).Follows _ _ _ _
    rw [hy]
    intro a ha
    cases ha

theorem swept_reply {userId : ℕ} {v : Database} {α β : Type} {p : Op α} {b : β}
    {q : Option Sweep} (h : p.Follows (sweeping v) False (Swept userId v) q) :
    (p.bind fun _ => (ret b : Op β)).Follows (sweeping v) False (Swept userId v) q := by
  refine h.handle fun r q hq => ?_
  cases r with
  | ok a => exact fun _ _ => hq a rfl
  | error x =>
    intro a ha
    cases ha

/-- **After its first read, the suspending request sweeps.** -/
theorem Request.sweeps {userId : ℕ} {status : UserStatus} {reason : Option String} {actor : ℕ}
    {v : Database} {p : Op (Reply E)} (hstatus : status ≠ .active)
    (hchange : ∀ u, v.userById userId = some u → u.status ≠ status)
    (hact : (Request.setUserStatus (E := E) userId status reason actor).op.close.Act False
      (.read v) p) :
    p.Follows (sweeping v) False (Swept userId v)
      (some ⟨Ended v, fun _ => False, some v, True⟩) := by
  obtain ⟨v', hv', hp⟩ := Act.select_inv hact
  obtain rfl := Label.read.inj hv'
  subst hp
  have hcalm : Calm (fun _ => False) (some ⟨Ended v, fun _ => False, some v, True⟩) :=
    ⟨_, rfl, trivial, fun _ h => h.elim⟩
  cases hu : v.userById userId with
  | none =>
    simp only [handle, hu]
    intro a ha
    cases ha
  | some u =>
    simp only [handle, hu]
    have hid : u.id = userId := by
      have hfound : v.users.find? (fun u => u.id = userId) = some u := hu
      simpa using List.find?_some hfound
    have hmain : (OmniAuth.setUserStatus u status reason actor).Follows (sweeping v) False
        (Swept u.id v) (some ⟨Ended v, fun _ => False, some v, True⟩) :=
      setUserStatus_sweeping hstatus (hchange u hu) hcalm
    rw [hid] at hmain
    -- what the route and the closing of the connection add
    refine Follows.close ((swept_reply (swept_orElse hmain fun x => ?_)).mono
      fun r q hq a ha => (hq a ha).rolledBack)
    cases x <;> exact ⟨_, rfl⟩

/-! ## From the first read to the return -/

omit [DecidableEq ι] in
/-- Of the processes that are not watched nothing is asked. -/
theorem sweeping_free {v : Database} {α : Type} (p : Op α) :
    p.Follows (sweeping v) False (fun _ _ => True) none := by
  refine (follows_free (T := fun q => q = none) p (fun q ℓ hq => ?_) (fun q ℓ hq => ?_) rfl).mono
    fun _ _ _ => trivial
  · obtain rfl := hq
    cases ℓ <;> first | trivial | exact nofun
  · obtain rfl := hq
    cases ℓ <;> rfl

/-- A run all of whose commits leave the user's live tokens covered. -/
theorem covered_run {userId : ℕ} {v : Database} {s s' : Sys AuthSig ι (Reply E)}
    (h : CoveredBy userId v s.db) (hrun : Sys.Run False (Orderly userId v) s s') :
    CoveredBy userId v s'.db := by
  induction hrun with
  | refl => exact h
  | @tail s₁ s₂ i ℓ _ hok hstep ih =>
    obtain ⟨p, hact, _, rfl⟩ := hstep
    rw [Sys.after_db]
    cases ℓ with
    | committed => exact hok
    | commitLost x => exact absurd trivial hact.noFailure
    | _ => exact ih

section

variable {req : ι → Request E} {db : Database} {now next : ℕ} {i₀ : ι} {userId : ℕ}
  {status : UserStatus} {reason : Option String} {actor : ℕ}
  {s₀ s₀' s₁ s₂ : Sys AuthSig ι (Reply E)} {ℓ : Label AuthSig}

/-- The first step of the suspending request is the read of the user, in a
snapshot of its own. -/
theorem first_read (hreq : req i₀ = .setUserStatus userId status reason actor)
    (hrun₀ : Sys.Run False (fun _ _ _ => True) (serving req db now next) s₀)
    (hbegun : s₀.begun i₀ = false) (hfirst : s₀.Step False i₀ ℓ s₀') :
    ∃ p, (Request.setUserStatus (E := E) userId status reason actor).op.close.Act False
        (.read s₀.db) p ∧ s₀.Enabled i₀ (.read s₀.db) ∧ s₀' = s₀.after i₀ (.read s₀.db) p ∧
      s₀.conn i₀ = Conn.idle AuthSig := by
  obtain ⟨hconn, hproc⟩ := hrun₀.unbegun hbegun
  obtain ⟨p, hact, hen, rfl⟩ := hfirst
  rw [hproc, hreq] at hact
  obtain ⟨v, rfl, -⟩ := Act.select_inv hact
  obtain rfl : v = s₀.db := by
    have hview : v = s₀.view i₀ := hen
    rw [hview, Sys.view, hconn]
    rfl
  exact ⟨p, hact, hen, rfl, hconn⟩

/-- **When a suspension returns**, the families of the user that its first read
showed are over. -/
theorem swept_of_returned {ok : Sys AuthSig ι (Reply E) → ι → Label AuthSig → Prop}
    (hreq : req i₀ = .setUserStatus userId status reason actor) (hstatus : status ≠ .active)
    (hrun₀ : Sys.Run False (fun _ _ _ => True) (serving req db now next) s₀)
    (hbegun : s₀.begun i₀ = false) (hfirst : s₀.Step False i₀ ℓ s₀')
    (hchange : ∀ u, s₀.db.userById userId = some u → u.status ≠ status)
    (hrun₁ : Sys.Run False ok s₀' s₁) (hret : (s₁.proc i₀).reply? = some (.ok .done)) {f : ℕ}
    (hf : s₀.db.owned userId (some f) = true) : Ended s₁.db f := by
  obtain ⟨p, hact, hen, rfl, hconn⟩ := first_read hreq hrun₀ hbegun hfirst
  have hidle := Database.evolution.pending_start db now next fun i => (req i).op.close
  have hmoves := (Database.evolution.run hidle hrun₀).2
  have hsnap := (Database.evolution.snapshots_start db now next fun i =>
    (req i).op.close).run _ hidle hrun₀
  let q₀ : Sweep := ⟨Ended s₀.db, fun _ => False, some s₀.db, True⟩
  let g₀ : ι → Option Sweep := Function.update (fun _ => none) i₀ (some q₀)
  let post : ι → Except Err (Reply E) → Option Sweep → Prop :=
    Function.update (fun _ _ _ => True) i₀ (Swept userId s₀.db)
  have hg : ∀ i, (g₀ i).isSome → i = i₀ := by
    intro i hi
    by_contra hne
    rw [show g₀ i = none from Function.update_of_ne hne _ _] at hi
    cases hi
  have hinv : Sweeping s₀.db (s₀.after i₀ (.read s₀.db) p) g₀ := by
    refine ⟨hmoves.after _ hen p, hsnap.after _ hmoves p, .refl _, fun i hi v hv => ?_,
      fun i q hq => ?_⟩
    · obtain rfl := hg i hi
      rw [Sys.after_conn_self, Sys.connAfter, hconn] at hv
      obtain rfl := Option.some.inj hv
      exact .refl _
    · obtain rfl := hg i (by rw [hq]; rfl)
      have hself : g₀ i = some q₀ := Function.update_self _ _ _
      obtain rfl : q₀ = q := Option.some.inj (hself.symm.trans hq)
      rw [Sys.after_conn_self, Sys.connAfter, hconn]
      refine ⟨fun f hf => hf, fun f hf => hf.elim, fun _ st => rfl, fun _ v hv => ?_⟩
      obtain rfl := Option.some.inj hv
      exact (Database.Evolves.refl _).finds
  have hfol : ∀ i, ((s₀.after i₀ (.read s₀.db) p).proc i).Follows (sweeping s₀.db) False
      (post i) (g₀ i) := by
    intro i
    by_cases hi : i = i₀
    · subst hi
      simp only [Sys.after_proc_self, post, g₀, Function.update_self]
      exact Request.sweeps hstatus hchange hact
    · simp only [post, g₀, Function.update_of_ne hi]
      exact sweeping_free _
  have hx := ((Sys.exclusive_start db now next fun i => (req i).op.close).run hrun₀).after hen p
  obtain ⟨_, g, hsweeping, hfollows⟩ := Follows.run (sweeping_keeps s₀.db post)
    (fun h => h.elim) hx hinv hfol (hrun₁.mono fun _ _ _ _ => trivial).noFailure
  have hdone : Swept userId s₀.db (.ok (Reply.done (E := E))) (g i₀) := by
    have hpost : post i₀ = Swept userId s₀.db := Function.update_self _ _ _
    rw [← hpost]
    exact (hfollows i₀).reply hret
  obtain ⟨q, hq, _, hended⟩ := hdone _ rfl
  exact (hsweeping.knows i₀ q hq).ended f (hended f hf)

end

/-! ## The rotation that is refused -/

/-- The row with this digest is revoked or of the family, and the family is
over. -/
structure Refused (hash : ℕ) (family : Option ℕ) (v : Database) : Prop where
  row : ∃ r, v.tokenByHash hash = some r ∧ (r.revoked = true ∨ ∃ f, family = some f ∧
    r.familyId = some f)
  ended : ∀ f, family = some f → Ended v f

theorem Refused.evolve {hash : ℕ} {family : Option ℕ} {v v' : Database} (hle : v.Evolves v')
    (h : Refused hash family v) : Refused hash family v' := by
  obtain ⟨r, hr, hcase⟩ := h.row
  obtain ⟨r', hr', hev⟩ := hle.tokenByHash hr
  refine ⟨⟨r', hr', ?_⟩, fun f hf => hle.finds.ended (h.ended f hf)⟩
  rcases hcase with hrev | ⟨f, hfam, hf⟩
  · exact .inl (hev.revoked hrev)
  · exact hev.familyId.symm.imp_right fun hsame => ⟨f, hfam, hsame.trans hf⟩

/-- **A rotation that reads such states only** returns nothing. -/
theorem rotateRefreshToken_refused {F : Prop} (token : E.Token) (teamId : Option (Option ℕ))
    (family : Option ℕ) :
    (rotateRefreshToken E token teamId).Follows
      (Evolution.reads (Refused (E.sha256 token) family)) F
      (fun r _ => ∀ t, r ≠ .ok (some t)) true := by
  have hx : ∀ (x : Err) (q : Bool), ∀ t : E.Token × E.Token, Except.error x ≠ .ok (some t) := nofun
  have hnone : ∀ t : E.Token × E.Token,
      (Except.ok none : Except Err (Option (E.Token × E.Token))) ≠ .ok (some t) := nofun
  have hend : ∀ o : Op Unit, (o.bind fun _ => commitNow.bind fun _ => ret none :
      Op (Option (E.Token × E.Token))).Follows
        (Evolution.reads (Refused (E.sha256 token) family)) F
        (fun r _ => ∀ t, r ≠ .ok (some t)) true := by
    intro o
    refine (within_any o).follows_bind (T := fun _ => True) (fun _ _ _ _ => trivial)
      (fun _ _ _ _ => trivial) trivial (fun _ q _ => ?_) fun x q _ => hx x q
    exact ⟨fun _ => ⟨trivial, hnone⟩, fun _ x => ⟨hx x q, trivial, hx x q⟩⟩
  refine ⟨fun v hv => ⟨trivial, ?_⟩, fun _ x => hx x true⟩
  obtain ⟨row, hrow, hcase⟩ := (hv rfl).row
  simp only [handle, hrow]
  split
  · exact fun _ => ⟨trivial, hend _⟩
  split
  · exact hnone
  rename_i hlive
  obtain ⟨f, hfam, hf⟩ := hcase.resolve_left hlive
  intro now _
  simp only [handle]
  split
  · exact hnone
  -- the session is the one that is over
  refine ⟨fun v' hv' => ⟨trivial, ?_⟩, fun _ x => hx x true⟩
  obtain ⟨s, hs, hrevoked⟩ := (hv' rfl).ended f hfam
  rw [← hf] at hs
  simp only [hs, isUsable, handle, if_pos hrevoked]
  exact hnone

theorem rotation_refused {F : Prop} (token : E.Token) (teamId : Option (Option ℕ))
    (family : Option ℕ) :
    (Request.call (.rotateRefreshToken token teamId)).op.close.Follows
      (Evolution.reads (Refused (E.sha256 token) family)) F
      (fun r _ => ∀ access refresh, r ≠ .ok (.tokens access refresh)) true := by
  have hreply : (Request.call (.rotateRefreshToken token teamId)).op.Follows
      (Evolution.reads (Refused (E.sha256 token) family)) F
      (fun r _ => ∀ access refresh, r ≠ .ok (.tokens access refresh)) true := by
    refine ((rotateRefreshToken_refused token teamId family).handle fun r q hr => ?_)
    match r, hr with
    | .ok (some t), hr => exact absurd rfl (hr t)
    | .ok none, _ => exact nofun
    | .error x, _ => exact nofun
  exact Follows.close hreply

/-! ## The row of an old token -/

/-- If the row is the user's, it is revoked or its family has a session of the
user in `v`. -/
def Settled (userId : ℕ) (v : Database) (r : RefreshToken) : Prop :=
  r.userId = userId → r.revoked = true ∨ v.owned userId r.familyId = true

theorem Settled.evolve {userId : ℕ} {v : Database} {r r' : RefreshToken}
    (h : Settled userId v r) (hev : r.Evolves r') : Settled userId v r' := by
  intro huser
  rw [hev.userId] at huser
  rcases h huser with hrev | howned
  · exact .inl (hev.revoked hrev)
  · rcases hev.familyId with hsame | hrev
    · rw [← hsame] at howned
      exact .inr howned
    · exact .inl hrev

theorem CoveredBy.settled {userId : ℕ} {v db : Database} (h : CoveredBy userId v db)
    {r : RefreshToken} (hr : r ∈ db.refreshTokens) : Settled userId v r := by
  intro huser
  by_cases hrev : r.revoked = true
  · exact .inl hrev
  · exact .inr (h r hr huser (by simpa using hrev))

/-- **A token issued before `s₁`** has a row that is settled in `s₂`. -/
theorem stored_row {req : ι → Request E} {db : Database} {now next userId : ℕ} {v : Database}
    {s₁ s₂ : Sys AuthSig ι (Reply E)} {token : E.Token}
    (hrun₁ : Sys.Run False (fun _ _ _ => True) (serving req db now next) s₁)
    (hcovered : CoveredBy userId v s₁.db)
    (hrun₂ : Sys.Run False (fun s i ℓ => s₁.begun i = true → Orderly userId v s i ℓ) s₁ s₂)
    (hold : IssuedBefore s₁ s₂ token) :
    ∃ r, s₂.db.tokenByHash (E.sha256 token) = some r ∧ Settled userId v r := by
  have hidle := Database.evolution.pending_start db now next fun i => (req i).op.close
  have hmoves := (Database.evolution.run hidle hrun₁).2
  rcases hold with ⟨r, hr⟩ | ⟨i, access, hbegun, hreply⟩
  · obtain ⟨r', hr', hev⟩ := (Database.evolution.run hmoves hrun₂).1.tokenByHash hr
    exact ⟨r', hr', (hcovered.settled (List.mem_of_find?_eq_some hr)).evolve hev⟩
  · have hstart : Minted (fun _ _ => True) (serving req db now next) fun _ => .idle :=
      ⟨hidle, nofun, nofun⟩
    obtain ⟨hx, g₁, hminted, hfol⟩ := Follows.run (minted_keeps fun _ _ _ _ _ => trivial)
      (fun h => h.elim) (Sys.exclusive_start _ _ _ _) hstart (fun i => (req i).minting)
      (hrun₁.mono fun _ _ _ _ _ _ _ => trivial).noFailure
    -- what was stored by `s₁` was covered then, what is stored since was when it was committed
    let P : ι → RefreshToken → Prop := fun i r => s₁.begun i = true → Settled userId v r
    have hminted' : Minted P s₁ g₁ := by
      refine ⟨hminted.moves, hminted.pending, fun i h hi => ?_⟩
      obtain ⟨r, hr, _⟩ := hminted.stored i h hi
      exact ⟨r, hr, fun _ => hcovered.settled (List.mem_of_find?_eq_some hr)⟩
    have hcommits : Sys.Run False (Commits P) s₁ s₂ := by
      refine hrun₂.mono fun s i ℓ hok hℓ r hr hb => ?_
      subst hℓ
      exact CoveredBy.settled (hok hb) hr
    obtain ⟨_, g₂, hstored, hfol₂⟩ := Follows.run (minted_keeps fun i r r' h hev hb =>
      (h hb).evolve hev) (fun h => h.elim) hx hminted' hfol hcommits.noFailure
    obtain ⟨r, hr, hP⟩ := hstored.stored i _ ((hfol₂ i).reply hreply access token rfl)
    exact ⟨r, hr, hP hbegun⟩

/-! ## Suspension is final -/

/-- From `s₁` on no token of the user whose issuance began before is accepted,
whoever presents it, where the steps until it is presented meet `ok`. -/
def RefusedAfter (req : ι → Request E) (userId : ℕ) (s₁ : Sys AuthSig ι (Reply E))
    (ok : Sys AuthSig ι (Reply E) → ι → Label AuthSig → Prop) : Prop :=
  ∀ s₂ s₃ token teamId j access refresh, Sys.Run False ok s₁ s₂ → TokenOf userId s₂.db token →
    IssuedBefore s₁ s₂ token → req j = .call (.rotateRefreshToken token teamId) →
    s₂.begun j = false → Sys.Run False (fun _ _ _ => True) s₂ s₃ →
    (s₃.proc j).reply? ≠ some (.ok (.tokens access refresh))

/-- **Suspension is final where the sweep finds every token.** Let the request
`i₀` make its first read in `s₀` and return in `s₁`. Where it changes the
status, where every live token of the user in `s₀` is of a family with a
session of the user, and where from then on no request that began before
`s₁` commits a live token of any other family, no token of the user whose
issuance began before `s₁` is ever accepted by a later call. -/
theorem suspension_final (E : Env) (req : ι → Request E) (db : Database) (now next : ℕ) (i₀ : ι)
    (userId : ℕ) (status : UserStatus) (reason : Option String) (actor : ℕ)
    (hreq : req i₀ = .setUserStatus userId status reason actor) (hstatus : status ≠ .active)
    (s₀ s₀' s₁ : Sys AuthSig ι (Reply E)) (ℓ : Label AuthSig)
    (hrun₀ : Sys.Run False (fun _ _ _ => True) (serving req db now next) s₀)
    (hbegun : s₀.begun i₀ = false) (hfirst : s₀.Step False i₀ ℓ s₀')
    (hchange : ∀ u, s₀.db.userById userId = some u → u.status ≠ status)
    (hcovered : CoveredBy userId s₀.db s₀.db)
    (hrun₁ : Sys.Run False (Orderly userId s₀.db) s₀' s₁)
    (hret : (s₁.proc i₀).reply? = some (.ok .done)) :
    RefusedAfter req userId s₁
      (fun s i ℓ => s₁.begun i = true → Orderly userId s₀.db s i ℓ) := by
  intro s₂ s₃ token teamId j access refresh hrun₂ htoken hold hj hlate hrun₃ hr
  have hended : ∀ f, s₀.db.owned userId (some f) = true → Ended s₁.db f := fun f =>
    swept_of_returned hreq hstatus hrun₀ hbegun hfirst hchange hrun₁ hret
  have hstep : Sys.Run False (fun _ _ _ => True) s₀ s₀' := .tail .refl trivial hfirst
  have hall₁ := (hrun₀.trans hstep).trans (hrun₁.mono fun _ _ _ _ => trivial)
  have hall₂ := hall₁.trans (hrun₂.mono fun _ _ _ _ => trivial)
  have hcovered₁ : CoveredBy userId s₀.db s₁.db := by
    obtain ⟨p, _, _, rfl, _⟩ := first_read hreq hrun₀ hbegun hfirst
    have hcovered' : CoveredBy userId s₀.db (s₀.after i₀ (.read s₀.db) p).db := hcovered
    exact covered_run hcovered' hrun₁
  have hidle := Database.evolution.pending_start db now next fun i => (req i).op.close
  have hmoves₁ := (Database.evolution.run hidle hall₁).2
  obtain ⟨hle, hmoves₂⟩ := Database.evolution.run hmoves₁ hrun₂
  -- the row the token has is revoked, or its family is one the sweep ended
  have hrow : ∃ r, s₂.db.tokenByHash (E.sha256 token) = some r ∧
      (r.revoked = true ∨ s₀.db.owned userId r.familyId = true) := by
    obtain ⟨r, hr, huser⟩ := htoken
    obtain ⟨r', hr', hP⟩ := stored_row hall₁ hcovered₁ hrun₂ hold
    obtain rfl := Option.some.inj (hr.symm.trans hr')
    exact ⟨r, hr, hP huser⟩
  obtain ⟨r, hrfound, hcase⟩ := hrow
  have hrefused : ∃ family, Refused (E.sha256 token) family s₂.db := by
    rcases hcase with hrev | howned
    · exact ⟨none, ⟨r, hrfound, .inl hrev⟩, nofun⟩
    · cases hf : r.familyId with
      | none =>
        rw [hf] at howned
        cases howned
      | some f =>
        rw [hf] at howned
        refine ⟨some f, ⟨r, hrfound, .inr ⟨f, rfl, hf⟩⟩, fun f' hf' => ?_⟩
        obtain rfl := Option.some.inj hf'
        exact hle.finds.ended (hended f howned)
  obtain ⟨family, hrefused⟩ := hrefused
  obtain ⟨hconn, hproc⟩ := hall₂.unbegun hlate
  have hfol : (s₂.proc j).Follows (Evolution.reads (Refused (E.sha256 token) family)) False
      (fun r _ => ∀ access refresh, r ≠ .ok (.tokens access refresh)) true := by
    rw [hproc, hj]
    exact rotation_refused token teamId family
  have hx := (Sys.exclusive_start db now next fun i => (req i).op.close).run hall₂
  exact Database.evolution.late_reply (fun _ _ hle h => Refused.evolve hle h) hx hmoves₂ hrefused
    (by rw [hconn]; rfl) hfol (fun _ _ _ _ => nofun) hrun₃ hr access refresh rfl

/-! ## One login, suspended and re-enabled -/

/-- The refresh token a login of the user returns. -/
def loginToken : Env.symbolic.Token :=
  match ((Call.generateTokens (E := Env.symbolic) { id := 7, status := .active } .password none
      {}).op.close.run oneUser).1 with
  | .ok (.tokens _ refresh) => refresh
  | _ => (.hs256, {})

/-- A suspension, a login, a re-activation, and a rotation of the login's token. -/
def comeback : Fin 4 → Request Env.symbolic
  | 0 => .setUserStatus 7 .suspended none 1
  | 1 => .call (.generateTokens { id := 7, status := .active } .password none {})
  | 2 => .setUserStatus 7 .active none 1
  | 3 => .call (.rotateRefreshToken loginToken none)

def comebacks : Sys AuthSig (Fin 4) (Reply Env.symbolic) :=
  serving comeback oneUser.base oneUser.now oneUser.next

/-- The request has returned nothing. -/
def returned (s : Sys AuthSig (Fin 4) (Reply Env.symbolic)) (i : Fin 4) : Bool :=
  match (s.proc i).reply? with
  | some (.ok .done) => true
  | _ => false

/-- The request has returned tokens. -/
def accepted (s : Sys AuthSig (Fin 4) (Reply Env.symbolic)) (i : Fin 4) : Bool :=
  match (s.proc i).reply? with
  | some (.ok (.tokens _ _)) => true
  | _ => false

/-- The login's token is stored, for the user. -/
def loginStored (s : Sys AuthSig (Fin 4) (Reply Env.symbolic)) : Bool :=
  onSome (s.db.tokenByHash (Env.symbolic.sha256 loginToken)) fun r => r.userId = 7

section

variable {s s' : Sys AuthSig (Fin 4) (Reply Env.symbolic)} {i : Fin 4}

theorem reply_of_returned (h : returned s i = true) : (s.proc i).reply? = some (.ok .done) := by
  unfold returned at h
  split at h
  · assumption
  · cases h

theorem reply_of_accepted (h : accepted s i = true) :
    ∃ access refresh, (s.proc i).reply? = some (.ok (.tokens access refresh)) := by
  unfold accepted at h
  split at h
  · exact ⟨_, _, by assumption⟩
  · cases h

theorem tokenOf_of_loginStored (h : loginStored s = true) : TokenOf 7 s.db loginToken := by
  unfold loginStored at h
  cases hr : s.db.tokenByHash (Env.symbolic.sha256 loginToken) with
  | none =>
    rw [hr] at h
    cases h
  | some r =>
    rw [hr] at h
    exact ⟨r, hr, of_decide_eq_true h⟩

theorem issuedBefore_of_loginStored (h : loginStored s = true) :
    IssuedBefore s s' loginToken := by
  obtain ⟨r, hr, _⟩ := tokenOf_of_loginStored h
  exact .inl ⟨r, hr⟩

end

/-- The login runs between the first read of the suspension and its second
statement. -/
def overtaken : List (Fin 4) := 0 :: List.replicate 17 1 ++ List.replicate 8 0

/-- **A login that commits after the suspension took its snapshot** keeps its
session: once the account is re-enabled, the old token is accepted. -/
theorem suspension_not_final :
    ¬ ∀ s₁, Sys.Run False (fun _ _ _ => True) comebacks s₁ →
      (s₁.proc 0).reply? = some (.ok .done) → RefusedAfter comeback 7 s₁ fun _ _ _ => True := by
  intro hfinal
  have hplays : (comebacks.follow (fun _ _ _ => True) overtaken).any (fun s₁ =>
      returned s₁ 0 && loginStored s₁ &&
      (s₁.follow (fun _ _ _ => True) (List.replicate 7 2)).any fun s₂ =>
        loginStored s₂ && !s₂.begun 3 &&
        (s₂.follow (fun _ _ _ => True) (List.replicate 23 3)).any fun s₃ => accepted s₃ 3) =
      true := by decide
  obtain ⟨s₁, hs₁, h₁⟩ := (Option.any_eq_true _ _).mp hplays
  simp only [Bool.and_eq_true, Option.any_eq_true, Bool.not_eq_true'] at h₁
  obtain ⟨⟨hreturned, hstored₁⟩, s₂, hs₂, ⟨hstored₂, hlate⟩, s₃, hs₃, haccepted⟩ := h₁
  obtain ⟨access, refresh, hreply⟩ := reply_of_accepted haccepted
  exact hfinal s₁ (Sys.run_of_follow _ hs₁) (reply_of_returned hreturned) s₂ s₃ loginToken none 3
    access refresh (Sys.run_of_follow _ hs₂) (tokenOf_of_loginStored hstored₂)
    (issuedBefore_of_loginStored hstored₁) rfl hlate (Sys.run_of_follow _ hs₃) hreply

/-- A suspension that begins after the login has ended is final for its token. -/
theorem suspension_final_after_login :
    ∃ s₀ s₀' s₁ : Sys AuthSig (Fin 4) (Reply Env.symbolic),
      comebacks.follow (fun _ _ _ => True) (List.replicate 17 1) = some s₀ ∧
      s₀.go (fun _ _ _ => True) 0 = some s₀' ∧
      s₀'.follow (Orderly 7 s₀.db) (List.replicate 16 0) = some s₁ ∧
      TokenOf 7 s₁.db loginToken ∧ IssuedBefore s₁ s₁ loginToken ∧
      RefusedAfter comeback 7 s₁ fun s i ℓ => s₁.begun i = true → Orderly 7 s₀.db s i ℓ := by
  have hplays : (comebacks.follow (fun _ _ _ => True) (List.replicate 17 1)).any (fun s₀ =>
      !s₀.begun 0 && (s₀.db.userById 7).all (fun u => decide (u.status ≠ .suspended)) &&
      decide (CoveredBy 7 s₀.db s₀.db) &&
      (s₀.go (fun _ _ _ => True) 0).any fun s₀' =>
        (s₀'.follow (Orderly 7 s₀.db) (List.replicate 16 0)).any fun s₁ =>
          returned s₁ 0 && loginStored s₁) = true := by decide
  obtain ⟨s₀, hs₀, h₀⟩ := (Option.any_eq_true _ _).mp hplays
  simp only [Bool.and_eq_true, Option.any_eq_true, Bool.not_eq_true', decide_eq_true_eq] at h₀
  obtain ⟨⟨⟨hbegun, hchange⟩, hcovered⟩, s₀', hgo, s₁, hs₁, hreturned, hstored⟩ := h₀
  obtain ⟨ℓ, _, hfirst⟩ := Sys.step_of_go _ hgo
  refine ⟨s₀, s₀', s₁, hs₀, hgo, hs₁, tokenOf_of_loginStored hstored,
    issuedBefore_of_loginStored hstored,
    suspension_final Env.symbolic comeback oneUser.base oneUser.now oneUser.next 0 7 .suspended none
      1 rfl (by decide) s₀ s₀' s₁ ℓ (Sys.run_of_follow _ hs₀) hbegun hfirst (fun u hu => ?_)
      hcovered (Sys.run_of_follow _ hs₁) (reply_of_returned hreturned)⟩
  rw [hu] at hchange
  exact of_decide_eq_true hchange

end OmniAuth
