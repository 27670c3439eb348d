import OmniAuth.Session.Race
import OmniAuth.Session.Lifetime

/-!
# What concurrent rotations leave behind

`rotate_refresh_token` promises that a family has one live token and that a
replay ends it. Interleaved calls keep the promise as long as the `UPDATE`
of the loser finds nothing to lose: it must not be executed on a row that
is revoked already. Nothing in the code prevents that, and then two tokens
of one family are live.
-/

namespace OmniAuth

open Txn Prog

variable {E : Env} {ι : Type} [DecidableEq ι]

/-- Calls of `rotate_refresh_token` that present the same token, about to
start. -/
def presentations (E : Env) (token : E.Token) (teamId : ι → Option (Option ℕ)) (db : Database)
    (now next : ℕ) : Sys AuthSig ι (Option (E.Token × E.Token)) :=
  Sys.start db now next fun i => (rotateRefreshToken E token (teamId i)).close

/-- Some later history of the services has the token rotated. -/
def RotatableLater (E : Env) (db : Database) (token : E.Token) : Prop :=
  ∃ (w w₁ w₂ : World) (teamId : Option (Option ℕ)) (t : E.Token × E.Token),
    w.base = db ∧ w.cur = db ∧ Call.Run E w w₁ ∧
    (Call.rotateRefreshToken token teamId).Step w₁ (.ok (.tokens t.1 t.2)) w₂

/-- What is promised of calls that present `token` and have all ended: its
family has at most one live row, at most one of the tokens they returned can
ever be rotated again, and none of them when reuse was detected. -/
structure RotationSafe (E : Env) (token : E.Token)
    (s : Sys AuthSig ι (Option (E.Token × E.Token))) : Prop where
  live : ∀ row f, s.db.tokenByHash (E.sha256 token) = some row → row.familyId = some f →
    (s.db.refreshTokens.filter fun r => r.familyId = some f ∧ r.revoked = false).length ≤ 1
  one : ∀ i j t t', s.proc i = .ret (some t) → s.proc j = .ret (some t') →
    RotatableLater E s.db t.2 → RotatableLater E s.db t'.2 → i = j
  reuse : ∀ i f, (i, Event.reuseDetected f) ∈ s.log →
    ∀ j t, s.proc j = .ret (some t) → ¬ RotatableLater E s.db t.2

theorem Call.Run.evolves {w w' : World} (h : Call.Run E w w') (hclean : w.cur = w.base) :
    w.base.Evolves w'.base ∧ w'.cur = w'.base := by
  induction h with
  | refl => exact ⟨.refl _, hclean⟩
  | tail _ hstep ih =>
    obtain ⟨hle, hclean₁⟩ := ih
    obtain ⟨w₂, h₂, rfl⟩ := exec_close.mp hstep
    have hev := Database.evolution.exec h₂ (by rw [hclean₁]; exact .refl _)
    exact ⟨hle.trans hev.1, rfl⟩

/-- A revoked token is never rotated again. -/
theorem not_rotatableLater {db : Database} {token : E.Token} {row : RefreshToken}
    (hfound : db.tokenByHash (E.sha256 token) = some row) (hrev : row.revoked = true) :
    ¬ RotatableLater E db token := by
  rintro ⟨w, w₁, w₂, teamId, t, hbase, hcur, hrun, hstep⟩
  obtain ⟨hle, hclean⟩ := hrun.evolves (hcur.trans hbase.symm)
  rw [hbase] at hle
  obtain ⟨row₁, hfound₁, hev⟩ := hle.tokenByHash hfound
  obtain ⟨w₃, h₃, -⟩ := exec_close.mp hstep
  obtain ⟨r₀, houtcome, hnone, _, herr⟩ := Call.rotate_outcome h₃
  cases houtcome with
  | refused => cases hnone rfl
  | ended => cases hnone rfl
  | failed x row' => cases herr x rfl
  | exchanged tokens row' found admitted =>
    rw [hclean, hfound₁] at found
    obtain rfl := Option.some.inj found
    have hlive := admitted.not_revoked
    rw [hev.revoked hrev] at hlive
    cases hlive

/-! ## Reading the invariant off -/

section

variable {hash : ℕ} {p : RefreshToken} {first : ℕ} {db₀ db : Database}

theorem Untouched.live_length (h : Untouched db₀ db) (f : ℕ) :
    (db.refreshTokens.filter fun r => r.familyId = some f ∧ r.revoked = false).length ≤
      (db₀.refreshTokens.filter fun r => r.familyId = some f ∧ r.revoked = false).length := by
  obtain ⟨k, hk, htok⟩ := h
  rw [htok, List.filter_map, List.length_map]
  refine (List.monotone_filter_right _ fun r hr => ?_).length_le
  have hd := hk r
  simp only [Function.comp_apply, decide_eq_true_eq, hd.familyId] at hr ⊢
  refine ⟨hr.1, ?_⟩
  by_contra hrev
  have := hd.revoked (by simpa using hrev)
  rw [hr.2] at this
  cases this

theorem Rotated.live_length {row : RefreshToken} {f : ℕ} (h : Rotated hash p row db)
    (hf : row.familyId = some f) :
    (db.refreshTokens.filter fun r => r.familyId = some f ∧ r.revoked = false).length ≤ 1 := by
  obtain ⟨old, r', htok, _, hold⟩ := h.tokens
  have hnone : old.filter (fun r => r.familyId = some f ∧ r.revoked = false) = [] := by
    refine List.filter_eq_nil_iff.mpr fun r hr => ?_
    have hrev := (hold r hr).1
    simp only [decide_eq_true_eq, not_and]
    intro hrf hlive
    rw [hrev (hrf.trans hf.symm)] at hlive
    cases hlive
  rw [htok, List.filter_append, hnone, List.nil_append]
  exact (List.length_filter_le _ _).trans (Nat.le_refl _)

end

/-- What a call that detected reuse ends in. -/
theorem Progress.Done.reuse {r : Except Err (Option (E.Token × E.Token))} {q : Progress}
    (h : q.Done E r) (hreuse : q.reuse.isSome) :
    q.reuse = some none ∨ ∃ f, q = .wiped f := by
  have hsettled : q.Settled := by
    match r, h with
    | .ok (some t), h =>
      obtain ⟨row, rfl, _⟩ := h
      trivial
    | .ok none, h => exact h
    | .error x, h => exact h
  cases q with
  | detected f =>
    cases f with
    | none => exact .inl rfl
    | some f => exact hsettled.elim
  | wiping f => exact hsettled.elim
  | wiped f => exact .inr ⟨f, rfl⟩
  | _ => cases hreuse

omit [DecidableEq ι] in
/-- **The invariant is the promise**, once every call has ended. -/
theorem RaceInv.safe {token : E.Token} {p : RefreshToken} {first : ℕ} {db₀ : Database}
    {s : Sys AuthSig ι (Option (E.Token × E.Token))} {g : ι → Progress}
    (hi : RaceInv (E.sha256 token) p first db₀ s g) (hone : OneLive p first db₀)
    (hp : ∀ row, db₀.tokenByHash (E.sha256 token) = some row → row = p)
    (hdone : ∀ i r, (s.proc i).reply? = some r → (g i).Done E r)
    (hended : ∀ i, (s.proc i).reply?.isSome) : RotationSafe E token s := by
  have hissued : ∀ i t, s.proc i = .ret (some t) →
      ∃ row, g i = .issued row ∧ row.tokenHash = E.sha256 t.2 := fun i t h =>
    hdone i (.ok (some t)) (by rw [h]; rfl)
  have hunique : ∀ i j row row', g i = .issued row → g j = .issued row' → i = j := by
    intro i j row row' hgi hgj
    obtain ⟨_, hnone⟩ | ⟨k, _, _, _, hk⟩ := hi.stage
    · exact absurd hgi (hnone i row)
    · rw [hk i row hgi, hk j row' hgj]
  refine ⟨fun row f hfound hf => ?_, fun i j t t' ht ht' _ _ => ?_, fun i f hmem j t ht => ?_⟩
  · obtain ⟨hun, _⟩ | ⟨k, row', hk, hrot, _⟩ := hi.stage
    · obtain ⟨_, ⟨hfam, _, _⟩ | ⟨_, j, row', hj, _⟩⟩ := hi.lookup hp hfound
      · exact (hun.live_length f).trans (hone.live f (hfam.symm.trans hf))
      · obtain ⟨_, hnone⟩ | ⟨_, row'', _, hrot, _⟩ := hi.stage
        · exact absurd hj (hnone j row')
        · obtain ⟨r, hr, _, _, _, _, hfam⟩ := hrot.presented
          obtain rfl := Option.some.inj (hfound.symm.trans hr)
          exact hrot.live_length (hfam.symm.trans hf)
    · obtain ⟨r, hr, _, _, _, _, hfam⟩ := hrot.presented
      obtain rfl := Option.some.inj (hfound.symm.trans hr)
      exact hrot.live_length (hfam.symm.trans hf)
  · obtain ⟨row, hgi, _⟩ := hissued i t ht
    obtain ⟨row', hgj, _⟩ := hissued j t' ht'
    exact hunique i j row row' hgi hgj
  · obtain ⟨row, hgj, hhash⟩ := hissued j t ht
    obtain ⟨_, hnotrot⟩ := hi.exchanging j (by rw [hgj]; trivial)
    have hnot : p.rotatedAt.isSome ≠ true := by
      rw [hnotrot]
      nofun
    -- the call that detected reuse wiped the family of the row that was issued
    obtain ⟨r, hr⟩ := Option.isSome_iff_exists.mp (hended i)
    have hwiped : ∃ f, g i = .wiped f ∧ row.familyId = some f := by
      have hfamily : ∀ f, (g i).reuse = some f → row.familyId = f := by
        intro f hf
        obtain ⟨k, row', hk, hfam⟩ := (hi.reuse i f hf).resolve_left hnot
        obtain rfl := hunique j k row row' hgj hk
        rw [hgj] at hk
        obtain rfl := Progress.issued.inj hk
        exact hfam
      rcases (hdone i r hr).reuse (hi.log i f hmem) with hnone | ⟨f', hf'⟩
      · obtain ⟨_, hno⟩ | ⟨k, row', hk, hrot, _⟩ := hi.stage
        · exact absurd hgj (hno j row)
        · obtain rfl := hunique j k row row' hgj hk
          rw [hgj] at hk
          obtain rfl := Progress.issued.inj hk
          have := hrot.family
          rw [hfamily none hnone] at this
          cases this
      · exact ⟨f', hf', hfamily (some f') (by rw [hf']; rfl)⟩
    obtain ⟨f', hgi, hfam⟩ := hwiped
    have hrevoked := (hi.wiped i f' hgi).resolve_left hnot
    obtain ⟨_, hno⟩ | ⟨k, row', hk, hrot, _⟩ := hi.stage
    · exact absurd hgj (hno j row)
    obtain rfl := hunique j k row row' hgj hk
    rw [hgj] at hk
    obtain rfl := Progress.issued.inj hk
    obtain ⟨old, last, htok, hlast, hold⟩ := hrot.tokens
    have hfound : s.db.tokenByHash (E.sha256 t.2) = some last := by
      simp only [Database.tokenByHash, htok]
      refine find?_append_last (fun b hb => ?_) ?_
      · simpa [← hhash] using (hold b hb).2
      · simp [hlast.tokenHash, hhash]
    refine not_rotatableLater hfound (hrevoked last ?_ (hlast.familyId.trans hfam))
    rw [htok]
    exact List.mem_append_right _ (List.mem_singleton.mpr rfl)

/-- The presented row; some row of no family when there is none. -/
theorem exists_presented (db : Database) (hash : ℕ) :
    ∃ p, (∀ row, db.tokenByHash hash = some row → row = p) ∧
      ∀ f, p.familyId = some f → db.tokenByHash hash = some p := by
  cases h : db.tokenByHash hash with
  | some p => exact ⟨p, fun row hrow => (Option.some.inj hrow).symm, fun _ _ => rfl⟩
  | none => exact ⟨⟨0, 0, 0, false, 0, none, none⟩, nofun, nofun⟩

omit [DecidableEq ι] in
theorem raceInv_start {token : E.Token} {teamId : ι → Option (Option ℕ)} {db : Database}
    {now next : ℕ} (p : RefreshToken) :
    RaceInv (E.sha256 token) p next db (presentations E token teamId db now next)
      (fun _ => .start) where
  next := Nat.le_refl _
  conn _ := rfl
  exchanging _ h := h.elim
  stage := .inl ⟨⟨id, fun _ => .inl rfl, by simp [presentations, Sys.start]⟩, nofun⟩
  reuse := nofun
  wiped := nofun
  log i f h := by simp [presentations, Sys.start] at h

/-- **Concurrent rotations.** Calls that present the same token, in any
number and any interleaving: where the token's family had at most one live
row and no call executes its `UPDATE` on a row that is revoked already, the
promise is kept when all have ended. -/
theorem rotations_safe_of_timely (E : Env) (token : E.Token) (teamId : ι → Option (Option ℕ))
    (db : Database) (now next : ℕ)
    (hlive : ∀ row f, db.tokenByHash (E.sha256 token) = some row → row.familyId = some f →
      (db.refreshTokens.filter fun r => r.familyId = some f ∧ r.revoked = false).length ≤ 1)
    (hbelow : ∀ r ∈ db.refreshTokens, ∀ f, r.familyId = some f → f < next)
    (s : Sys AuthSig ι (Option (E.Token × E.Token)))
    (hrun : Sys.Run False Timely (presentations E token teamId db now next) s)
    (hended : ∀ i, (s.proc i).reply?.isSome) : RotationSafe E token s := by
  obtain ⟨p, hp, hpfound⟩ := exists_presented db (E.sha256 token)
  have hone : OneLive p next db := ⟨fun f hf => hlive p f (hpfound f hf) hf, hbelow⟩
  obtain ⟨_, g, hinv, hfollows⟩ := Follows.run (raceInv_keeps hp hone fun _ => Progress.Done E)
    (fun h => h.elim) (Sys.exclusive_start _ _ _ _) (raceInv_start p)
    (fun i => rotateRefreshToken_follows token (teamId i)) hrun.noFailure
  exact hinv.safe hone hp (fun i r hr => (hfollows i).reply hr) hended

/-! ## Two calls, two schedules -/

/-- One user, logged in once. -/
def loggedIn : World :=
  Call.runAll (E := Env.symbolic) [.generateTokens { id := 7, status := .active } .password none {}]
    oneUser

/-- Two calls with the token of that login. -/
def contest : Sys AuthSig Bool (Option (Env.symbolic.Token × Env.symbolic.Token)) :=
  presentations Env.symbolic (.hs256, { jti := some 2 }) (fun _ => none) loggedIn.base
    loggedIn.now loggedIn.next

/-- Both calls read, then the first writes, then the second. -/
def crossed : List Bool :=
  List.replicate 18 false ++ List.replicate 18 true ++ List.replicate 5 false ++
    List.replicate 5 true

/-- One call after the other. -/
def inTurn : List Bool := List.replicate 23 false ++ List.replicate 12 true

/-- All calls have ended. -/
def allEnded (s : Sys AuthSig Bool (Option (Env.symbolic.Token × Env.symbolic.Token))) : Bool :=
  (s.proc false).reply?.isSome && (s.proc true).reply?.isSome

/-- The live rows of the family the login made. -/
def liveRows (db : Database) : ℕ :=
  (db.refreshTokens.filter fun r => r.familyId = some 3 ∧ r.revoked = false).length

theorem ended_of_allEnded {s : Sys AuthSig Bool (Option (Env.symbolic.Token × Env.symbolic.Token))}
    (h : allEnded s = true) (i : Bool) : (s.proc i).reply?.isSome := by
  obtain ⟨hf, ht⟩ := (Bool.and_eq_true _ _).mp h
  cases i
  · exact hf
  · exact ht

/-- **Both calls read before either writes**, and the family has two live
rows in the end. -/
theorem rotations_unsafe :
    ¬ ∀ s, Sys.Run False (fun _ _ _ => True) contest s → (∀ i, (s.proc i).reply?.isSome) →
      RotationSafe Env.symbolic (.hs256, { jti := some 2 }) s := by
  intro hsafe
  have hplays : (contest.follow (fun _ _ _ => True) crossed).isSome := by decide
  have hended : (contest.follow (fun _ _ _ => True) crossed).all allEnded = true := by
    decide
  have hlive : (contest.follow (fun _ _ _ => True) crossed).map
      (fun s => liveRows s.db) = some 2 := by decide
  have hfamily : (contest.follow (fun _ _ _ => True) crossed).map
      (fun s => (s.db.tokenByHash 2).map (·.familyId)) = some (some (some 3)) := by decide
  obtain ⟨s, hs⟩ := Option.isSome_iff_exists.mp hplays
  rw [hs] at hended hlive hfamily
  obtain ⟨row, hrow, hf⟩ := Option.map_eq_some_iff.mp (Option.some.inj hfamily)
  have hone := (hsafe s (Sys.run_of_follow _ hs) (ended_of_allEnded hended)).live row 3 hrow hf
  have htwo : liveRows s.db = 2 := Option.some.inj hlive
  unfold liveRows at htwo
  omega

/-- In turn, the second call detects the reuse, and the promise holds. -/
theorem rotations_safe_in_turn :
    ∃ s, contest.follow Timely inTurn = some s ∧ (true, Event.reuseDetected (some 3)) ∈ s.log ∧
      RotationSafe Env.symbolic (.hs256, { jti := some 2 }) s := by
  have hplays : (contest.follow Timely inTurn).isSome := by decide
  have hended : (contest.follow Timely inTurn).all allEnded = true := by decide
  have hreuse : (contest.follow Timely inTurn).all
      (fun s => decide ((true, Event.reuseDetected (some 3)) ∈ s.log)) = true := by decide
  have hlength : loggedIn.base.refreshTokens.length ≤ 1 := by decide
  have hbelow : ∀ r ∈ loggedIn.base.refreshTokens, ∀ f ∈ r.familyId, f < loggedIn.next := by decide
  obtain ⟨s, hs⟩ := Option.isSome_iff_exists.mp hplays
  rw [hs] at hended hreuse
  exact ⟨s, hs, of_decide_eq_true hreuse,
    rotations_safe_of_timely Env.symbolic (.hs256, { jti := some 2 }) (fun _ => none) loggedIn.base
      loggedIn.now loggedIn.next (fun _ _ _ _ => (List.length_filter_le _ _).trans hlength)
      (fun r hr f hf => hbelow r hr f hf) s (Sys.run_of_follow _ hs) (ended_of_allEnded hended)⟩

end OmniAuth
