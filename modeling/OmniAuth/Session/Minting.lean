import OmniAuth.Session.Steps
import OmniAuth.Session.Family
import OmniAuth.Session.Evolution

/-!
# Tokens that were handed out

Requests of this service that interleave: the calls of `Session.Family`, and
changes of an account's status. A request that returns a refresh token has
committed the row of that token, in a state in which the row was what every
row committed then was.
-/

namespace OmniAuth

open Txn Prog

/-- A request to the token service, or to the route that sets a status. -/
inductive Request (E : Env)
  | call (c : Call E)
  | setUserStatus (userId : ℕ) (status : UserStatus) (reason : Option String) (actorUserId : ℕ)

variable {E : Env}

def Request.op : Request E → Op (Reply E)
  | call c => c.op
  | setUserStatus userId status reason actorUserId =>
      (updatePlatformUserStatus userId status reason actorUserId).bind fun _ => ret .done

/-- Requests about to start, each on a connection of its own. -/
def serving {ι : Type} (req : ι → Request E) (db : Database) (now next : ℕ) :
    Sys AuthSig ι (Reply E) :=
  Sys.start db now next fun i => (req i).op.close

/-- How far a request has come with the last token row it inserted. -/
inductive Minting
  | idle
  | pending (hash : ℕ)
  | stored (hash : ℕ)

namespace Minting

def onWrite : Stmt → Minting → Minting
  | .insertRefreshToken row, _ => pending row.tokenHash
  | _, q => q

def onCommit : Minting → Minting
  | pending hash => stored hash
  | q => q

def onRollback : Minting → Minting
  | pending _ => idle
  | q => q

/-- The last row inserted has this digest. -/
def Of (hash : ℕ) (q : Minting) : Prop := q = pending hash ∨ q = stored hash

end Minting

/-- Nothing is asked of a request; its inserts and commits are watched. -/
def minting : Discipline AuthSig Minting where
  next q
    | .wrote stmt _ _ => q.onWrite stmt
    | .committed => q.onCommit
    | .rolledBack => q.onRollback
    | _ => q
  sees _ _ := True
  may _ _ := True

/-! ## Returned tokens are stored -/

/-- The refresh token in the reply is the one whose row was stored last. -/
def Handed (E : Env) (r : Except Err (Reply E)) (q : Minting) : Prop :=
  ∀ access refresh, r = .ok (.tokens access refresh) → q = .stored (E.sha256 refresh)

section

variable {α β : Type} {post : Except Err β → Minting → Prop}

/-- What comes before the insert does not matter. -/
theorem minting_bind {o : Op α} {k : α → Op β} {q : Minting}
    (hk : ∀ a q', (k a).Follows minting False post q') (hx : ∀ x q', post (.error x) q') :
    (o.bind k).Follows minting False post q :=
  (within_any o).follows_bind (T := fun _ => True) (fun _ _ _ _ => trivial)
    (fun _ _ _ _ => trivial) trivial (fun a q' _ => hk a q') fun x q' _ => hx x q'

/-- After the insert, other statements and commits keep the row the last. -/
theorem minting_writing {o : Op α} {k : α → Op β} {hash : ℕ} {q : Minting}
    (h : o.Within False (Writing False fun stmt => ¬ stmt.Mints)) (hq : q.Of hash)
    (hk : ∀ a q', q'.Of hash → (k a).Follows minting False post q')
    (hx : ∀ x q', post (.error x) q') : (o.bind k).Follows minting False post q := by
  refine h.follows_bind (T := Minting.Of hash) (fun _ _ _ _ => trivial) (fun q ℓ hq hℓ => ?_) hq hk
    fun x q' _ => hx x q'
  cases ℓ with
  | wrote stmt seen eff =>
    cases stmt with
    | insertRefreshToken row => exact absurd trivial hℓ
    | _ => exact hq
  | committed =>
    rcases hq with rfl | rfl
    · exact .inr rfl
    · exact .inr rfl
  | rolledBack => exact hℓ.elim
  | _ => exact hq

theorem minting_insert {row : RefreshToken} {k : Unit → Op β} {q : Minting}
    (hk : (k ()).Follows minting False post (.pending row.tokenHash))
    (hx : ∀ x q', post (.error x) q') :
    ((execute (.insertRefreshToken row) : Op Unit).bind k).Follows minting False post q :=
  ⟨fun _ _ _ _ => ⟨trivial, hk⟩, fun _ x _ _ => ⟨trivial, hx x _⟩, False.elim⟩

/-- The commit that a function returns after. -/
theorem minting_commit {hash : ℕ} {q : Minting} (b : β) (hq : q.Of hash)
    (h : post (.ok b) (.stored hash)) :
    (commitNow.bind fun _ => ret b : Op β).Follows minting False post q := by
  refine ⟨fun _ => ⟨trivial, ?_⟩, False.elim⟩
  rcases hq with rfl | rfl
  · exact h
  · exact h

end

theorem generateTokens_minting (user : User) (authMethod : AuthMethod) (idpOrgId : Option ℕ)
    (client : ClientInfo) (q : Minting) :
    (generateTokens E user authMethod idpOrgId client).Follows minting False
      (fun r q => ∀ t, r = .ok t → q = .stored (E.sha256 t.2)) q := by
  have hx : ∀ (x : Err) (q : Minting), ∀ t : E.Token × E.Token, Except.error x = .ok t →
      q = .stored (E.sha256 t.2) := nofun
  refine minting_bind (fun lastLoginAt _ => ?_) hx
  refine minting_bind (fun payload _ => ?_) hx
  refine minting_bind (fun access _ => ?_) hx
  refine minting_bind (fun refresh _ => ?_) hx
  refine minting_bind (fun familyId _ => ?_) hx
  refine minting_bind (fun now _ => ?_) hx
  refine minting_bind (fun id _ => ?_) hx
  refine minting_bind (fun _ _ => ?_) hx
  refine minting_insert ?_ hx
  refine minting_writing (within_weaken (evictOldestSessionsOverLimit_within _)
    fun _ h => h.not_mints) (.inl rfl) (fun _ q hq => ?_) hx
  refine minting_writing (within_weaken (createSession_within _ _ _ _ _ _)
    fun _ h => h.not_mints) hq (fun _ q hq => ?_) hx
  refine minting_commit _ hq fun t ht => ?_
  obtain rfl := Except.ok.inj ht
  rfl

theorem exchange_minting (token : E.Token) (teamId : Option (Option ℕ)) (row : RefreshToken)
    (session : Option UserSession) (user : User) (q : Minting) :
    (exchange E token teamId row session user).Follows minting False
      (fun r q => ∀ t, r = .ok t → q = .stored (E.sha256 t.2)) q := by
  have hx : ∀ (x : Err) (q : Minting), ∀ t : E.Token × E.Token, Except.error x = .ok t →
      q = .stored (E.sha256 t.2) := nofun
  refine minting_bind (fun decodedAt _ => ?_) hx
  refine minting_bind (fun claims _ => ?_) hx
  refine minting_bind (fun access _ => ?_) hx
  refine minting_bind (fun refresh _ => ?_) hx
  refine minting_bind (fun rotatedAt _ => ?_) hx
  refine minting_bind (fun familyId _ => ?_) hx
  refine minting_bind (fun now _ => ?_) hx
  refine minting_bind (fun touched _ => ?_) hx
  refine minting_bind (fun id _ => ?_) hx
  refine minting_bind (fun _ _ => ?_) hx
  refine minting_insert ?_ hx
  refine minting_writing (within_weaken (writeSession_within _ _ _ _ _ _ _)
    fun _ h => h.not_mints) (.inl rfl) (fun _ q hq => ?_) hx
  refine minting_commit _ hq fun t ht => ?_
  obtain rfl := Except.ok.inj ht
  rfl

theorem rotateRefreshToken_minting (token : E.Token) (teamId : Option (Option ℕ)) (q : Minting) :
    (rotateRefreshToken E token teamId).Follows minting False
      (fun r q => ∀ t, r = .ok (some t) → q = .stored (E.sha256 t.2)) q := by
  have hx : ∀ (x : Err) (q : Minting), ∀ t : E.Token × E.Token, Except.error x = .ok (some t) →
      q = .stored (E.sha256 t.2) := nofun
  have hnone : ∀ q : Minting, ∀ t : E.Token × E.Token,
      (Except.ok none : Except Err (Option (E.Token × E.Token))) = .ok (some t) →
      q = .stored (E.sha256 t.2) := nofun
  -- the two branches that end the session return nothing
  have hend : ∀ (o : Op Unit) (q : Minting),
      (o.bind fun _ => commitNow.bind fun _ => ret none :
        Op (Option (E.Token × E.Token))).Follows minting False
        (fun r q => ∀ t, r = .ok (some t) → q = .stored (E.sha256 t.2)) q := fun o q =>
    minting_bind (fun _ _ => minting_bind (fun _ q => hnone q) hx) hx
  refine minting_bind (fun row _ => ?_) hx
  split
  · exact hnone _
  rename_i row
  split
  · exact minting_bind (fun _ _ => hend _ _) hx
  split
  · exact hnone _
  refine minting_bind (fun now _ => ?_) hx
  split
  · exact hnone _
  refine minting_bind (fun session _ => ?_) hx
  refine minting_bind (fun usable _ => ?_) hx
  split
  · exact hnone _
  refine minting_bind (fun violated _ => ?_) hx
  split
  · exact hend _ _
  refine minting_bind (fun user _ => ?_) hx
  split
  · exact hnone _
  rename_i user
  split
  · exact hnone _
  refine (exchange_minting token teamId row session user _).handle fun r q hq => ?_
  cases r with
  | ok t =>
    intro t' ht'
    obtain rfl := Option.some.inj (Except.ok.inj ht')
    exact hq _ rfl
  | error x => exact hx x q

/-- **A refresh token that was handed out is stored.** -/
theorem Request.minting (c : Request E) :
    c.op.close.Follows minting False (Handed E) .idle := by
  -- what is stored stays stored when the connection is closed
  have hclosed : ∀ (r : Except Err (Reply E)) (q : Minting), Handed E r q →
      Handed E r (q.onRollback) := by
    intro r q h a t ht
    rw [h a t ht]
    rfl
  have hdone : ∀ {α : Type} (o : Op α) (f : α → Reply E), (∀ b a t, f b ≠ .tokens a t) →
      (o.bind fun b => ret (f b)).Follows OmniAuth.minting False (Handed E) .idle := by
    intro α o f hf
    refine minting_bind (fun b q a t ht => ?_) (fun x q a t ht => by cases ht)
    exact absurd (Except.ok.inj ht) (hf b a t)
  refine Follows.close (Follows.mono ?_ hclosed)
  cases c with
  | setUserStatus userId status reason actor => exact hdone _ _ nofun
  | call c =>
    cases c with
    | generateTokens user authMethod idpOrgId client =>
      refine (generateTokens_minting user authMethod idpOrgId client _).handle fun r q hq => ?_
      cases r with
      | ok t =>
        intro a t' ht'
        obtain ⟨-, rfl⟩ := Reply.tokens.inj (Except.ok.inj ht')
        exact hq _ rfl
      | error x => exact nofun
    | rotateRefreshToken token teamId =>
      refine (rotateRefreshToken_minting token teamId _).handle fun r q hq => ?_
      match r, hq with
      | .ok (some t), hq =>
        intro a t' ht'
        obtain ⟨-, rfl⟩ := Reply.tokens.inj (Except.ok.inj ht')
        exact hq _ rfl
      | .ok none, _ => exact nofun
      | .error x, _ => exact nofun
    | revokeToken token => exact hdone _ _ nofun
    | revokeSession sessionId => exact hdone _ _ nofun
    | revokeAllSessionsForUser userId reason actor => exact hdone _ _ nofun

/-! ## In what state they were stored -/

section

variable {ι : Type} [DecidableEq ι] (P : ι → RefreshToken → Prop)

/-- A stored row satisfies what every row committed by its process did. -/
structure Minted (s : Sys AuthSig ι (Reply E)) (g : ι → Minting) : Prop where
  moves : Database.evolution.Pending s
  pending : ∀ i h, g i = .pending h → ∀ st, ∃ r ∈ ((s.conn i).pend st).refreshTokens,
    r.tokenHash = h
  stored : ∀ i h, g i = .stored h → ∃ r, s.db.tokenByHash h = some r ∧ P i r

/-- Commits of `i` leave only rows that satisfy `P i`. -/
def Commits (s : Sys AuthSig ι (Reply E)) (i : ι) (ℓ : Label AuthSig) : Prop :=
  ℓ = .committed → ∀ r ∈ (s.latest i).refreshTokens, P i r

variable {P} {s : Sys AuthSig ι (Reply E)} {g : ι → Minting}

/-- A row that some statement inserted and none deleted is found by its digest. -/
theorem exists_tokenByHash {db : Database} {r : RefreshToken} (hr : r ∈ db.refreshTokens) :
    ∃ r', db.tokenByHash r.tokenHash = some r' := by
  refine Option.isSome_iff_exists.mp (List.find?_isSome.mpr ⟨r, hr, ?_⟩)
  exact decide_eq_true rfl

theorem minted_keeps (hP : ∀ i r r', P i r → r.Evolves r' → P i r') :
    minting.Keeps (fun s i ℓ => Commits P s i ℓ ∧ ¬ ℓ.Failure) (fun _ => Handed E)
      (Minted (E := E) P) where
  sees _ _ _ _ := trivial
  after := by
    intro s g i ℓ p _ hi hen hok _ _
    have hle := Database.evolution.after hi.moves i ℓ p
    -- the rows stored before are found again
    have hold : ∀ j h, g j = .stored h →
        ∃ r, (s.after i ℓ p).db.tokenByHash h = some r ∧ P j r := by
      intro j h hj
      obtain ⟨r, hr, hPr⟩ := hi.stored j h hj
      obtain ⟨r', hr', hev⟩ := Database.Evolves.tokenByHash hle hr
      exact ⟨r', hr', hP j r r' hPr hev⟩
    refine ⟨hi.moves.after _ hen p, fun j h hj st => ?_, fun j h hj => ?_⟩
    · by_cases hji : j = i
      · subst hji
        rw [Function.update_self] at hj
        rw [Sys.after_conn_self]
        cases ℓ with
        | wrote stmt seen eff =>
          obtain ⟨_, hden, _⟩ := hen
          have hkept : g j = .pending h → ∃ r ∈ (eff.delta ((s.conn j).pend st)).refreshTokens,
              r.tokenHash = h := by
            intro hg
            obtain ⟨r, hr, hh⟩ := hi.pending j h hg st
            obtain ⟨k, l, hk, htok⟩ := (Database.evolves_denote hden ((s.conn j).pend st)).tokens
            rw [htok]
            refine ⟨k r, List.mem_append_left _ (List.mem_map_of_mem hr), ?_⟩
            rw [(hk r).tokenHash, hh]
          cases stmt with
          | insertRefreshToken row =>
            obtain rfl := Minting.pending.inj hj
            simp only [denote] at hden
            split at hden
            · cases hden
            · obtain rfl := Except.ok.inj hden
              exact ⟨row, List.mem_append_right _ (List.mem_singleton.mpr rfl), rfl⟩
          | _ => exact hkept hj
        | committed =>
          have hj : (g j).onCommit = .pending h := hj
          cases hg : g j <;> rw [hg] at hj <;> cases hj
        | rolledBack =>
          have hj : (g j).onRollback = .pending h := hj
          cases hg : g j <;> rw [hg] at hj <;> cases hj
        | commitFailed x => exact absurd trivial hok.2
        | commitLost x => exact absurd trivial hok.2
        | crashed x => exact absurd trivial hok.2
        | _ => exact hi.pending j h hj st
      · rw [Function.update_of_ne hji] at hj
        rw [Sys.after_conn_of_ne _ _ _ hji]
        exact hi.pending j h hj st
    · by_cases hji : j = i
      · subst hji
        rw [Function.update_self] at hj
        cases ℓ with
        | committed =>
          have hj : (g j).onCommit = .stored h := hj
          cases hg : g j with
          | idle =>
            rw [hg] at hj
            cases hj
          | pending h' =>
            rw [hg] at hj
            obtain rfl := Minting.stored.inj hj
            obtain ⟨r, hr, rfl⟩ := hi.pending j h' hg s.db
            obtain ⟨r', hr'⟩ := exists_tokenByHash hr
            exact ⟨r', hr', hok.1 rfl r' (List.mem_of_find?_eq_some hr')⟩
          | stored h' =>
            rw [hg] at hj
            exact hold j h (hg.trans hj)
        | rolledBack =>
          have hj : (g j).onRollback = .stored h := hj
          cases hg : g j with
          | stored h' =>
            rw [hg] at hj
            exact hold j h (hg.trans hj)
          | idle =>
            rw [hg] at hj
            cases hj
          | pending h' =>
            rw [hg] at hj
            cases hj
        | wrote stmt seen eff =>
          cases stmt with
          | insertRefreshToken row => cases hj
          | _ => exact hold j h hj
        | _ => exact hold j h hj
      · rw [Function.update_of_ne hji] at hj
        exact hold j h hj

end

end OmniAuth
