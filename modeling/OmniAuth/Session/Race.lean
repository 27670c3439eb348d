import OmniAuth.Session.Rotation
import OmniAuth.Session.Evolution

/-!
# The race for one refresh token

The half of the argument that looks at the store. A call that executed its
`UPDATE` holds the lock on the presented row until its transaction ends, so
while it does, nobody else's commit touches that row; once it has committed,
the row is revoked for good, and a second `UPDATE` of it is the step that
runs here are assumed not to make.
-/

namespace OmniAuth

open Txn Prog

/-! ## Pending changes -/

/-- What an open transaction that revokes will do to the token rows: each
decays as `k` says, and the rows it does not lock stay. -/
structure Mild (held : List RowKey) (pend : Database → Database)
    (k : RefreshToken → RefreshToken) : Prop where
  decays : ∀ r : RefreshToken, r.Decays (k r)
  locked : ∀ r : RefreshToken, .refreshToken r.id ∉ held → k r = r
  tokens : ∀ db : Database, (pend db).refreshTokens = db.refreshTokens.map k

theorem mild_id (held : List RowKey) : Mild held id id :=
  ⟨fun _ => .inl rfl, fun _ _ => rfl, fun _ => by simp⟩

/-- Revoking more. -/
theorem Mild.updateTokens {held locks : List RowKey} {pend : Database → Database}
    {k : RefreshToken → RefreshToken} (h : Mild held pend k) (ids : List ℕ)
    (hlocks : ∀ i ∈ ids, .refreshToken i ∈ locks) :
    Mild (locks ++ held) (Database.updateTokens ids RefreshToken.revoke ∘ pend)
      (fun r => if r.id ∈ ids then (k r).revoke else k r) where
  decays r := by
    have hk := h.decays r
    by_cases hr : r.id ∈ ids
    · simpa only [if_pos hr] using hk.trans (.inr rfl)
    · simpa only [if_neg hr] using hk
  locked r hr := by
    have hnot : r.id ∉ ids := fun hmem => hr (List.mem_append_left _ (hlocks _ hmem))
    rw [if_neg hnot]
    exact h.locked r fun hmem => hr (List.mem_append_right _ hmem)
  tokens db := by
    simp only [Function.comp_apply, Database.updateTokens, h.tokens, List.map_map]
    refine List.map_congr_left fun r _ => ?_
    simp only [Function.comp_apply, (h.decays r).id]

/-- A revoking statement adds to what is pending. -/
theorem Mild.stmt {held : List RowKey} {pend : Database → Database}
    {k : RefreshToken → RefreshToken} (h : Mild held pend k) {stmt : Stmt} {seen : Database}
    {eff : Effect Database RowKey} (hstmt : stmt.Revokes) (hden : denote stmt seen = .ok eff) :
    ∃ k', Mild (eff.locks ++ held) (eff.delta ∘ pend) k' := by
  cases stmt with
  | revokeFamily f =>
    obtain rfl := Except.ok.inj hden
    exact ⟨_, h.updateTokens _ fun i hi => List.mem_map_of_mem hi⟩
  | revokeSession i t reason =>
    obtain rfl := Except.ok.inj hden
    exact ⟨k, h.decays, fun r hr => h.locked r fun hmem => hr (List.mem_append_right _ hmem),
      h.tokens⟩
  | insertAuditEvent event =>
    obtain rfl := Except.ok.inj hden
    exact ⟨k, h.decays, h.locked, h.tokens⟩
  | _ => exact hstmt.elim

/-- The rows with this id are all live. -/
def Unrevoked (db : Database) (i : ℕ) : Prop :=
  ∀ r ∈ db.refreshTokens, r.id = i → r.revoked = false

/-- The rows are those of `db₀`, some revoked since. -/
def Untouched (db₀ db : Database) : Prop :=
  ∃ k : RefreshToken → RefreshToken, (∀ r : RefreshToken, r.Decays (k r)) ∧
    db.refreshTokens = db₀.refreshTokens.map k

section

variable (hash : ℕ) (p : RefreshToken) (first : ℕ)

/-- The presented row was rotated once, and `row` was issued for it. -/
structure Rotated (row : RefreshToken) (db : Database) : Prop where
  tokens : ∃ old r', db.refreshTokens = old ++ [r'] ∧ row.Decays r' ∧
    ∀ r ∈ old, (r.familyId = row.familyId → r.revoked = true) ∧ r.tokenHash ≠ row.tokenHash
  family : row.familyId.isSome
  presented : ∃ r, db.tokenByHash hash = some r ∧ r ∈ db.refreshTokens ∧ r.id = p.id ∧
    r.revoked = true ∧ r.rotatedAt.isSome ∧ r.familyId = row.familyId

/-- What is pending while a call has come so far. -/
def Progress.Holds (q : Progress) (db : Database) (c : Conn AuthSig) : Prop :=
  match q with
  | start => c = Conn.idle AuthSig
  | passed => c.pend = id
  | rotating f => .refreshToken p.id ∈ c.held ∧ Unrevoked db p.id ∧
      ∃ t b, Backfills p first b ∧ f = (b.orElse fun _ => p.familyId) ∧ ∀ db : Database,
        (c.pend db).refreshTokens =
          (db.updateTokens [p.id] (RefreshToken.rotate t b)).refreshTokens
  | issuing row => .refreshToken p.id ∈ c.held ∧ Unrevoked db p.id ∧
      (∀ r ∈ db.refreshTokens, r.tokenHash ≠ row.tokenHash) ∧ row.familyId.isSome ∧
      ∃ t b, Backfills p first b ∧ row.familyId = (b.orElse fun _ => p.familyId) ∧
        ∀ db : Database, (c.pend db).refreshTokens =
          (db.updateTokens [p.id] (RefreshToken.rotate t b)).refreshTokens ++ [row]
  | wiping f => ∃ (k : RefreshToken → RefreshToken) (ids : List ℕ), Mild c.held c.pend k ∧
      (∀ r : RefreshToken, r.id ∈ ids → (k r).revoked = true) ∧
      ∀ r ∈ db.refreshTokens, r.familyId = some f → r.id ∈ ids
  | _ => ∃ k, Mild c.held c.pend k

variable {ι α : Type}

/-- **The race invariant.** -/
structure RaceInv (db₀ : Database) (s : Sys AuthSig ι α) (g : ι → Progress) : Prop where
  next : first ≤ s.next
  conn : ∀ i, (g i).Holds p first s.db (s.conn i)
  exchanging : ∀ i, (g i).Exchanging → db₀.tokenByHash hash = some p ∧ p.rotatedAt = none
  stage : (Untouched db₀ s.db ∧ ∀ i row, g i ≠ .issued row) ∨
    ∃ i row, g i = .issued row ∧ Rotated hash p row s.db ∧ ∀ j row', g j = .issued row' → j = i
  reuse : ∀ i f, (g i).reuse = some f →
    p.rotatedAt.isSome ∨ ∃ j row, g j = .issued row ∧ row.familyId = f
  wiped : ∀ i f, g i = .wiped f → p.rotatedAt.isSome ∨ s.db.FamilyRevoked f
  log : ∀ i f, (i, Event.reuseDetected f) ∈ s.log → (g i).reuse.isSome

variable {hash p first} {db₀ : Database} {s : Sys AuthSig ι α} {g : ι → Progress}

/-- A call that has begun does not depend on its snapshot. -/
theorem Progress.Holds.of_same {q : Progress} {db : Database} {c c' : Conn AuthSig}
    (h : q.Holds p first db c) (hq : q ≠ .start) (hpend : c'.pend = c.pend)
    (hheld : c'.held = c.held) : q.Holds p first db c' := by
  cases q with
  | start => exact absurd rfl hq
  | _ => simpa only [Progress.Holds, hpend, hheld] using h

/-- Nothing is pending in a call that is not in the middle of a write. -/
theorem Progress.holds_idle {q : Progress} {db : Database} (hrot : ∀ f, q ≠ .rotating f)
    (hiss : ∀ row, q ≠ .issuing row) (hwipe : ∀ f, q ≠ .wiping f) :
    q.Holds p first db (Conn.idle AuthSig) := by
  cases q with
  | start => rfl
  | passed => rfl
  | rotating f => exact absurd rfl (hrot f)
  | issuing row => exact absurd rfl (hiss row)
  | wiping f => exact absurd rfl (hwipe f)
  | _ => exact ⟨id, mild_id _⟩

variable [DecidableEq ι]

/-- **A step that commits nothing** moves one call, and its connection. -/
theorem RaceInv.moves (hi : RaceInv hash p first db₀ s g) {i : ι} {ℓ : Label AuthSig}
    {pr : Prog AuthSig α} {q : Progress} (hdb : s.dbAfter i ℓ = s.db)
    (hnext : first ≤ (s.after i ℓ pr).next) (hconn : q.Holds p first s.db (s.connAfter i ℓ))
    (hex : q.Exchanging → db₀.tokenByHash hash = some p ∧ p.rotatedAt = none)
    (hissued : ∀ row, q = .issued row ↔ g i = .issued row)
    (hreuse : ∀ f, q.reuse = some f →
      p.rotatedAt.isSome ∨ ∃ j row, g j = .issued row ∧ row.familyId = f)
    (hwiped : ∀ f, q = .wiped f → p.rotatedAt.isSome ∨ s.db.FamilyRevoked f)
    (hkeep : (g i).reuse.isSome → q.reuse.isSome)
    (hemit : ∀ f, ℓ = .emitted (.reuseDetected f) → q.reuse.isSome) :
    RaceInv hash p first db₀ (s.after i ℓ pr) (Function.update g i q) := by
  have hdb' : (s.after i ℓ pr).db = s.db := hdb
  have hiss : ∀ j row, Function.update g i q j = .issued row ↔ g j = .issued row := by
    intro j row
    by_cases hj : j = i
    · subst hj
      rw [Function.update_self]
      exact hissued row
    · rw [Function.update_of_ne hj]
  refine ⟨hnext, fun j => ?_, fun j => ?_, ?_, fun j f => ?_, fun j f => ?_, fun j f hmem => ?_⟩
  · rw [hdb']
    by_cases hj : j = i
    · subst hj
      rwa [Function.update_self, Sys.after_conn_self]
    · rw [Function.update_of_ne hj, Sys.after_conn_of_ne _ _ _ hj]
      exact hi.conn j
  · by_cases hj : j = i
    · subst hj
      rwa [Function.update_self]
    · rw [Function.update_of_ne hj]
      exact hi.exchanging j
  · simp only [hdb', hiss, ne_eq]
    exact hi.stage
  · simp only [hiss]
    by_cases hj : j = i
    · subst hj
      rw [Function.update_self]
      exact hreuse f
    · rw [Function.update_of_ne hj]
      exact hi.reuse j f
  · rw [hdb']
    by_cases hj : j = i
    · subst hj
      rw [Function.update_self]
      exact hwiped f
    · rw [Function.update_of_ne hj]
      exact hi.wiped j f
  · rcases Sys.mem_log_after hmem with hold | ⟨rfl, rfl⟩
    · by_cases hj : j = i
      · subst hj
        rw [Function.update_self]
        exact hkeep (hi.log j f hold)
      · rw [Function.update_of_ne hj]
        exact hi.log j f hold
    · rw [Function.update_self]
      exact hemit f rfl

/-- A step after which the call is where it was. -/
theorem RaceInv.stays (hi : RaceInv hash p first db₀ s g) {i : ι} {ℓ : Label AuthSig}
    {pr : Prog AuthSig α} (hdb : s.dbAfter i ℓ = s.db)
    (hnext : first ≤ (s.after i ℓ pr).next) (hconn : (g i).Holds p first s.db (s.connAfter i ℓ))
    (hemit : ∀ f, ℓ = .emitted (.reuseDetected f) → (g i).reuse.isSome) :
    RaceInv hash p first db₀ (s.after i ℓ pr) (Function.update g i (g i)) :=
  hi.moves hdb hnext hconn (hi.exchanging i) (fun _ => Iff.rfl) (hi.reuse i) (hi.wiped i) id hemit

/-- A call that has neither issued a row nor found the reuse of one. -/
def Progress.Plain : Progress → Prop
  | start | passed | quiet | rotating _ | issuing _ => True
  | _ => False

theorem Progress.Plain.ne_issued {q : Progress} (h : q.Plain) (row : RefreshToken) :
    q ≠ .issued row := by
  rintro rfl
  exact h

theorem Progress.Plain.ne_wiped {q : Progress} (h : q.Plain) (f : ℕ) : q ≠ .wiped f := by
  rintro rfl
  exact h

theorem Progress.Plain.reuse {q : Progress} (h : q.Plain) : q.reuse = none := by
  cases q with
  | issued row => exact h.elim
  | detected f => exact h.elim
  | wiping f => exact h.elim
  | wiped f => exact h.elim
  | _ => rfl

/-- A step between two such stages, that commits nothing and reports no reuse. -/
theorem RaceInv.moves_plain (hi : RaceInv hash p first db₀ s g) {i : ι} {ℓ : Label AuthSig}
    {pr : Prog AuthSig α} {q : Progress} (hdb : s.dbAfter i ℓ = s.db)
    (hnext : first ≤ (s.after i ℓ pr).next) (hconn : q.Holds p first s.db (s.connAfter i ℓ))
    (hex : q.Exchanging → db₀.tokenByHash hash = some p ∧ p.rotatedAt = none)
    (hg : (g i).Plain) (hq : q.Plain) (hquiet : ∀ f, ℓ ≠ .emitted (.reuseDetected f)) :
    RaceInv hash p first db₀ (s.after i ℓ pr) (Function.update g i q) := by
  refine hi.moves hdb hnext hconn hex (fun row => ?_) (fun f hf => ?_)
    (fun f hf => (hq.ne_wiped f hf).elim) (fun h => ?_) (fun f hf => (hquiet f hf).elim)
  · exact ⟨fun h => (hq.ne_issued row h).elim, fun h => (hg.ne_issued row h).elim⟩
  · rw [hq.reuse] at hf
    cases hf
  · rw [hg.reuse] at h
    cases h

omit [DecidableEq ι] in
/-- What the first read of a call finds. -/
theorem RaceInv.lookup (hi : RaceInv hash p first db₀ s g)
    (hp : ∀ row, db₀.tokenByHash hash = some row → row = p) {row : RefreshToken}
    (h : s.db.tokenByHash hash = some row) :
    row.id = p.id ∧
      ((row.familyId = p.familyId ∧ row.rotatedAt = p.rotatedAt ∧ db₀.tokenByHash hash = some p) ∨
      (row.rotatedAt.isSome ∧ ∃ j row', g j = .issued row' ∧ row'.familyId = row.familyId)) := by
  rcases hi.stage with ⟨⟨k, hk, htok⟩, _⟩ | ⟨j, row', hj, hrot, _⟩
  · have hcomp : (fun r : RefreshToken => decide (r.tokenHash = hash)) ∘ k =
        fun r => decide (r.tokenHash = hash) := by
      funext r
      simp [(hk r).tokenHash]
    have hfind : s.db.tokenByHash hash = (db₀.tokenByHash hash).map k := by
      simp only [Database.tokenByHash, htok, List.find?_map, hcomp]
    rw [h] at hfind
    obtain ⟨r₀, hr₀, hkr⟩ := Option.map_eq_some_iff.mp hfind.symm
    obtain rfl := hp r₀ hr₀
    have hd := hk r₀
    rw [hkr] at hd
    exact ⟨hd.id, .inl ⟨hd.familyId, hd.rotatedAt, hr₀⟩⟩
  · obtain ⟨r, hr, _, hid, _, hrotated, hfam⟩ := hrot.presented
    obtain rfl := Option.some.inj (h.symm.trans hr)
    exact ⟨hid, .inr ⟨hrotated, j, row', hj, hfam.symm⟩⟩

/-- A call that begins. -/
theorem RaceInv.reads (hi : RaceInv hash p first db₀ s g)
    (hp : ∀ row, db₀.tokenByHash hash = some row → row = p) {i : ι} {v : Database}
    (pr : Prog AuthSig α) (hen : s.Enabled i (.read v)) :
    RaceInv hash p first db₀ (s.after i (.read v) pr)
      (Function.update g i ((g i).onRead hash v)) := by
  by_cases hg : g i = .start
  · have hconn := hi.conn i
    rw [hg] at hconn
    have hconn : s.conn i = Conn.idle AuthSig := hconn
    have hv : v = s.db := by
      have : v = s.view i := hen
      rw [this, Sys.view, hconn]
      rfl
    subst hv
    rw [hg]
    have hpend : (s.connAfter i (.read s.db)).pend = id := by
      simp only [Sys.connAfter, hconn]
      rfl
    have hmild : ∃ k, Mild (s.connAfter i (.read s.db)).held (s.connAfter i (.read s.db)).pend k :=
      ⟨id, hpend ▸ mild_id _⟩
    have hplain : (g i).Plain := by
      rw [hg]
      trivial
    have hquiet : ∀ f, (Label.read s.db : Label AuthSig) ≠ .emitted (.reuseDetected f) := by
      rintro f ⟨⟩
    simp only [Progress.onRead]
    split
    · exact hi.moves_plain rfl hi.next hmild (fun h => h.elim) hplain trivial hquiet
    · rename_i row hrow
      obtain ⟨-, hcase⟩ := hi.lookup hp hrow
      split
      · rename_i hrotated
        refine hi.moves rfl hi.next hmild (fun h => h.elim) (fun row => ?_) (fun f hf => ?_)
          (fun f hf => by cases hf) (fun h => ?_) (fun f hf => (hquiet f hf).elim)
        · exact ⟨fun h => (by cases h), fun h => (hplain.ne_issued row h).elim⟩
        · obtain rfl : row.familyId = f := Option.some.inj hf
          rcases hcase with ⟨_, hrot, _⟩ | ⟨_, hissued⟩
          · exact .inl (hrot ▸ hrotated)
          · exact .inr hissued
        · rw [hplain.reuse] at h
          cases h
      · rename_i hrotated
        refine hi.moves_plain rfl hi.next hpend (fun _ => ?_) hplain trivial hquiet
        rcases hcase with ⟨_, hrot, hfound⟩ | ⟨hsome, _⟩
        · exact ⟨hfound, by simpa [hrot] using hrotated⟩
        · exact absurd hsome hrotated
  · have hsame : (g i).onRead hash v = g i := by
      cases h : g i <;> first | exact absurd h hg | rfl
    rw [hsame]
    exact hi.stays rfl hi.next ((hi.conn i).of_same hg rfl rfl) fun f h => by cases h

/-- A mild write of a call that stays where it is. -/
theorem RaceInv.revokes (hi : RaceInv hash p first db₀ s g) {i : ι} {stmt : Stmt}
    {seen : Database} {eff : Effect Database RowKey} (pr : Prog AuthSig α)
    (hden : denote stmt seen = .ok eff) (hstmt : stmt.Revokes)
    (hmild : ∃ k, Mild (s.conn i).held (s.conn i).pend k)
    (hstill : ∀ c, (∃ k, Mild c.held c.pend k) → (g i).Holds p first s.db c) :
    RaceInv hash p first db₀ (s.after i (.wrote stmt seen eff) pr) (Function.update g i (g i)) := by
  obtain ⟨k, hk⟩ := hmild
  exact hi.stays rfl hi.next (hstill _ (hk.stmt hstmt hden)) fun f h => by cases h

omit [DecidableEq ι] in
/-- Reuse was detected in the family of the row that was issued. -/
theorem RaceInv.wipes (hi : RaceInv hash p first db₀ s g) {i : ι} {f : ℕ}
    (hg : g i = .detected (some f)) {seen : Database} {eff : Effect Database RowKey}
    (hseen : seen = s.latest i) (hden : denote (.revokeFamily f) seen = .ok eff) :
    (Progress.wiping f).Holds p first s.db (s.connAfter i (.wrote (.revokeFamily f) seen eff)) := by
  have hconn := hi.conn i
  rw [hg] at hconn
  obtain ⟨k, hk⟩ : ∃ k, Mild (s.conn i).held (s.conn i).pend k := hconn
  obtain rfl := Except.ok.inj hden
  refine ⟨_, seen.familyIds f, hk.updateTokens _ fun i hi => List.mem_map_of_mem hi, ?_, ?_⟩
  · intro r hr
    rw [if_pos hr]
    rfl
  · intro r hr hf
    have hkr : k r ∈ seen.refreshTokens := by
      rw [hseen, Sys.latest, hk.tokens]
      exact List.mem_map_of_mem hr
    have hd := hk.decays r
    refine List.mem_map.mpr ⟨k r, List.mem_filter.mpr ⟨hkr, ?_⟩, hd.id⟩
    simpa using hd.familyId.trans hf

theorem hash_updateTokens {db : Database} (ids : List ℕ) (t : ℕ) (b : Option ℕ) {r : RefreshToken}
    (hr : r ∈ db.refreshTokens) : ∃ r' ∈ (db.updateTokens ids (RefreshToken.rotate t b)).refreshTokens,
      r'.tokenHash = r.tokenHash := by
  refine ⟨_, List.mem_map_of_mem hr, ?_⟩
  by_cases h : r.id ∈ ids <;> simp [h, RefreshToken.rotate]

omit [DecidableEq ι] in
/-- The insertion goes through only for a digest nobody has. -/
theorem RaceInv.inserts (hi : RaceInv hash p first db₀ s g) {i : ι} {f : Option ℕ}
    (hg : g i = .rotating f) {row : RefreshToken} (hf : row.familyId = f) (hsome : f.isSome)
    {seen : Database} {eff : Effect Database RowKey}
    (hseen : seen = s.latest i) (hden : denote (.insertRefreshToken row) seen = .ok eff) :
    (Progress.issuing row).Holds p first s.db
      (s.connAfter i (.wrote (.insertRefreshToken row) seen eff)) := by
  have hconn := hi.conn i
  rw [hg] at hconn
  obtain ⟨hlock, hun, t, b, hback, rfl, hpend⟩ := hconn
  simp only [denote] at hden
  split at hden
  · cases hden
  rename_i hnew
  obtain rfl := Except.ok.inj hden
  refine ⟨List.mem_append_right _ hlock, hun, fun r hr heq => hnew ?_, hf ▸ hsome, t, b, hback, hf,
    fun db => ?_⟩
  · obtain ⟨r', hr', hhash⟩ := hash_updateTokens [p.id] t b hr
    refine ⟨r', ?_, .inr (hhash.trans heq)⟩
    rw [hseen, Sys.latest, hpend]
    exact hr'
  · simp only [Sys.connAfter, Function.comp_apply, Database.insertToken, hpend]

/-- **A write.** -/
theorem RaceInv.writes (hi : RaceInv hash p first db₀ s g) {i : ι} {stmt : Stmt}
    {seen : Database} {eff : Effect Database RowKey} (pr : Prog AuthSig α)
    (hen : s.Enabled i (.wrote stmt seen eff)) (hmay : (g i).MayWrite p first stmt)
    (htimely : ∀ i' t b, stmt = .rotateRefreshToken i' t b → Unrevoked seen i') :
    RaceInv hash p first db₀ (s.after i (.wrote stmt seen eff) pr)
      (Function.update g i ((g i).onWrite p.familyId stmt)) := by
  obtain ⟨hseen, hden, -⟩ := hen
  have hconn := hi.conn i
  have hex := hi.exchanging i
  have hreuse := hi.reuse i
  have hwipes : ∀ f, g i = .detected (some f) → denote (.revokeFamily f) seen = .ok eff →
      (Progress.wiping f).Holds p first s.db (s.connAfter i (.wrote (.revokeFamily f) seen eff)) :=
    fun f hf => hi.wipes hf hseen
  have hquiet : ∀ f, (Label.wrote stmt seen eff : Label AuthSig) ≠ .emitted (.reuseDetected f) := by
    rintro f ⟨⟩
  have hrev : ∀ pr, stmt.Revokes → (∃ k, Mild (s.conn i).held (s.conn i).pend k) →
      (∀ c, (∃ k, Mild c.held c.pend k) → (g i).Holds p first s.db c) →
      RaceInv hash p first db₀ (s.after i (.wrote stmt seen eff) pr) (Function.update g i (g i)) :=
    fun pr => hi.revokes pr hden
  cases hg : g i with
  | start => rw [hg] at hmay; exact hmay.elim
  | issued row => rw [hg] at hmay; exact hmay.elim
  | wiping f => rw [hg] at hmay; exact hmay.elim
  | quiet =>
    rw [hg] at hmay hconn hrev
    exact hrev pr hmay hconn fun _ h => h
  | wiped f =>
    rw [hg] at hmay hconn hrev
    exact hrev pr hmay hconn fun _ h => h
  | detected f =>
    cases f with
    | none =>
      rw [hg] at hmay hconn hrev
      exact hrev pr hmay hconn fun _ h => h
    | some f =>
      rw [hg] at hmay hreuse
      obtain rfl : stmt = .revokeFamily f := hmay
      refine hi.moves rfl hi.next (hwipes f hg hden) (fun h => h.elim) (fun row => ?_) hreuse
        (fun f' h => by cases h) (fun _ => rfl) (fun f' h => (hquiet f' h).elim)
      rw [hg]
      constructor <;> rintro ⟨⟩
  | passed =>
    rw [hg] at hmay hconn hex
    have hpend : (s.conn i).pend = id := hconn
    have hplain : (g i).Plain := by
      rw [hg]
      trivial
    have hgivesUp : stmt.Revokes →
        RaceInv hash p first db₀ (s.after i (.wrote stmt seen eff) pr)
          (Function.update g i .quiet) := fun hstmt =>
      hi.moves_plain rfl hi.next ((hpend ▸ mild_id (s.conn i).held).stmt hstmt hden)
        (fun h => h.elim) hplain trivial hquiet
    cases stmt with
    | rotateRefreshToken i' t b =>
      obtain ⟨rfl, hback⟩ := hmay
      obtain rfl := Except.ok.inj hden
      have hdb : seen = s.db := by
        rw [hseen, Sys.latest, hpend]
        rfl
      have hholds : (Progress.rotating (b.orElse fun _ => p.familyId)).Holds p first s.db
          (s.connAfter i (.wrote (.rotateRefreshToken p.id t b) seen
            ⟨[.refreshToken p.id], Database.updateTokens [p.id] (RefreshToken.rotate t b)⟩)) := by
        refine ⟨by simp [Sys.connAfter], hdb ▸ htimely _ _ _ rfl, t, b, hback, rfl, fun db => ?_⟩
        simp only [Sys.connAfter, hpend]
        rfl
      exact hi.moves_plain rfl hi.next hholds (fun _ => hex trivial) hplain trivial hquiet
    | revokeFamily f => exact hgivesUp trivial
    | revokeSession i' t reason => exact hgivesUp trivial
    | insertAuditEvent e => exact hgivesUp trivial
    | _ => exact hmay.elim
  | rotating f =>
    rw [hg] at hmay hex
    have hplain : (g i).Plain := by
      rw [hg]
      trivial
    cases stmt with
    | insertRefreshToken row =>
      obtain ⟨hf, hsome⟩ := hmay
      exact hi.moves_plain rfl hi.next (hi.inserts hg hf hsome hseen hden) (fun _ => hex trivial)
        hplain trivial hquiet
    | _ => exact hmay.elim
  | issuing row =>
    rw [hg] at hmay hconn
    obtain ⟨hlock, hun, hnew, hsome, t, b, hback, hfam, hpend⟩ := hconn
    -- a session statement leaves the token rows alone
    have htouch : (∀ db : Database, (eff.delta db).refreshTokens = db.refreshTokens) →
        RaceInv hash p first db₀ (s.after i (.wrote stmt seen eff) pr)
          (Function.update g i (g i)) := by
      intro heff
      refine hi.stays rfl hi.next ?_ fun f h => (hquiet f h).elim
      rw [hg]
      refine ⟨List.mem_append_right _ hlock, hun, hnew, hsome, t, b, hback, hfam, fun db => ?_⟩
      exact (heff _).trans (hpend db)
    rw [hg] at htouch
    cases stmt with
    | touchSession i' t' e =>
      obtain rfl := Except.ok.inj hden
      exact htouch fun _ => rfl
    | insertSession row' =>
      simp only [denote] at hden
      split at hden
      · cases hden
      · obtain rfl := Except.ok.inj hden
        exact htouch fun _ => rfl
    | _ => exact hmay.elim

/-! ## Commits -/

omit [DecidableEq ι] in
/-- Another call's lock keeps a mild commit off the presented row. -/
theorem Progress.Holds.of_mild {q : Progress} {db db' : Database} {c : Conn AuthSig}
    {k : RefreshToken → RefreshToken} (h : q.Holds p first db c)
    (hk : ∀ r : RefreshToken, r.Decays (k r)) (htok : db'.refreshTokens = db.refreshTokens.map k)
    (hlock : .refreshToken p.id ∈ c.held → ∀ r : RefreshToken, r.id = p.id → k r = r) :
    q.Holds p first db' c := by
  have hun : .refreshToken p.id ∈ c.held → Unrevoked db p.id → Unrevoked db' p.id := by
    intro hheld hun r' hr' hid
    rw [htok] at hr'
    obtain ⟨r, hr, rfl⟩ := List.mem_map.mp hr'
    have hrid : r.id = p.id := (hk r).id.symm.trans hid
    rw [hlock hheld r hrid]
    exact hun r hr hrid
  cases q with
  | rotating f => exact ⟨h.1, hun h.1 h.2.1, h.2.2⟩
  | issuing row =>
    refine ⟨h.1, hun h.1 h.2.1, fun r' hr' => ?_, h.2.2.2⟩
    rw [htok] at hr'
    obtain ⟨r, hr, rfl⟩ := List.mem_map.mp hr'
    exact (hk r).tokenHash ▸ h.2.2.1 r hr
  | wiping f =>
    obtain ⟨k', ids, hmild, hids, hall⟩ := h
    refine ⟨k', ids, hmild, hids, fun r' hr' hf => ?_⟩
    rw [htok] at hr'
    obtain ⟨r, hr, rfl⟩ := List.mem_map.mp hr'
    rw [(hk r).id]
    exact hall r hr ((hk r).familyId.symm.trans hf)
  | _ => exact h

theorem tokenByHash_map {db db' : Database} {k : RefreshToken → RefreshToken}
    (hk : ∀ r : RefreshToken, (k r).tokenHash = r.tokenHash)
    (htok : db'.refreshTokens = db.refreshTokens.map k) (hash : ℕ) :
    db'.tokenByHash hash = (db.tokenByHash hash).map k := by
  have hcomp : (fun r : RefreshToken => decide (r.tokenHash = hash)) ∘ k =
      fun r => decide (r.tokenHash = hash) := by
    funext r
    simp [hk r]
  simp only [Database.tokenByHash, htok, List.find?_map, hcomp]

theorem Untouched.mild {db db' : Database} {k : RefreshToken → RefreshToken}
    (h : Untouched db₀ db) (hk : ∀ r : RefreshToken, r.Decays (k r))
    (htok : db'.refreshTokens = db.refreshTokens.map k) : Untouched db₀ db' := by
  obtain ⟨k₀, hk₀, h₀⟩ := h
  exact ⟨k ∘ k₀, fun r => (hk₀ r).trans (hk _), by rw [htok, h₀, List.map_map]⟩

theorem Rotated.mild {row : RefreshToken} {db db' : Database} {k : RefreshToken → RefreshToken}
    (h : Rotated hash p row db) (hk : ∀ r : RefreshToken, r.Decays (k r))
    (htok : db'.refreshTokens = db.refreshTokens.map k) : Rotated hash p row db' where
  tokens := by
    obtain ⟨old, r', hdb, hr', hold⟩ := h.tokens
    refine ⟨old.map k, k r', by simp [htok, hdb], hr'.trans (hk r'), fun r hr => ?_⟩
    obtain ⟨r₁, hr₁, rfl⟩ := List.mem_map.mp hr
    obtain ⟨hrev, hne⟩ := hold r₁ hr₁
    have hd := hk r₁
    exact ⟨fun hf => hd.revoked (hrev (hd.familyId ▸ hf)), hd.tokenHash ▸ hne⟩
  family := h.family
  presented := by
    obtain ⟨r, hfound, hr, hid, hrev, hrot, hfam⟩ := h.presented
    have hd := hk r
    refine ⟨k r, ?_, htok ▸ List.mem_map_of_mem hr, hd.id.trans hid, hd.revoked hrev,
      hd.rotatedAt ▸ hrot, hd.familyId.trans hfam⟩
    rw [tokenByHash_map (fun r => (hk r).tokenHash) htok, hfound]
    rfl

theorem familyRevoked_map {db db' : Database} {k : RefreshToken → RefreshToken} {f : ℕ}
    (h : db.FamilyRevoked f) (hk : ∀ r : RefreshToken, r.Decays (k r))
    (htok : db'.refreshTokens = db.refreshTokens.map k) : db'.FamilyRevoked f := by
  intro r' hr' hf
  rw [htok] at hr'
  obtain ⟨r, hr, rfl⟩ := List.mem_map.mp hr'
  exact (hk r).revoked (h r hr ((hk r).familyId ▸ hf))

/-- **A commit that only revokes.** -/
theorem RaceInv.commits (hi : RaceInv hash p first db₀ s g) (hx : s.Exclusive) {i : ι}
    {k : RefreshToken → RefreshToken} (hk : Mild (s.conn i).held (s.conn i).pend k)
    (pr : Prog AuthSig α) {q : Progress}
    (hidle : ∀ db, q.Holds p first db (Conn.idle AuthSig))
    (hex : q.Exchanging → (g i).Exchanging) (hissued : ∀ row, q = .issued row ↔ g i = .issued row)
    (hreuse : q.reuse = (g i).reuse)
    (hwiped : ∀ f, q = .wiped f → p.rotatedAt.isSome ∨ (s.latest i).FamilyRevoked f) :
    RaceInv hash p first db₀ (s.after i .committed pr) (Function.update g i q) := by
  have htok : (s.latest i).refreshTokens = s.db.refreshTokens.map k := hk.tokens s.db
  have hdb : (s.after i .committed pr).db = s.latest i := rfl
  have hiss : ∀ j row, Function.update g i q j = .issued row ↔ g j = .issued row := by
    intro j row
    by_cases hj : j = i
    · subst hj
      rw [Function.update_self]
      exact hissued row
    · rw [Function.update_of_ne hj]
  refine ⟨hi.next, fun j => ?_, fun j => ?_, ?_, fun j f => ?_, fun j f => ?_, fun j f hmem => ?_⟩
  · rw [hdb]
    by_cases hj : j = i
    · subst hj
      rw [Function.update_self, Sys.after_conn_self]
      exact hidle _
    · rw [Function.update_of_ne hj, Sys.after_conn_of_ne _ _ _ hj]
      refine (hi.conn j).of_mild hk.decays htok fun hheld r hr => hk.locked r ?_
      rw [hr]
      exact hx j i hj _ hheld
  · by_cases hj : j = i
    · subst hj
      rw [Function.update_self]
      exact fun h => hi.exchanging j (hex h)
    · rw [Function.update_of_ne hj]
      exact hi.exchanging j
  · simp only [hdb, hiss, ne_eq]
    rcases hi.stage with ⟨hun, hnone⟩ | ⟨j, row, hj, hrot, hone⟩
    · exact .inl ⟨hun.mild hk.decays htok, hnone⟩
    · exact .inr ⟨j, row, hj, hrot.mild hk.decays htok, hone⟩
  · simp only [hiss]
    by_cases hj : j = i
    · subst hj
      rw [Function.update_self, hreuse]
      exact hi.reuse j f
    · rw [Function.update_of_ne hj]
      exact hi.reuse j f
  · rw [hdb]
    by_cases hj : j = i
    · subst hj
      rw [Function.update_self]
      exact hwiped f
    · rw [Function.update_of_ne hj]
      exact fun h => (hi.wiped j f h).imp_right fun h => familyRevoked_map h hk.decays htok
  · have hold := hi.log j f hmem
    by_cases hj : j = i
    · subst hj
      rwa [Function.update_self, hreuse]
    · rwa [Function.update_of_ne hj]

/-- What `refresh_tokens` must look like for a family to be rotated at all:
at most one live row, and no identifier yet to be drawn. -/
structure OneLive (p : RefreshToken) (first : ℕ) (db : Database) : Prop where
  live : ∀ f, p.familyId = some f →
    (db.refreshTokens.filter fun r => r.familyId = some f ∧ r.revoked = false).length ≤ 1
  below : ∀ r ∈ db.refreshTokens, ∀ f, r.familyId = some f → f < first

theorem eq_of_length_le_one {β : Type} {l : List β} (h : l.length ≤ 1) {a b : β} (ha : a ∈ l)
    (hb : b ∈ l) : a = b := by
  match l, h, ha, hb with
  | [_], _, ha, hb => rw [List.mem_singleton.mp ha, List.mem_singleton.mp hb]

/-- **The exchange, committed**, leaves the issued row the only live one of
its family. -/
theorem rotated_of_issuing {db db' : Database} {row : RefreshToken} {t : ℕ} {b : Option ℕ}
    (hone : OneLive p first db₀) (hfound : db₀.tokenByHash hash = some p)
    (huntouched : Untouched db₀ db) (hun : Unrevoked db p.id)
    (hnew : ∀ r ∈ db.refreshTokens, r.tokenHash ≠ row.tokenHash) (hsome : row.familyId.isSome)
    (hback : Backfills p first b) (hfam : row.familyId = (b.orElse fun _ => p.familyId))
    (htok : db'.refreshTokens =
      (db.updateTokens [p.id] (RefreshToken.rotate t b)).refreshTokens ++ [row]) :
    Rotated hash p row db' := by
  obtain ⟨k, hk, hdb⟩ := huntouched
  have hmem : p ∈ db₀.refreshTokens := tokenByHash_mem hfound
  have hlive : p.revoked = false := by
    have hkp : (k p).revoked = false := by
      refine hun (k p) ?_ (hk p).id
      rw [hdb]
      exact List.mem_map_of_mem hmem
    by_contra hrev
    rw [(hk p).revoked (by simpa using hrev)] at hkp
    cases hkp
  -- a live row of the family is the presented one
  have honly : ∀ r₀ ∈ db₀.refreshTokens, r₀.familyId = row.familyId → r₀.revoked = false →
      r₀.id = p.id := by
    intro r₀ hr₀ hf hrev
    rcases hback with ⟨hpsome, rfl⟩ | ⟨hpnone, g, rfl, hg⟩
    · obtain ⟨f, hpf⟩ := Option.isSome_iff_exists.mp hpsome
      have hrf : r₀.familyId = some f := hf.trans (hfam.trans hpf)
      have heq : r₀ = p := by
        refine eq_of_length_le_one (hone.live f hpf) ?_ ?_
        · exact List.mem_filter.mpr ⟨hr₀, by simp [hrf, hrev]⟩
        · exact List.mem_filter.mpr ⟨hmem, by simp [hpf, hlive]⟩
      rw [heq]
    · have hlt := hone.below r₀ hr₀ g (hf.trans hfam)
      omega
  refine ⟨⟨_, row, htok, .inl rfl, ?_⟩, hsome, ?_⟩
  · refine Database.forall_updateTokens.mpr fun r hr => ?_
    have hr' := hr
    rw [hdb] at hr'
    obtain ⟨r₀, hr₀, rfl⟩ := List.mem_map.mp hr'
    refine ⟨fun _ => ⟨fun _ => rfl, hnew (k r₀) hr⟩, fun hid => ⟨fun hf => ?_, hnew _ hr⟩⟩
    by_contra hrev
    have hlive₀ : r₀.revoked = false := by
      by_contra h
      exact hrev ((hk r₀).revoked (by simpa using h))
    refine hid (List.mem_singleton.mpr ?_)
    rw [(hk r₀).id]
    exact honly r₀ hr₀ ((hk r₀).familyId.symm.trans hf) hlive₀
  · have hkp : db.tokenByHash hash = some (k p) := by
      rw [tokenByHash_map (fun r => (hk r).tokenHash) hdb, hfound]
      rfl
    have hrot : (db.updateTokens [p.id] (RefreshToken.rotate t b)).tokenByHash hash =
        some ((k p).rotate t b) := by
      rw [tokenByHash_map (k := fun r => if r.id ∈ [p.id] then r.rotate t b else r) ?_ rfl, hkp]
      · have hin : (k p).id ∈ [p.id] := List.mem_singleton.mpr (hk p).id
        rw [Option.map_some, if_pos hin]
      · intro r
        by_cases h : r.id ∈ [p.id] <;> simp [h, RefreshToken.rotate]
    refine ⟨(k p).rotate t b, ?_, ?_, (hk p).id, rfl, rfl, ?_⟩
    · simp only [Database.tokenByHash] at hrot
      simp only [Database.tokenByHash, htok, List.find?_append, hrot]
      rfl
    · rw [htok]
      exact List.mem_append_left _ (tokenByHash_mem hrot)
    · rw [hfam]
      simp only [RefreshToken.rotate, (hk p).familyId]

/-- **The commit that issues.** Nobody else was rotating, and from here on
nobody can be. -/
theorem RaceInv.issues (hi : RaceInv hash p first db₀ s g) (hx : s.Exclusive)
    (hone : OneLive p first db₀) {i : ι} {row : RefreshToken} (hg : g i = .issuing row)
    (pr : Prog AuthSig α) :
    RaceInv hash p first db₀ (s.after i .committed pr) (Function.update g i (.issued row)) := by
  have hconn := hi.conn i
  rw [hg] at hconn
  obtain ⟨hlock, hun, hnew, hsome, t, b, hback, hfam, hpend⟩ := hconn
  obtain ⟨hfound, hnotrot⟩ := hi.exchanging i (by rw [hg]; trivial)
  have hdb : (s.after i .committed pr).db = s.latest i := rfl
  obtain ⟨huntouched, hnone⟩ : Untouched db₀ s.db ∧ ∀ i row, g i ≠ .issued row := by
    refine hi.stage.resolve_right ?_
    rintro ⟨_, row', _, hrot, _⟩
    obtain ⟨r, _, hr, hid, hrev, _⟩ := hrot.presented
    rw [hun r hr hid] at hrev
    cases hrev
  have hrotated : Rotated hash p row (s.latest i) :=
    rotated_of_issuing hone hfound huntouched hun hnew hsome hback hfam (hpend s.db)
  have hnoreuse : ∀ j f, (g j).reuse ≠ some f := by
    intro j f hf
    rcases hi.reuse j f hf with h | ⟨j', row', h, _⟩
    · rw [hnotrot] at h
      cases h
    · exact hnone j' row' h
  have hnot : ∀ j ≠ i, .refreshToken p.id ∉ (s.conn j).held := fun j hj h => hx j i hj _ h hlock
  refine ⟨hi.next, fun j => ?_, fun j => ?_, ?_, fun j f => ?_, fun j f => ?_, fun j f hmem => ?_⟩
  · rw [hdb]
    by_cases hj : j = i
    · subst hj
      rw [Function.update_self, Sys.after_conn_self]
      exact ⟨id, mild_id _⟩
    · rw [Function.update_of_ne hj, Sys.after_conn_of_ne _ _ _ hj]
      have hc := hi.conn j
      cases h : g j with
      | rotating f =>
        rw [h] at hc
        exact absurd hc.1 (hnot j hj)
      | issuing row' =>
        rw [h] at hc
        exact absurd hc.1 (hnot j hj)
      | wiping f => exact absurd (by rw [h]; rfl) (hnoreuse j (some f))
      | _ => rw [h] at hc; exact hc
  · by_cases hj : j = i
    · subst hj
      rw [Function.update_self]
      exact fun _ => ⟨hfound, hnotrot⟩
    · rw [Function.update_of_ne hj]
      exact hi.exchanging j
  · refine .inr ⟨i, row, Function.update_self .., hrotated, fun j row' hj => ?_⟩
    by_contra hne
    rw [Function.update_of_ne hne] at hj
    exact hnone j row' hj
  · intro hf
    by_cases hj : j = i
    · subst hj
      rw [Function.update_self] at hf
      cases hf
    · rw [Function.update_of_ne hj] at hf
      exact absurd hf (hnoreuse j f)
  · intro hf
    by_cases hj : j = i
    · subst hj
      rw [Function.update_self] at hf
      cases hf
    · rw [Function.update_of_ne hj] at hf
      exact absurd (by rw [hf]; rfl) (hnoreuse j (some f))
  · have hold := hi.log j f hmem
    obtain ⟨f', hf'⟩ := Option.isSome_iff_exists.mp hold
    exact absurd hf' (hnoreuse j f')

/-- **A commit.** -/
theorem RaceInv.committed (hi : RaceInv hash p first db₀ s g) (hx : s.Exclusive)
    (hone : OneLive p first db₀) {i : ι} (hmay : ∀ f, g i ≠ .rotating f) (pr : Prog AuthSig α) :
    RaceInv hash p first db₀ (s.after i .committed pr) (Function.update g i (g i).onCommit) := by
  have hconn := hi.conn i
  have hwiped := hi.wiped i
  -- a call with revocations pending, or nothing, and that stays where it is
  have hstays : ∀ k, Mild (s.conn i).held (s.conn i).pend k →
      (∀ db, (g i).Holds p first db (Conn.idle AuthSig)) →
      RaceInv hash p first db₀ (s.after i .committed pr) (Function.update g i (g i)) := by
    intro k hk hidle
    refine hi.commits hx hk pr hidle id (fun _ => Iff.rfl) rfl fun f hf => ?_
    exact (hwiped f hf).imp_right fun h => familyRevoked_map h hk.decays (hk.tokens s.db)
  cases hg : g i with
  | rotating f => exact absurd hg (hmay f)
  | issuing row => exact hi.issues hx hone hg pr
  | wiping f =>
    rw [hg] at hconn
    obtain ⟨k, ids, hk, hids, hall⟩ := hconn
    refine hi.commits hx hk pr (fun _ => ⟨id, mild_id _⟩) (fun h => h.elim) (fun row => ?_) ?_ ?_
    · rw [hg]
      constructor <;> rintro ⟨⟩
    · rw [hg]
      rfl
    · rintro f' ⟨⟩
      refine .inr fun r' hr' hf => ?_
      have htok : (s.latest i).refreshTokens = s.db.refreshTokens.map k := hk.tokens s.db
      rw [htok] at hr'
      obtain ⟨r, hr, rfl⟩ := List.mem_map.mp hr'
      exact hids r (hall r hr ((hk.decays r).familyId.symm.trans hf))
  | start =>
    rw [hg] at hconn hstays
    have hidle : s.conn i = Conn.idle AuthSig := hconn
    exact hstays id (by rw [hidle]; exact mild_id _) fun _ => rfl
  | passed =>
    rw [hg] at hconn hstays
    have hpend : (s.conn i).pend = id := hconn
    exact hstays id (by rw [hpend]; exact mild_id _) fun _ => rfl
  | _ =>
    rw [hg] at hconn hstays
    obtain ⟨k, hk⟩ := hconn
    exact hstays k hk fun _ => ⟨id, mild_id _⟩

/-- **A rollback.** -/
theorem RaceInv.rolledBack (hi : RaceInv hash p first db₀ s g) {i : ι} (pr : Prog AuthSig α) :
    RaceInv hash p first db₀ (s.after i .rolledBack pr) (Function.update g i (g i).onRollback) := by
  have hreuse := hi.reuse i
  have hquiet : ∀ f, (Label.rolledBack : Label AuthSig) ≠ .emitted (.reuseDetected f) := by
    rintro f ⟨⟩
  have hidle : (g i).onRollback.Holds p first s.db (Conn.idle AuthSig) := by
    refine Progress.holds_idle ?_ ?_ ?_ <;> cases g i <;> rintro _ ⟨⟩
  have hstays : (g i).onRollback = g i → RaceInv hash p first db₀ (s.after i .rolledBack pr)
      (Function.update g i (g i).onRollback) := by
    intro hsame
    rw [hsame] at hidle ⊢
    exact hi.stays rfl hi.next hidle fun f h => (hquiet f h).elim
  cases hg : g i with
  | rotating f =>
    refine hi.moves_plain rfl hi.next ⟨id, mild_id _⟩ (fun h => h.elim) ?_ trivial hquiet
    rw [hg]
    trivial
  | issuing row =>
    refine hi.moves_plain rfl hi.next ⟨id, mild_id _⟩ (fun h => h.elim) ?_ trivial hquiet
    rw [hg]
    trivial
  | wiping f =>
    rw [hg] at hreuse
    refine hi.moves rfl hi.next ⟨id, mild_id _⟩ (fun h => h.elim) (fun row => ?_) hreuse
      (fun f' h => by cases h) (fun _ => rfl) (fun f' h => (hquiet f' h).elim)
    rw [hg]
    constructor <;> rintro ⟨⟩
  | _ =>
    rw [hg] at hstays
    exact hstays rfl

/-- The row a rotation's `UPDATE` is about, and the state it is executed in. -/
def rotatedRow : Label AuthSig → Option (ℕ × Database)
  | .wrote (.rotateRefreshToken i _ _) seen _ => some (i, seen)
  | _ => none

/-- No call executes its `UPDATE` on a row that is revoked already. -/
def Timely (_ : Sys AuthSig ι α) (_ : ι) (ℓ : Label AuthSig) : Prop :=
  ∀ x ∈ rotatedRow ℓ, Unrevoked x.2 x.1

instance (db : Database) (i : ℕ) : Decidable (Unrevoked db i) :=
  inferInstanceAs (Decidable (∀ r ∈ db.refreshTokens, r.id = i → r.revoked = false))

instance (s : Sys AuthSig ι α) (i : ι) (ℓ : Label AuthSig) : Decidable (Timely s i ℓ) :=
  inferInstanceAs (Decidable (∀ x ∈ rotatedRow ℓ, Unrevoked x.2 x.1))

/-- **Every timely step keeps the invariant.** -/
theorem raceInv_keeps (hp : ∀ row, db₀.tokenByHash hash = some row → row = p)
    (hone : OneLive p first db₀) (post : ι → Except Err α → Progress → Prop) :
    (rotations hash p first).Keeps (fun (s : Sys AuthSig ι α) i ℓ => Timely s i ℓ ∧ ¬ ℓ.Failure)
      post (RaceInv hash p first db₀) where
  sees := by
    intro s g i ℓ _ hi hen _
    cases ℓ with
    | read v =>
      intro hstart row hrow
      have hconn := hi.conn i
      rw [hstart] at hconn
      have hidle : s.conn i = Conn.idle AuthSig := hconn
      have hv : v = s.db := by
        have hview : v = s.view i := hen
        rw [hview, Sys.view, hidle]
        rfl
      obtain ⟨hid, hcase⟩ := hi.lookup hp (hv ▸ hrow)
      refine ⟨hid, fun hnone => ?_⟩
      rcases hcase with ⟨hfam, _⟩ | ⟨hsome, _⟩
      · exact hfam
      · rw [hnone] at hsome
        cases hsome
    | drew n =>
      obtain rfl : n = s.next := hen
      exact hi.next
    | _ => trivial
  after := by
    intro s g i ℓ pr hx hi hen hok _ hvouched
    cases ℓ with
    | read v => exact hi.reads hp pr hen
    | wrote stmt seen eff =>
      refine hi.writes pr hen hvouched ?_
      rintro i' t b rfl
      exact hok.1 (i', seen) rfl
    | committed => exact hi.committed hx hone hvouched pr
    | rolledBack => exact hi.rolledBack pr
    | refused stmt seen x => exact hi.stays rfl hi.next (hi.conn i) fun f h => by cases h
    | ticked t => exact hi.stays rfl hi.next (hi.conn i) fun f h => by cases h
    | drew n =>
      refine hi.stays rfl ?_ (hi.conn i) fun f h => by cases h
      obtain rfl : n = s.next := hen
      exact Nat.le_succ_of_le hi.next
    | emitted e =>
      refine hi.stays rfl hi.next (hi.conn i) ?_
      rintro f ⟨⟩
      exact hvouched
    | _ => exact absurd trivial hok.2

end

end OmniAuth
