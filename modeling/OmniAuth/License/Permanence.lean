import OmniAuth.License.Binding

/-!
# Bindings that last

Any number of `/license/validate` and `/license/pull-token` requests, statement by statement,
whatever fails. Every activation of a licence binds the account of its own address, so two
that cross bind the same; a machine is bound by whoever comes, and two that cross do not.
-/

namespace OmniAuth

open Txn Prog

variable {α ι : Type} {A : AppEnv} {s : Sys AuthSig ι α} {g : ι → BindingStage} {i j : ι}
  {ℓ : Label AuthSig} {db : Database}

/-- What it was it still is, if it was anything. -/
def Rises {β : Type} (o o' : Option β) : Prop := ∀ b, o = some b → o' = some b

theorem Rises.refl {β : Type} (o : Option β) : Rises o o := fun _ h => h

theorem Rises.trans {β : Type} {o o' o'' : Option β} (h : Rises o o') (h' : Rises o' o'') :
    Rises o o'' := fun b hb => h' b (h b hb)

/-! ## What holds of the licences -/

/-- A licence as requests may leave it. -/
structure LicenseKey.GrowsTo (l l' : LicenseKey) : Prop where
  id : l'.id = l.id
  email : l'.email = l.email
  maxUses : l'.maxUses = l.maxUses
  owner : Rises l.userId l'.userId
  used : l.usageCount ≤ l.maxUses → l'.usageCount ≤ l'.maxUses

theorem LicenseKey.GrowsTo.refl (l : LicenseKey) : l.GrowsTo l :=
  ⟨rfl, rfl, rfl, .refl _, fun h => h⟩

theorem LicenseKey.GrowsTo.trans {l l' l'' : LicenseKey} (h : l.GrowsTo l') (h' : l'.GrowsTo l'') :
    l.GrowsTo l'' :=
  ⟨h'.id.trans h.id, h'.email.trans h.email, h'.maxUses.trans h.maxUses, h.owner.trans h'.owner,
    fun hl => h'.used (h.used hl)⟩

/-- A licence of `db`, as requests may have left it. -/
def LicenseKey.Grown (db : Database) (l : LicenseKey) : Prop := ∃ l₀ ∈ db.licenseKeys, l₀.GrowsTo l

/-- A licence that was free in `db` belongs to the account of its address. -/
def Database.Settled (db v : Database) : Prop :=
  ∀ l₀ ∈ db.licenseKeys, l₀.userId = none → ∀ l ∈ v.licensesOf l₀.id,
    ∀ userId, l.userId = some userId → v.ownerOf l.email = some userId

/-- What a request has seen: licences as they may be, and accounts that are still there. -/
def Database.Trusted (db v latest : Database) : Prop :=
  (∀ l ∈ v.licenseKeys, l.Grown db) ∧ ∀ email, Rises (v.ownerOf email) (latest.ownerOf email)

/-- **The invariant**, over the licences `db` at the start. -/
structure Bindings (db : Database) (s : Sys AuthSig ι α) (g : ι → BindingStage) : Prop where
  licenses : licenseRows.Guarded s
  owners : ownerRows.Guarded s
  grown : (∀ l ∈ s.db.licenseKeys, l.Grown db) ∧ ∀ i, ∀ l ∈ (s.latest i).licenseKeys, l.Grown db
  settled : db.Settled s.db ∧ ∀ i, db.Settled (s.latest i)
  ahead : ∀ i email, Rises (s.db.ownerOf email) ((s.latest i).ownerOf email)
  unclaimed : ∀ i email, .email email ∈ (s.conn i).held → s.db.ownerOf email = none
  snap : ∀ i v, (s.conn i).snap = some v → db.Trusted v s.db
  reading : ∀ i views, g i = .reading views →
    (∀ v, ((s.conn i).pend v).licenseKeys = v.licenseKeys) ∧
      ∀ v ∈ views, db.Trusted v (s.latest i)

/-- What an activation writes on a licence is what it is, if it was activated. -/
theorem Bindings.activates (h : Bindings db s g) (hids : (db.licenseKeys.map (·.id)).Nodup)
    {id userId usageCount : ℕ} (hact : (g i).Activates id userId usageCount) :
    ∀ l ∈ (s.latest i).licenseKeys, l.id = id → Rises l.userId (some userId) ∧
      usageCount ≤ l.maxUses ∧ (s.latest i).ownerOf l.email = some userId := by
  obtain ⟨views, hstage, v, hv, seen, hseen, rfl, hfree, hunused, rfl, v', hv', howner⟩ := hact
  obtain ⟨-, htrusted⟩ := h.reading i views hstage
  obtain ⟨l₀, hl₀, hseen₀⟩ := (htrusted v hv).1 seen hseen
  intro l hl hid
  obtain ⟨l₁, hl₁, hgrown⟩ := h.grown.2 i l hl
  -- both are what one licence of the start has become
  obtain rfl : l₀ = l₁ :=
    List.inj_on_of_nodup_map hids hl₀ hl₁ (by rw [← hseen₀.id, ← hgrown.id, hid])
  have haddress : (s.latest i).ownerOf l.email = some userId := by
    rw [hgrown.email, ← hseen₀.email]
    exact (htrusted v' hv').2 _ _ howner
  have hfree₀ : l₀.userId = none := by
    by_contra hsome
    obtain ⟨u, hu⟩ := Option.ne_none_iff_exists'.mp hsome
    rw [hseen₀.owner u hu] at hfree
    cases hfree
  have hmax : l.maxUses = seen.maxUses := hgrown.maxUses.trans hseen₀.maxUses.symm
  refine ⟨fun u hu => ?_, by omega, haddress⟩
  have hsettled := h.settled.2 i l₀ hl₀ hfree₀ l
    (Database.mem_licensesOf.mpr ⟨hl, hid.trans hseen₀.id⟩) u hu
  rw [haddress] at hsettled
  exact hsettled

/-- **What a statement makes of the licences.** Each grows, and if it gets an owner it is the
account of its address. -/
theorem Bindings.written (h : Bindings db s g) (hids : (db.licenseKeys.map (·.id)).Nodup)
    {stmt : Stmt} {eff : Effect Database RowKey} (hallows : (g i).Allows stmt)
    (hden : denote stmt (s.latest i) = .ok eff) :
    ∃ f : LicenseKey → LicenseKey,
      (eff.delta (s.latest i)).licenseKeys = (s.latest i).licenseKeys.map f ∧
      (∀ l, (f l).id = l.id) ∧
      ∀ l ∈ (s.latest i).licenseKeys, l.GrowsTo (f l) ∧
        ((f l).userId = l.userId ∨ (f l).userId = (s.latest i).ownerOf l.email) := by
  have hid (id : ℕ) {f : LicenseKey → LicenseKey} (hf : ∀ l, (f l).id = l.id) (l : LicenseKey) :
      (if l.id = id then f l else l).id = l.id := by
    split
    · exact hf l
    · rfl
  by_cases hb : stmt.BesideLicenses
  · refine ⟨fun l => l, ?_, fun _ => rfl, fun l _ => ⟨.refl l, .inl rfl⟩⟩
    rw [List.map_id']
    exact congrArg Prod.fst (hb.issuance hden _)
  cases stmt with
  | account stmt =>
    cases stmt with
    | useLicense id owner t =>
      obtain rfl := Except.ok.inj hden
      refine ⟨_, rfl, hid id fun _ => rfl, fun l hl => ?_⟩
      dsimp only
      split
      swap
      · exact ⟨.refl l, .inl rfl⟩
      rename_i hid
      cases howner : owner with
      | none => exact ⟨⟨rfl, rfl, rfl, .refl _, fun hl => hl⟩, .inl rfl⟩
      | some binding =>
        obtain ⟨userId, usageCount⟩ := binding
        obtain ⟨hrises, hused, haddress⟩ :=
          h.activates hids (hallows userId usageCount howner) l hl hid
        exact ⟨⟨rfl, rfl, rfl, hrises, fun _ => hused⟩, .inr haddress.symm⟩
    | bindMachine id machineId =>
      obtain rfl := Except.ok.inj hden
      refine ⟨_, rfl, hid id fun _ => rfl, fun l hl => ?_⟩
      dsimp only
      split
      · exact ⟨⟨rfl, rfl, rfl, .refl _, fun hl => hl⟩, .inl rfl⟩
      · exact ⟨.refl l, .inl rfl⟩
    | _ => exact absurd hallows hb
  | _ => exact absurd hallows hb

/-- No account loses its address. -/
theorem ownerOf_rises {stmt : Stmt} {seen : Database} {eff : Effect Database RowKey}
    (hden : denote stmt seen = .ok eff) (v : Database) (email : String) :
    Rises (v.ownerOf email) ((eff.delta v).ownerOf email) := by
  obtain ⟨new, hedit⟩ := denote_owners hden
  intro userId huser
  rw [hedit.owners, huser]
  rfl

theorem Database.Trusted.mono {v latest latest' : Database} (htrusted : db.Trusted v latest)
    (hrises : ∀ email, Rises (latest.ownerOf email) (latest'.ownerOf email)) :
    db.Trusted v latest' :=
  ⟨htrusted.1, fun email => (htrusted.2 email).trans (hrises email)⟩

/-- **What a request reads can be trusted.** An account it added itself has an address that
was free, and still is. -/
theorem Bindings.view_trusted (h : Bindings db s g)
    (hpend : ∀ v, ((s.conn i).pend v).licenseKeys = v.licenseKeys) :
    db.Trusted (s.view i) (s.latest i) := by
  have hsnap : db.Trusted ((s.conn i).snap.getD s.db) s.db := by
    cases hbegun : (s.conn i).snap with
    | none => exact ⟨h.grown.1, fun _ => .refl _⟩
    | some v => exact h.snap i v hbegun
  refine ⟨fun l hl => ?_, fun email => ?_⟩
  · rw [show (s.view i).licenseKeys = _ from hpend _] at hl
    exact hsnap.1 l hl
  by_cases hheld : .email email ∈ (s.conn i).held
  · have hfree := h.unclaimed i email hheld
    have hsame : ((s.conn i).snap.getD s.db).ownerOf email = s.db.ownerOf email := by
      rw [hfree]
      by_contra hsome
      obtain ⟨u, hu⟩ := Option.ne_none_iff_exists'.mp hsome
      rw [hsnap.2 email u hu] at hfree
      cases hfree
    have hpended : (s.view i).ownerOf email = (s.latest i).ownerOf email :=
      h.owners.congr i (.email email) _ _ hsame
    rw [hpended]
    exact .refl _
  · have hview : (s.view i).ownerOf email = ((s.conn i).snap.getD s.db).ownerOf email :=
      h.owners.frame i (.email email) hheld _
    have hlatest : (s.latest i).ownerOf email = s.db.ownerOf email :=
      h.owners.frame i (.email email) hheld _
    rw [hview, hlatest]
    exact hsnap.2 email

theorem BindingStage.saw_eq_reading {stage : BindingStage} {v : Database} {views : List Database}
    (h : stage.saw v = .reading views) : ∃ vs, stage = .reading vs ∧ views = v :: vs := by
  cases stage with
  | reading vs =>
    obtain rfl := BindingStage.reading.inj h
    exact ⟨vs, rfl, rfl⟩
  | ended => cases h

theorem BindingStage.wrote_eq_reading {stage : BindingStage} {stmt : Stmt} {v : Database}
    {views : List Database} (h : stage.wrote stmt v = .reading views) (hallows : stage.Allows stmt) :
    stmt.BesideLicenses ∧ ∃ vs, stage = .reading vs ∧ views = v :: vs := by
  cases stmt with
  | account stmt =>
    cases stmt with
    | useLicense id owner t => cases h
    | bindMachine id machineId => cases h
    | _ => exact ⟨hallows, saw_eq_reading h⟩
  | _ => exact ⟨hallows, saw_eq_reading h⟩

/-! ## Every step keeps it -/

section

variable [DecidableEq ι] (h : Bindings db s g) (hx : s.Exclusive) (hen : s.Enabled i ℓ)
  (p : Prog AuthSig α)
include h hx hen

theorem Bindings.ahead_after (j : ι) (email : String) :
    Rises ((s.after i ℓ p).db.ownerOf email) (((s.after i ℓ p).latest j).ownerOf email) := by
  have hahead : ∀ j key, Rises (ownerRows.row s.db key) (ownerRows.row (s.latest j) key) := by
    intro j key
    cases key with
    | email email => exact h.ahead j email
    | _ => exact .refl _
  refine h.owners.related (P := Rises) hx Rises.refl hahead hen ?_ p j (.email email)
  rintro stmt seen eff - rfl hden key
  cases key with
  | email email => exact (h.ahead i email).trans (ownerOf_rises hden _ email)
  | _ => exact .refl _

omit hx hen in
/-- No committed account loses its address. -/
theorem Bindings.committed_owner (email : String) :
    Rises (s.db.ownerOf email) ((s.after i ℓ p).db.ownerOf email) := by
  rcases Rows.row_db_after (R := ownerRows) (s := s) (i := i) (ℓ := ℓ) p (.email email) with
    ⟨-, hrow⟩ | ⟨-, hdb⟩
  · exact (show (s.after i ℓ p).db.ownerOf email = (s.latest i).ownerOf email from hrow) ▸
      h.ahead i email
  · rw [hdb]
    exact .refl _

/-- Nor does another process lose sight of one. -/
theorem Bindings.latest_owner (hj : j ≠ i) (email : String) :
    Rises ((s.latest j).ownerOf email) (((s.after i ℓ p).latest j).ownerOf email) := by
  rcases h.owners.latest_after_of_ne hx hen hj p (.email email) with ⟨-, hrow, -⟩ | ⟨hl, hrow⟩
  · exact (show ((s.after i ℓ p).latest j).ownerOf email = (s.latest j).ownerOf email from hrow) ▸
      .refl _
  · have hbefore : (s.latest j).ownerOf email = s.db.ownerOf email := h.owners.latest_of_not_held hl
    have hafter : ((s.after i ℓ p).latest j).ownerOf email = (s.after i ℓ p).db.ownerOf email := hrow
    rw [hbefore, hafter]
    exact h.committed_owner p email

theorem Bindings.unclaimed_after (email : String)
    (hheld : .email email ∈ ((s.after i ℓ p).conn j).held) :
    (s.after i ℓ p).db.ownerOf email = none := by
  by_cases hj : j = i
  · subst hj
    rw [Sys.after_conn_self] at hheld
    rw [Sys.after_db]
    cases ℓ with
    | wrote stmt seen eff =>
      obtain ⟨rfl, hden, -⟩ := hen
      rcases List.mem_append.mp hheld with hlock | hlock
      · obtain ⟨new, hedit⟩ := denote_owners hden
        have hnone := hedit.free email hlock
        by_contra hsome
        obtain ⟨u, hu⟩ := Option.ne_none_iff_exists'.mp hsome
        rw [h.ahead j email u hu] at hnone
        cases hnone
      · exact h.unclaimed j email hlock
    | committed => cases hheld
    | rolledBack => cases hheld
    | commitFailed x => cases hheld
    | commitLost x => cases hheld
    | crashed x => cases hheld
    | _ => exact h.unclaimed j email hheld
  · rw [Sys.after_conn_of_ne _ _ _ hj] at hheld
    have hrow : (s.after i ℓ p).db.ownerOf email = s.db.ownerOf email :=
      h.owners.db_after hx hj hheld p
    rw [hrow]
    exact h.unclaimed j email hheld

section

variable (hids : (db.licenseKeys.map (·.id)).Nodup) (hv : bindings.Vouched (g i) ℓ)
include hids hv

theorem Bindings.grown_after :
    (∀ l ∈ (s.after i ℓ p).db.licenseKeys, l.Grown db) ∧
      ∀ j, ∀ l ∈ ((s.after i ℓ p).latest j).licenseKeys, l.Grown db := by
  have hrows : ∀ v : Database, (∀ l ∈ v.licenseKeys, l.Grown db) ↔
      ∀ key, ∀ l ∈ licenseRows.row v key, l.Grown db := by
    intro v
    constructor
    · intro hv key l hl
      cases key with
      | licenseKey id => exact hv l (Database.mem_licensesOf.mp hl).1
      | _ => cases hl
    · exact fun hv l hl => hv (.licenseKey l.id) l (Database.mem_licensesOf.mpr ⟨hl, rfl⟩)
  have hafter := h.licenses.forall_rows (P := fun _ rows => ∀ l ∈ rows, LicenseKey.Grown db l) hx
    ((hrows _).mp h.grown.1) (fun j => (hrows _).mp (h.grown.2 j)) hen (fun stmt seen eff hℓ => ?_) p
  · exact ⟨(hrows _).mpr hafter.1, fun j => (hrows _).mpr (hafter.2 j)⟩
  subst hℓ
  obtain ⟨rfl, hden, -⟩ := hen
  obtain ⟨f, hdelta, -, hf⟩ := h.written hids hv hden
  refine (hrows _).mp fun l hl => ?_
  rw [hdelta] at hl
  obtain ⟨l', hl', rfl⟩ := List.mem_map.mp hl
  obtain ⟨l₀, hl₀, hgrown⟩ := h.grown.2 i l' hl'
  exact ⟨l₀, hl₀, hgrown.trans (hf l' hl').1⟩

omit hx in
/-- What the process itself has written is settled. -/
theorem Bindings.settled_self : db.Settled (s.after i ℓ p).db ∧
    db.Settled ((s.after i ℓ p).latest i) := by
  have hdb : db.Settled (s.after i ℓ p).db := by
    by_cases hcommits : Rows.Commits ℓ
    · rw [Sys.after_db, hcommits.dbAfter]
      exact h.settled.2 i
    · rw [Sys.after_db, Rows.dbAfter_of_not_commits hcommits]
      exact h.settled.1
  refine ⟨hdb, ?_⟩
  rcases Rows.latest_after_self hen p with ⟨stmt, seen, eff, rfl, rfl, hden, hself⟩ | hself |
    ⟨hself, -⟩
  · obtain ⟨f, hdelta, -, hf⟩ := h.written hids hv hden
    rw [hself]
    intro l₀ hl₀ hfree l hl userId huser
    obtain ⟨hl, hid⟩ := Database.mem_licensesOf.mp hl
    rw [hdelta] at hl
    obtain ⟨l', hl', rfl⟩ := List.mem_map.mp hl
    obtain ⟨hgrows, howner⟩ := hf l' hl'
    refine ownerOf_rises hden _ _ userId ?_
    rw [hgrows.email]
    rcases howner with hsame | haddress
    · rw [hsame] at huser
      exact h.settled.2 i l₀ hl₀ hfree l'
        (Database.mem_licensesOf.mpr ⟨hl', hgrows.id.symm.trans hid⟩) userId huser
    · rw [← haddress, huser]
  · rw [hself]
    exact hdb
  · rw [hself]
    exact h.settled.2 i

theorem Bindings.settled_after : db.Settled (s.after i ℓ p).db ∧
    ∀ j, db.Settled ((s.after i ℓ p).latest j) := by
  obtain ⟨hdb, hself⟩ := h.settled_self hen p hids hv
  refine ⟨hdb, fun j => ?_⟩
  by_cases hj : j = i
  · rw [hj]
    exact hself
  intro l₀ hl₀ hfree l hl userId huser
  rcases h.licenses.latest_after_of_ne hx hen hj p (.licenseKey l₀.id) with
    ⟨-, hrow, -⟩ | ⟨-, hrow⟩
  · -- the row is its own, and the account it sees is still there
    have hrow : ((s.after i ℓ p).latest j).licensesOf l₀.id = (s.latest j).licensesOf l₀.id := hrow
    have hbefore : l ∈ (s.latest j).licensesOf l₀.id := by rwa [← hrow]
    exact h.latest_owner hx hen p hj _ _ (h.settled.2 j l₀ hl₀ hfree l hbefore userId huser)
  · have hrow : ((s.after i ℓ p).latest j).licensesOf l₀.id =
        (s.after i ℓ p).db.licensesOf l₀.id := hrow
    have hcommitted : l ∈ (s.after i ℓ p).db.licensesOf l₀.id := by rwa [← hrow]
    exact h.ahead_after hx hen p j _ _ (hdb l₀ hl₀ hfree l hcommitted userId huser)

end

theorem Bindings.reading_after (hv : bindings.Vouched (g i) ℓ) (j : ι) (views : List Database)
    (hstage : Function.update g i (bindings.next (g i) ℓ) j = .reading views) :
    (∀ v, (((s.after i ℓ p).conn j).pend v).licenseKeys = v.licenseKeys) ∧
      ∀ v ∈ views, db.Trusted v ((s.after i ℓ p).latest j) := by
  by_cases hj : j = i
  swap
  · rw [Function.update_of_ne hj] at hstage
    obtain ⟨hpend, htrusted⟩ := h.reading j views hstage
    rw [Sys.after_conn_of_ne _ _ _ hj]
    exact ⟨hpend, fun v hmem => (htrusted v hmem).mono (h.latest_owner hx hen p hj)⟩
  subst hj
  rw [Function.update_self] at hstage
  have hlatest : (s.after j ℓ p).latest j = (s.connAfter j ℓ).pend (s.dbAfter j ℓ) := by
    unfold Sys.latest
    rw [Sys.after_conn_self, Sys.after_db]
  rw [Sys.after_conn_self, hlatest]
  cases ℓ with
  | read v =>
    obtain ⟨vs, hbefore, rfl⟩ := BindingStage.saw_eq_reading hstage
    obtain ⟨hpend, htrusted⟩ := h.reading j vs hbefore
    refine ⟨hpend, fun w hmem => ?_⟩
    rcases List.mem_cons.mp hmem with rfl | hmem
    · rw [show w = s.view j from hen]
      exact h.view_trusted hpend
    · exact htrusted w hmem
  | wrote stmt seen eff =>
    obtain ⟨rfl, hden, -⟩ := hen
    obtain ⟨hbeside, vs, hbefore, rfl⟩ := BindingStage.wrote_eq_reading hstage hv
    obtain ⟨hpend, htrusted⟩ := h.reading j vs hbefore
    have hlicenses : ∀ v, (eff.delta v).licenseKeys = v.licenseKeys := fun v =>
      congrArg Prod.fst (hbeside.issuance hden v)
    refine ⟨fun v => (hlicenses _).trans (hpend v), fun w hmem => ?_⟩
    rcases List.mem_cons.mp hmem with rfl | hmem
    · refine ⟨fun l hl => ?_, fun _ => .refl _⟩
      rw [hlicenses] at hl
      exact h.grown.2 j l hl
    · exact (htrusted w hmem).mono (ownerOf_rises hden _)
  | committed => cases hstage
  | rolledBack => cases hstage
  | commitFailed x => cases hstage
  | commitLost x => cases hstage
  | crashed x => cases hstage
  | _ => exact h.reading j views hstage

omit hx hen in
theorem Bindings.snap_after (j : ι) (v : Database)
    (hsnap : ((s.after i ℓ p).conn j).snap = some v) : db.Trusted v (s.after i ℓ p).db := by
  have hbefore : ∀ j, (s.conn j).snap = some v → db.Trusted v (s.after i ℓ p).db := fun j hsnap =>
    (h.snap j v hsnap).mono (h.committed_owner p)
  by_cases hj : j = i
  swap
  · rw [Sys.after_conn_of_ne _ _ _ hj] at hsnap
    exact hbefore j hsnap
  subst hj
  rw [Sys.after_conn_self] at hsnap
  cases ℓ with
  | read w =>
    obtain rfl := Option.some.inj (show some ((s.conn j).snap.getD s.db) = some v from hsnap)
    cases hbegun : (s.conn j).snap with
    | none => exact ⟨h.grown.1, fun _ => .refl _⟩
    | some v =>
      rw [hbegun] at hbefore
      exact hbefore j hbegun
  | committed => cases hsnap
  | rolledBack => cases hsnap
  | commitFailed x => cases hsnap
  | commitLost x => cases hsnap
  | crashed x => cases hsnap
  | _ => exact hbefore j hsnap

/-- **Every step keeps it.** -/
theorem Bindings.after (hids : (db.licenseKeys.map (·.id)).Nodup)
    (hv : bindings.Vouched (g i) ℓ) :
    Bindings db (s.after i ℓ p) (Function.update g i (bindings.next (g i) ℓ)) where
  licenses := h.licenses.after hen p
  owners := h.owners.after hen p
  grown := h.grown_after hx hen p hids hv
  settled := h.settled_after hx hen p hids hv
  ahead := h.ahead_after hx hen p
  unclaimed _ := h.unclaimed_after hx hen p
  snap := h.snap_after p
  reading := h.reading_after hx hen p hv

end

/-! ## What does not change again -/

/-- A column of the licences keeps what it has once it is set. -/
def Database.Keeps {β : Type} (column : LicenseKey → Option β) (v v' : Database) : Prop :=
  ∀ id l, v.licenseById id = some l → ∃ l', v'.licenseById id = some l' ∧
    Rises (column l) (column l')

section

variable {β : Type} {column : LicenseKey → Option β}

theorem Database.Keeps.refl (v : Database) : v.Keeps column v :=
  fun _ l hl => ⟨l, hl, .refl _⟩

theorem Database.Keeps.trans {v v' v'' : Database} (h : v.Keeps column v')
    (h' : v'.Keeps column v'') : v.Keeps column v'' := by
  intro id l hl
  obtain ⟨l', hl', hrises⟩ := h id l hl
  obtain ⟨l'', hl'', hrises'⟩ := h' id l' hl'
  exact ⟨l'', hl'', hrises.trans hrises'⟩

theorem licenseById_map {v v' : Database} {f : LicenseKey → LicenseKey}
    (hv : v'.licenseKeys = v.licenseKeys.map f) (hid : ∀ l, (f l).id = l.id) (id : ℕ) :
    v'.licenseById id = (v.licenseById id).map f := by
  have hcomp : ((fun l : LicenseKey => decide (l.id = id)) ∘ f) = fun l => decide (l.id = id) := by
    funext l
    simp only [Function.comp_apply, hid l]
  unfold Database.licenseById
  rw [hv, List.find?_map, hcomp]

theorem Database.Keeps.map {v v' : Database} {f : LicenseKey → LicenseKey}
    (hv : v'.licenseKeys = v.licenseKeys.map f) (hid : ∀ l, (f l).id = l.id)
    (hf : ∀ id l, v.licenseById id = some l → Rises (column l) (column (f l))) :
    v.Keeps column v' := by
  intro id l hl
  refine ⟨f l, ?_, hf id l hl⟩
  rw [licenseById_map hv hid, hl]
  rfl

/-- **A column that is kept.** What each process sees keeps what is committed; so what is
committed is kept, and what each sees after a step keeps that. -/
theorem Bindings.keeps_after [DecidableEq ι] (h : Bindings db s g) (hx : s.Exclusive)
    (hahead : ∀ j, s.db.Keeps column (s.latest j)) (hen : s.Enabled i ℓ)
    (hwrote : ∀ stmt seen eff, ℓ = .wrote stmt seen eff → seen = s.latest i →
      denote stmt seen = .ok eff → s.db.Keeps column (eff.delta seen)) (p : Prog AuthSig α) :
    s.db.Keeps column (s.after i ℓ p).db ∧
      ∀ j, (s.after i ℓ p).db.Keeps column ((s.after i ℓ p).latest j) := by
  -- the same of the rows under each id
  have hrows : ∀ v v' : Database, v.Keeps column v' ↔ ∀ key l,
      (licenseRows.row v key).head? = some l → ∃ l', (licenseRows.row v' key).head? = some l' ∧
        Rises (column l) (column l') := by
    intro v v'
    have hhead : ∀ (v : Database) id, (v.licensesOf id).head? = v.licenseById id :=
      fun v id => List.head?_filter
    constructor
    · intro hkeeps key l hl
      cases key with
      | licenseKey id =>
        obtain ⟨l', hl', hrises⟩ := hkeeps id l ((hhead v id).symm.trans hl)
        exact ⟨l', (hhead v' id).trans hl', hrises⟩
      | _ => cases hl
    · intro hkeys id l hl
      obtain ⟨l', hl', hrises⟩ := hkeys (.licenseKey id) l ((hhead v id).trans hl)
      exact ⟨l', (hhead v' id).symm.trans hl', hrises⟩
  refine ⟨?_, fun j => (hrows _ _).mpr fun key => ?_⟩
  · by_cases hcommits : Rows.Commits ℓ
    · rw [Sys.after_db, hcommits.dbAfter]
      exact hahead i
    · rw [Sys.after_db, Rows.dbAfter_of_not_commits hcommits]
      exact .refl _
  · exact h.licenses.related (P := fun rows rows' => ∀ l, rows.head? = some l →
      ∃ l', rows'.head? = some l' ∧ Rises (column l) (column l')) hx
      (fun rows l hl => ⟨l, hl, .refl _⟩) (fun j key => (hrows _ _).mp (hahead j) key) hen
      (fun stmt seen eff hℓ hseen hden key =>
        (hrows _ _).mp (hwrote stmt seen eff hℓ hseen hden) key) p j key

end

/-- The machine a step binds, and the licence it binds it to. -/
def machineBound : Label AuthSig → Option (ℕ × String)
  | .wrote (.account (.bindMachine id machineId)) _ _ => some (id, machineId)
  | _ => none

/-- **A machine is bound only to a licence that has none**, or to its own. -/
def BindsUnbound (s : Sys AuthSig ι α) (_ : ι) (ℓ : Label AuthSig) : Prop :=
  ∀ b ∈ machineBound ℓ, ∀ l ∈ s.db.licenseById b.1, l.machineId = none ∨ l.machineId = some b.2

instance (s : Sys AuthSig ι α) (i : ι) (ℓ : Label AuthSig) : Decidable (BindsUnbound s i ℓ) :=
  inferInstanceAs (Decidable (∀ b ∈ machineBound ℓ, ∀ l ∈ s.db.licenseById b.1,
    l.machineId = none ∨ l.machineId = some b.2))

theorem Bindings.keeps_owner (h : Bindings db s g) (hids : (db.licenseKeys.map (·.id)).Nodup)
    {stmt : Stmt} {eff : Effect Database RowKey} (hallows : (g i).Allows stmt)
    (hden : denote stmt (s.latest i) = .ok eff) :
    (s.latest i).Keeps LicenseKey.userId (eff.delta (s.latest i)) := by
  obtain ⟨f, hdelta, hid, hf⟩ := h.written hids hallows hden
  exact Database.Keeps.map hdelta hid fun id l hl => (hf l (List.mem_of_find?_eq_some hl)).1.owner

theorem keeps_machine {stage : BindingStage} {stmt : Stmt} {seen : Database}
    {eff : Effect Database RowKey} (hallows : stage.Allows stmt) (hden : denote stmt seen = .ok eff)
    (hahead : s.db.Keeps LicenseKey.machineId seen)
    (hok : BindsUnbound s i (.wrote stmt seen eff)) :
    s.db.Keeps LicenseKey.machineId (eff.delta seen) := by
  by_cases hb : stmt.BesideLicenses
  · have hsame : (eff.delta seen).licenseKeys = seen.licenseKeys.map fun l => l := by
      rw [List.map_id']
      exact congrArg Prod.fst (hb.issuance hden _)
    exact hahead.trans (.map hsame (fun _ => rfl) fun _ _ _ => .refl _)
  cases stmt with
  | account stmt =>
    cases stmt with
    | useLicense id owner t =>
      obtain rfl := Except.ok.inj hden
      refine hahead.trans (.map rfl (fun l => ?_) fun _ l _ => ?_) <;> split
      · rfl
      · rfl
      · exact .refl _
      · exact .refl _
    | bindMachine id machineId =>
      obtain rfl := Except.ok.inj hden
      intro id' l hl
      obtain ⟨l', hl', hrises⟩ := hahead id' l hl
      have hid' : l'.id = id' := by simpa using List.find?_some hl'
      refine ⟨_, (licenseById_map rfl (fun l => ?_) id').trans (congrArg (Option.map _) hl'), ?_⟩
      · split <;> rfl
      dsimp only
      split
      · -- the licence it is bound to
        rename_i hid
        intro m hm
        rcases hok (id, machineId) rfl l (by rwa [← hid, hid']) with hnone | hsome
        · rw [hnone] at hm
          cases hm
        · rw [← hm, hsome]
      · exact hrises
    | _ => exact absurd hallows hb
  | _ => exact absurd hallows hb

/-! ## The result -/

/-- Any number of requests, about to start. -/
def licenseStart (A : AppEnv) (ghcrPullToken : String) (calls : ι → LicenseCall) (db : Database)
    (now next : ℕ) : Sys AuthSig ι (LicenseAnswer A) :=
  Sys.start db now next fun i => ((calls i).op A ghcrPullToken).close

variable [DecidableEq ι]

theorem bindings_keep (hids : (db.licenseKeys.map (·.id)).Nodup)
    (ok : Sys AuthSig ι α → ι → Label AuthSig → Prop) :
    bindings.Keeps ok (fun _ _ _ => True) (Bindings db) where
  sees := fun _ _ _ _ => trivial
  after := fun p hx h hen _ _ hv => h.after hx hen p hids hv

/-- What is known along a run: the locks, the stages, and that the requests keep to the
discipline. -/
structure Underway (db : Database) (s : Sys AuthSig ι α) (g : ι → BindingStage) : Prop where
  exclusive : s.Exclusive
  bindings : Bindings db s g
  follows : ∀ i, (s.proc i).Follows OmniAuth.bindings True (fun _ _ => True) (g i)

variable {ghcrPullToken : String} {calls : ι → LicenseCall} {now next : ℕ}

omit [DecidableEq ι] in
theorem underway_start (hids : (db.licenseKeys.map (·.id)).Nodup) :
    Underway db (licenseStart A ghcrPullToken calls db now next) fun _ => .reading [] where
  exclusive := Sys.exclusive_start db now next fun i => ((calls i).op A ghcrPullToken).close
  bindings := by
    have hsettled : db.Settled db := by
      intro l₀ hl₀ hfree l hl userId huser
      obtain ⟨hl, hid⟩ := Database.mem_licensesOf.mp hl
      obtain rfl : l = l₀ := List.inj_on_of_nodup_map hids hl hl₀ hid
      rw [hfree] at huser
      cases huser
    refine
      { licenses := licenseRows.guarded_start ..
        owners := ownerRows.guarded_start ..
        grown := ⟨fun l hl => ⟨l, hl, .refl l⟩, fun _ l hl => ⟨l, hl, .refl l⟩⟩
        settled := ⟨hsettled, fun _ => hsettled⟩
        ahead := fun _ _ => .refl _
        unclaimed := fun _ _ hheld => nomatch hheld
        snap := fun _ _ hsnap => nomatch hsnap
        reading := fun _ views hstage => ?_ }
    obtain rfl := BindingStage.reading.inj hstage
    exact ⟨fun _ => rfl, fun _ hmem => nomatch hmem⟩
  follows i := (calls i).follows ghcrPullToken

theorem Underway.run (h : Underway db s g) (hids : (db.licenseKeys.map (·.id)).Nodup)
    {ok : Sys AuthSig ι α → ι → Label AuthSig → Prop} {t : Sys AuthSig ι α}
    (hrun : Sys.Run True ok s t) : ∃ g', Underway db t g' := by
  obtain ⟨hx, g', hinv, hfol⟩ := Prog.Follows.run (bindings_keep hids ok) (fun _ _ _ _ => trivial)
    h.exclusive h.bindings h.follows hrun
  exact ⟨g', hx, hinv, hfol⟩

/-- Every statement a request may come to keeps the column. -/
def ColumnKept {β : Type} (db : Database) (ok : Sys AuthSig ι α → ι → Label AuthSig → Prop)
    (column : LicenseKey → Option β) : Prop :=
  ∀ s g i stmt eff, Bindings db s g → ok s i (.wrote stmt (s.latest i) eff) →
    (g i).Allows stmt → denote stmt (s.latest i) = .ok eff →
    s.db.Keeps column (s.latest i) → s.db.Keeps column (eff.delta (s.latest i))

omit [DecidableEq ι] in
theorem owner_kept (hids : (db.licenseKeys.map (·.id)).Nodup) :
    ColumnKept db (fun (_ : Sys AuthSig ι α) _ _ => True) LicenseKey.userId :=
  fun _ _ _ _ _ hinv _ hallows hden hahead => hahead.trans (hinv.keeps_owner hids hallows hden)

omit [DecidableEq ι] in
theorem machine_kept :
    ColumnKept db (BindsUnbound : Sys AuthSig ι α → ι → Label AuthSig → Prop)
      LicenseKey.machineId :=
  fun _ _ _ _ _ _ hok hallows hden hahead => keeps_machine hallows hden hahead hok

/-- **A column that every statement keeps is kept along a run.** -/
theorem Underway.keeps {β : Type} {column : LicenseKey → Option β}
    {ok : Sys AuthSig ι α → ι → Label AuthSig → Prop} (hkept : ColumnKept db ok column)
    (h : Underway db s g) (hids : (db.licenseKeys.map (·.id)).Nodup)
    (hahead : ∀ j, s.db.Keeps column (s.latest j)) {t : Sys AuthSig ι α}
    (hrun : Sys.Run True ok s t) :
    s.db.Keeps column t.db ∧ ∀ j, t.db.Keeps column (t.latest j) := by
  have hstep : ∀ {s₁ : Sys AuthSig ι α} {g₁ : ι → BindingStage} {i ℓ p}, s₁.Exclusive →
      Bindings db s₁ g₁ → (s.db.Keeps column s₁.db ∧ ∀ j, s₁.db.Keeps column (s₁.latest j)) →
      ok s₁ i ℓ → OmniAuth.bindings.Vouched (g₁ i) ℓ → s₁.Step True i ℓ (s₁.after i ℓ p) →
      s.db.Keeps column (s₁.after i ℓ p).db ∧
        ∀ j, (s₁.after i ℓ p).db.Keeps column ((s₁.after i ℓ p).latest j) := by
    rintro s₁ g₁ i ℓ p hx hinv ⟨hbefore, hahead₁⟩ hok hv ⟨p', -, hen, -⟩
    obtain ⟨hdb, hlatest⟩ := hinv.keeps_after hx hahead₁ hen
      (fun stmt seen eff hℓ hseen hden => by
        subst hℓ hseen
        exact hkept s₁ g₁ i stmt eff hinv hok hv hden (hahead₁ i)) p
    exact ⟨hbefore.trans hdb, hlatest⟩
  obtain ⟨-, g', -, hafter, -⟩ := Prog.Follows.run_with
    (H := fun (t : Sys AuthSig ι α) (_ : ι → BindingStage) =>
      s.db.Keeps column t.db ∧ ∀ j, t.db.Keeps column (t.latest j))
    (bindings_keep hids ok) (fun _ _ _ _ => trivial) hstep h.exclusive h.bindings
    ⟨.refl _, hahead⟩ h.follows hrun
  exact hafter

/-- From any state of a run on. -/
theorem column_keeps {β : Type} {column : LicenseKey → Option β}
    {ok : Sys AuthSig ι (LicenseAnswer A) → ι → Label AuthSig → Prop}
    (hkept : ColumnKept db ok column) (hids : (db.licenseKeys.map (·.id)).Nodup)
    {t t' : Sys AuthSig ι (LicenseAnswer A)}
    (hrun : Sys.Run True ok (licenseStart A ghcrPullToken calls db now next) t)
    (hrun' : Sys.Run True ok t t') : t.db.Keeps column t'.db := by
  have hstart : Underway db (licenseStart A ghcrPullToken calls db now next) fun _ => .reading [] :=
    underway_start hids
  obtain ⟨g, hunder⟩ := hstart.run hids hrun
  have hahead := (hstart.keeps hkept hids (fun _ => .refl _) hrun).2
  exact (hunder.keeps hkept hids hahead hrun').1

/-- A machine that is bound to a licence of another is the licence's own once it is
committed. -/
theorem machine_lost {t₁ t' : Sys AuthSig ι α} (hstep : s.Step True i ℓ t₁)
    (hnot : ¬ BindsUnbound s i ℓ) (hcommit : t₁.Step True i .committed t') :
    ¬ s.db.Keeps LicenseKey.machineId t'.db := by
  obtain ⟨p, -, hen, rfl⟩ := hstep
  obtain ⟨p', -, -, rfl⟩ := hcommit
  intro hkeeps
  refine hnot fun b hb l hl => ?_
  -- what was bound is what is committed
  cases ℓ with
  | wrote stmt seen eff =>
    cases stmt with
    | account stmt =>
      cases stmt with
      | bindMachine id machineId =>
        obtain rfl := Option.some.inj hb
        obtain ⟨rfl, hden, -⟩ := hen
        obtain rfl := Except.ok.inj hden
        obtain ⟨l', hl', hrises⟩ := hkeeps id l hl
        have hdb : ((s.after i (.wrote (.account (.bindMachine id machineId)) (s.latest i)
            ⟨[.licenseKey id], Database.updateLicense id fun l =>
              { l with machineId := some machineId }⟩) p).after i .committed p').db =
            Database.updateLicense id (fun l => { l with machineId := some machineId })
              (s.latest i) := by
          rw [Sys.after_db]
          show Sys.latest _ i = _
          unfold Sys.latest
          rw [Sys.after_conn_self, Sys.after_db]
          rfl
        rw [hdb, licenseById_map rfl (fun l => by split <;> rfl) id] at hl'
        obtain ⟨l₀, hl₀, rfl⟩ := Option.map_eq_some_iff.mp hl'
        have hid : l₀.id = id := by simpa using List.find?_some hl₀
        rw [if_pos hid] at hrises
        cases hm : l.machineId with
        | none => exact .inl rfl
        | some m => exact .inr ((hrises m hm).symm)
      | _ => cases hb
    | _ => cases hb
  | _ => cases hb

/-- **Bindings of licences last**, whatever requests cross and whatever fails: a licence that
has an owner keeps it, and none is used more often than it may be. A licence that has a machine
keeps it in every run in which machines are bound only to licences that have none; where one
is bound to a licence of another, and committed next, it does not. -/
theorem license_binding_permanent (ghcrPullToken : String) (calls : ι → LicenseCall)
    (hids : (db.licenseKeys.map (·.id)).Nodup)
    (huses : ∀ l ∈ db.licenseKeys, l.usageCount ≤ l.maxUses)
    (t t' : Sys AuthSig ι (LicenseAnswer A)) :
    (Sys.Run True (fun _ _ _ => True) (licenseStart A ghcrPullToken calls db now next) t →
      (∀ l ∈ t.db.licenseKeys, l.usageCount ≤ l.maxUses) ∧
      (Sys.Run True (fun _ _ _ => True) t t' → t.db.Keeps LicenseKey.userId t'.db)) ∧
    (Sys.Run True BindsUnbound (licenseStart A ghcrPullToken calls db now next) t →
      Sys.Run True BindsUnbound t t' → t.db.Keeps LicenseKey.machineId t'.db) ∧
    ∀ i ℓ t₁, t.Step True i ℓ t₁ → ¬ BindsUnbound t i ℓ → t₁.Step True i .committed t' →
      ¬ t.db.Keeps LicenseKey.machineId t'.db := by
  refine ⟨fun hrun => ⟨?_, column_keeps (owner_kept hids) hids hrun⟩,
    column_keeps machine_kept hids, fun i ℓ t₁ => machine_lost⟩
  obtain ⟨g, hunder⟩ := (underway_start hids).run hids hrun
  intro l hl
  obtain ⟨l₀, hl₀, hgrown⟩ := hunder.bindings.grown.1 l hl
  exact hgrown.used (huses l₀ hl₀)

/-! ## Two machines -/

/-- A licence nobody has activated. -/
def newLicense : LicenseKey where
  id := 1
  keyDigest := some (textNumber "K")
  email := "ann@lab.org"

/-- It is pulled from two machines. -/
def twoMachines : Sys AuthSig Bool (LicenseAnswer .symbolic) :=
  licenseStart .symbolic "token"
    (fun b => .pullToken { key := "K", machineId := some (if b then "b" else "a") })
    { Database.empty with licenseKeys := [newLicense] } 0 1

/-- The machine of the licence. -/
def Database.machine (db : Database) : Option String := (db.licenseById 1).bind (·.machineId)

/-- One after the other, the second finds it bound. -/
theorem machines_in_turn : ∃ t t', twoMachines.follow BindsUnbound (List.replicate 5 false) = some t ∧
    t.follow BindsUnbound (List.replicate 3 true) = some t' ∧ t.db.machine = some "a" ∧
    t.db.Keeps LicenseKey.machineId t'.db := by
  have hplays : ((twoMachines.follow BindsUnbound (List.replicate 5 false)).bind fun t =>
      t.follow BindsUnbound (List.replicate 3 true)).isSome := by decide +kernel
  have hbound : (twoMachines.follow BindsUnbound (List.replicate 5 false)).all
      (fun t => t.db.machine = some "a") := by decide +kernel
  obtain ⟨t', ht'⟩ := Option.isSome_iff_exists.mp hplays
  obtain ⟨t, ht, hfollow⟩ := Option.bind_eq_some_iff.mp ht'
  rw [ht] at hbound
  refine ⟨t, t', ht, hfollow, of_decide_eq_true hbound, ?_⟩
  exact (license_binding_permanent "token" _ (by decide +kernel) (by decide +kernel) t t').2.1
    (Sys.run_of_follow _ ht).mayFail (Sys.run_of_follow _ hfollow).mayFail

/-- **The machine of a licence changes** after it was committed, when both requests read the
licence first; both are answered. -/
theorem machine_rebound : ∃ t t', Sys.Run True (fun _ _ _ => True) twoMachines t ∧
    Sys.Run True (fun _ _ _ => True) t t' ∧ t.db.machine = some "a" ∧ t'.db.machine = some "b" ∧
    ∀ i, (t'.proc i).reply?.isSome := by
  have hplays : ((twoMachines.follow (fun _ _ _ => True) [false, false, true, true, false, false]).bind
      fun t => t.follow (fun _ _ _ => True) [true, true, false, true]).isSome := by decide +kernel
  have hbound : (twoMachines.follow (fun _ _ _ => True) [false, false, true, true, false, false]).all
      (fun t => t.db.machine = some "a" ∧
        (t.follow (fun _ _ _ => True) [true, true, false, true]).all fun t' =>
          t'.db.machine = some "b" ∧ ∀ i, (t'.proc i).reply?.isSome) := by decide +kernel
  obtain ⟨t', ht'⟩ := Option.isSome_iff_exists.mp hplays
  obtain ⟨t, ht, hfollow⟩ := Option.bind_eq_some_iff.mp ht'
  rw [ht] at hbound
  obtain ⟨hfirst, hsecond⟩ := of_decide_eq_true hbound
  rw [hfollow] at hsecond
  obtain ⟨hlast, hreplies⟩ := of_decide_eq_true hsecond
  exact ⟨t, t', (Sys.run_of_follow _ ht).mayFail, (Sys.run_of_follow _ hfollow).mayFail, hfirst,
    hlast, hreplies⟩

end OmniAuth
