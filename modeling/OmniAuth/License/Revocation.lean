import OmniAuth.Login.Service
import OmniAuth.Txn.Triple

/-!
# Revoking a licence by its key

A key is activated in its normal form: `lookup_license` strips and upper-cases it, tries its
digest, and then the plaintext rows that have none. `license_service.revoke` has a query of
its own, on the column `key` and with the text as it was typed. So it misses what an
activation finds: the rows that keep a digest only, and a plaintext row whose key was typed
another way.
-/

namespace OmniAuth

open Txn Prog

/-- `filter(LicenseKey.key == key).first()` -/
def Database.licenseByKey (db : Database) (key : String) : Option LicenseKey :=
  db.licenseKeys.find? (·.key = some key)

/-- `license_service.revoke` -/
def revokeByKey (key : String) (reason : Option String) : Op Bool := do
  let license ← query (·.licenseByKey key)
  match license with
  | none => return false
  | some license => do
      let now ← time
      execute (.account (.revokeLicense license.id now reason))
      commitNow
      return true

variable {A : AppEnv}

/-! ## What an activation looks up -/

/-- An update that leaves the keys does not change which row a key names. -/
theorem lookupLicense_updateLicense (db : Database) (id : ℕ) {f : LicenseKey → LicenseKey}
    (hkey : ∀ l, (f l).key = l.key) (hdigest : ∀ l, (f l).keyDigest = l.keyDigest)
    (key : String) :
    lookupLicense A (db.updateLicense id f) key =
      (lookupLicense A db key).map fun l => if l.id = id then f l else l := by
  have hfind : ∀ p : LicenseKey → Bool, (∀ l, p (f l) = p l) →
      (db.updateLicense id f).licenseKeys.find? p =
        (db.licenseKeys.find? p).map fun l => if l.id = id then f l else l := by
    intro p hp
    have hcomp : (p ∘ fun l => if l.id = id then f l else l) = p := by
      funext l
      by_cases hid : l.id = id
      · rw [Function.comp_apply, if_pos hid, hp]
      · rw [Function.comp_apply, if_neg hid]
    show (db.licenseKeys.map _).find? p = _
    rw [List.find?_map, hcomp]
  have hplain := hfind (fun l => l.key = some (normalizeKey A key) ∧ l.keyDigest = none)
    fun l => by rw [hkey, hdigest]
  simp only [lookupLicense, hplain]
  cases hnormal : A.digestKey (normalizeKey A (normalizeKey A key)) with
  | none => rfl
  | some digest =>
    have hdigested := hfind (fun l => l.keyDigest = some digest) fun l => by rw [hdigest]
    simp only [Option.bind_some, hdigested]
    cases db.licenseKeys.find? (fun l => l.keyDigest = some digest) with
    | none => rfl
    | some l => rfl

/-- What an activation accepts it has looked up, and was not revoked. -/
theorem validateLicense_found {db : Database} {now : ℕ} {key : String} {email : Option String}
    {platform : String} {license : LicenseKey}
    (h : validateLicense A db now key email platform = .ok license) :
    lookupLicense A db key = some license := by
  unfold validateLicense at h
  split at h
  · cases h
  · rename_i l hlookup
    rw [hlookup]
    repeat (split at h; · cases h)
    exact congrArg some (Except.ok.inj h)

/-- A revoked licence is refused to everybody. -/
theorem validateLicense_revoked {db : Database} {key : String} {license : LicenseKey}
    (hlookup : lookupLicense A db key = some license) (hrevoked : license.revokedAt.isSome)
    (now : ℕ) (email : Option String) (platform : String) :
    validateLicense A db now key email platform = .error "revoked" := by
  simp only [validateLicense, hlookup, if_pos hrevoked]

/-- The verdict is about the row that is found. -/
theorem validateLicense_congr {db db' : Database} {key : String}
    (hlookup : lookupLicense A db key = lookupLicense A db' key) (now : ℕ)
    (email : Option String) (platform : String) :
    validateLicense A db now key email platform =
      validateLicense A db' now key email platform := by
  simp only [validateLicense, hlookup]

/-! ## What a revocation does -/

variable {w w₁ : World}

/-- A text that is in no row's `key` is refused, and nothing is written. -/
theorem revokeByKey_unknown {key : String} (hnone : w.cur.licenseByKey key = none)
    (reason : Option String) {r : Except Err Bool} {w' : World} :
    (revokeByKey key reason).Exec w r w' ↔ r = .ok false ∧ w' = w := by
  simp only [revokeByKey, bind_eq, exec_query_bind, hnone]
  exact exec_ret

/-- Otherwise the row is marked, and stored. -/
theorem revokeByKey_known {key : String} {row : LicenseKey}
    (hrow : w.cur.licenseByKey key = some row) (reason : Option String) {r : Except Err Bool}
    {w' : World} :
    (revokeByKey key reason).Exec w r w' ↔ r = .ok true ∧ ∃ t, w.now ≤ t ∧
      w' = { w with
        base := w.cur.updateLicense row.id (LicenseKey.revoke t reason)
        cur := w.cur.updateLicense row.id (LicenseKey.revoke t reason)
        now := t } := by
  simp only [revokeByKey, bind_eq, exec_query_bind, hrow, exec_time_bind, execute]
  constructor
  · rintro ⟨t, ht, h⟩
    rw [exec_returning_bind_ok rfl] at h
    obtain ⟨rfl, rfl⟩ := h
    exact ⟨rfl, t, ht, rfl⟩
  · rintro ⟨rfl, t, ht, rfl⟩
    refine ⟨t, ht, ?_⟩
    rw [exec_returning_bind_ok rfl]
    exact ⟨rfl, rfl⟩

/-- After a revocation of the row `id`, the key finds that row with its mark. -/
theorem lookupLicense_revoked (db : Database) (id t : ℕ) (reason : Option String)
    (key : String) :
    lookupLicense A (db.updateLicense id (LicenseKey.revoke t reason)) key =
      (lookupLicense A db key).map fun l => if l.id = id then l.revoke t reason else l :=
  lookupLicense_updateLicense (f := LicenseKey.revoke t reason) db id (fun _ => rfl) (fun _ => rfl)
    key

/-- An activation, in a session of its own. -/
theorem activation_exec {key : String} {email : Option String} {platform : String}
    {r : Except Err (Except String LicenseKey)} {w' : World} :
    (validateAndConsume A key email platform).close.Exec w r w' ↔
      ∃ t, w.now ≤ t ∧ r = .ok (validateLicense A w.cur t key email platform) ∧
        w' = { w with cur := w.base, now := t } := by
  rw [exec_close]
  constructor
  · rintro ⟨_, ⟨t, ht, rfl, rfl⟩, rfl⟩
    exact ⟨t, ht, rfl, rfl⟩
  · rintro ⟨t, ht, rfl, rfl⟩
    exact ⟨_, ⟨t, ht, rfl, rfl⟩, rfl⟩

/-- **Revocation by key, exactly.** A licence is activated with a text. The revocation with
that text succeeds, and no activation with it does afterwards, if and only if the row that
has the text itself in its `key` is that licence. -/
theorem revocation_by_key_exact {key platform : String} {email : Option String}
    {license : LicenseKey} (hclean : w.cur = w.base)
    (hworks : (validateAndConsume A key email platform).close.Exec w (.ok (.ok license)) w₁)
    (reason : Option String) :
    ((revokeByKey key reason).close.Ends w₁ fun r w₂ => r = .ok true ∧
        ∀ email' platform', (validateAndConsume A key email' platform').close.Ends w₂
          fun r' _ => ∃ why, r' = .ok (.error why)) ↔
      ∃ row, w.cur.licenseByKey key = some row ∧ row.id = license.id := by
  obtain ⟨now, -, hvalid, rfl⟩ := activation_exec.mp hworks
  have hvalid : validateLicense A w.cur now key email platform = .ok license :=
    (Except.ok.inj hvalid).symm
  have hlookup := validateLicense_found hvalid
  have hrow : w.cur.licenseByKey key = w.base.licenseByKey key := by rw [hclean]
  rw [hclean] at hvalid hlookup
  rw [hrow]
  constructor
  · intro h
    cases hfound : w.base.licenseByKey key with
    | none =>
      have hexec := exec_close.mpr ⟨_, (revokeByKey_unknown
        (w := { w with cur := w.base, now := now }) hfound reason).mpr ⟨rfl, rfl⟩, rfl⟩
      obtain ⟨hr, -⟩ := h _ _ hexec
      cases hr
    | some row =>
      refine ⟨row, rfl, ?_⟩
      by_contra hother
      -- the clock may stand still, and then the licence is as valid as before
      have hexec := exec_close.mpr ⟨_, (revokeByKey_known
        (w := { w with cur := w.base, now := now }) hfound reason).mpr
        ⟨rfl, now, Nat.le_refl _, rfl⟩, rfl⟩
      obtain ⟨-, hfails⟩ := h _ _ hexec
      obtain ⟨why, hwhy⟩ := hfails email platform _ _
        (activation_exec.mpr ⟨now, Nat.le_refl _, rfl, rfl⟩)
      have hsame : lookupLicense A
          (w.base.updateLicense row.id (LicenseKey.revoke now reason)) key =
          lookupLicense A w.base key := by
        rw [lookupLicense_revoked, hlookup, Option.map_some, if_neg fun hid => hother hid.symm]
      have hvalid' := validateLicense_congr hsame now email platform
      rw [hvalid] at hvalid'
      have hwhy := Except.ok.inj hwhy
      rw [hvalid'] at hwhy
      cases hwhy
  · rintro ⟨row, hfound, hid⟩ r w₂ hexec
    obtain ⟨w₃, hrevoke, rfl⟩ := exec_close.mp hexec
    obtain ⟨rfl, t, -, rfl⟩ :=
      (revokeByKey_known (w := { w with cur := w.base, now := now }) hfound reason).mp hrevoke
    refine ⟨rfl, fun email' platform' r' w' hactivation => ?_⟩
    obtain ⟨now', -, rfl, -⟩ := activation_exec.mp hactivation
    have hrevoked : lookupLicense A (w.base.updateLicense row.id (LicenseKey.revoke t reason)) key =
        some (license.revoke t reason) := by
      rw [lookupLicense_revoked, hlookup, Option.map_some, if_pos hid.symm]
    exact ⟨"revoked", congrArg Except.ok (validateLicense_revoked hrevoked rfl _ _ _)⟩

/-- Where `id` and `key` are UNIQUE, that is the licence whose `key` was typed. -/
theorem licenseByKey_iff {db : Database} {key : String} {license : LicenseKey}
    (hmem : license ∈ db.licenseKeys) (hids : (db.licenseKeys.map (·.id)).Nodup)
    (hkeys : ∀ l ∈ db.licenseKeys, ∀ l' ∈ db.licenseKeys, l.key.isSome → l.key = l'.key → l = l') :
    (∃ row, db.licenseByKey key = some row ∧ row.id = license.id) ↔ license.key = some key := by
  constructor
  · rintro ⟨row, hfound, hid⟩
    have hrow := List.mem_of_find?_eq_some hfound
    have hkey : row.key = some key := by simpa using List.find?_some hfound
    have hsame : row = license := List.inj_on_of_nodup_map hids hrow hmem hid
    rw [← hsame, hkey]
  · intro hkey
    have hfound : (db.licenseByKey key).isSome := by
      refine List.find?_isSome.mpr ⟨license, hmem, ?_⟩
      exact decide_eq_true hkey
    obtain ⟨row, hrow⟩ := Option.isSome_iff_exists.mp hfound
    have hrowkey : row.key = some key := by simpa using List.find?_some hrow
    have hsame := hkeys row (List.mem_of_find?_eq_some hrow) license hmem (by rw [hrowkey]; rfl)
      (by rw [hrowkey, hkey])
    exact ⟨row, hrow, by rw [hsame]⟩

/-! ## Two rows -/

/-- A row with its key, as rows were before keys were digested. -/
def plainLicense : LicenseKey := { id := 1, key := some "OMNI-ABCD", email := "ada@lab.org" }

/-- A row as licences are issued now. -/
def digestLicense : LicenseKey :=
  { id := 2, keyDigest := some (textNumber "OMNI-WXYZ"), email := "eve@lab.org" }

/-- Both are stored, and nobody is connected. -/
def twoLicenses : World :=
  let db : Database := { Database.empty with licenseKeys := [plainLicense, digestLicense] }
  ⟨db, db, 5, 10, []⟩

/-- **The licence with a digest** is activated with its key, and not revoked with it. -/
theorem digest_license_not_revoked :
    (validateAndConsume .symbolic "OMNI-WXYZ" none "web").close.Exec twoLicenses
      (.ok (.ok digestLicense)) twoLicenses ∧
    ¬ (revokeByKey "OMNI-WXYZ" none).close.Ends twoLicenses fun r w₂ => r = .ok true ∧
      ∀ email platform, (validateAndConsume .symbolic "OMNI-WXYZ" email platform).close.Ends w₂
        fun r' _ => ∃ why, r' = .ok (.error why) := by
  constructor
  · exact activation_exec.mpr ⟨5, by decide, by decide, rfl⟩
  · intro h
    have hnone : twoLicenses.cur.licenseByKey "OMNI-WXYZ" = none := by decide
    have hexec := exec_close.mpr ⟨_, (revokeByKey_unknown hnone none).mpr ⟨rfl, rfl⟩, rfl⟩
    obtain ⟨hr, -⟩ := h _ _ hexec
    cases hr

/-- The other one is revoked, when its key is typed as it is stored. -/
theorem revocation_by_key_exact_plain :
    (validateAndConsume .symbolic "OMNI-ABCD" none "web").close.Exec twoLicenses
      (.ok (.ok plainLicense)) twoLicenses ∧
    (revokeByKey "OMNI-ABCD" none).close.Ends twoLicenses fun r w₂ => r = .ok true ∧
      ∀ email platform, (validateAndConsume .symbolic "OMNI-ABCD" email platform).close.Ends w₂
        fun r' _ => ∃ why, r' = .ok (.error why) := by
  have hworks : (validateAndConsume .symbolic "OMNI-ABCD" none "web").close.Exec twoLicenses
      (.ok (.ok plainLicense)) twoLicenses :=
    activation_exec.mpr ⟨5, by decide, by decide, rfl⟩
  exact ⟨hworks, (revocation_by_key_exact rfl hworks none).mpr ⟨plainLicense, by decide, rfl⟩⟩

end OmniAuth
