import OmniAuth.Inquiry.Stages
import OmniAuth.Txn.Rows
import OmniAuth.Txn.Index

/-!
# The rows of inquiries

A statement changes the row of an inquiry under its lock, and inserts it with an id and a
fingerprint nobody has. What a commit makes of a row either leaves its notification alone or
ends one; so attempts are never taken back, and a mail that is sent stays sent.
-/

namespace OmniAuth

open Txn Prog

variable {maxAttempts : ℕ}

/-! ## Statements and rows -/

@[simp] theorem assign_inquiryId (row : ResearchInquiry) (c : InquiryColumns) :
    (row.assign c).inquiryId = row.inquiryId := rfl

theorem inquiryById_insert {db : InquiryDb} {row : ResearchInquiry} {id : ℕ} :
    (db.insertInquiry row).inquiryById id =
      (db.inquiryById id).or (if row.inquiryId = id then some row else none) := by
  unfold InquiryDb.insertInquiry InquiryDb.inquiryById
  rw [List.find?_append]
  congr 1
  by_cases h : row.inquiryId = id <;> simp [h]

theorem inquiryById_update {db : InquiryDb} {id id' : ℕ} {c : InquiryColumns} :
    (db.updateInquiry id' c).inquiryById id =
      if id = id' then (db.inquiryById id).map (·.assign c) else db.inquiryById id := by
  unfold InquiryDb.updateInquiry InquiryDb.inquiryById
  have hkeeps : (fun row : ResearchInquiry => decide (row.inquiryId = id)) ∘
      (fun row => if row.inquiryId = id' then row.assign c else row) =
        fun row => decide (row.inquiryId = id) := by
    funext row
    by_cases h : row.inquiryId = id' <;> simp [h]
  rw [List.find?_map, hkeeps]
  cases hfound : db.inquiries.find? fun row => decide (row.inquiryId = id) with
  | none => simp
  | some row =>
    have hid : row.inquiryId = id := by simpa using List.find?_some hfound
    by_cases h : id = id' <;> simp [hid, h]

/-- **What a statement does to a row**: nothing, or it inserts it where it was missing, or it
assigns columns; both under the lock of the row. -/
theorem denote_row {stmt : InquiryStmt} {seen : InquiryDb} {eff : Effect InquiryDb InquiryLock}
    (h : stmt.denote seen = .ok eff) (id : ℕ) :
    (∀ db, (eff.delta db).inquiryById id = db.inquiryById id) ∨
    (∃ row, stmt = .insertInquiry row ∧ .inquiry id ∈ eff.locks ∧ seen.inquiryById id = none ∧
      ∀ db, (eff.delta db).inquiryById id = (db.inquiryById id).or (some row)) ∨
    (∃ c, stmt = .updateInquiry id c ∧ .inquiry id ∈ eff.locks ∧
      ∀ db, (eff.delta db).inquiryById id = (db.inquiryById id).map (·.assign c)) := by
  cases stmt with
  | insertInquiry row =>
    simp only [InquiryStmt.denote] at h
    split at h
    · cases h
    · rename_i hfree
      obtain rfl := Except.ok.inj h
      by_cases hid : row.inquiryId = id
      · refine .inr (.inl ⟨row, rfl, by simp [hid], ?_, fun db => ?_⟩)
        · refine List.find?_eq_none.mpr fun r hr hrid => hfree ?_
          refine List.any_eq_true.mpr ⟨r, hr, ?_⟩
          have hsame : r.inquiryId = id := by simpa using hrid
          simp [hsame, hid]
        · rw [inquiryById_insert, if_pos hid]
      · refine .inl fun db => ?_
        rw [inquiryById_insert, if_neg hid, Option.or_none]
  | lockInquiry id' =>
    obtain rfl := Except.ok.inj h
    exact .inl fun _ => rfl
  | updateInquiry id' c =>
    simp only [InquiryStmt.denote] at h
    split at h
    · obtain rfl := Except.ok.inj h
      by_cases hid : id = id'
      · subst hid
        refine .inr (.inr ⟨c, rfl, by simp, fun db => ?_⟩)
        rw [inquiryById_update, if_pos rfl]
      · refine .inl fun db => ?_
        rw [inquiryById_update, if_neg hid]
    · obtain rfl := Except.ok.inj h
      exact .inl fun _ => rfl
  | insertAuditEvent row =>
    obtain rfl := Except.ok.inj h
    exact .inl fun _ => rfl

/-- The row of an inquiry is what its lock protects. -/
def inquiryRows : Rows InquirySig (Option ResearchInquiry) where
  row db l :=
    match l with
    | .inquiry id => db.inquiryById id
    | .fingerprint _ => none
  frame := by
    intro stmt seen eff h l hl db
    cases l with
    | fingerprint f => rfl
    | inquiry id =>
      rcases denote_row h id with hsame | ⟨row, -, hlock, -⟩ | ⟨c, -, hlock, -⟩
      · exact hsame db
      · exact absurd hlock hl
      · exact absurd hlock hl
  congr := by
    intro stmt seen eff h l db db' hrow
    cases l with
    | fingerprint f => rfl
    | inquiry id =>
      have hrow : db.inquiryById id = db'.inquiryById id := hrow
      show (eff.delta db).inquiryById id = (eff.delta db').inquiryById id
      rcases denote_row h id with hsame | ⟨row, -, -, -, hor⟩ | ⟨c, -, -, hmap⟩
      · exact (hsame db).trans (hrow.trans (hsame db').symm)
      · exact (hor db).trans ((congrArg (·.or (some row)) hrow).trans (hor db').symm)
      · exact (hmap db).trans ((congrArg (·.map (·.assign c)) hrow).trans (hmap db').symm)

/-- A row as its notification sees it: the same, or stored for the first time. -/
def SameNotice : Option ResearchInquiry → Option ResearchInquiry → Prop
  | none, none => True
  | none, some row => row.Fresh
  | some row, some row' =>
      row'.notificationStatus = row.notificationStatus ∧
        row'.notificationAttempts = row.notificationAttempts ∧
        row'.notificationReceiptId = row.notificationReceiptId
  | some _, none => False

theorem SameNotice.refl (r : Option ResearchInquiry) : SameNotice r r := by
  cases r with
  | none => trivial
  | some row => exact ⟨rfl, rfl, rfl⟩

theorem InquiryDb.inquiryById_of_mem {db : InquiryDb} {row : ResearchInquiry}
    (hids : (db.inquiries.map (·.inquiryId)).Nodup) (hrow : row ∈ db.inquiries) :
    db.inquiryById row.inquiryId = some row := by
  have hsome : (db.inquiryById row.inquiryId).isSome := by
    unfold InquiryDb.inquiryById
    exact List.find?_isSome.mpr ⟨row, hrow, by simp⟩
  obtain ⟨row', hrow'⟩ := Option.isSome_iff_exists.mp hsome
  have hmem : row' ∈ db.inquiries := List.mem_of_find?_eq_some hrow'
  rw [hrow', List.inj_on_of_nodup_map hids hmem hrow (inquiryById_id hrow')]

/-! ## What a commit does to a row -/

def InquiryDb.attempts (db : InquiryDb) (id : ℕ) : ℕ :=
  ((db.inquiryById id).map (·.notificationAttempts)).getD 0

/-- The mail is sent, with this receipt. -/
def InquiryDb.SentWith (db : InquiryDb) (id : ℕ) (receipt : String) : Prop :=
  ∃ row, db.inquiryById id = some row ∧ row.notificationStatus = .sent ∧
    row.notificationReceiptId = some receipt

/-- A row within the limit, with a receipt where it says that the mail is sent. -/
def ResearchInquiry.Sound (maxAttempts : ℕ) (row : ResearchInquiry) : Prop :=
  row.notificationAttempts ≤ maxAttempts ∧
    (row.notificationStatus = .sent → row.notificationReceiptId.isSome)

/-- What one commit makes of a row: it leaves its notification alone, or it ends one. -/
def NoticeStep (maxAttempts : ℕ) (r r' : Option ResearchInquiry) : Prop :=
  SameNotice r r' ∨ ∃ was has call, r = some was ∧ r' = some has ∧
    ProviderCall.Outcome maxAttempts was has call

theorem NoticeStep.sound {db db' : InquiryDb} {id : ℕ}
    (h : NoticeStep maxAttempts (db.inquiryById id) (db'.inquiryById id))
    (hrows : ∀ row, db.inquiryById id = some row → row.Sound maxAttempts) :
    ∀ row, db'.inquiryById id = some row → row.Sound maxAttempts := by
  intro row hrow
  rw [hrow] at h
  rcases h with hsame | ⟨was, has, call, hwas, hhas, hout⟩
  · cases hold : db.inquiryById id with
    | none =>
      rw [hold] at hsame
      obtain ⟨hstatus, hattempts⟩ := hsame
      exact ⟨by omega, fun hsent => absurd (hstatus.symm.trans hsent) (by decide)⟩
    | some old =>
      rw [hold] at hsame
      obtain ⟨hstatus, hattempts, hreceipt⟩ := hsame
      obtain ⟨hle, hsome⟩ := hrows old hold
      exact ⟨by omega, fun hsent => by rw [hreceipt]; exact hsome (hstatus.symm.trans hsent)⟩
  · obtain rfl := Option.some.inj hhas
    obtain ⟨hle, -⟩ := hrows was hwas
    cases call with
    | none =>
      obtain ⟨hunsent, hattempts, -⟩ := hout
      exact ⟨by omega, fun hsent => absurd hsent hunsent⟩
    | posted =>
      obtain ⟨hunsent, hattempts, -, hlt⟩ := hout
      exact ⟨by omega, fun hsent => absurd hsent hunsent⟩
    | accepted receipt =>
      obtain ⟨-, hreceipt, hattempts, -, hlt⟩ := hout
      exact ⟨by omega, fun _ => by rw [hreceipt]; rfl⟩

/-- A mail that is sent stays sent. -/
theorem NoticeStep.sentWith {db db' : InquiryDb} {id : ℕ} {receipt : String}
    (h : NoticeStep maxAttempts (db.inquiryById id) (db'.inquiryById id))
    (hsent : db.SentWith id receipt) : db'.SentWith id receipt := by
  obtain ⟨row, hrow, hstatus, hreceipt⟩ := hsent
  rw [hrow] at h
  rcases h with hsame | ⟨was, has, call, hwas, -, hout⟩
  · cases hnew : db'.inquiryById id with
    | none =>
      rw [hnew] at hsame
      exact hsame.elim
    | some row' =>
      rw [hnew] at hsame
      obtain ⟨hstatus', -, hreceipt'⟩ := hsame
      exact ⟨row', hnew, hstatus'.trans hstatus, hreceipt'.trans hreceipt⟩
  · obtain rfl := Option.some.inj hwas
    cases call with
    | none => exact absurd hstatus hout.2.2
    | posted => exact absurd hstatus hout.2.2.1
    | accepted receipt => exact absurd hstatus hout.2.2.2.1

/-- Attempts are never taken back. -/
theorem NoticeStep.attempts {db db' : InquiryDb} {id : ℕ}
    (h : NoticeStep maxAttempts (db.inquiryById id) (db'.inquiryById id)) :
    db.attempts id ≤ db'.attempts id := by
  unfold InquiryDb.attempts
  rcases h with hsame | ⟨was, has, call, hwas, hhas, hout⟩
  · cases hold : db.inquiryById id with
    | none => simp
    | some old =>
      cases hnew : db'.inquiryById id with
      | none =>
        rw [hold, hnew] at hsame
        exact hsame.elim
      | some new =>
        rw [hold, hnew] at hsame
        exact hsame.2.1.ge
  · rw [hwas, hhas]
    cases call with
    | none => exact hout.2.1.ge
    | posted =>
      have hattempts := hout.2.1
      exact (Nat.le_succ _).trans hattempts.ge
    | accepted receipt =>
      have hattempts := hout.2.2.1
      exact (Nat.le_succ _).trans hattempts.ge

theorem InquiryDb.attempts_row {db : InquiryDb} {id : ℕ} {row : ResearchInquiry}
    (h : db.inquiryById id = some row) : db.attempts id = row.notificationAttempts := by
  unfold InquiryDb.attempts
  rw [h]
  rfl

/-! ## One row for each inquiry -/

/-- A UNIQUE column of the table that no `UPDATE` assigns. -/
def inquiryIndex {κ : Type} (key : ResearchInquiry → κ) (lock : κ → InquiryLock)
    (hassign : ∀ row c, key (row.assign c) = key row)
    (hinsert : ∀ {row seen eff}, InquiryStmt.denote (.insertInquiry row) seen = .ok eff →
      lock (key row) ∈ eff.locks ∧ ∀ r ∈ seen.inquiries, key r ≠ key row) :
    Index InquirySig κ ℕ where
  entries db := db.inquiries.map fun row => (key row, row.inquiryId)
  lock := lock
  stmt := by
    intro stmt seen eff hden
    cases stmt with
    | insertInquiry row =>
      obtain ⟨hlock, hfree⟩ := hinsert hden
      refine ⟨fun _ => true, [(key row, row.inquiryId)], fun db => ?_, ?_, List.nodup_singleton _⟩
      · simp only [InquiryStmt.denote] at hden
        split at hden
        · cases hden
        · obtain rfl := Except.ok.inj hden
          simp [InquiryDb.insertInquiry]
      · intro e he
        obtain rfl := List.mem_singleton.mp he
        refine ⟨hlock, fun hmem => ?_⟩
        simp only [List.map_map, List.mem_map] at hmem
        obtain ⟨r, hr, heq⟩ := hmem
        exact hfree r hr heq
    | updateInquiry id c =>
      have hsame : ∀ db : InquiryDb, (db.updateInquiry id c).inquiries.map
          (fun row => (key row, row.inquiryId)) =
            db.inquiries.map fun row => (key row, row.inquiryId) := by
        intro db
        simp only [InquiryDb.updateInquiry, List.map_map]
        refine List.map_congr_left fun row _ => ?_
        by_cases hid : row.inquiryId = id
        · simp [hid, hassign]
        · simp [hid]
      refine ⟨fun _ => true, [], fun db => ?_, nofun, List.nodup_nil⟩
      rw [List.filter_true, List.append_nil]
      simp only [InquiryStmt.denote] at hden
      split at hden
      · obtain rfl := Except.ok.inj hden
        exact hsame db
      · obtain rfl := Except.ok.inj hden
        rfl
    | lockInquiry id =>
      obtain rfl := Except.ok.inj hden
      exact ⟨fun _ => true, [], fun db => by simp, nofun, List.nodup_nil⟩
    | insertAuditEvent row =>
      obtain rfl := Except.ok.inj hden
      exact ⟨fun _ => true, [], fun db => by simp, nofun, List.nodup_nil⟩

/-- Both columns are free where a row is inserted, and locked. -/
theorem denote_insertInquiry {row : ResearchInquiry} {seen : InquiryDb}
    {eff : Effect InquiryDb InquiryLock}
    (h : InquiryStmt.denote (.insertInquiry row) seen = .ok eff) :
    eff.locks = [.inquiry row.inquiryId, .fingerprint row.duplicateFingerprint] ∧
      ∀ r ∈ seen.inquiries, r.inquiryId ≠ row.inquiryId ∧
        r.duplicateFingerprint ≠ row.duplicateFingerprint := by
  simp only [InquiryStmt.denote] at h
  split at h
  · cases h
  · rename_i hfree
    obtain rfl := Except.ok.inj h
    refine ⟨rfl, fun r hr => ?_⟩
    simpa using fun hsame => hfree (List.any_eq_true.mpr ⟨r, hr, hsame⟩)

def inquiryIds : Index InquirySig ℕ ℕ :=
  inquiryIndex (·.inquiryId) .inquiry (fun _ _ => rfl) fun h => by
    obtain ⟨hlocks, hfree⟩ := denote_insertInquiry h
    exact ⟨by simp [hlocks], fun r hr => (hfree r hr).1⟩

def inquiryFingerprints : Index InquirySig String ℕ :=
  inquiryIndex (·.duplicateFingerprint) .fingerprint (fun _ _ => rfl) fun h => by
    obtain ⟨hlocks, hfree⟩ := denote_insertInquiry h
    exact ⟨by simp [hlocks], fun r hr => (hfree r hr).2⟩

theorem inquiryIds_unique {db : InquiryDb} :
    inquiryIds.Unique db ↔ (db.inquiries.map (·.inquiryId)).Nodup := by
  show ((db.inquiries.map fun row => (row.inquiryId, row.inquiryId)).map Prod.fst).Nodup ↔ _
  rw [List.map_map]
  rfl

theorem inquiryFingerprints_unique {db : InquiryDb} :
    inquiryFingerprints.Unique db ↔ (db.inquiries.map (·.duplicateFingerprint)).Nodup := by
  show ((db.inquiries.map fun row => (row.duplicateFingerprint, row.inquiryId)).map
    Prod.fst).Nodup ↔ _
  rw [List.map_map]
  rfl

end OmniAuth
