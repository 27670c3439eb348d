import Mathlib.Data.List.Infix
import OmniAuth.Session.Service
import OmniAuth.Token.Delegation

/-!
# Integration credentials

`app/services/integration_credential_service.py`: a credential of a user or an organization
is set, replaced and revoked, and handed out by references that are opaque and short-lived.

What the provider's policy service answered is an argument of each call that asks it. The ORM
writes those columns of a row it has read whose value changed.
-/

namespace OmniAuth

open Txn Prog

variable (A : AppEnv)

/-- `policy["authentication"]`; `fields` by name, with whether each is required. -/
structure ProviderPolicy where
  fields : List (String × Bool)
  allowedScopes : List CredentialScope
  resolutionPolicy : List CredentialScope
  deriving DecidableEq

/-- The payload a row holds. -/
def IntegrationCredential.payload (c : IntegrationCredential) : Option (List (String × String)) :=
  (c.encryptedPayload.bind A.decrypt).bind A.loadPayload

/-! ## Checks -/

/-- `int(user["sub"])` -/
def integrationUserId (user : Claims) : Op ℕ :=
  match user.sub with
  | some (.user userId) => return userId
  | _ => raise noSubject

/-- `_active_org_id` -/
def activeOrgId (user : Claims) : Option ℕ := user.orgId.filter (0 < ·)

/-- `_membership` -/
def Database.integrationMembership (db : Database) (userId : ℕ) (orgId : Option ℕ) :
    Option OrganizationMembership :=
  orgId.bind (db.activeMembership userId)

/-- The permission an administering call asks for. -/
def requireManageOrg (administer : Bool) (membership : OrganizationMembership) : Op Unit :=
  if administer then do
    let permissions ← query (·.permissionsOf membership.roleIds)
    if "manage_org" ∈ permissions then return () else raise (.credential "Forbidden." 403)
  else return ()

/-- `_require_org_context`, the organization. -/
def requireOrgContext (user : Claims) (administer : Bool) : Op ℕ := do
  let userId ← integrationUserId user
  let membership ← query (·.integrationMembership userId (activeOrgId user))
  match activeOrgId user, membership with
  | some orgId, some membership => do
      requireManageOrg administer membership
      return orgId
  | _, _ => raise (.credential "Organization context is unavailable." 404)

/-- `_policy` -/
def requirePolicy : Option ProviderPolicy → Op ProviderPolicy
  | some policy => return policy
  | none => raise (.credential "Provider is unavailable." 404)

def requireScope (policy : ProviderPolicy) (scope : CredentialScope) : Op Unit :=
  if scope ∈ policy.allowedScopes then return ()
  else raise (.credential "Credential scope is not supported." 400)

/-- The loop of `_validate_payload`. -/
def normalizeFields (credentials : List (String × String)) :
    List (String × Bool) → Except Err (List (String × String))
  | [] => .ok []
  | (name, required) :: rest =>
      match credentials.lookup name with
      | none =>
          if required then .error (.credential "Required credential fields are missing." 400)
          else normalizeFields credentials rest
      | some value =>
          if required ∧ A.strip value = "" then
            .error (.credential "Required credential fields are missing." 400)
          else if A.strip value = "" ∨ 8192 < value.length then
            .error (.credential "Credential fields are invalid." 400)
          else (normalizeFields credentials rest).map ((name, A.strip value) :: ·)

/-- `_validate_payload` -/
def validatePayload (policy : ProviderPolicy) (credentials : List (String × String)) :
    Except Err (List (String × String)) :=
  if ∃ entry ∈ credentials, entry.1 ∉ policy.fields.map (·.1) then
    .error (.credential "Credential fields are invalid." 400)
  else
    match normalizeFields A credentials policy.fields with
    | .ok [] => .error (.credential "At least one credential value is required." 400)
    | result => result

/-- `_owner`: the key, `user_id` and `organization_id`. -/
structure CredentialOwner where
  key : OwnerKey
  userId : Option ℕ
  organizationId : Option ℕ
  deriving DecidableEq

/-- `_owner` -/
def credentialOwner (scope : CredentialScope) (user : Claims) (administerOrg : Bool) :
    Op CredentialOwner := do
  let userId ← integrationUserId user
  match scope with
  | .user => return ⟨.user userId, some userId, none⟩
  | .organization => do
      let orgId ← requireOrgContext user administerOrg
      return ⟨.organization orgId, none, some orgId⟩
  | _ => raise (.credential "Platform credential mutation is not available." 403)

/-- `filter_by(provider_id=…, scope=…, owner_key=…).first()` -/
def Database.credentialOf (db : Database) (providerId : String) (scope : CredentialScope)
    (ownerKey : OwnerKey) : Option IntegrationCredential :=
  db.integrationCredentials.find? fun c =>
    c.providerId = providerId ∧ c.scope = scope ∧ c.ownerKey = ownerKey

def Database.credentialById (db : Database) (id : ℕ) : Option IntegrationCredential :=
  db.integrationCredentials.find? (·.id = id)

/-- `_query_owner` -/
def queryOwner (providerId : String) (scope : CredentialScope) (user : Claims) :
    Op (Option IntegrationCredential) := do
  let owner ← credentialOwner scope user false
  query (·.credentialOf providerId scope owner.key)

/-- `_masked_hint` -/
def maskedHintOf (payload : List (String × String)) : Option String :=
  let value := (payload.map (·.2)).headD ""
  if 8 ≤ value.length then some ("••••" ++ String.ofList (value.toList.drop (value.length - 4)))
  else none

/-- `_display_metadata` -/
def displayMetadataOf (value : Option (List (String × String))) (secretValues : List String) :
    Except Err (Option (List (String × String))) :=
  match value with
  | none => .ok none
  | some entries =>
      if (∃ entry ∈ entries, entry.1 ∉ ["label", "account"]) ∨
          ∃ entry ∈ entries, A.strip entry.2 = "" ∨ 128 < entry.2.length then
        .error (.credential "Display metadata is invalid." 400)
      else if ∃ entry ∈ entries, ∃ secret ∈ secretValues,
          secret ≠ "" ∧ secret.toList <:+: entry.2.toList then
        .error (.credential "Display metadata must not contain credential values." 400)
      else .ok (some (entries.map fun entry => (entry.1, A.strip entry.2)))

/-! ## `set_credential` -/

/-- `"user"`, `"organization"`, … -/
def CredentialScope.text : CredentialScope → String
  | user => "user"
  | organization => "organization"
  | platform => "platform"
  | anonymous => "anonymous"
  | other value => value

/-- The audit row of a call on a credential. -/
def credentialEvent (eventType : AuditEventType) (actorId : ℕ) (orgId : Option ℕ) (id : ℕ)
    (providerId : String) (scope : CredentialScope) : AuditEvent where
  eventType := eventType
  actorUserId := some actorId
  organizationId := orgId
  resourceType := some "integration_credential"
  resourceId := some id
  metadata := [("provider_id", providerId), ("scope", scope.text)]

/-- `before_state` and `after_state` of it. -/
def credentialState (providerId : String) (scope : CredentialScope) (status : String) :
    List (String × String) :=
  [("provider_id", providerId), ("scope", scope.text), ("status", status)]

/-- `db.refresh(row)` -/
def refreshCredential (id : ℕ) : Op IntegrationCredential := do
  let row ← query (·.credentialById id)
  match row with
  | some row => return row
  | none => raise .database

def raising {α : Type} : Except Err α → Op α
  | .ok a => return a
  | .error x => raise x

/-- What `set_credential` computes of its arguments for the row. -/
structure CredentialInput where
  encryptedPayload : String
  maskedHint : Option String
  displayMetadata : Option (List (String × String))

/-- The assignments of `set_credential` that may raise. -/
def sealCredential (payload : List (String × String))
    (displayMetadata : Option (List (String × String))) : Op CredentialInput :=
  match A.encrypt (A.dumpPayload payload) with
  | none => raise (.runtime "CONFIG_ENCRYPTION_KEY is not set")
  | some encryptedPayload => do
      let shown ← raising (displayMetadataOf A displayMetadata (payload.map (·.2)))
      return ⟨encryptedPayload, maskedHintOf payload, shown⟩

/-- A column the ORM writes if its value changed. -/
def changed {α : Type} [DecidableEq α] (old new : α) : Option α :=
  if old = new then none else some new

/-- What `set_credential` changes of a row it has read. A ciphertext is never what was there. -/
def IntegrationCredential.replacing (c : IntegrationCredential) (input : CredentialInput)
    (actorId now : ℕ) : CredentialColumns where
  encryptedPayload := some (some input.encryptedPayload)
  maskedHint := changed c.maskedHint input.maskedHint
  displayMetadata := changed c.displayMetadata input.displayMetadata
  status := changed c.status .active
  version := some (c.version + 1)
  updatedAt := changed c.updatedAt now
  revokedAt := changed c.revokedAt none
  updatedByUserId := changed c.updatedByUserId actorId

/-- The flush of `set_credential`: an `INSERT` where it found no row, an `UPDATE` of the one
it found. Its id is returned. -/
def flushCredential (providerId : String) (scope : CredentialScope) (owner : CredentialOwner)
    (input : CredentialInput) (actorId now : ℕ) : Option IntegrationCredential → Op ℕ
  | some row => do
      execute (.credential (.updateIntegrationCredential row.id (row.replacing input actorId now)))
      return row.id
  | none => do
      let id ← draw
      execute (.credential (.insertIntegrationCredential
        { id := id
          providerId := providerId
          scope := scope
          ownerKey := owner.key
          userId := owner.userId
          organizationId := owner.organizationId
          encryptedPayload := some input.encryptedPayload
          maskedHint := input.maskedHint
          displayMetadata := input.displayMetadata
          status := .active
          createdAt := now
          updatedAt := now
          revokedAt := none
          createdByUserId := actorId
          updatedByUserId := actorId }))
      return id

/-- `set_credential` -/
def setCredential (providerId : String) (scope : CredentialScope)
    (credentials : List (String × String)) (displayMetadata : Option (List (String × String)))
    (user : Claims) (policy : Option ProviderPolicy) : Op IntegrationCredential := do
  let policy ← requirePolicy policy
  requireScope policy scope
  let owner ← credentialOwner scope user (scope = .organization)
  let payload ← raising (validatePayload A policy credentials)
  let actorId ← integrationUserId user
  let row ← query (·.credentialOf providerId scope owner.key)
  let now ← time
  let input ← sealCredential A payload displayMetadata
  let id ← flushCredential providerId scope owner input actorId now row
  let eventType := if row.isSome then .integrationCredentialReplaced else .integrationCredentialCreated
  logEvent
    { credentialEvent eventType actorId owner.organizationId id providerId scope with
      afterState := credentialState providerId scope "active" }
    false
  commitNow
  refreshCredential id

/-! ## `revoke_credential` -/

/-- What `revoke_credential` changes of a row it has read. -/
def IntegrationCredential.revoking (c : IntegrationCredential) (actorId now : ℕ) :
    CredentialColumns where
  encryptedPayload := changed c.encryptedPayload none
  maskedHint := changed c.maskedHint none
  status := changed c.status .revoked
  version := some (c.version + 1)
  updatedAt := changed c.updatedAt now
  revokedAt := changed c.revokedAt (some now)
  updatedByUserId := changed c.updatedByUserId actorId

/-- `filter_by(…, status="active").first()` -/
def Database.activeCredentialOf (db : Database) (providerId : String) (scope : CredentialScope)
    (ownerKey : OwnerKey) : Option IntegrationCredential :=
  db.integrationCredentials.find? fun c =>
    c.providerId = providerId ∧ c.scope = scope ∧ c.ownerKey = ownerKey ∧ c.status = .active

/-- `revoke_credential` from the row it found on. -/
def revokeRow (providerId : String) (scope : CredentialScope) (orgId : Option ℕ) (user : Claims)
    (row : IntegrationCredential) : Op IntegrationCredential := do
  let now ← time
  let actorId ← integrationUserId user
  execute (.credential (.updateIntegrationCredential row.id (row.revoking actorId now)))
  execute (.credential (.revokeCredentialReferences row.id now))
  logEvent
    { credentialEvent .integrationCredentialRevoked actorId orgId row.id providerId scope with
      beforeState := credentialState providerId scope "active"
      afterState := credentialState providerId scope "revoked" }
    false
  commitNow
  refreshCredential row.id

/-- `revoke_credential` -/
def revokeCredential (providerId : String) (scope : CredentialScope) (user : Claims)
    (policy : Option ProviderPolicy) : Op IntegrationCredential := do
  let policy ← requirePolicy policy
  requireScope policy scope
  let owner ← credentialOwner scope user (scope = .organization)
  let row ← query (·.activeCredentialOf providerId scope owner.key)
  match row with
  | none => raise (.credential "Credential is not configured." 404)
  | some row => revokeRow providerId scope owner.organizationId user row

/-! ## References -/

/-- `CONSUMER` -/
def credentialConsumer : String := "workbench"

/-- `PURPOSE` -/
def credentialPurpose : String := "integration_execution"

/-- What a resolution policy comes to. -/
inductive Resolution
  | anonymous
  | selected (row : IntegrationCredential)
  | nothing

/-- The loop of `issue_reference`. -/
def selectCredential (providerId : String) (user : Claims) : List CredentialScope → Op Resolution
  | [] => return .nothing
  | .anonymous :: _ => return .anonymous
  | .platform :: rest => selectCredential providerId user rest
  | scope :: rest => do
      let candidate ← (queryOwner providerId scope user).orElse fun x =>
        match x with
        | .credential _ _ => return none
        | x => raise x
      match candidate with
      | some row =>
          if row.status = .active then return .selected row
          else selectCredential providerId user rest
      | none => selectCredential providerId user rest

/-- The credential an owner's turn in the policy offers. -/
def candidateOf (providerId : String) (scope : CredentialScope) (user : Claims) :
    Op (Option IntegrationCredential) :=
  (queryOwner providerId scope user).orElse fun x =>
    match x with
    | .credential _ _ => return none
    | x => raise x

/-- It is taken if it is active; otherwise it is the next owner's turn. -/
def takeOrElse (candidate : Option IntegrationCredential) (rest : Op Resolution) : Op Resolution :=
  match candidate with
  | some row => if row.status = .active then return .selected row else rest
  | none => rest

/-- An owner's turn, and the turns after it. -/
theorem selectCredential_owner {scope : CredentialScope} (hanonymous : scope ≠ .anonymous)
    (hplatform : scope ≠ .platform) (providerId : String) (user : Claims)
    (rest : List CredentialScope) :
    selectCredential providerId user (scope :: rest) =
      Prog.bind (candidateOf providerId scope user) fun candidate =>
        takeOrElse candidate (selectCredential providerId user rest) := by
  cases scope with
  | anonymous => exact absurd rfl hanonymous
  | platform => exact absurd rfl hplatform
  | user => rfl
  | organization => rfl
  | other value => rfl

/-- What `issue_reference` returns. -/
structure ReferenceAnswer where
  providerId : String
  resolvedScope : CredentialScope
  credentialRef : Option String
  expiresAt : Option ℕ
  deriving DecidableEq

/-- The row of a reference; `opaqueId` is what `secrets` drew. -/
def IntegrationCredential.reference (selected : IntegrationCredential)
    (providerId consumer purpose : String) (userId : ℕ) (orgId : Option ℕ)
    (opaqueId expiresAt id : ℕ) : IntegrationCredentialReference where
  id := id
  tokenHash := A.referenceHash (A.referenceToken opaqueId)
  credentialId := selected.id
  credentialVersion := selected.version
  providerId := providerId
  scope := selected.scope
  subjectUserId := userId
  organizationId := orgId
  consumer := consumer
  purpose := purpose
  expiresAt := expiresAt

/-- `issue_reference` for the row it selected. -/
def issueReferenceTo (providerId consumer purpose : String) (userId : ℕ) (orgId : Option ℕ)
    (selected : IntegrationCredential) : Op ReferenceAnswer := do
  let opaqueId ← draw
  let now ← time
  let expiresAt := now + A.integrationCredentialReferenceTtlSeconds * 1000000
  let id ← draw
  execute (.credential (.insertCredentialReference (selected.reference A providerId consumer purpose
    userId orgId opaqueId expiresAt id)))
  logEvent
    { eventType := .integrationCredentialReferenceIssued
      actorUserId := some userId
      organizationId := orgId
      resourceType := some "integration_credential_reference"
      resourceId := some id
      metadata := [("provider_id", providerId), ("scope", selected.scope.text),
        ("consumer", consumer), ("purpose", purpose)] }
    false
  commitNow
  return ⟨providerId, selected.scope, some (A.referenceToken opaqueId), some expiresAt⟩

def requireBinding (consumer purpose : String) : Op Unit :=
  if consumer ≠ credentialConsumer ∨ purpose ≠ credentialPurpose then
    raise (.credential "Credential reference binding is not allowed." 403)
  else return ()

/-- `issue_reference` -/
def issueReference (providerId consumer purpose : String) (user : Claims)
    (policy : Option ProviderPolicy) : Op ReferenceAnswer := do
  requireBinding consumer purpose
  let policy ← requirePolicy policy
  let userId ← integrationUserId user
  let resolution ← selectCredential providerId user policy.resolutionPolicy
  match resolution with
  | .anonymous => return ⟨providerId, .anonymous, none, none⟩
  | .nothing => raise (.credential "Credential is not configured." 404)
  | .selected row => issueReferenceTo A providerId consumer purpose userId (activeOrgId user) row

/-- The digest finds at most one row. -/
def Database.referenceByHash (db : Database) (hash : ℕ) : Option IntegrationCredentialReference :=
  db.integrationCredentialReferences.find? (·.tokenHash = hash)

/-- `resolve_reference`, what it asks of the reference. -/
def IntegrationCredentialReference.Usable (r : IntegrationCredentialReference)
    (providerId consumer purpose : String) (now : ℕ) : Prop :=
  r.revokedAt = none ∧ now < r.expiresAt ∧ r.providerId = providerId ∧ r.consumer = consumer ∧
    r.purpose = purpose

instance (r : IntegrationCredentialReference) (providerId consumer purpose : String) (now : ℕ) :
    Decidable (r.Usable providerId consumer purpose now) :=
  inferInstanceAs (Decidable (_ ∧ _))

/-- `resolve_reference`, what it asks of the credential. -/
def IntegrationCredential.Meets (c : IntegrationCredential) (r : IntegrationCredentialReference)
    (providerId : String) : Prop :=
  c.status = .active ∧ c.encryptedPayload.getD "" ≠ "" ∧ c.providerId = providerId ∧
    c.scope = r.scope ∧ c.version = r.credentialVersion ∧
    (c.scope = .user → c.userId = some r.subjectUserId)

instance (c : IntegrationCredential) (r : IntegrationCredentialReference) (providerId : String) :
    Decidable (c.Meets r providerId) := inferInstanceAs (Decidable (_ ∧ _))

/-- The error of a reference that is not to be used. -/
def referenceUnavailable : Err := .credential "Credential reference is unavailable." 404

/-- What `resolve_reference` returns. -/
structure PayloadAnswer where
  providerId : String
  scope : CredentialScope
  credentials : List (String × String)
  deriving DecidableEq

/-- The membership of the subject, asked for where the reference names an organization. -/
def requireSubject (r : IntegrationCredentialReference) : Op Unit :=
  match r.organizationId with
  | none => return ()
  | some orgId => do
      let membership ← query (·.integrationMembership r.subjectUserId (some orgId))
      if membership = none then raise referenceUnavailable else return ()

/-- `resolve_reference`, once the credential is found good. -/
def openCredential (r : IntegrationCredentialReference) (c : IntegrationCredential)
    (providerId consumer purpose : String) : Op PayloadAnswer :=
  if c.scope = .organization ∧ c.organizationId ≠ r.organizationId then raise referenceUnavailable
  else
    match c.payload A with
    | none => raise (.credential "Credential resolution failed." 500)
    | some payload => do
        logEvent
          { credentialEvent .integrationCredentialResolved r.subjectUserId r.organizationId c.id
              providerId c.scope with
            metadata := [("provider_id", providerId), ("scope", c.scope.text),
              ("consumer", consumer), ("purpose", purpose)] }
          true
        return ⟨providerId, c.scope, payload⟩

/-- `resolve_reference`, once the reference is found good. -/
def resolveUsable (r : IntegrationCredentialReference) (providerId consumer purpose : String) :
    Op PayloadAnswer := do
  let credential ← query (·.credentialById r.credentialId)
  match credential with
  | none => raise referenceUnavailable
  | some c =>
      if c.Meets r providerId then do
        requireSubject r
        openCredential A r c providerId consumer purpose
      else raise referenceUnavailable

/-- `resolve_reference` -/
def resolveReference (credentialRef providerId consumer purpose : String) : Op PayloadAnswer := do
  let reference ← query (·.referenceByHash (A.referenceHash credentialRef))
  let now ← time
  match reference with
  | none => raise referenceUnavailable
  | some r =>
      if r.Usable providerId consumer purpose now then
        resolveUsable A r providerId consumer purpose
      else raise referenceUnavailable

/-! ## The calls -/

/-- A call of the service, with what it is called with. -/
inductive CredentialCall
  | set (providerId : String) (scope : CredentialScope) (credentials : List (String × String))
      (displayMetadata : Option (List (String × String))) (user : Claims)
      (policy : Option ProviderPolicy)
  | revoke (providerId : String) (scope : CredentialScope) (user : Claims)
      (policy : Option ProviderPolicy)
  | issue (providerId consumer purpose : String) (user : Claims) (policy : Option ProviderPolicy)
  | resolve (credentialRef providerId consumer purpose : String)

inductive CredentialAnswer
  | credential (row : IntegrationCredential)
  | reference (answer : ReferenceAnswer)
  | payload (answer : PayloadAnswer)
  deriving DecidableEq

/-- The call in a session of its own. -/
def CredentialCall.op : CredentialCall → Op CredentialAnswer
  | set providerId scope credentials displayMetadata user policy =>
      (CredentialAnswer.credential <$>
        setCredential A providerId scope credentials displayMetadata user policy).close
  | revoke providerId scope user policy =>
      (CredentialAnswer.credential <$> revokeCredential providerId scope user policy).close
  | issue providerId consumer purpose user policy =>
      (CredentialAnswer.reference <$> issueReference A providerId consumer purpose user policy).close
  | resolve credentialRef providerId consumer purpose =>
      (CredentialAnswer.payload <$>
        resolveReference A credentialRef providerId consumer purpose).close

end OmniAuth
