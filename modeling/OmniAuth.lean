import OmniAuth.Txn.Prog
import OmniAuth.Txn.System
import OmniAuth.Txn.Discipline
import OmniAuth.Model.Schema
import OmniAuth.Model.Sql
import OmniAuth.Model.Jwt
import OmniAuth.Session.Service
import OmniAuth.Session.Decay
import OmniAuth.Session.Outcome
import OmniAuth.Session.Family
import OmniAuth.Session.Lifetime
import OmniAuth.Txn.Evolution
import OmniAuth.Session.Evolution
import OmniAuth.Session.Steps
import OmniAuth.Session.Rotation
import OmniAuth.Session.Race
import OmniAuth.Session.Reuse
import OmniAuth.Txn.Claim
import OmniAuth.Session.Minting
import OmniAuth.Session.Sweep
import OmniAuth.Session.Suspension
import OmniAuth.Throttle.Redis
import OmniAuth.Throttle.Service
import OmniAuth.Throttle.Exact
import OmniAuth.Throttle.Budget
import OmniAuth.Token.Usable
import OmniAuth.Token.Blacklist
import OmniAuth.Token.Separation
import OmniAuth.Model.App
import OmniAuth.Token.Delegation
import OmniAuth.Token.Attenuation
import OmniAuth.Mfa.Service
import OmniAuth.Txn.Noted
import OmniAuth.Mfa.SingleUse
import OmniAuth.Login.Service
import OmniAuth.Login.Decision
import OmniAuth.Login.Routes
import OmniAuth.Login.Policy
import OmniAuth.Login.Steps
import OmniAuth.Login.Landing
import OmniAuth.Login.Active
import OmniAuth.Txn.Rows
import OmniAuth.Mfa.EmailCodes
import OmniAuth.Mfa.EmailRace
import OmniAuth.Mfa.EmailSafety
import OmniAuth.License.Manual
import OmniAuth.License.Steps
import OmniAuth.License.Holders
import OmniAuth.License.Issuance
import OmniAuth.License.Race
import OmniAuth.License.Discipline
import OmniAuth.License.Idempotent
import OmniAuth.Credential.Service
import OmniAuth.Credential.Capability
import OmniAuth.Credential.Concurrent
import OmniAuth.Token.Introspection
import OmniAuth.Federation.Config
import OmniAuth.Login.Entries
import OmniAuth.Audit.Integrity
import OmniAuth.Role.Service
import OmniAuth.Team.Admins
import OmniAuth.Role.Bootstrap
import OmniAuth.Interaction.Consumer
import OmniAuth.Interaction.Delivery
import OmniAuth.Mfa.Batches
import OmniAuth.License.Binding
import OmniAuth.License.Permanence
import OmniAuth.Mfa.EmailLimits
import OmniAuth.Login.Discovery
import OmniAuth.Audit.Ledger
import OmniAuth.Interaction.Poison
import OmniAuth.Interaction.Redaction
import OmniAuth.Invitation.Service
import OmniAuth.Session.Pairing
import OmniAuth.Invitation.Acceptance
import OmniAuth.Invitation.Refusal
import OmniAuth.Invitation.Attempts
import OmniAuth.Mfa.Removal
import OmniAuth.Role.Members
import OmniAuth.Team.Switch
import OmniAuth.License.Revocation
import OmniAuth.Paging.Order
import OmniAuth.Directory.Users
import OmniAuth.Role.Backfill
import OmniAuth.Txn.Preserves
import OmniAuth.Role.Surface
import OmniAuth.Role.Steps
import OmniAuth.Role.Containment
import OmniAuth.Role.Escalation
import OmniAuth.Txn.Index
import OmniAuth.Invitation.Requests
import OmniAuth.Invitation.Edits
import OmniAuth.Invitation.Lifecycle
import OmniAuth.Invitation.Admission
import OmniAuth.Mfa.Enrollment
import OmniAuth.Mfa.Factors
import OmniAuth.Federation.Logout
import OmniAuth.Federation.RoundTrip
import OmniAuth.Federation.Checked
import OmniAuth.Federation.Enforcement
import OmniAuth.Store.Expiring
import OmniAuth.OneTime.Service
import OmniAuth.OneTime.Messages
import OmniAuth.OneTime.Codes
import OmniAuth.Inquiry.Service
import OmniAuth.Inquiry.Stages
import OmniAuth.Inquiry.Contact
import OmniAuth.Inquiry.Rows
import OmniAuth.Inquiry.Notified
