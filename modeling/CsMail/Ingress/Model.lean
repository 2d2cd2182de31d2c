import CsMail.Accounts.AliasPermission
import CsMail.Application.Engine
import CsMail.Billing.Service
import CsMail.Capabilities.SigningBytes
import CsMail.Correspondence.Manifest
import CsMail.Guests.Verification
import CsMail.Member.Journey
import CsMail.Protocol.Admission
import CsMail.Security.Authority
import CsMail.Work.Queue

/-! What the authenticated inbox records: commands, their owners, and what became of them.

Each command is kept as it was received, with the policy and the authority of that moment, and
is applied later. Its outcome, the receipt for it and the trouble it met are columns of the same
row. -/
namespace CsMail.Ingress
open Library

/-! ### Errors -/

inductive OperationsError
  | invalid
  | bootstrapConflict
  | notBootstrapped
  | unauthorized
  | duplicateConflict
  deriving DecidableEq

inductive StorageError
  | schemaNotReady
  | alias (error : AliasError)
  | consent (error : ConsentError)
  | correspondence (error : CorrespondenceError)
  | identity
  | operations (error : OperationsError)
  /-- The database refused the statement. -/
  | database
  | protocol (error : ProtocolError)
  | ledger (error : LedgerError)
  | finance (error : ProgramError)
  | billing (error : BillingError)
  | serialization
  | duplicateConflict
  | versionConflict
  | numericRange
  | workScopeMismatch
  | pendingCommands
  | admissionRefused (reason : AdmissionFailure)
  | lockPoisoned
  | security (error : SecurityError)
  | contentScopeMismatch
  | quoteMissing
  | quoteNotSigned
  | registryMissing
  | capability (error : CapabilityError)
  | bondFreeNotAuthorized
  | invalidScheduleClaim
  | unsupportedStoredProtocolFormat (version : ℤ)
  | invalidStoredProtocolState
  | unsupportedStoredFinancialFormat (version : ℤ)
  | guest (error : GuestError)
  | senderSubjectConflict

inductive Refusal
  | billing (error : BillingError)
  | protocol (error : ProtocolError)
  | admission (reason : AdmissionFailure)
  | capability (error : CapabilityError)
  | duplicateConflict
  | versionConflict
  | notAuthorized
  | quoteMissing
  | invalidQuote
  deriving DecidableEq

inductive ProcessingFailure
  | awaitingQuoteSignature
  | persistence
  | requiresIntervention
  deriving DecidableEq

def observedFailure : StorageError → ProcessingFailure
  | .quoteNotSigned => .awaitingQuoteSignature
  | .database => .persistence
  | _ => .requiresIntervention

/-- What is an answer to the command; anything else is a fault of the processing. -/
def classifyRefusal : StorageError → Except StorageError Refusal
  | .protocol (.admissionRefused reason) | .admissionRefused reason => .ok (.admission reason)
  | .protocol error => .ok (.protocol error)
  | .billing error => .ok (.billing error)
  | .capability error => .ok (.capability error)
  | .duplicateConflict => .ok .duplicateConflict
  | .versionConflict => .ok .versionConflict
  | .bondFreeNotAuthorized => .ok .notAuthorized
  | .quoteMissing => .ok .quoteMissing
  | .security .invalidSignature => .ok .invalidQuote
  | error => .error error

/-! ### Owners -/

/-- Persona and account scope are distinct meanings. -/
inductive ProcessingOwner
  | persona (identity : ProtocolIdentity)
  | account (id : AccountId)
  deriving DecidableEq

structure ParticipantOwner where
  persona : ProtocolIdentity
  account : Option AccountId
  deriving DecidableEq

namespace ParticipantOwner

def unidentified (p : ParticipantOwner) : Bool := p.persona.val = 0 || p.account.any fun id => id.val = 0

def owners (p : ParticipantOwner) : List ProcessingOwner :=
  .persona p.persona :: (p.account.map ProcessingOwner.account).toList

end ParticipantOwner

/-- Both directions share participant owners; all aliases of an account share its fence. The order
of the set is immaterial. -/
def orderingOwners (participants : List ParticipantOwner) : Except OperationsError (List ProcessingOwner) := do
  refuseIf (participants = [] ∨ participants.any ParticipantOwner.unidentified = true) .invalid
  .ok (participants.flatMap ParticipantOwner.owners).dedup

/-- The owner as the column `ordering_scopes` has it. -/
def ProcessingOwner.scope : ProcessingOwner → Text
  | persona id => "persona:".toList ++ decimal id.val.val
  | account id => "account:".toList ++ decimal id.val.val

/-! ### Operations -/

structure SignedLaneGrant where
  grant : SenderScopedGrant
  signature : Signature
  deriving DecidableEq

/-- Signature-verified grant contents. -/
structure VerifiedLaneGrant where
  grant : SenderScopedGrant
  deriving DecidableEq

inductive LaneControlAction
  | reconfirm
  | revoke
  deriving DecidableEq

def LaneControlAction.code : LaneControlAction → UInt8
  | reconfirm => 0
  | revoke => 1

structure LaneControl where
  lane : LaneId
  recipient : ProtocolIdentity
  action : LaneControlAction
  expectedVersion : Version
  idempotencyKey : IdempotencyKey
  protocolVersion : ProtocolVersion
  deploymentDomain : Bytes32
  intendedProvider : ProviderRef
  recipientOperationalKey : OperationalKeyRef
  deriving DecidableEq

def LaneControl.signingBytes (c : LaneControl) : Bytes :=
  byteString "cs-mail/lane-control/v1" ++ c.lane.toBeBytes ++ c.recipient.toBeBytes ++ [c.action.code] ++
    beBytes 8 c.expectedVersion.val.val ++ c.idempotencyKey.toBeBytes ++
    beBytes 2 c.protocolVersion.val.val ++ c.deploymentDomain.toList ++ c.intendedProvider.toBeBytes ++
    c.recipientOperationalKey.toBeBytes

structure SignedLaneControl where
  control : LaneControl
  signature : Signature
  deriving DecidableEq

inductive Operation
  | protocol (command : KernelCommand ProtocolCommand)
  | message (admission : BondFreeAdmission)
  | grant (signed : SignedLaneGrant)
  | control (control : LaneControl)
  deriving DecidableEq

/-- The content an operation brings, if it brings any. -/
def Operation.contentRef : Operation → Option ContentRef
  | message admission => some admission.content
  | protocol command =>
    match command.command with
    | .submitRequestToRecipient _ _ content .. | .admitFollowup _ _ content .. => some content
    | _ => none
  | grant _ | control _ => none

/-! ### Outcomes and receipts -/

structure DurableExecutionOutcome where
  admissionFailure : Option AdmissionFailure
  transition : CommittedTransition
  replayed : Bool
  deriving DecidableEq

inductive BondFreeAuthority
  | acceptedRelationship
  | expressLane (lane : LaneId)
  deriving DecidableEq

structure BondFreeAdmissionOutcome where
  authority : BondFreeAuthority
  journalPosition : JournalPosition
  replayed : Bool
  deriving DecidableEq

structure LaneOperationOutcome where
  changed : Bool
  lane : SenderScopedLane
  replayed : Bool
  deriving DecidableEq

inductive ReceivedOutcome
  | protocol (outcome : DurableExecutionOutcome)
  | message (outcome : BondFreeAdmissionOutcome)
  | lane (outcome : LaneOperationOutcome)
  | refused (refusal : Refusal)
  /-- The detailed evidence has expired; the original receipt and the replay identity remain. -/
  | retired (outcomeDigest : Bytes32)
  deriving DecidableEq

/-- The outcome as a caller gets it. -/
def ReceivedOutcome.answer (replayed : Bool) : ReceivedOutcome → ReceivedOutcome
  | protocol o => .protocol {o with replayed}
  | message o => .message {o with replayed}
  | lane o => .lane {o with replayed}
  | refused refusal => .refused refusal
  | retired digest => .retired digest

structure ReceiptPayload where
  deploymentDomain : Bytes32
  /-- A `ReceiptRef`. -/
  receiptId : U128
  kind : ReceiptKind
  relationship : RelationshipRef
  commandDigest : Bytes32
  journalPosition : JournalPosition
  receivedAt : CanonicalTime
  outcomeDigest : Bytes32
  provider : ProviderRef
  protocolVersion : ProtocolVersion
  deriving DecidableEq

structure SignedReceipt where
  payload : ReceiptPayload
  providerOperationalKey : OperationalKeyRef
  signature : Signature
  deriving DecidableEq

/-- What a protocol command comes to when it was carried out. -/
def commandKind : ProtocolCommand → ReceiptKind
  | .issueRequestTerms .. => .contactTermsIssued
  | .createRequest .. => .reservationCommitted
  | .submitRequestToRecipient .. | .admitFollowup .. => .admissionCommitted
  | .acceptRelationship _ | .rejectRelationship _ | .blockRelationship _ | .unblockRelationship _
  | .revokeRelationship _ | .setFollowupPolicy .. => .relationshipDecisionCommitted
  | _ => .settlementCommitted

def Operation.committedKind : Operation → ReceiptKind
  | message _ => .admissionCommitted
  | grant _ | control _ => .relationshipDecisionCommitted
  | protocol command => commandKind command.command

def Operation.submits : Operation → Bool
  | protocol command => command.command.submits
  | _ => false

def receiptKind (operation : Operation) : ReceivedOutcome → ReceiptKind
  | .refused _ => .refused
  | .lane o => if o.changed = false then .noChange else operation.committedKind
  | .protocol o =>
    if o.transition.protocolEvents = [] then .noChange
    else if operation.submits = true ∧ o.transition.delivered = false then .settlementCommitted
    else operation.committedKind
  | .message _ | .retired _ => operation.committedKind

/-! ### Replay -/

/-- A fingerprint includes the authentication evidence: an unsigned copy of a command reads nothing. -/
structure ReplayIdentity where
  id : IdempotencyKey
  fingerprint : Bytes32
  deriving DecidableEq

namespace ReplayIdentity
variable [Crypto]

def signedBytes (bytes : Bytes) (signature : Signature) : Bytes :=
  byteString "cs-mail/signed-replay/v1" ++ bytes ++ signature.toList

def trustedBytes (bytes : Bytes) : Bytes := byteString "cs-mail/trusted-replay/v1" ++ bytes

def signed (id : IdempotencyKey) (bytes : Bytes) (signature : Signature) : ReplayIdentity :=
  ⟨id, Crypto.sha256 (signedBytes bytes signature)⟩

def trusted (id : IdempotencyKey) (bytes : Bytes) : ReplayIdentity :=
  ⟨id, Crypto.sha256 (trustedBytes bytes)⟩

end ReplayIdentity

/-! ### Rows -/

/-- What a command is applied with. Retirement drops it. -/
structure Evidence where
  operation : Operation
  policy : PolicySnapshot
  authority : AuthoritySnapshot
  deriving DecidableEq

/-- A row of `cs_received_commands`, under its position. -/
structure Received where
  aggregate : Text
  idempotencyKey : IdempotencyKey
  digest : Bytes32
  deployment : Bytes32
  receivedAt : BigInt
  evidence : Option Evidence
  fingerprint : Bytes32
  contentAvailable : Bool
  scopes : List Text
  outcome : Option ReceivedOutcome
  receipt : Option ReceiptPayload
  failure : Option ProcessingFailure
  failedAttempts : BigInt
  deriving DecidableEq

namespace Received

def pending (r : Received) : Bool := r.outcome.isNone

/-- `ordering_scopes && …`. -/
def shares (r : Received) (scopes : List Text) : Bool := r.scopes.any scopes.contains

def blocked (r : Received) : Bool := r.failure = some .requiresIntervention

end Received

/-- A row of `cs_ingress_scopes`. -/
structure IngressScope where
  deployment : Bytes32
  provider : ProviderRef
  protocolVersion : ProtocolVersion
  financial : FinancialScope
  deriving DecidableEq

def IngressScope.of (deployment : Bytes32) (policy : PolicySnapshot) : IngressScope where
  deployment := deployment
  provider := policy.recipientProvider
  protocolVersion := policy.protocolVersion
  financial := policy.financial.scope

/-- The checks of `validate_ingress_scope` on the stored row. -/
def IngressScope.admits (stored : IngressScope) (deployment : Bytes32) (policy : PolicySnapshot) : Bool :=
  let scope := policy.financial.scope
  stored = .of deployment policy ∧ scope.deploymentDomain = deployment ∧
    scope.operator = policy.recipientProvider ∧ scope.protocolVersion = policy.protocolVersion

end CsMail.Ingress
