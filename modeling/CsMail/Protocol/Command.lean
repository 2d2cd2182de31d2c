import CsMail.Protocol.Policy

/-! Commands, what they emit, and the manifest of one transition. -/
namespace CsMail
open Library

inductive ActorRef
  | sender (identity : ProtocolIdentity)
  | recipient (identity : ProtocolIdentity)
  | provider (provider : ProviderRef)
  | scheduler (provider : ProviderRef)
  deriving DecidableEq

inductive CancellationReason
  | senderRequested
  | submissionTimeout
  | preSubmissionFailure
  deriving DecidableEq

inductive ProtocolCommand
  | recordPayment (request : RequestId) (receipt : SignedPaymentEvidence)
  | setFollowupPolicy (expectedVersion : Version) (policy : FollowupPolicy)
  | admitFollowup (request : RequestId) (message : MessageId) (content : ContentRef)
      (deliveryIntent : DeliveryIntentRef) (declarationDigest : MessageDeclarationDigest)
      (messageValidUntil : MessageValidityUntil) (expectedPolicyVersion : Version)
  | issueRequestTerms (returnRoute : RequestReturnRoute) (address : AliasId)
      (classId : RequestClassId) (quote : QuoteId)
      (declarationDigest : Option MessageDeclarationDigest)
  | createRequest (paymentMethod : Bytes32) (request : RequestId) (message : MessageId)
      (terms : RequestTerms)
  | submitRequestToRecipient (request : RequestId) (expectedRequestVersion : Version)
      (content : ContentRef) (deliveryIntent : DeliveryIntentRef)
      (declarationDigest : MessageDeclarationDigest) (messageValidUntil : MessageValidityUntil)
  | cancelRequestSubmission (request : RequestId) (expectedRequestVersion : Version)
      (reason : CancellationReason)
  | acceptRelationship (expectedVersion : Version)
  | rejectRelationship (expectedVersion : Version)
  | blockRelationship (expectedVersion : Version)
  | unblockRelationship (expectedVersion : Version)
  | expireRequest (request : RequestId) (expectedRequestVersion : Version)
  | revokeRelationship (expectedVersion : Version)
  deriving DecidableEq

namespace ProtocolCommand

/-- The commands that may submit a request. -/
def submits : ProtocolCommand → Bool
  | submitRequestToRecipient .. => true
  | _ => false

/-- The commands an awaited request in the other direction holds up. -/
def solicits : ProtocolCommand → Bool
  | issueRequestTerms .. | createRequest .. | submitRequestToRecipient .. => true
  | _ => false

end ProtocolCommand

/-- Input for the transition kernel. This is data, not proof of authentication. -/
structure KernelCommand (T : Type) where
  command : T
  actor : ActorRef
  key : OperationalKeyRef
  idempotencyKey : IdempotencyKey
  deriving DecidableEq

inductive TermsOutcome
  | chargeRequired (terms : RequestTerms)
  | noChargeRequired
  | existingRequest (request : RequestId)
  deriving DecidableEq

inductive EffectIntent
  | executePayment (request : RequestId) (operation : PaymentOperationId)
  | deliverMessage (message : MessageId) (content : ContentRef)
      (deliveryIntent : DeliveryIntentRef)
  | establishRequestSolicitation (request : RequestId) (generation : U64)
  | reviewLane (lane : LaneId) (reconfirmationRequired : Bool)
  deriving DecidableEq

inductive ProtocolEventKind
  | paymentRecorded (request : RequestId)
  | followupPolicyChanged
  | followupAdmitted (request : RequestId) (message : MessageId)
  | termsIssued
  | requestCreated (request : RequestId)
  | requestSubmitted (request : RequestId)
  | requestSubmissionCancelled (request : RequestId)
  | requestPreparationSuperseded (request : RequestId) (incoming : RequestReservation)
  | requestHistoryChanged (request : RequestId)
  | messageValidityClosed (request : RequestId)
  | declarationMismatch (request : RequestId)
  | relationshipAccepted
  | relationshipLaneGranted (lane : LaneId)
  | relationshipRejected
  | relationshipBlocked
  | relationshipUnblocked
  | relationshipRevoked
  | requestExpired (request : RequestId)
  deriving DecidableEq

structure ProtocolEvent where
  reference : EventRef
  time : CanonicalTime
  kind : ProtocolEventKind
  deriving DecidableEq

/-- The complete atomic consequence of one command. -/
structure TransitionManifest where
  mailboxDeliveries : List MessageId
  laneRevocation : Option LaneRevocation
  forfeitures : List Forfeiture
  forfeitureHolds : List PaymentOperationId
  expectedSnapshotRevision : U64
  expectedLedgerRevision : U64
  nextState : ProtocolState
  nextHistory : RequestHistory
  nextPayments : SortedMap RequestId RequestFinancials
  nextMessages : SortedMap MessageId Message
  ledgerBatch : LedgerBatch
  scheduleChanges : List ScheduleChange
  protocolEvents : List ProtocolEvent
  outboxIntents : List EffectIntent
  termsOutcome : Option TermsOutcome
  deriving DecidableEq

end CsMail
