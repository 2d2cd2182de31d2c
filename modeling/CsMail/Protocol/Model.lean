import CsMail.Capabilities.Lane
import CsMail.Finance.Request

/-! The records of the protocol kernel: relationships, requests, histories, messages.

A relationship is one sender identity writing to one recipient; its requests are kept
forever, at most one of them unresolved. A request history is shared by every sender
alias of one principal addressing the same recipient. -/
namespace CsMail
open Library

structure RelationshipKey where
  reference : RelationshipRef
  sender : ProtocolIdentity
  recipient : ProtocolIdentity
  deriving DecidableEq

inductive SenderReplyRestriction
  | blocked
  | revoked
  deriving DecidableEq

inductive RelationshipState
  | unknown
  | accepted
  | expressLane (lane : LaneId)
  | rejected
  | revoked
  | blocked
  deriving DecidableEq

def RelationshipState.senderReplyRestriction : RelationshipState → Option SenderReplyRestriction
  | blocked => some .blocked
  | revoked => some .revoked
  | _ => none

structure Relationship where
  replyEpoch : ReplyEpoch
  key : RelationshipKey
  history : RequestHistoryRef
  generation : U64
  state : RelationshipState
  version : RelationshipVersion
  lastEvent : Option EventRef
  changedAt : CanonicalTime
  deriving DecidableEq

structure RequestReservation where
  relationship : RelationshipRef
  request : RequestId
  deriving DecidableEq

/-! ### What can go wrong -/

inductive AdmissionFailure
  | unsupportedCriticalExtension
  | invalidDeclaration
  | contentExpired
  | messageValidityClosed
  | contentScopeMismatch
  | contentMissing
  | authenticationMismatch
  deriving DecidableEq

inductive ProtocolError
  | authenticationFailed
  | admissionRefused (failure : AdmissionFailure)
  | quoteExpired
  | quoteVersionStale
  | relationshipAccepted
  | contactBlocked
  | backoffActive (nextEligible : CanonicalTime)
  | insufficientFunds
  | requestAlreadyExists
  | oppositeRequestPending (request : RequestId)
  | senderReplyRestricted (reason : SenderReplyRestriction)
  | paymentNotConfirmed
  | paymentInvalid
  | followupNotAllowed
  | amountMismatch
  | submissionWindowClosed
  | requestSubmissionCancelled
  | decisionWindowClosed
  | messageValidityClosed
  | alreadyTerminal
  | versionConflict
  | duplicateConflict
  | invalidState
  | missingRecord
  | incompleteSnapshot
  | protocolVersionMismatch
  | policyInvalid
  | requestClassUnknown
  | requestClassOutsidePolicy
  | arithmeticOverflow
  | ledgerInvariant
  deriving DecidableEq

def ProtocolError.ofLedger : LedgerError → ProtocolError
  | .insufficientFunds _ _ _ => insufficientFunds
  | .arithmeticOverflow => arithmeticOverflow
  | .versionConflict => versionConflict
  | .invalidBatch => ledgerInvariant

/-! ### Request histories -/

/-- Shared by every sender alias of a principal addressing the same recipient. -/
structure RequestHistory where
  reference : RequestHistoryRef
  recipient : ProtocolIdentity
  level : U32
  earliestNextSubmission : CanonicalTime
  pendingSubmission : Option RequestReservation
  version : RequestHistoryVersion
  lastEvent : Option EventRef
  changedAt : CanonicalTime
  deriving DecidableEq

namespace RequestHistory

def new (reference : RequestHistoryRef) (recipient : ProtocolIdentity) (now : CanonicalTime) :
    RequestHistory where
  reference := reference
  recipient := recipient
  level := 0
  earliestNextSubmission := now
  pendingSubmission := none
  version := .initial
  lastEvent := none
  changedAt := now

def extendCooldown (h : RequestHistory) (start : CanonicalTime) (duration : Duration)
    (now : CanonicalTime) (event : EventRef) : Except ProtocolError RequestHistory := do
  let next ← okOr (start.checkedAdd duration) .arithmeticOverflow
  let version ← okOr h.version.checkedNext .arithmeticOverflow
  .ok {h with
    earliestNextSubmission := max h.earliestNextSubmission next
    version
    lastEvent := some event
    changedAt := now}

def recordSubmission (h : RequestHistory) (reservation : RequestReservation)
    (submittedAt : CanonicalTime) (backoff : Duration) (event : EventRef) :
    Except ProtocolError RequestHistory := do
  refuseIf (h.pendingSubmission ≠ some reservation) .quoteVersionStale
  let nextLevel ← okOr (Checked.succ h.level) .arithmeticOverflow
  let h ← h.extendCooldown submittedAt backoff submittedAt event
  .ok {h with level := nextLevel, pendingSubmission := none}

/-- Ends the preparation that holds the history, if it is this one. -/
def release (h : RequestHistory) (reservation : RequestReservation) : RequestHistory :=
  if h.pendingSubmission = some reservation then {h with pendingSubmission := none} else h

end RequestHistory

/-! ### Requests -/

/-- The time allowed to complete funding and submit the initial message. -/
structure SubmissionPreparation where
  deadline : CanonicalTime
  deriving DecidableEq

structure RequestSubmission where
  submittedAt : CanonicalTime
  decisionDeadline : CanonicalTime
  deriving DecidableEq

inductive AcceptancePermission
  | standing
  | expressLane (lane : LaneId)
  deriving DecidableEq

/-- Every submitted outcome retains its submission facts; cancellation has none. -/
inductive RequestLifecycle
  | preparingSubmission (preparation : SubmissionPreparation)
  | awaitingRecipientDecision (submission : RequestSubmission)
  | accepted (permission : AcceptancePermission) (submission : RequestSubmission)
      (event : EventRef)
  | rejected (submission : RequestSubmission) (event : EventRef)
  | expired (submission : RequestSubmission) (event : EventRef)
  | cancelled (submissionPreparation : SubmissionPreparation) (event : EventRef)
  deriving DecidableEq

namespace RequestLifecycle

/-- Whether an opposite preparation must wait for this request's decision. -/
def awaitsDecisionAt (l : RequestLifecycle) (now : CanonicalTime) : Bool :=
  match l with
  | awaitingRecipientDecision submission => now ≤ submission.decisionDeadline
  | _ => false

def isTerminal : RequestLifecycle → Bool
  | preparingSubmission _ | awaitingRecipientDecision _ => false
  | _ => true

def isAwaitingRecipientDecision : RequestLifecycle → Bool
  | awaitingRecipientDecision _ => true
  | _ => false

def isPreparingSubmission : RequestLifecycle → Bool
  | preparingSubmission _ => true
  | _ => false

def isCancelled : RequestLifecycle → Bool
  | cancelled _ _ => true
  | _ => false

def isAccepted : RequestLifecycle → Bool
  | accepted _ _ _ => true
  | _ => false

def preparation : RequestLifecycle → Option SubmissionPreparation
  | preparingSubmission p | cancelled p _ => some p
  | _ => none

def submission : RequestLifecycle → Option RequestSubmission
  | awaitingRecipientDecision a | accepted _ a _ | rejected a _ | expired a _ => some a
  | _ => none

end RequestLifecycle

/-- Recorded reply agreement. Absence of an offer never grants answer or lane authority. -/
inductive RequestReplyAgreement
  | notOffered
  | agreed (terms : ReplyLaneTerms)
  deriving DecidableEq

def RequestReplyAgreement.agreed? : RequestReplyAgreement → Option ReplyLaneTerms
  | notOffered => none
  | agreed terms => some terms

inductive RequestReturnRoute
  | native (address : AliasId)
  | guestMailbox
  deriving DecidableEq

/-- The class a sender chose, as signed terms retain it. -/
structure SelectedRequestClass where
  id : RequestClassId
  description : Text
  identified : id.val ≠ 0
  described : description.isBlank = false
  deriving DecidableEq

def SelectedRequestClass.new (id : RequestClassId) (description : Text) :
    Except ProtocolError SelectedRequestClass :=
  if h : id.val = 0 ∨ description.isBlank = true then .error .policyInvalid
  else .ok ⟨id, description, fun hzero => h (.inl hzero), by simpa using fun hblank => h (.inr hblank)⟩

theorem SelectedRequestClass.new_fields (c : SelectedRequestClass) :
    SelectedRequestClass.new c.id c.description = .ok c := by
  have hvalid : ¬(c.id.val = 0 ∨ c.description.isBlank = true) := by simp [c.identified, c.described]
  rw [new, dif_neg hvalid]

structure RequestTerms where
  returnRoute : RequestReturnRoute
  receivingAlias : AliasId
  replyLane : RequestReplyAgreement
  selectedClass : SelectedRequestClass
  pricingPolicyVersion : PolicyVersion
  quoteId : QuoteId
  protocolVersion : ProtocolVersion
  policyVersion : PolicyVersion
  privacyProfileVersion : PrivacyProfileVersion
  retentionPolicyVersion : RetentionPolicyVersion
  relationship : RelationshipRef
  requestHistory : RequestHistoryRef
  sender : ProtocolIdentity
  recipient : ProtocolIdentity
  recipientProvider : ProviderRef
  relationshipVersion : RelationshipVersion
  historyVersion : RequestHistoryVersion
  processingCharge : Money
  collateral : Money
  requestLevel : U32
  eligibilityTime : CanonicalTime
  unit : SettlementUnit
  submissionWindow : Duration
  decisionWindow : Duration
  issuedAt : CanonicalTime
  expiresAt : CanonicalTime
  declarationDigest : Option MessageDeclarationDigest
  financial : FinancialTerms
  paymentProviderKey : Bytes32
  expiryCooldown : Duration
  rejectionCooldown : Duration
  nextRequestBackoff : Duration
  deriving DecidableEq

def RequestTerms.chargeAmount (t : RequestTerms) : Except ProtocolError Money :=
  okOr (t.processingCharge.checkedAdd t.collateral) .arithmeticOverflow

structure RelationshipRequest where
  creationKey : OperationalKeyRef
  creationEvent : EventRef
  id : RequestId
  generation : U64
  initialMessage : MessageId
  funding : PaymentOperationId
  terms : RequestTerms
  createdAt : CanonicalTime
  lifecycle : RequestLifecycle
  version : RequestVersion
  deriving DecidableEq

def RelationshipRequest.reservation (r : RelationshipRequest) : RequestReservation :=
  ⟨r.terms.relationship, r.id⟩

/-! ### Messages -/

inductive AdmissionBasis
  | aliasLane (address : AliasId) (revision : U64)
  | conversationReply (source : MessageId)
  | requestAnswer (request : RequestReservation) (submission : EventRef)
  | initialRequest (request : RequestId)
  | requestFollowup (request : RequestId) (policyVersion : Version)
  | acceptedRelationship (version : RelationshipVersion)
  | expressLane (lane : LaneId) (version : Version)
  deriving DecidableEq

/-- Whether the message was admitted as a follow-up to this request. -/
def AdmissionBasis.followsUp (id : RequestId) : AdmissionBasis → Bool
  | requestFollowup request _ => request = id
  | _ => false

structure Message where
  id : MessageId
  relationship : RelationshipRef
  content : ContentRef
  delivery : DeliveryIntentRef
  declaration : MessageDeclarationDigest
  validUntil : MessageValidityUntil
  admittedAt : CanonicalTime
  basis : AdmissionBasis
  deriving DecidableEq

structure FollowupPolicy where
  version : Version
  maxMessages : U32
  maxPerInterval : U32
  interval : Duration
  deriving DecidableEq

instance : Inhabited FollowupPolicy := ⟨⟨.initial, 0, 0, ⟨0⟩⟩⟩

/-! ### The state of one relationship -/

structure ProtocolState where
  followupPolicy : FollowupPolicy
  quotes : SortedMap QuoteId RequestTerms
  usedQuotes : SortedMap QuoteId Unit
  relationship : Relationship
  requests : SortedMap RequestId RelationshipRequest
  deriving DecidableEq

namespace ProtocolState

/-- A stored request that belongs to another key or another relationship. -/
def misfiled (s : ProtocolState) (e : RequestId × RelationshipRequest) : Bool :=
  e.1 ≠ e.2.id ∨ e.2.id.val = 0 ∨ e.2.terms.relationship ≠ s.relationship.key.reference ∨
    e.2.terms.sender ≠ s.relationship.key.sender ∨
    e.2.terms.recipient ≠ s.relationship.key.recipient

/-- Rejects multiple unresolved requests or records belonging to another owner. -/
def validate (s : ProtocolState) : Except ProtocolError Unit :=
  refuseIf (1 < s.requests.values.countP (fun r => !r.lifecycle.isTerminal) ∨
    s.requests.entries.any s.misfiled = true) .invalidState

/-- The active solicitation is a projection of the one unresolved request. -/
def activeRequest (s : ProtocolState) : Option RelationshipRequest :=
  s.requests.values.find? fun r => !r.lifecycle.isTerminal

def initialScoped (relationship : RelationshipRef) (requestHistory : RequestHistoryRef)
    (sender recipient : ProtocolIdentity) (now : CanonicalTime) : ProtocolState where
  followupPolicy := default
  quotes := ∅
  usedQuotes := ∅
  relationship := {
    replyEpoch := ⟨0⟩
    history := requestHistory
    generation := 0
    key := ⟨relationship, sender, recipient⟩
    state := .unknown
    version := .initial
    lastEvent := none
    changedAt := now}
  requests := ∅

end ProtocolState

structure SettlementSnapshot where
  lane : Option SenderScopedLane
  revision : U64
  state : ProtocolState
  history : RequestHistory
  payments : SortedMap RequestId RequestFinancials
  messages : SortedMap MessageId Message
  ledger : LedgerView
  complete : Bool
  deriving DecidableEq

end CsMail
