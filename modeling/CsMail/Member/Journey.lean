import CsMail.Member.Personal
import CsMail.Protocol.Command

/-! The journey of a paid request, as a device makes it.

A journey is quoted, reviewed, authorized and funded, and then its document is staged and
submitted; a follow-up begins with the staging. Each step reads what the server answers and either
waits, goes on to the next stage, or ends the journey with a result. -/
namespace CsMail
open Library

/-! ### Journeys -/

inductive ReceiptKind
  | refused
  | noChange
  | contactTermsIssued
  | reservationCommitted
  | admissionCommitted
  | relationshipDecisionCommitted
  | settlementCommitted
  deriving DecidableEq

structure ReceiptPayload where
  deploymentDomain : Bytes32
  kind : ReceiptKind
  relationship : RelationshipRef
  commandDigest : Bytes32
  provider : ProviderRef
  protocolVersion : ProtocolVersion

inductive RequestStatus
  | quoting
  | communicationAvailable
  | existingRequest
  | review
  | funding
  | fundingVoided
  | fundingReversed
  | sending
  | stopped
  | submitted
  | followupSent
  | cancelling
  | cancelled
  | refused
  | changed
  deriving DecidableEq

/-- The draft of an operation with this status has served its purpose. -/
def RequestStatus.consumes : RequestStatus → Bool
  | submitted | followupSent | changed => true
  | _ => false

inductive RequestEvidence
  | receipt (payload : ReceiptPayload)
  | lifecycle (state : RequestLifecycle)

structure RequestResult where
  capture : Option CaptureStatus
  other : ProtocolIdentity
  request : RequestId
  evidence : RequestEvidence
  status : RequestStatus

inductive RequestKind
  | initial
  | followup (policy : Version)
  deriving DecidableEq

/-- A signed command of a sender: what it commands, and the bytes that were signed. -/
structure SenderCommand where
  command : ProtocolCommand
  bytes : SignedCommandBytes

/-- What a journey reads of its signed document. -/
structure RequestDocument where
  digest : Bytes32
  message : MessageId
  content : ContentRef
  declarationDigest : MessageDeclarationDigest
  messageValidUntil : MessageValidityUntil

inductive PreparationWork
  | create (command : SenderCommand)
  | funding
  | stage
  | submit (command : SenderCommand)
  | cancel (command : SenderCommand)
  | stopped

/-- `SignedContactTerms`, with the provider keys they verify under. -/
structure IssuedTerms where
  terms : RequestTerms
  verifies : Bytes32 → Bool

inductive RequestStage
  | quoting (address : AliasId) (requestClass : RequestClassId) (quote : QuoteId) (command : SenderCommand)
  | quoted (issued : IssuedTerms)
  | preparing (terms : RequestTerms) (document : RequestDocument) (work : PreparationWork)

/-- No draft has been handed over yet. -/
def RequestStage.beforeReview : RequestStage → Bool
  | quoting .. | quoted _ => true
  | preparing .. => false

structure RequestJourney where
  funding : Option CaptureStatus
  other : ProtocolIdentity
  relationship : RelationshipRef
  request : RequestId
  kind : RequestKind
  stage : RequestStage

inductive RequestAdvance
  | wait
  | funding (capture : CaptureStatus)
  | next (stage : RequestStage)
  | complete (result : RequestResult)
  | observedChange (result : RequestResult)
  | refused (receipt : ReceiptPayload) (after : Option RequestStage)

/-! ### What the server answers -/

/-- A `ReceivedOutcome`: a protocol outcome brings the terms it issued. -/
inductive ReceivedOutcome
  | protocol (terms : Option TermsOutcome)
  | other

/-- The answer to a command, with the provider keys its outcome and its receipt verify under. -/
structure RequestAnswer where
  outcome : ReceivedOutcome
  payload : ReceiptPayload
  verifies : Bytes32 → Bool
  signedTerms : Option IssuedTerms

structure RequestView where
  id : RequestId
  version : Version
  terms : RequestTerms
  lifecycle : RequestLifecycle
  capture : Option CaptureStatus

/-- The requests of a relationship, as its sender sees them. -/
structure SendingView where
  requests : List RequestView
  followupPolicy : Version

/-- What one step of a journey is answered, where it asks. -/
structure StepAnswers where
  command : Except MemberError RequestAnswer
  view : Except MemberError SendingView
  staged : Except MemberError Bytes32
  stagedView : Except MemberError SendingView
  /-- The identifier of the delivery. -/
  delivery : DeliveryIntentRef
  /-- Signing a new command. -/
  sign : ProtocolCommand → Except MemberError SenderCommand

namespace RequestJourney
variable [Crypto]

/-- `request_answer`: a receipt for this very command, of the expected kind. -/
def acceptAnswer (plan : RequestJourney) (profile : Profile) (signed : SenderCommand) (expected : ReceiptKind)
    (answered : Except MemberError RequestAnswer) : Except MemberError RequestAnswer := do
  let answer ← answered
  refuseIf (answer.verifies profile.deployment.providerKey = false) .invalidData
  refuseIf (answer.payload.commandDigest ≠ Crypto.sha256 signed.bytes.payload ∨
    answer.payload.relationship ≠ plan.relationship ∨
    answer.payload.deploymentDomain ≠ profile.deployment.scope.deploymentDomain ∨
    answer.payload.provider ≠ profile.deployment.scope.provider ∨
    answer.payload.protocolVersion ≠ profile.deployment.protocolVersion ∨
    (answer.payload.kind ≠ .refused ∧ answer.payload.kind ≠ .noChange ∧ answer.payload.kind ≠ expected)) .invalidData
  .ok answer

/-- The request of a journey, among those the sender sees. -/
def outboundRequest (plan : RequestJourney) (seen : Except MemberError SendingView) :
    Except MemberError (RequestView × Version) := do
  let view ← seen
  let request ← okOr (view.requests.find? fun r => r.id = plan.request) .invalidData
  .ok (request, view.followupPolicy)

def result (plan : RequestJourney) (status : RequestStatus) (payload : ReceiptPayload) : RequestResult :=
  ⟨plan.funding, plan.other, plan.request, .receipt payload, status⟩

def observedChange (plan : RequestJourney) (request : RequestView) : RequestResult :=
  ⟨request.capture, plan.other, plan.request, .lifecycle request.lifecycle, .changed⟩

/-- The issued terms are those that were asked for. -/
def termsFit (plan : RequestJourney) (profile : Profile) (address : AliasId) (requestClass : RequestClassId)
    (quote : QuoteId) (command : SenderCommand) (raw : RequestTerms) (issued : IssuedTerms) : Bool :=
  issued.verifies profile.deployment.providerKey = true ∧
    (match command.command with
      | .issueRequestTerms returnRoute _ _ _ _ => issued.terms.returnRoute = returnRoute
      | _ => false) = true ∧
    issued.terms = raw ∧ issued.terms.sender = profile.persona ∧ issued.terms.recipient = plan.other ∧
    issued.terms.relationship = plan.relationship ∧ issued.terms.quoteId = quote ∧
    issued.terms.selectedClass.id = requestClass ∧ issued.terms.receivingAlias = address ∧
    issued.terms.recipientProvider = profile.deployment.scope.provider ∧
    issued.terms.protocolVersion = profile.deployment.protocolVersion ∧
    issued.terms.declarationDigest = some profile.declaration ∧ issued.terms.replyLane.agreed?.isSome = true

/-- A quote has been answered. -/
def quoteStep (plan : RequestJourney) (profile : Profile) (address : AliasId) (requestClass : RequestClassId)
    (quote : QuoteId) (command : SenderCommand) (a : StepAnswers) : Except MemberError RequestAdvance := do
  let answer ← plan.acceptAnswer profile command .contactTermsIssued a.command
  if answer.payload.kind = .refused then .ok (.refused answer.payload none)
  else
    match answer.outcome with
    | .protocol (some .noChargeRequired) => .ok (.complete (plan.result .communicationAvailable answer.payload))
    | .protocol (some (.existingRequest existing)) =>
      .ok (.complete {plan.result .existingRequest answer.payload with request := existing})
    | .protocol (some (.chargeRequired terms)) => do
      let issued ← okOr answer.signedTerms .invalidData
      refuseIf (plan.termsFit profile address requestClass quote command terms issued = false) .invalidData
      .ok (.next (.quoted issued))
    | .protocol none | .other => .error .invalidData

/-- The command that submits a staged document. -/
def submission (plan : RequestJourney) (document : RequestDocument) (request : RequestView)
    (delivery : DeliveryIntentRef) : ProtocolCommand :=
  match plan.kind with
  | .initial => .submitRequestToRecipient plan.request request.version document.content delivery
    document.declarationDigest document.messageValidUntil
  | .followup policy => .admitFollowup plan.request document.message document.content delivery
    document.declarationDigest document.messageValidUntil policy

/-- `stage_request_document`. -/
def stageDocument (plan : RequestJourney) (document : RequestDocument) (a : StepAnswers) :
    Except MemberError SenderCommand := do
  let digest ← a.staged
  refuseIf (digest ≠ document.digest) .invalidData
  let (request, _) ← plan.outboundRequest a.stagedView
  a.sign (plan.submission document request a.delivery)

/-- A request that waits for its funds has been looked at. -/
def fundingStep (plan : RequestJourney) (terms : RequestTerms) (document : RequestDocument) (request : RequestView) :
    Except MemberError RequestAdvance := do
  let capture ← okOr request.capture .invalidData
  if capture ≠ .fundingFinalized then .ok (.funding capture)
  else .ok (.next (.preparing terms document .stage))

/-- The request no longer is in the state the document is staged in. -/
def overtaken (plan : RequestJourney) (request : RequestView) : Bool :=
  match plan.kind with
  | .initial => !request.lifecycle.isPreparingSubmission
  | .followup _ => !request.lifecycle.isAwaitingRecipientDecision

/-- What a command that was not refused has done. -/
def committed (plan : RequestJourney) (terms : RequestTerms) (document : RequestDocument) (work : PreparationWork)
    (payload : ReceiptPayload) : RequestAdvance :=
  match work with
  | .create _ => .next (.preparing terms document .funding)
  | .cancel _ => .complete (plan.result .cancelled payload)
  | _ => .complete (plan.result (if plan.kind = .initial then .submitted else .followupSent) payload)

/-- Where a refused command leaves the journey: a refused submission is stopped, the rest end. -/
def afterRefusal (plan : RequestJourney) (terms : RequestTerms) (document : RequestDocument) :
    PreparationWork → Option RequestStage
  | .create _ => none
  | _ => if plan.kind = .initial then some (.preparing terms document .stopped) else none

/-- A command of the preparation has been answered. -/
def commandStep (plan : RequestJourney) (profile : Profile) (terms : RequestTerms) (document : RequestDocument)
    (work : PreparationWork) (command : SenderCommand) (expected : ReceiptKind) (a : StepAnswers) :
    Except MemberError RequestAdvance := do
  let answer ← plan.acceptAnswer profile command expected a.command
  if answer.payload.kind = .refused then .ok (.refused answer.payload (plan.afterRefusal terms document work))
  else .ok (plan.committed terms document work answer.payload)

/-- `next_preparation_step`. -/
def nextPreparationStep (plan : RequestJourney) (profile : Profile) (terms : RequestTerms)
    (document : RequestDocument) (a : StepAnswers) (work : PreparationWork) : Except MemberError RequestAdvance :=
  match work with
  | .stopped => do
    let (request, _) ← plan.outboundRequest a.view
    if !request.lifecycle.isPreparingSubmission then .ok (.observedChange (plan.observedChange request))
    else .ok .wait
  | .funding => do
    let (request, _) ← plan.outboundRequest a.view
    if !request.lifecycle.isPreparingSubmission then .ok (.observedChange (plan.observedChange request))
    else plan.fundingStep terms document request
  | .stage => do
    let (request, _) ← plan.outboundRequest a.view
    if plan.overtaken request then .ok (.observedChange (plan.observedChange request))
    else do
      let command ← plan.stageDocument document a
      .ok (.next (.preparing terms document (.submit command)))
  | .create command => plan.commandStep profile terms document work command .reservationCommitted a
  | .cancel command => plan.commandStep profile terms document work command .settlementCommitted a
  | .submit command => plan.commandStep profile terms document work command .admissionCommitted a

/-- `next_request_step`. -/
def nextRequestStep (plan : RequestJourney) (profile : Profile) (a : StepAnswers) : Except MemberError RequestAdvance :=
  match plan.stage with
  | .quoted _ => .ok .wait
  | .quoting address requestClass quote command =>
    plan.quoteStep profile address requestClass quote command a
  | .preparing terms document work => plan.nextPreparationStep profile terms document a work

end RequestJourney
end CsMail
