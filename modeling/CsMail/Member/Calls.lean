import CsMail.Member.Outgoing

/-! The calls of a member's client that begin, answer or end outgoing work.

A call that waits for the server is two: one begins the operation, another brings the answer. A
journey that ends leaves its result where the next one ends too, and the disposition of its draft
is read from there (`persistRequest`). -/
namespace CsMail
open Library

/-- What a draft of a request is addressed to. -/
structure RequestDraft where
  draft : DraftRef
  other : ProtocolIdentity
  requestClass : RequestClassId
  address : AliasId

/-- What a request is asked with. -/
structure RequestPlan where
  other : ProtocolIdentity
  relationship : RelationshipRef
  request : RequestId
  address : AliasId
  requestClass : RequestClassId
  quote : QuoteId
  command : SenderCommand

/-- What a follow-up is asked with: its request, and the sealed document. -/
structure FollowupPlan where
  other : ProtocolIdentity
  relationship : RelationshipRef
  request : RequestId
  policy : Version
  terms : RequestTerms
  document : RequestDocument

namespace RequestJourney

/-- The result that an answer to the command in hand gives a journey that is cancelled. -/
def settledBy (plan : RequestJourney) (work : PreparationWork) (kind : ReceiptKind) : Option RequestStatus :=
  match work with
  | .create _ => if kind = .refused then some .refused else none
  | .submit _ => if kind = .refused then none else some (if plan.kind = .initial then .submitted else .followupSent)
  | .cancel _ => if kind = .refused then none else some .cancelled
  | .funding | .stage | .stopped => none

end RequestJourney

namespace PreparationWork

/-- The command in hand, with the receipt that is expected for it. -/
def command : PreparationWork → Option (SenderCommand × ReceiptKind)
  | create c => some (c, .reservationCommitted)
  | submit c => some (c, .admissionCommitted)
  | cancel c => some (c, .settlementCommitted)
  | funding | stage | stopped => none

end PreparationWork

section
variable [Crypto] [ExternalJson] [MemberJson]

namespace Outgoing

/-! ### Requests -/

/-- `persist_request`: without a journey the draft is disposed of, as the last result says. -/
def persistRequest (s : Outgoing) (times : Times) : Except MemberError Outgoing :=
  match s.requesting with
  | some _ => .ok s
  | none => s.finishDraft
    (if s.lastRequest.any (fun r => r.status.consumes) then .removeSubmitted else .restoreEditable) none times

/-- The journey is over, with this result. -/
def finishRequest (s : Outgoing) (result : RequestResult) : Outgoing :=
  {s with requesting := none, lastRequest := some result}

/-- The journey is over, without a result of its own. -/
def abandoned (s : Outgoing) : Outgoing := {s with requesting := none}

/-- `quote_request`, up to the first transmission. -/
def quoteRequest (s : Outgoing) (p : RequestPlan) (times : Times) : Except MemberError Outgoing := do
  s.requireIdle
  {s with
    requesting := some ⟨none, p.other, p.relationship, p.request, .initial,
      .quoting p.address p.requestClass p.quote p.command⟩
    lastRequest := none}.persistRequest times

/-- The draft is addressed to what the quote is for. -/
def addressed (plan : RequestJourney) (issued : IssuedTerms) (d : RequestDraft) : Bool :=
  plan.other = d.other ∧ issued.terms.selectedClass.id = d.requestClass ∧ issued.terms.receivingAlias = d.address

/-- `authorize_request_with_draft`, up to the first transmission. -/
def authorizeRequest (s : Outgoing) (request : RequestId) (draft : Option RequestDraft) (document : RequestDocument)
    (command : SenderCommand) (now : CanonicalTime) (times : Times) : Except MemberError Outgoing := do
  let plan ← okOr s.requesting .invalidData
  match plan.stage with
  | .quoted issued => do
    refuseIf (issued.verifies s.profile.deployment.providerKey = false) .invalidData
    refuseIf (plan.request ≠ request ∨ issued.terms.sender ≠ s.profile.persona ∨
      issued.terms.recipient ≠ plan.other ∨ issued.terms.relationship ≠ plan.relationship) .invalidData
    refuseIf (issued.terms.expiresAt ≤ now) .quoteExpired
    refuseIf (draft.all (addressed plan issued) = false) .invalidData
    {s with requesting := some {plan with stage := .preparing issued.terms document (.create command)}}.commitDraft
      (draft.map RequestDraft.draft) times
  | .quoting .. | .preparing .. => .error .requestPending

/-- `send_followup_with_draft`, up to the first transmission. -/
def sendFollowup (s : Outgoing) (draft : Option DraftRef) (p : FollowupPlan) (times : Times) :
    Except MemberError Outgoing := do
  s.requireIdle
  {s with requesting := some ⟨none, p.other, p.relationship, p.request, .followup p.policy,
    .preparing p.terms p.document .stage⟩}.commitDraft draft times

/-- The state after a step of the journey, before it is persisted. -/
def advanced (s : Outgoing) (plan : RequestJourney) : RequestAdvance → Outgoing
  | .wait => s
  | .funding capture => {s with requesting := some {plan with funding := some capture}}
  | .next stage => {s with requesting := some {plan with stage}}
  | .complete result | .observedChange result => s.finishRequest result
  | .refused payload after =>
    {s with
      lastRequest := some (plan.result .refused payload)
      requesting := after.map fun stage => {plan with stage}}

/-- One pass of `advance_request`; a call makes up to six, and each is persisted. -/
def advanceRequest (s : Outgoing) (a : StepAnswers) (times : Times) : Except MemberError Outgoing :=
  match s.requesting with
  | none => .ok s
  | some plan => do
    let advance ← plan.nextRequestStep s.profile a
    match advance with
    | .wait => .ok s
    | advance => (s.advanced plan advance).persistRequest times

/-- The state once the answer to the command in hand is known: the journey is over, or stopped. -/
def reconciled (s : Outgoing) (plan : RequestJourney) (terms : RequestTerms) (document : RequestDocument)
    (work : PreparationWork) (payload : ReceiptPayload) : Outgoing :=
  match plan.settledBy work payload.kind with
  | some status => s.finishRequest (plan.result status payload)
  | none => {s with requesting := some {plan with stage := .preparing terms document .stopped}}

/-- `reconcile_before_cancel`: first recovers the accepted command, without advancing further. -/
def reconcileBeforeCancel (s : Outgoing) (plan : RequestJourney) (answered : Except MemberError RequestAnswer)
    (times : Times) : Except MemberError Outgoing :=
  match plan.stage with
  | .quoting .. | .quoted _ => .ok s
  | .preparing terms document work =>
    match work.command with
    | none => .ok s
    | some (command, expected) => do
      let answer ← plan.acceptAnswer s.profile command expected answered
      (s.reconciled plan terms document work answer.payload).persistRequest times

/-- The state in which the cancellation of a stopped request goes on, unless the request changed. -/
def cancelling (s : Outgoing) (plan : RequestJourney) (a : StepAnswers) (request : RequestView) :
    Except MemberError Outgoing :=
  if !request.lifecycle.isPreparingSubmission then .ok (s.finishRequest (plan.observedChange request))
  else
    match plan.stage with
    | .preparing terms document _ => do
      let command ← a.sign (.cancelRequestSubmission plan.request request.version .senderRequested)
      .ok {s with requesting := some {plan with stage := .preparing terms document (.cancel command)}}
    | .quoting .. | .quoted _ => .error .invalidData

/-- The cancellation of a journey that is not over: a follow-up is given up, a request cancelled. -/
def cancelStopped (s : Outgoing) (plan : RequestJourney) (a : StepAnswers) (times : Times) :
    Except MemberError Outgoing :=
  match plan.kind with
  | .followup _ => s.abandoned.persistRequest times
  | .initial => do
    let (request, _) ← plan.outboundRequest a.view
    let next ← s.cancelling plan a request
    next.persistRequest times

/-- `cancel_request`, up to the transmission of the cancellation. What was reconciled stays so if
the rest fails. -/
def cancelRequest (s : Outgoing) (a : StepAnswers) (times : Times) : Except MemberError Outgoing := do
  let plan ← okOr s.requesting .invalidData
  if plan.stage.beforeReview then s.abandoned.persistRequest times
  else do
    let next ← s.reconcileBeforeCancel plan a.command times
    if next.requesting.isNone then .ok next
    else
      match next.cancelStopped plan a times with
      | .ok done => .ok done
      | .error _ => .ok next

end Outgoing

/-! ### Calls -/

inductive OutgoingCall
  | observe (deployment : Deployment)
  | openDraft (id : DraftId) (target : DraftTarget) (mode : OpenMode) (now : CanonicalTime)
  | saveDraft (id : DraftId) (expected : DraftRevision) (body : DraftBody) (subject : Text) (localOffsetSeconds : ℤ)
    (now : CanonicalTime)
  | retargetDraft (id : DraftId) (expected : DraftRevision) (target : DraftTarget) (dropIncompatible : Bool)
    (mailbox : Text) (now : CanonicalTime)
  | discardDraft (id : DraftId) (expected : DraftRevision) (now : CanonicalTime)
  | sendMessage (draft : Option DraftRef) (writing : NativeWriting) (times : Times)
  | transmitSend (create send : Except MemberError NativeResponse) (times : Times)
  | sendExternal (draft : Option DraftRef) (writing : ExternalWriting) (operation : IdempotencyKey)
    (signature : Bytes) (times : Times)
  | controlExternal (conversation : ConversationId) (action : ExternalAction) (operation : IdempotencyKey)
    (signature : Bytes)
  | transmitExternal (answer : Except MemberError ExternalResponse) (times : Times)
  | quoteRequest (plan : RequestPlan) (times : Times)
  | authorizeRequest (request : RequestId) (draft : Option RequestDraft) (document : RequestDocument)
    (command : SenderCommand) (now : CanonicalTime) (times : Times)
  | sendFollowup (draft : Option DraftRef) (plan : FollowupPlan) (times : Times)
  | advanceRequest (answers : StepAnswers) (times : Times)
  | cancelRequest (answers : StepAnswers) (times : Times)

namespace Outgoing

/-- `observe_inbox`: the provider of a device never changes. -/
def observe (s : Outgoing) (deployment : Deployment) : Except MemberError Outgoing := do
  refuseIf (deployment.scope ≠ s.profile.deployment.scope ∨
    deployment.providerKey ≠ s.profile.deployment.providerKey) .unauthorized
  .ok {s with profile := {s.profile with deployment}}

/-- A call of the client, or the answer to one. -/
def call (s : Outgoing) : OutgoingCall → Except MemberError Outgoing
  | .observe deployment => s.observe deployment
  | .openDraft id target mode now => s.edit (.start id target mode) now
  | .saveDraft id expected body subject localOffsetSeconds now =>
    s.edit (.save id expected body subject localOffsetSeconds) now
  | .retargetDraft id expected target dropIncompatible mailbox now =>
    s.edit (.retarget id expected target dropIncompatible mailbox) now
  | .discardDraft id expected now => s.edit (.discard id expected) now
  | .sendMessage draft writing times => s.sendMessage draft writing times
  | .transmitSend create send times => s.transmitSend create send times
  | .sendExternal draft writing operation signature times => s.sendExternal draft writing operation signature times
  | .controlExternal conversation action operation signature =>
    s.controlExternal conversation action operation signature
  | .transmitExternal answer times => s.transmitExternal answer times
  | .quoteRequest plan times => s.quoteRequest plan times
  | .authorizeRequest request draft document command now times =>
    s.authorizeRequest request draft document command now times
  | .sendFollowup draft plan times => s.sendFollowup draft plan times
  | .advanceRequest answers times => s.advanceRequest answers times
  | .cancelRequest answers times => s.cancelRequest answers times

end Outgoing
end
end CsMail
