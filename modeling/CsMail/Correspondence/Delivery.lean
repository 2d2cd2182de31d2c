import CsMail.Correspondence.Command
import CsMail.Correspondence.Forwarding
import CsMail.External.Replies

/-! Native correspondence, as the delivery service decides it.

A decision reads the protected facts it is given. A message is admitted by the entrance it is
sent to, or as an answer in a conversation of its author's, and its delivery carries with it
whatever lane it has used up; a refusal is recorded and changes nothing. -/
namespace CsMail
open Library

/-! ### Outcomes -/

/-- The `Response` to a command that changes something. -/
inductive NativeOutcome
  | refused (operation : IdempotencyKey) (digest : Bytes32) (reason : CorrespondenceError)
  | conversation (c : Conversation)
  | committed (message : MessageId)
  | copiesDeleted
  deriving DecidableEq

structure NativeReceipt where
  actor : ProtocolIdentity
  key : OperationalKeyRef
  action : AuditAction
  digest : Bytes32
  outcome : NativeOutcome
  authorizedAt : CanonicalTime
  /-- Historical evidence, never authority for a later operation. -/
  policyRevisions : SortedMap ConversationId U64
  deriving DecidableEq

/-- The headers of a delivery are those of its copies. -/
def MessageRecord.delivers (r : MessageRecord) (p : NativePackage) : Bool :=
  r.manifest = p.manifest ∧ r.fields.author = p.senderCopy.binding.sender ∧
    r.fields.receiving.recipient = p.recipientCopy.binding.recipient ∧
    r.fields.author = p.recipientCopy.binding.sender ∧ r.fields.senderKey = p.senderRecovery.sender

/-- Content and receiving assignment cannot separate. -/
structure AdmittedDelivery where
  record : MessageRecord
  package : NativePackage
  bound : record.delivers package = true

def AdmittedDelivery.new (record : MessageRecord) (package : NativePackage) :
    Except CorrespondenceError AdmittedDelivery :=
  if h : record.delivers package = true then .ok ⟨record, package, h⟩ else .error .invalid

/-- A delivery with the conversation it is placed in and the lane it has used up. -/
structure DeliveryTransition where
  conversation : Conversation
  delivery : AdmittedDelivery
  lane : Option SenderScopedLane
  placed : conversation.id = delivery.record.manifest.conversation ∧
    conversation.scope.other delivery.record.fields.author = .ok delivery.record.fields.receiving.recipient

def DeliveryTransition.new (conversation : Conversation) (delivery : AdmittedDelivery)
    (lane : Option SenderScopedLane) : Except CorrespondenceError DeliveryTransition :=
  if hid : conversation.id ≠ delivery.record.manifest.conversation then .error .invalid
  else match hother : conversation.scope.other delivery.record.fields.author with
    | .error e => .error e
    | .ok other =>
      if h : other ≠ delivery.record.fields.receiving.recipient then .error .invalid
      else .ok ⟨conversation, delivery, lane, not_ne_iff.mp hid, not_ne_iff.mp h ▸ hother⟩

/-- Each alternative carries its complete consequence; an allowance cannot be used up apart
from the delivery that used it. -/
inductive NativeChange
  | conversation (c : Conversation)
  | delivery (transition : DeliveryTransition)
  | deleteCopies (id : ConversationId)
  | refused

structure NativeEffects where
  change : NativeChange
  receipt : NativeReceipt

/-! ### The facts of a decision -/

structure RoutedContext where
  entrance : Alias
  senderScope : Option SenderRouteScope
  recipientActive : Bool
  senderBilling : BillingAccount
  recipientBilling : BillingAccount

/-- Of what is read under protection, what a change depends on. -/
structure NativeContext where
  routed : Option RoutedContext
  receiverContact : Option Relationship
  authority : AccountState
  custodyKey : Option EndpointPublicKey
  contact : Option Relationship
  lane : Option SenderScopedLane
  sources : SourceContext
  prior : Option NativeReceipt

/-! ### Prepared messages -/

namespace NativePackage

/-- A recovery envelope repeats the copy it recovers, sealed to the custody key. -/
def checkRecovery (custody : EndpointPublicKey) (copy : SealedRecord) (recovery : RecoveryCopy) :
    Except CorrespondenceError Unit :=
  refuseIf (recovery.ciphertext.binding ≠ copy.binding ∨
    recovery.ciphertext.createdAt ≠ copy.createdAt ∨
    recovery.ciphertext.expiresAt ≠ copy.expiresAt ∨
    recovery.sender.reference ≠ copy.envelope.senderKey ∨
    recovery.sender.bytes = zero32 ∨
    recovery.ciphertext.envelope.senderKey ≠ recovery.sender.reference ∨
    recovery.ciphertext.envelope.recipientKey ≠ custody.reference ∨
    recovery.ciphertext.envelope.ciphertext = [] ∨
    maxEncodedDocumentBytes + 16 < recovery.ciphertext.envelope.ciphertext.length) .invalid

/-- A copy is its owner's, is signed for by the author's key, and is in force. -/
def checkCopy (p : NativePackage) (actor : ProtocolIdentity) (key : OperationalKeyRef)
    (relationship : RelationshipRef) (now latest : CanonicalTime) (owner : ProtocolIdentity)
    (copy : SealedRecord) : Except CorrespondenceError Unit :=
  refuseIf (copy.binding.sender ≠ actor ∨
    copy.binding.recipient ≠ owner ∨
    copy.binding.message ≠ p.manifest.message ∨
    copy.binding.relationship ≠ relationship ∨
    copy.binding.wireVersion ≠ ⟨1⟩ ∨
    copy.binding.protocolVersion ≠ ⟨2⟩ ∨
    copy.binding.declarations.origin.authority ≠ .nativeSender key ∨
    now < copy.createdAt ∨
    copy.expiresAt ≤ now ∨
    latest < copy.expiresAt ∨
    latest < copy.binding.messageValidUntil.time ∨
    copy.binding.messageValidUntil.time ≤ now ∨
    copy.envelope.ciphertext = [] ∨
    maxEncodedDocumentBytes + 16 < copy.envelope.ciphertext.length ∨
    copy.binding.declarations.validate ≠ .ok ()) .invalid

/-- Ninety days. -/
def longestRetention : Duration := ⟨90 * 24 * 60 * 60 * 1000⟩

/-- `validate_prepared`: checks both copies against the author, the pair and the custody key. -/
def validatePrepared (p : NativePackage) (actor : ProtocolIdentity) (key : OperationalKeyRef)
    (other : ProtocolIdentity) (relationship : RelationshipRef) (custodyKey : Option EndpointPublicKey)
    (now : CanonicalTime) : Except CorrespondenceError Unit := do
  let custody ← okOr custodyKey .unavailable
  let latest ← okOr (now.checkedAdd longestRetention) .invalid
  refuseIf ({p.senderCopy.binding with recipient := other} ≠ p.recipientCopy.binding ∨
    p.senderCopy.envelope.senderKey ≠ p.recipientCopy.envelope.senderKey) .invalid
  checkRecovery custody p.senderCopy p.senderRecovery
  checkRecovery custody p.recipientCopy p.recipientRecovery
  refuseIf (p.senderRecovery.sender ≠ p.recipientRecovery.sender) .invalid
  p.checkCopy actor key relationship now latest actor p.senderCopy
  p.checkCopy actor key relationship now latest other p.recipientCopy

end NativePackage

/-- The handle a native subject is. -/
def LaneSubject.handle : LaneSubject → Option ScopedHandle
  | native handle => some handle
  | legacyDomain _ | guestMailbox _ => none

/-- Whether the lane lets its sender write. -/
def SenderScopedLane.isCurrent (l : SenderScopedLane) (now : CanonicalTime) : Bool :=
  l.state = .active ∧ l.grant.notBefore ≤ now ∧ now < l.grant.notAfter ∧
    (l.grant.mode ≠ .expiring ∨ now < l.horizonAt)

/-- An allowance used up by one more message; a message it already counts is a conflict. -/
def SenderScopedLane.consumeOnce (lane : SenderScopedLane) (message : MessageId)
    (capability : Option LaneId) (declarations : MessageDeclarations) (evidence : LaneEvidence)
    (now : CanonicalTime) : Except CorrespondenceError SenderScopedLane := do
  let (next, known) ← (lane.consume message capability declarations evidence now).mapError
    fun _ => .unauthorized
  refuseIf (known = true) .conflict
  .ok next

namespace NativeContext
variable (context : NativeContext)

/-! ### Answers -/

/-- A message received in this conversation, since the last withdrawal, may be answered. -/
def answerBasis (relationship : Relationship) (conversation : ConversationId)
    (actor other : ProtocolIdentity) : Option AdmissionBasis := do
  if relationship.key.sender ≠ actor ∨ relationship.key.recipient ≠ other then none
  else
    let c ← context.sources.conversations.get? conversation
    let source ← c.replySource actor relationship.replyEpoch
    some (.conversationReply source)

/-- A native lane of the pair that is current. -/
def currentLane (actor other : ProtocolIdentity) (now : CanonicalTime) : Bool :=
  context.lane.any fun l => l.grant.sender = actor ∧ l.grant.recipient = other ∧
    l.grant.subject.handle.isSome = true ∧ l.isCurrent now = true

/-- `contact`: the relationship a command is given under. -/
def contactFor (actor other : ProtocolIdentity) (conversation : Option ConversationId)
    (now : CanonicalTime) : Except CorrespondenceError Relationship :=
  okOr (context.contact.filter fun r => r.key.sender = actor ∧ r.key.recipient = other ∧
    r.state ≠ .blocked ∧ r.state ≠ .revoked ∧ (r.state = .accepted ∨
      (conversation.bind (context.answerBasis r · actor other)).isSome = true ∨
      context.currentLane actor other now = true)) .unauthorized

/-- `admit_message`: what an answer is admitted on, and the lane it has used up. -/
def admitMessage (relationship : Relationship) (actor destination : ProtocolIdentity)
    (package : NativePackage) (now : CanonicalTime) :
    Except CorrespondenceError (AdmissionBasis × Option SenderScopedLane) :=
  let binding := package.recipientCopy.binding
  let answer := if binding.capability = none then
    context.answerBasis relationship package.manifest.conversation actor destination else none
  if relationship.state = .accepted then .ok (.acceptedRelationship relationship.version, none)
  else match answer with
    | some basis => .ok (basis, none)
    | none => do
      let lane ← okOr context.lane .unauthorized
      let handle ← okOr lane.grant.subject.handle .unauthorized
      -- No evidence supplied by the sender is trusted: the recipient signed the subject.
      (lane.authorizes actor destination binding.capability binding.declarations (.native handle)
        now).mapError fun _ => .unauthorized
      let next ← lane.consumeOnce package.manifest.message binding.capability binding.declarations
        (.native handle) now
      .ok (.expressLane lane.grant.id next.version, some next)

/-! ### Entrances -/

/-- What the recipient has signed a native lane for. -/
def evidence : Option LaneEvidence := context.contact.map fun r => .native ⟨r.key.reference.bytes⟩

/-- The entrance a message is sent to. -/
def routeTo (address : AliasId) : Option RoutedContext :=
  context.routed.filter fun route => route.entrance.id = address

def routeContext (route : RoutedContext) (actor : ProtocolIdentity) (package : NativePackage)
    (now : CanonicalTime) : RouteContext where
  entrance := route.entrance
  authentication := .authenticated actor
  relationship := context.contact
  senderScope := route.senderScope
  lane := context.lane
  declarations := package.recipientCopy.binding.declarations
  laneEvidence := context.evidence
  domainEvidence := none
  covered := route.recipientActive && route.senderBilling.covers now && route.recipientBilling.covers now
  reviewRequired := false
  conversation := package.manifest.conversation

/-- `direct_alias_authority`: a sender lane must be named by what the author signed; an answer
must not use it up silently. -/
def directAuthority (address : AliasId) (actor : ProtocolIdentity) (package : NativePackage)
    (now : CanonicalTime) : Option ReceivingAuthorization := do
  let route ← context.routeTo address
  match (context.routeContext route actor package now).admission now with
  | .ok (.authorize authorization) => match authorization.basis with
    | .senderLane id _ =>
      if package.recipientCopy.binding.capability = some id then some authorization else none
    | .aliasLane _ | .pairedSender .. | .standing _ => some authorization
  | .ok .hold | .ok .request | .error _ => none

/-- What a message to an entrance is admitted on, and the lane it has used up. -/
def admitDirect (authorization : ReceivingAuthorization) (address : AliasId) (package : NativePackage)
    (now : CanonicalTime) : Except CorrespondenceError (AdmissionBasis × Option SenderScopedLane) :=
  let binding := package.recipientCopy.binding
  match authorization.basis with
  | .aliasLane revision => .ok (.aliasLane address revision.val, none)
  | .pairedSender id version _ => do
    let lane ← (authorization.consumePaired package.manifest.message binding.declarations).mapError
      fun _ => .unauthorized
    .ok (.expressLane id version, lane)
  | .standing version => .ok (.acceptedRelationship version, none)
  | .senderLane id version => do
    let lane ← okOr context.lane .unauthorized
    let evidence ← okOr context.evidence .unauthorized
    let next ← lane.consumeOnce package.manifest.message binding.capability binding.declarations
      evidence now
    .ok (.expressLane id version, some next)

/-! ### Deliveries -/

/-- The recipient may answer what it has received, unless it has withdrawn from its author. -/
def received (current : Conversation) (destination : ProtocolIdentity) (message : MessageId) :
    Except CorrespondenceError Conversation :=
  if context.receiverContact.any (fun r => r.state.senderReplyRestriction.isSome) = true then .ok current
  else current.receive destination message ((context.receiverContact.map (·.replyEpoch)).getD ⟨0⟩)

/-- The delivery of an admitted message. -/
def deliver (package : NativePackage) (actor : ProtocolIdentity) (receiving : DeliveredRoute)
    (admission : AdmissionBasis) (conversation : Conversation) (lane : Option SenderScopedLane)
    (now : CanonicalTime) : Except CorrespondenceError DeliveryTransition := do
  let record ← MessageRecord.new {
    receiving
    senderKey := package.senderRecovery.sender
    manifest := package.manifest
    author := actor
    admission
    committedAt := now}
  let delivery ← AdmittedDelivery.new record package
  DeliveryTransition.new conversation delivery lane

/-- A new routed conversation has no source edges until there is a policy to assess. -/
def directPolicies (current : Conversation) (manifest : MessageManifest) (actor : ProtocolIdentity) :
    Except CorrespondenceError (SortedMap ConversationId U64) :=
  if context.sources.conversations.contains manifest.conversation = true then
    context.sources.policies manifest actor
  else do
    refuseIf (manifest.sources ≠ []) .policyUnresolved
    .ok (SortedMap.empty.insert manifest.conversation current.revision)

/-- A message its entrance admits. -/
def sendDirect (authorization : ReceivingAuthorization) (address : AliasId) (package : NativePackage)
    (actor : ProtocolIdentity) (key : OperationalKeyRef) (now : CanonicalTime) :
    Except CorrespondenceError (DeliveryTransition × SortedMap ConversationId U64) := do
  let route ← okOr (context.routeTo address) .unauthorized
  let destination := route.entrance.owner
  let id := package.manifest.conversation
  let message := package.manifest.message
  let scope ← CorrespondenceRef.new actor destination
  let current ← ((context.sources.conversations.get? id).getD (.new id scope)).bindSubject
    package.manifest.record.subject
  let other ← current.scope.other actor
  refuseIf (other ≠ destination ∨ context.sources.messages.contains message = true) .conflict
  let relationship := (context.contact.map (·.key.reference)).getD
    package.recipientCopy.binding.relationship
  package.validatePrepared actor key destination relationship context.custodyKey now
  let policyRevisions ← context.directPolicies current package.manifest actor
  let (admission, lane) ← context.admitDirect authorization address package now
  let conversation ← context.received current destination message
  let receiving ← authorization.delivered message .native
  let transition ← deliver package actor receiving admission conversation lane now
  .ok (transition, policyRevisions)

/-- `DeliveredRoute::native`. -/
def nativeRoute (entrance : Alias) (sender : ProtocolIdentity) (conversation : ConversationId)
    (message : MessageId) (admission : AdmissionBasis) (time : CanonicalTime) :
    Except CorrespondenceError DeliveredRoute :=
  DeliveredRouteRecord.route {
    transport := .native
    message
    receivingAlias := entrance.id
    aliasRevision := entrance.revision
    sender
    recipient := entrance.owner
    conversation, time
    provenance := .native admission}

/-- An answer in a conversation of its author's. -/
def sendAnswer (address : AliasId) (package : NativePackage) (actor : ProtocolIdentity)
    (key : OperationalKeyRef) (now : CanonicalTime) :
    Except CorrespondenceError (DeliveryTransition × SortedMap ConversationId U64) := do
  let manifest := package.manifest
  refuseIf (context.sources.messages.contains manifest.message = true) .conflict
  let owned ← context.sources.owned manifest.conversation actor
  let current ← owned.bindSubject manifest.record.subject
  let destination ← current.scope.other actor
  let route ← okOr ((context.routeTo address).filter fun r => r.entrance.owner = destination) .unauthorized
  let _ ← okOr (context.contact.bind fun r =>
    context.answerBasis r manifest.conversation actor destination) .unauthorized
  (route.entrance.checkConversation actor manifest.conversation now).mapError fun _ => .unauthorized
  let relationship ← context.contactFor actor destination (some manifest.conversation) now
  package.validatePrepared actor key destination relationship.key.reference context.custodyKey now
  let (admission, lane) ← context.admitMessage relationship actor destination package now
  let policyRevisions ← context.sources.policies manifest actor
  let conversation ← context.received current destination manifest.message
  let receiving ← nativeRoute route.entrance actor manifest.conversation manifest.message admission now
  let transition ← deliver package actor receiving admission conversation lane now
  .ok (transition, policyRevisions)

/-- A message is sent to the entrance that admits it, or else answers in its conversation. -/
def send (address : AliasId) (package : NativePackage) (answers : Bool) (actor : ProtocolIdentity)
    (key : OperationalKeyRef) (now : CanonicalTime) :
    Except CorrespondenceError (DeliveryTransition × SortedMap ConversationId U64) :=
  match context.directAuthority address actor package now with
  | some authorization => context.sendDirect authorization address package actor key now
  | none => if answers then context.sendAnswer address package actor key now else .error .unauthorized

end NativeContext

/-! ### Decisions -/

section
variable [Crypto] [MemberJson]

/-- Whether an outcome was recorded for such a command. -/
def SignedRequest.mayHave (r : SignedRequest) (digest : Bytes32) (outcome : NativeOutcome) : Bool :=
  match r.command, outcome with
  | .create _ id _, .conversation c | .changePolicy id _ _, .conversation c =>
    c.id = id ∧ c.scope.contains r.persona = true
  | .send _ package, .committed message | .sendToAlias _ package, .committed message =>
    package.manifest.message = message
  | .deleteCopies _, .copiesDeleted => true
  | _, .refused operation refused _ => operation = r.operation ∧ refused = digest
  | _, _ => false

/-- An exact replay returns what was recorded, and changes nothing. -/
def SignedRequest.replayed (r : SignedRequest) (digest : Bytes32) (prior : NativeReceipt) :
    Except CorrespondenceError NativeOutcome := do
  refuseIf (prior.digest ≠ digest ∨ prior.action ≠ r.command.auditAction ∨ prior.actor ≠ r.persona ∨
    prior.key ≠ r.key) .conflict
  refuseIf (r.mayHave digest prior.outcome = false) .invalid
  .ok prior.outcome

/-- What a command does, with the policies it rests on. -/
def SignedRequest.change (r : SignedRequest) (context : NativeContext) (now : CanonicalTime) :
    Except CorrespondenceError (NativeOutcome × NativeChange × SortedMap ConversationId U64) :=
  match r.command with
  | .create subject id other => do
    let _ ← context.contactFor r.persona other none now
    refuseIf (context.sources.conversations.contains id = true) .conflict
    let scope ← CorrespondenceRef.new r.persona other
    let conversation ← (Conversation.new id scope).bindSubject (some subject)
    .ok (.conversation conversation, .conversation conversation, .empty)
  | .changePolicy id revision action => do
    let owned ← context.sources.owned id r.persona
    let next ← owned.change r.persona revision action
    .ok (.conversation next, .conversation next, SortedMap.empty.insert id next.revision)
  | .send address package => do
    let (transition, policyRevisions) ← context.send address package true r.persona r.key now
    .ok (.committed package.manifest.message, .delivery transition, policyRevisions)
  | .sendToAlias address package => do
    let (transition, policyRevisions) ← context.send address package false r.persona r.key now
    .ok (.committed package.manifest.message, .delivery transition, policyRevisions)
  | .deleteCopies id => do
    let _ ← context.sources.owned id r.persona
    .ok (.copiesDeleted, .deleteCopies id, .empty)

/-- What is recorded of a command. -/
def SignedRequest.effects (r : SignedRequest) (digest : Bytes32) (now : CanonicalTime)
    (outcome : NativeOutcome) (change : NativeChange) (policyRevisions : SortedMap ConversationId U64) :
    NativeEffects where
  change
  receipt := {
    actor := r.persona
    key := r.key
    action := r.command.auditAction
    digest, outcome
    authorizedAt := now
    policyRevisions}

/-- A fresh command: a refusal is its durable result, unless a later attempt may find the policy
resolved or what was unavailable. -/
def SignedRequest.execute (r : SignedRequest) (context : NativeContext) (now : CanonicalTime)
    (digest : Bytes32) : Except CorrespondenceError (NativeOutcome × NativeEffects) :=
  match r.change context now with
  | .ok (outcome, change, policyRevisions) => .ok (outcome, r.effects digest now outcome change policyRevisions)
  | .error .policyUnresolved => .error .policyUnresolved
  | .error .unavailable => .error .unavailable
  | .error reason =>
    let outcome := .refused r.operation digest reason
    .ok (outcome, r.effects digest now outcome .refused .empty)

/-- `decide`: authenticates, and returns a recorded result or decides the command. -/
def SignedRequest.decide (r : SignedRequest) (context : NativeContext) (now : CanonicalTime) :
    Except CorrespondenceError (NativeOutcome × Option NativeEffects) := do
  r.authenticate context.authority now
  let digest ← r.digest
  match context.prior with
  | some prior => do
    let outcome ← r.replayed digest prior
    .ok (outcome, none)
  | none => do
    let (outcome, effects) ← r.execute context now digest
    .ok (outcome, some effects)

end
end CsMail
