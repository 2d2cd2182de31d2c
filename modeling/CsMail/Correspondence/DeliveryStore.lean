import CsMail.Correspondence.Delivery

/-! The stores of admissions: what a transaction loads for its decision, and what it keeps.

A command is authenticated before anything private is read for it, and its receipt is stored
with whatever it has changed. A lane that was used up is written back where it came from, to
its relationship or to its entrance. -/
namespace CsMail
open Library

inductive DeliveryFailure
  | correspondence (error : CorrespondenceError)
  | entrance (error : AliasError)
  | versionConflict
  | database
  deriving DecidableEq

structure DeliveryStore where
  receipts : SortedMap (AccountId ×ₗ IdempotencyKey) NativeReceipt
  /-- The lane of each relationship. -/
  lanes : SortedMap RelationshipRef SenderScopedLane
  entrances : SortedMap AliasId Alias
  /-- The external messages, and the digests of those that were received. -/
  external : SortedMap MessageId (Option Bytes32)
  filed : ∀ id entrance, entrances.get? id = some entrance → entrance.id = id

namespace DeliveryStore
variable (s : DeliveryStore)

theorem filed_insert (entrance : Alias) (id : AliasId) (e : Alias)
    (h : (s.entrances.insert entrance.id entrance).get? id = some e) : e.id = id := by
  rcases SortedMap.get?_insert_eq_some.mp h with ⟨rfl, rfl⟩ | ⟨-, hold⟩
  · rfl
  · exact s.filed id e hold

def setEntrance (entrance : Alias) : DeliveryStore :=
  {s with entrances := s.entrances.insert entrance.id entrance, filed := s.filed_insert entrance}

def setLane (pair : RelationshipRef) (lane : SenderScopedLane) : DeliveryStore :=
  {s with lanes := s.lanes.insert pair lane}

/-! ### Lanes -/

/-- `persist_paired_lane`: the entrance must still be as it was decided on. -/
def persistPaired (route : DeliveredRoute) (id : LaneId) (version : Version) (revision : PermissionRevision)
    (lane : SenderScopedLane) : Except DeliveryFailure DeliveryStore := do
  refuseIf (id ≠ lane.grant.id ∨ version.checkedNext ≠ some lane.version) .versionConflict
  let entrance ← okOr (s.entrances.get? route.receivingAlias) .versionConflict
  refuseIf (entrance.owner ≠ route.recipient ∨ entrance.permission.revision ≠ revision) .versionConflict
  let permission ← (entrance.permission.consume lane).mapError .entrance
  let next ← (entrance.withPermission permission).mapError .entrance
  .ok (s.setEntrance next)

/-- Writes a lane back where the message was admitted. -/
def persistLane (pair : Option RelationshipRef) (route : DeliveredRoute) (lane : Option SenderScopedLane) :
    Except DeliveryFailure DeliveryStore :=
  match lane, route.provenance with
  | none, _ => .ok s
  | some lane, .aliasPermission (.pairedSender id version revision) =>
    s.persistPaired route id version revision lane
  | some lane, _ => do
    let pair ← okOr pair .database
    .ok (s.setLane pair lane)

/-! ### Native commands -/

/-- A decision's facts, with those the stores keep. -/
def nativeContext (request : SignedRequest) (facts : NativeContext) : NativeContext :=
  {facts with
    prior := s.receipts.get? (toLex (request.account, request.operation))
    lane := facts.contact.bind fun r => s.lanes.get? r.key.reference
    routed := facts.routed.bind fun route =>
      (s.entrances.get? route.entrance.id).map fun entrance => {route with entrance}}

def persistChange (context : NativeContext) : NativeChange → Except DeliveryFailure DeliveryStore
  | .delivery transition => s.persistLane (context.contact.map (·.key.reference))
      transition.delivery.record.fields.receiving transition.lane
  | .conversation _ | .deleteCopies _ | .refused => .ok s

/-- Of the rows a command changes, the receipt and the lanes. -/
def commit (request : SignedRequest) (context : NativeContext) (effects : NativeEffects) :
    Except DeliveryFailure DeliveryStore := do
  let s ← s.persistChange context effects.change
  .ok {s with receipts := s.receipts.insert (toLex (request.account, request.operation)) effects.receipt}

/-- One native command, authenticated when it began and again when it is decided. -/
def transact [Crypto] [MemberJson] (request : SignedRequest) (facts : NativeContext)
    (began now : CanonicalTime) :
    Except DeliveryFailure (NativeOutcome × Option NativeEffects × DeliveryStore) := do
  (request.authenticate facts.authority began).mapError .correspondence
  let context := s.nativeContext request facts
  let (outcome, effects) ← (request.decide context now).mapError .correspondence
  match effects with
  | none => .ok (outcome, none, s)
  | some effects => do
    let s ← s.commit request context effects
    .ok (outcome, some effects, s)

end DeliveryStore

/-! ### External replies -/

/-- What a reply is decided on besides the stores. It came to an entrance, or to the inbox of its
conversation. -/
structure ReplyFacts [Crypto] where
  conversation : ExternalConversation
  relationship : Relationship
  entrance : Option AliasId
  senderScope : Option SenderRouteScope
  serving : Bool
  memberKey : EndpointPublicKey
  billing : BillingAccount
  provider : ProviderRef

namespace ReplyFacts
variable [Crypto]

/-- The receiving decision of a reply to an entrance. -/
def routeContext (f : ReplyFacts) (entrance : Alias) (lane : Option SenderScopedLane) (reply : Reply)
    (now : CanonicalTime) : RouteContext where
  entrance
  authentication := .authenticated f.conversation.guest
  relationship := some f.relationship
  senderScope := f.senderScope
  lane
  declarations := reply.message.memberCopy.binding.declarations
  laneEvidence := some (.guestMailbox f.conversation.guest)
  domainEvidence := some reply.authentication
  covered := f.billing.covers now
  reviewRequired := false
  conversation := f.conversation.id

def context (f : ReplyFacts) (destination : ReplyDestination) (lane : Option SenderScopedLane) :
    ReplyContext where
  destination
  conversation := f.conversation
  relationship := f.relationship
  lane
  memberKey := f.memberKey
  billing := f.billing
  provider := f.provider

end ReplyFacts

namespace DeliveryStore
variable [Crypto] (s : DeliveryStore)

/-- The lane of the relationship a reply is written under. -/
def replyLane (f : ReplyFacts) : Option SenderScopedLane := s.lanes.get? f.relationship.key.reference

/-- The receiving decision, if the reply came to an entrance. -/
def authorization (f : ReplyFacts) (reply : Reply) (now : CanonicalTime) :
    Except CorrespondenceError (Option ReceivingAuthorization) :=
  match f.entrance with
  | none => .ok none
  | some id => do
    let entrance ← okOr (s.entrances.get? id) .unavailable
    refuseIf (entrance.owner ≠ f.conversation.member) .unauthorized
    match (f.routeContext entrance (s.replyLane f) reply now).admission now with
    | .ok (.authorize authorization) => .ok (some authorization)
    | .ok .hold | .ok .request | .error _ => .error .unauthorized

/-- The context `admit_reply` is given. -/
def replyContext (f : ReplyFacts) (reply : Reply) (now : CanonicalTime) :
    Except CorrespondenceError ReplyContext := do
  let authorization ← s.authorization f reply now
  let inbox ← okOr ((s.entrances.get? f.conversation.record.receivingAlias).filter fun a =>
    a.owner = f.conversation.member) .unavailable
  .ok (f.context ((authorization.map .address).getD (.conversation inbox)) (s.replyLane f))

/-- A reply that is admitted for the first time. -/
def receiveNew (f : ReplyFacts) (reply : Reply) (now : CanonicalTime) : Except DeliveryFailure DeliveryStore := do
  let x ← (s.replyContext f reply now).mapError .correspondence
  let admitted ← (x.admitReply reply now).mapError .correspondence
  let s ← s.persistLane (some f.relationship.key.reference) admitted.receiving admitted.lane
  .ok {s with external := s.external.insert reply.message.manifest.message (some reply.deliveryDigest)}

/-- `receive`: what was received before is historical, never another use of a lane. -/
def receive (f : ReplyFacts) (reply : Reply) (now : CanonicalTime) :
    Except DeliveryFailure DeliveryStore := do
  refuseIf (f.serving = false) (.correspondence .unauthorized)
  match s.external.get? reply.message.manifest.message with
  | some known => do
    refuseIf (known ≠ some reply.deliveryDigest) (.correspondence .conflict)
    .ok s
  | none => do
    refuseIf (reply.message.memberCopy.envelope.recipientKey ≠ f.memberKey.reference) .versionConflict
    s.receiveNew f reply now

end DeliveryStore

/-! ### Runs -/

inductive DeliveryInput [Crypto]
  | native (request : SignedRequest) (facts : NativeContext) (began now : CanonicalTime)
  | reply (facts : ReplyFacts) (reply : Reply) (now : CanonicalTime)
  /-- Whatever other operations leave of the lanes, the entrances and the messages. -/
  | other (t : DeliveryStore)

def DeliveryStore.step [Crypto] [MemberJson] (s : DeliveryStore) :
    DeliveryInput → Except DeliveryFailure DeliveryStore
  | .native request facts began now => (s.transact request facts began now).map fun r => r.2.2
  | .reply facts reply now => s.receive facts reply now
  | .other t => .ok {t with receipts := s.receipts}

end CsMail
