import CsMail.Application.Store

/-! Request decisions over the two directions of a pair.

The two directions of a pair are relationships of their own, each with its requests and
its history. A request decision reads both and decides both: a submission in one
direction ends a preparation in the other, and an acceptance in one direction grants the
reply lane in the other. The host commits both consequences or neither. -/
namespace CsMail
open Library

/-! ### Receiving scopes -/

/-- The entrances a sender may write to; an empty scope cannot be built. -/
structure ReceivingScope where
  aliases : SortedMap AliasId Unit
  nonempty : aliases.entries ≠ []
  deriving DecidableEq

def ReceivingScope.one (address : AliasId) : ReceivingScope :=
  ⟨(∅ : SortedMap AliasId Unit).insert address (), List.cons_ne_nil _ _⟩

structure SenderScopeRecord where
  revision : U64
  establishedAt : CanonicalTime
  sender : ProtocolIdentity
  recipient : ProtocolIdentity
  relationshipVersion : RelationshipVersion
  receiving : ReceivingScope
  lane : Option (LaneId × Version)
  deriving DecidableEq

def SenderScopeRecord.valid (r : SenderScopeRecord) : Bool :=
  r.revision ≠ 0 ∧ r.sender.val ≠ 0 ∧ r.recipient.val ≠ 0 ∧ r.sender ≠ r.recipient ∧
    r.lane.all (fun l => l.1.val ≠ 0) = true

/-- A stored scope, checked when it was stored. -/
structure SenderRouteScope where
  record : SenderScopeRecord
  valid : record.valid = true
  deriving DecidableEq

structure ReceivingScopes where
  forward : Option SenderRouteScope
  opposite : Option SenderRouteScope
  deriving DecidableEq

def defaultScope (r : Relationship) (receiving : ReceivingScope) (now : CanonicalTime)
    (lane : Option (LaneId × Version)) (previous : Option SenderRouteScope) :
    Except ProtocolError SenderScopeRecord := do
  refuseIf (previous.any (fun p => p.record.sender ≠ r.key.sender ∨
    p.record.recipient ≠ r.key.recipient) = true) .invalidState
  let revision ← okOr (match previous with
    | none => some 1
    | some p => Checked.succ p.record.revision) .arithmeticOverflow
  .ok {
    revision
    establishedAt := now
    sender := r.key.sender
    recipient := r.key.recipient
    relationshipVersion := r.version
    receiving
    lane}

/-! ### Reply lanes -/

inductive LaneAcceptanceError
  | protocol (error : ProtocolError)
  | capability (error : CapabilityError)
  deriving DecidableEq

def LaneAcceptanceError.toProtocol : LaneAcceptanceError → ProtocolError
  | protocol error => error
  | capability .arithmeticOverflow => .arithmeticOverflow
  | capability _ => .invalidState

structure ReplyLane where
  lane : SenderScopedLane
  manifest : TransitionManifest
  deriving DecidableEq

/-- Access the recipient granted outright, which an agreed reply lane does not replace. -/
def SenderScopedLane.grantsAccess (l : SenderScopedLane) (now : CanonicalTime) : Bool :=
  l.providesRelationshipAccess now = true ∧ l.authority = .recipientGrant

/-- Reverse permission derives from the sender's signed formation record and the accepted
lifecycle in protected state. -/
def ReplyLane.decide [Crypto] (s : SettlementSnapshot) (request : RelationshipRequest)
    (context : TransitionContext) (offeredEpoch : Option ReplyEpoch) :
    Except LaneAcceptanceError (Option ReplyLane) :=
  match request.terms.replyLane.agreed? with
  | none => .ok none
  | some agreed => do
    let pair := s.state.relationship.key
    refuseIf (pair.sender ≠ request.terms.recipient ∨ pair.recipient ≠ request.terms.sender ∨
      request.lifecycle.isAccepted = false) (.protocol .invalidState)
    if s.state.relationship.state.senderReplyRestriction.isSome = true ∨
        offeredEpoch ≠ some s.state.relationship.replyEpoch then .ok none
    else if s.state.relationship.state = .accepted ∨
        s.lane.any (fun lane => lane.grantsAccess context.now) = true then .ok none
    else do
      let version ← okOr (match s.lane with
        | none => some ⟨1⟩
        | some lane => lane.grant.version.checkedNext) (.protocol .arithmeticOverflow)
      let lane ← (agreed.acceptedLane {
        request := request.id
        originatingRelationship := request.terms.relationship
        reverseRelationship := pair.reference
        sender := request.terms.sender
        recipient := request.terms.recipient
        creationKey := request.creationKey
        creationEvent := request.creationEvent
        acceptanceEvent := ⟨context.journalPosition⟩
        time := context.now
        version
        deployment := request.terms.financial.scope.deploymentDomain
        protocolVersion := request.terms.protocolVersion
        provider := request.terms.recipientProvider}).mapError .capability
      let manifest ← (acceptExpressLane s lane.grant.id context).mapError .protocol
      .ok (some ⟨lane, manifest⟩)

/-! ### Both directions of a pair -/

structure DirectionSnapshot where
  replyOffers : SortedMap RequestId (Option ReplyEpoch)
  snapshot : SettlementSnapshot
  deriving DecidableEq

structure DirectionEffect where
  lane : Option SenderScopedLane
  schedules : List ScheduleChange
  relationship : RelationshipRef
  manifest : TransitionManifest
  journalPosition : JournalPosition
  deriving DecidableEq

/-- Guests have no enrolled opposite member; an absent member direction is a protected
absence. -/
inductive CounterpartyContext
  | guest
  | member (opposite : Option DirectionSnapshot)
  deriving DecidableEq

namespace CounterpartyContext

def opposite : CounterpartyContext → Option DirectionSnapshot
  | guest => none
  | member opposite => opposite

def requestDelivery : CounterpartyContext → RequestDeliveryRoute
  | guest => .guestRelay
  | member _ => .nativeMailboxes

end CounterpartyContext

/-- How a submitted document is published: `MailboxDelivery::decide`, which reads the
manifest and whose result no transition reads. -/
class Documents where
  Document : Type
  Delivery : Type
  decide : Document → Message → RelationshipRequest → TransitionContext → ReplyEpoch →
    Except Unit Delivery

structure RequestDecision [Documents] where
  scopes : List SenderScopeRecord
  delivery : Option Documents.Delivery
  forward : TransitionManifest
  opposite : Option DirectionEffect

/-- The request a stored message belongs to as its first message or a follow-up. -/
def AdmissionBasis.solicitation : AdmissionBasis → Option RequestId
  | initialRequest request | requestFollowup request _ => some request
  | _ => none

/-- A request that awaits its decision in the other direction comes first. -/
def refusePending (opposite : ProtocolState) (now : CanonicalTime) : Except ProtocolError Unit :=
  match opposite.activeRequest.filter fun r => r.lifecycle.awaitsDecisionAt now with
  | some request => .error (.oppositeRequestPending request.id)
  | none => .ok ()

/-- A sender who restricts replies submits nothing. -/
def refuseRestricted (opposite : ProtocolState) : Except ProtocolError Unit :=
  match opposite.relationship.state.senderReplyRestriction with
  | some reason => .error (.senderReplyRestricted reason)
  | none => .ok ()

/-- What one direction refuses on account of the other. -/
def checkOpposite (forward : RelationshipKey) (opposite : ProtocolState) (command : ProtocolCommand)
    (now : CanonicalTime) : Except ProtocolError Unit := do
  opposite.validate
  refuseIf (opposite.relationship.key.sender ≠ forward.recipient ∨
    opposite.relationship.key.recipient ≠ forward.sender) .incompleteSnapshot
  if command.solicits then refusePending opposite now else .ok ()
  if command.submits then refuseRestricted opposite else .ok ()

def checkCounterparty (forward : RelationshipKey) (counterparty : CounterpartyContext)
    (command : ProtocolCommand) (now : CanonicalTime) : Except ProtocolError Unit :=
  match counterparty.opposite with
  | none => .ok ()
  | some direction => checkOpposite forward direction.snapshot.state command now

/-- The request a transition has just submitted. -/
def TransitionManifest.incoming (m : TransitionManifest) : Option RelationshipRequest :=
  m.protocolEvents.findSome? fun event =>
    match event.kind with
    | .requestSubmitted id => m.nextState.requests.get? id
    | _ => none

/-- The request a transition has just accepted. -/
def TransitionManifest.accepted (m : TransitionManifest) (before : SettlementSnapshot) :
    Option RelationshipRequest :=
  m.nextState.requests.values.find? fun request =>
    request.lifecycle.isAccepted && (before.state.requests.get? request.id).any fun old =>
      !old.lifecycle.isAccepted

section
variable [Documents]

def mailboxDelivery (forward : TransitionManifest) (document : Option Documents.Document)
    (context : TransitionContext) (epoch : ReplyEpoch) :
    Except ProtocolError (Option Documents.Delivery) :=
  match forward.mailboxDeliveries.head? with
  | none => .ok none
  | some id => do
    let message ← okOr (forward.nextMessages.get? id) .missingRecord
    let request ← okOr message.basis.solicitation .invalidState
    let request ← okOr (forward.nextState.requests.get? request) .missingRecord
    let document ← okOr document .missingRecord
    let delivery ← (Documents.decide document message request context epoch).mapError
      fun _ => .invalidState
    .ok (some delivery)

/-- What a submission means for the other direction. -/
def receiveIncoming (counterparty : CounterpartyContext) (forward : TransitionManifest)
    (context : TransitionContext) : Except ProtocolError (Option DirectionEffect) :=
  match counterparty, forward.incoming with
  | .member opposite, some incoming => do
    let direction ← okOr opposite .incompleteSnapshot
    let manifest ← receiveNativeRequest direction.snapshot incoming context
    .ok (manifest.map fun manifest => {
      relationship := direction.snapshot.state.relationship.key.reference
      manifest
      journalPosition := context.journalPosition
      lane := none
      schedules := []})
  | _, _ => .ok none

/-- The receiving scope of the accepted direction. An explicit new grant renews the
entrances selected before. -/
def forwardScopes (before : SettlementSnapshot) (forward : TransitionManifest)
    (now : CanonicalTime) (lane : Option (LaneId × Version)) (previous : Option SenderRouteScope) :
    Except ProtocolError (List SenderScopeRecord) :=
  match forward.accepted before, previous with
  | some request, _ => do
    let scope ← defaultScope forward.nextState.relationship (.one request.terms.receivingAlias) now
      lane previous
    .ok [scope]
  | none, some scope =>
    if lane.isSome = true ∨ (forward.nextState.relationship.state = .accepted ∧
        before.state.relationship.state ≠ .accepted) then do
      let scope ← defaultScope forward.nextState.relationship scope.record.receiving now lane
        (some scope)
      .ok [scope]
    else .ok []
  | none, none => .ok []

/-- The receiving scope that goes with a reply lane: the entrance the sender named. -/
def replyScopes (request : RelationshipRequest) (plan : ReplyLane) (now : CanonicalTime)
    (previous : Option SenderRouteScope) : Except ProtocolError (List SenderScopeRecord) :=
  match request.terms.returnRoute with
  | .native address => do
    let scope ← defaultScope plan.manifest.nextState.relationship (.one address) now
      (some (plan.lane.grant.id, plan.lane.grant.version)) previous
    .ok [scope]
  | .guestMailbox => .ok []

/-- The reply lane an acceptance grants in the other direction, with its receiving scope. -/
def coordinateReply [Crypto] (direction : DirectionSnapshot) (request : RelationshipRequest)
    (context : TransitionContext) (previous : Option SenderRouteScope) :
    Except ProtocolError (Option DirectionEffect × List SenderScopeRecord) := do
  match ← (ReplyLane.decide direction.snapshot request context
    (direction.replyOffers.get? request.id).join).mapError LaneAcceptanceError.toProtocol with
  | none => .ok (none, [])
  | some plan => do
    let scopes ← replyScopes request plan context.now previous
    .ok (some {
      relationship := direction.snapshot.state.relationship.key.reference
      manifest := plan.manifest
      journalPosition := context.journalPosition
      lane := some plan.lane
      schedules := [plan.lane.scheduleChange]}, scopes)

namespace RequestDecision
variable [Crypto]

/-- Coordinates the same reverse consequence for standing and express-lane acceptance. -/
def coordinateAcceptance (before : SettlementSnapshot) (counterparty : CounterpartyContext)
    (forward : TransitionManifest) (opposite : Option DirectionEffect) (context : TransitionContext)
    (forwardLane : Option (LaneId × Version)) (receiving : ReceivingScopes) :
    Except ProtocolError RequestDecision := do
  let scopes ← forwardScopes before forward context.now forwardLane receiving.forward
  match counterparty, forward.accepted before with
  | .member direction, some request => do
    let direction ← okOr direction .incompleteSnapshot
    refuseIf (opposite.isSome = true) .invalidState
    let (reply, more) ← coordinateReply direction request context receiving.opposite
    .ok ⟨scopes ++ more, none, forward, reply⟩
  | _, _ => .ok ⟨scopes, none, forward, opposite⟩

/-- Refuses crossed requests, contradictory sender permission and incomplete pairs. -/
def decide (s : SettlementSnapshot) (counterparty : CounterpartyContext)
    (command : KernelCommand ProtocolCommand) (context : TransitionContext)
    (document : Option Documents.Document) (receiving : ReceivingScopes) :
    Except ProtocolError RequestDecision := do
  checkCounterparty s.state.relationship.key counterparty command.command context.now
  let context := {context with requestDelivery := counterparty.requestDelivery}
  let forward ← transition s command context
  let delivery ← mailboxDelivery forward document context
    (counterparty.opposite.elim ⟨0⟩ fun d => d.snapshot.state.relationship.replyEpoch)
  let opposite ← receiveIncoming counterparty forward context
  let result ← coordinateAcceptance s counterparty forward opposite context none receiving
  .ok {result with delivery}

end RequestDecision
end

/-! ### The host -/

/-- What the host stores beside the relationships and reads with them. -/
structure HostRecords where
  lane : Option SenderScopedLane
  oppositeLane : Option SenderScopedLane
  replyOffers : SortedMap RequestId (Option ReplyEpoch)
  receiving : ReceivingScopes
  deriving DecidableEq

/-- What the host receives. Unlike the inputs of the store alone, a command or a grant
reaches a relationship only as a request decision over both of its directions. -/
inductive IngressInput [Documents]
  | register (relationship : RelationshipRef) (history : RequestHistoryRef)
      (sender recipient : ProtocolIdentity) (now : CanonicalTime) (unit : SettlementUnit)
  | protocol (relationship : RelationshipRef) (records : HostRecords)
      (command : KernelCommand ProtocolCommand) (context : TransitionContext)
      (document : Option Documents.Document)
  | grant (relationship : RelationshipRef) (records : HostRecords) (grant : SenderScopedGrant)
      (context : TransitionContext)
  | admitFree (relationship : RelationshipRef) (lane : Option SenderScopedLane)
      (request : BondFreeAdmission) (record : Option EncryptedContentRecord)
      (policy : AdmissionPolicy) (now : CanonicalTime)

def IngressInput.now [Documents] : IngressInput → CanonicalTime
  | register _ _ _ _ now _ => now
  | protocol _ _ _ context _ | grant _ _ _ context => context.now
  | admitFree _ _ _ _ _ now => now

namespace StoreState
variable (guest : ProtocolIdentity → Bool) (w : StoreState)

/-- The relationship of the other direction. -/
def opposite (key : RelationshipKey) : Option EngineState :=
  w.relationships.values.find? fun e => e.protocol.relationship.key.sender = key.recipient ∧
    e.protocol.relationship.key.recipient = key.sender

def loadCounterparty (key : RelationshipKey) (records : HostRecords) :
    Except EngineError CounterpartyContext :=
  if guest key.sender then .ok .guest
  else match w.opposite key with
    | none => .ok (.member none)
    | some e => do
      let history ← okOr (w.histories.get? e.protocol.relationship.history) .unknownRelationship
      .ok (.member (some ⟨records.replyOffers, e.snapshot history records.oppositeLane⟩))

/-- Commits the other direction's consequence against the revision it was computed from. -/
def persistOpposite (effect : DirectionEffect) : Except EngineError StoreState := do
  let (engine, _) ← w.read effect.relationship
  refuseIf (engine.protocol.relationship.key.reference ≠ effect.relationship) .versionConflict
  w.commit effect.relationship engine effect.manifest effect.schedules

/-- Commits a decision over both directions, or nothing. -/
def persistDecision [Documents] (relationship : RelationshipRef) (engine : EngineState)
    (d : RequestDecision) (extra : List ScheduleChange) : Except EngineError StoreState := do
  let w ← w.commit relationship engine d.forward extra
  match d.opposite with
  | none => .ok w
  | some effect => w.persistOpposite effect

variable [Documents] [Crypto]

def applyProtocol (relationship : RelationshipRef) (records : HostRecords)
    (command : KernelCommand ProtocolCommand) (context : TransitionContext)
    (document : Option Documents.Document) : Except EngineError StoreState := do
  let (engine, history) ← w.read relationship
  let counterparty ← w.loadCounterparty guest engine.protocol.relationship.key records
  let d ← (RequestDecision.decide (engine.snapshot history records.lane) counterparty command context
    document records.receiving).mapError .protocol
  w.persistDecision relationship engine d []

def applyGrant (relationship : RelationshipRef) (records : HostRecords) (grant : SenderScopedGrant)
    (context : TransitionContext) : Except EngineError StoreState := do
  let (engine, history) ← w.read relationship
  match ← LaneAcceptance.decide (engine.snapshot history records.lane) grant context with
  | none => .ok w
  | some acceptance => do
    let counterparty ← w.loadCounterparty guest engine.protocol.relationship.key records
    let d ← (RequestDecision.coordinateAcceptance (engine.snapshot history records.lane) counterparty
      acceptance.settlement none context
      (some (acceptance.lane.grant.id, acceptance.lane.grant.version))
      records.receiving).mapError .protocol
    w.persistDecision relationship engine d acceptance.schedules

def ingress : IngressInput → Except EngineError StoreState
  | .register relationship history sender recipient now unit =>
    w.register (.initialScoped relationship history sender recipient now) unit
  | .protocol relationship records command context document =>
    w.applyProtocol guest relationship records command context document
  | .grant relationship records grant context =>
    w.applyGrant guest relationship records grant context
  | .admitFree relationship lane request record policy now =>
    w.admitFree relationship lane request record policy now

/-- A run of the host over what it receives. -/
def ingressRun (inputs : List IngressInput) : StoreState :=
  Machine.run (fun w i => w.ingress guest i) empty inputs

end StoreState
end CsMail
