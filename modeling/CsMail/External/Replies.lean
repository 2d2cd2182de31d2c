import CsMail.Accounts.Alias
import CsMail.Application.Requests
import CsMail.Billing.Account
import CsMail.External.Message

/-! Replies to external conversations, and the permission they are admitted by.

A reply comes to the conversation's own inbox, where standing or pending access may admit it,
or to an address, whose receiving decision is taken first. Where neither admits it, it needs
a lane of the relationship, and uses it up by one message. -/
namespace CsMail
open Library

/-! ### Evidence about a sender -/

/-- The evidence was evaluated before this time, and not long before. -/
def VerifiedDomain.recent (v : VerifiedDomain) (now : CanonicalTime) : Bool :=
  v.evaluatedAt ≤ now ∧ now.millis - v.evaluatedAt.millis ≤ 300_000

inductive SenderAuthentication
  | authenticated (sender : ProtocolIdentity)
  | uncertain
  deriving DecidableEq

/-! ### The receiving decision -/

/-- Current route permission, not evidence that a message was delivered. -/
structure ReceivingAuthorization where
  receivingAlias : AliasId
  aliasRevision : U64
  sender : ProtocolIdentity
  recipient : ProtocolIdentity
  conversation : ConversationId
  authorizedAt : CanonicalTime
  basis : RouteBasis
  paired : Option (SenderScopedLane × LaneEvidence)
  deriving DecidableEq

inductive RouteDecision
  | authorize (authorization : ReceivingAuthorization)
  | hold
  | request
  deriving DecidableEq

/-- The protected facts of a receiving decision. -/
structure RouteContext where
  entrance : Alias
  authentication : SenderAuthentication
  relationship : Option Relationship
  senderScope : Option SenderRouteScope
  lane : Option SenderScopedLane
  declarations : MessageDeclarations
  laneEvidence : Option LaneEvidence
  domainEvidence : Option VerifiedDomain
  covered : Bool
  reviewRequired : Bool
  conversation : ConversationId

namespace RouteContext

/-- The evidence a lane of the entrance is tried with. -/
def evidenceFor (c : RouteContext) (sender : ProtocolIdentity) (time : CanonicalTime)
    (lane : SenderScopedLane) : Option LaneEvidence :=
  match lane.grant.subject with
  | .legacyDomain domain => do
    let verified ← c.domainEvidence
    if verified.recent time then (LegacyDmarcEvidence.new domain verified).toOption.map .legacy else none
  | .native _ | .guestMailbox _ => if lane.grant.sender = sender then c.laneEvidence else none

/-- The first of the entrance's lanes that authorizes the sender. -/
def pairedSender (c : RouteContext) (sender : ProtocolIdentity) (time : CanonicalTime) :
    Option (SenderScopedLane × LaneEvidence) :=
  match c.entrance.permission.state with
  | .senders lanes => lanes.findSome? fun lane => do
    let evidence ← c.evidenceFor sender time lane
    if lane.authorizes lane.grant.sender c.entrance.owner (some lane.grant.id) c.declarations evidence
        time = .ok () then some (lane, evidence)
    else none
  | .none | .broad _ | .restricted .. => none

/-- The scope of the sender's permission, if it extends to this entrance. -/
def scopeHere (c : RouteContext) (sender : ProtocolIdentity) : Option SenderRouteScope :=
  c.senderScope.filter fun scope => scope.record.sender = sender ∧
    scope.record.recipient = c.entrance.owner ∧
    scope.record.receiving.aliases.contains c.entrance.id = true

def relationshipBasis (c : RouteContext) (sender : ProtocolIdentity) (time : CanonicalTime) :
    Except AliasError (Option RouteBasis) :=
  match c.relationship, c.scopeHere sender with
  | some r, some scope =>
    if r.version ≠ scope.record.relationshipVersion then .ok none
    else match r.state with
      | .accepted => .ok (if scope.record.lane = none then some (.standing r.version) else none)
      | .expressLane id => do
        let lane ← okOr (c.lane.filter fun lane =>
          scope.record.lane = some (id, lane.grant.version) ∧ lane.grant.id = id) .permission
        let evidence ← okOr c.laneEvidence .permission
        (lane.authorizes sender c.entrance.owner (some id) c.declarations evidence time).mapError
          fun _ => .permission
        .ok (some (.senderLane id lane.version))
      | .blocked => .error .blocked
      | .unknown | .rejected | .revoked => .ok none
  | _, _ => .ok none

/-- What authorizes a sender at this entrance. -/
def basis (c : RouteContext) (sender : ProtocolIdentity) (time : CanonicalTime) :
    Except AliasError (Option (RouteBasis × Option (SenderScopedLane × LaneEvidence))) :=
  let permission := c.entrance.permission
  if permission.authorizesAlias sender c.conversation time then
    .ok (some (.aliasLane permission.revision, none))
  else match c.pairedSender sender time with
    | some (lane, evidence) =>
      .ok (some (.pairedSender lane.grant.id lane.version permission.revision, some (lane, evidence)))
    | none => do
      let basis ← c.relationshipBasis sender time
      .ok (basis.map (·, none))

/-- `admission`: no payment fallback exists for an alias-scoped receiving policy. -/
def admission (c : RouteContext) (time : CanonicalTime) : Except AliasError RouteDecision := do
  c.declarations.validate.mapError fun _ => .invalid
  refuseIf (c.covered = false) .coverage
  refuseIf (c.relationship.any (fun r => r.key.recipient ≠ c.entrance.owner) = true) .invalid
  refuseIf (c.relationship.any (fun r => r.state = .blocked) = true) .blocked
  match c.authentication with
  | .uncertain =>
    if c.entrance.lifecycle = .active ∧ c.entrance.policy = .aliasScoped then .ok .hold
    else .error .authentication
  | .authenticated sender => do
    refuseIf (sender.val = 0 ∨ sender = c.entrance.owner ∨
      c.relationship.any (fun r => r.key.sender ≠ sender) = true) .invalid
    c.entrance.checkConversation sender c.conversation time
    if c.reviewRequired then
      if c.entrance.policy = .aliasScoped then .ok .hold else .error .authentication
    else do
      match ← c.basis sender time with
      | some (basis, paired) =>
        .ok (.authorize {
          receivingAlias := c.entrance.id
          aliasRevision := c.entrance.revision
          sender
          recipient := c.entrance.owner
          conversation := c.conversation
          authorizedAt := time
          basis
          paired})
      | none => if c.entrance.policy = .aliasScoped then .error .permission else .ok .request

end RouteContext

/-- Uses up one message of the paired lane. -/
def ReceivingAuthorization.consumePaired (a : ReceivingAuthorization) (message : MessageId)
    (declarations : MessageDeclarations) : Except AliasError (Option SenderScopedLane) :=
  match a.paired with
  | none => .ok none
  | some (lane, evidence) => do
    let (next, known) ← (lane.consume message (some lane.grant.id) declarations evidence
      a.authorizedAt).mapError fun _ => .permission
    refuseIf (known = true) .conflict
    .ok (some next)

/-- Made only of a whole valid message; its store commits it with the message and the lane. -/
def ReceivingAuthorization.delivered (a : ReceivingAuthorization) (message : MessageId)
    (transport : DeliveryTransport) : Except CorrespondenceError DeliveredRoute :=
  DeliveredRouteRecord.route {
    transport, message
    receivingAlias := a.receivingAlias
    aliasRevision := a.aliasRevision
    sender := a.sender
    recipient := a.recipient
    conversation := a.conversation
    time := a.authorizedAt
    provenance := .aliasPermission a.basis}

/-- An authenticated conversation reply, after its separate permission decision. -/
def DeliveredRoute.externalReply (entrance : Alias) (sender : ProtocolIdentity)
    (conversation : ConversationId) (message : MessageId) (time : CanonicalTime) :
    Except CorrespondenceError DeliveredRoute :=
  DeliveredRouteRecord.route {
    transport := .external
    message
    receivingAlias := entrance.id
    aliasRevision := entrance.revision
    sender
    recipient := entrance.owner
    conversation, time
    provenance := .conversationReply}

/-! ### Replies -/

structure IncomingMessage where
  manifest : MessageManifest
  senderKey : EndpointPublicKey
  memberCopy : SealedRecord
  deriving DecidableEq

/-- Of its recorded evidence only the authentication is read. -/
structure Reply where
  mailbox : GuestMailbox
  conversation : ConversationId
  message : IncomingMessage
  deliveryDigest : Bytes32
  authentication : VerifiedDomain
  deriving DecidableEq

/-- A received external message has no representation without its inbox assignment. -/
structure AdmittedReply where
  message : IncomingMessage
  receiving : DeliveredRoute
  lane : Option SenderScopedLane
  deriving DecidableEq

inductive ReplyDestination
  | address (authorization : ReceivingAuthorization)
  | conversation (entrance : Alias)

structure ReplyContext [Crypto] where
  destination : ReplyDestination
  conversation : ExternalConversation
  relationship : Relationship
  lane : Option SenderScopedLane
  memberKey : EndpointPublicKey
  billing : BillingAccount
  provider : ProviderRef

section
variable [Crypto]

/-- `pending_or_standing`: blocks take precedence, and pending access is limited to this
exact conversation. -/
def pendingOrStanding (c : ExternalConversation) (r : Relationship) (reply : Reply) (covered : Bool) :
    Except CorrespondenceError Bool := do
  refuseIf (covered = false ∨ c.record.mailbox ≠ reply.mailbox ∨ c.id ≠ reply.conversation ∨
    r.key.sender ≠ c.guest ∨ r.key.recipient ≠ c.member ∨ r.state = .blocked ∨
    reply.message.manifest.conversation ≠ c.id ∨ reply.message.manifest.sources ≠ []) .unauthorized
  .ok (r.state = .accepted ∨ c.pendingAccess r = true)

namespace ReplyContext

/-- Who wrote the reply, as far as the transport can tell. -/
def checkAuthentication (x : ReplyContext) (reply : Reply) (now : CanonicalTime) :
    Except CorrespondenceError Unit := do
  refuseIf (reply.authentication.authorDomain ≠ reply.mailbox.domain ∨
    (reply.authentication.dkim = none ∧ reply.authentication.spf = none) ∨
    reply.authentication.recent now = false) .unauthorized
  refuseIf (reply.message.memberCopy.binding.declarations.origin.authority ≠ .guestSmtp x.provider)
    .unauthorized

/-- The member's copy is bound to the message, to both parties and to their relationship. -/
def checkMessage (x : ReplyContext) (reply : Reply) (now : CanonicalTime) :
    Except CorrespondenceError Unit := do
  let m := reply.message
  let copy := m.memberCopy
  validateCopy m.manifest m.senderKey copy
  refuseIf (m.manifest.message.val = 0 ∨ copy.binding.message ≠ m.manifest.message ∨
    copy.binding.sender ≠ x.conversation.guest ∨ copy.binding.recipient ≠ x.conversation.member ∨
    copy.binding.relationship ≠ x.relationship.key.reference ∨
    copy.envelope.recipientKey ≠ x.memberKey.reference ∨
    copy.envelope.senderKey ≠ m.senderKey.reference ∨
    m.senderKey.bytes = zero32 ∨
    now < copy.createdAt ∨
    copy.expiresAt ≤ now ∨
    copy.binding.messageValidUntil.time ≤ now ∨
    copy.envelope.ciphertext = [] ∨
    maxEncodedDocumentBytes + 16 < copy.envelope.ciphertext.length ∨
    reply.deliveryDigest = zero32) .invalid

/-- Uses up one message of the relationship's lane. -/
def consumeLane (x : ReplyContext) (reply : Reply) (now : CanonicalTime) :
    Except CorrespondenceError (Option SenderScopedLane) := do
  let lane ← okOr x.lane .unauthorized
  let binding := reply.message.memberCopy.binding
  let evidence := LaneEvidence.guestMailbox x.conversation.guest
  (lane.authorizes x.conversation.guest x.conversation.member binding.capability binding.declarations
    evidence now).mapError fun _ => .unauthorized
  let (next, known) ← (lane.consume reply.message.manifest.message binding.capability
    binding.declarations evidence now).mapError fun _ => .unauthorized
  refuseIf (known = true) .conflict
  .ok (some next)

/-- What a reply to an address is authorized by: its own lanes and standing access are settled
by the receiving decision. -/
def authorizeAddress (x : ReplyContext) (authorization : ReceivingAuthorization) (reply : Reply)
    (now : CanonicalTime) : Except CorrespondenceError (Option SenderScopedLane) := do
  refuseIf (authorization.sender ≠ x.conversation.guest ∨ authorization.recipient ≠ x.conversation.member ∨
    authorization.conversation ≠ x.conversation.id ∨ authorization.authorizedAt ≠ now) .unauthorized
  match authorization.basis with
  | .aliasLane _ | .standing _ => .ok none
  | .pairedSender .. =>
    (authorization.consumePaired reply.message.manifest.message
      reply.message.memberCopy.binding.declarations).mapError fun _ => .unauthorized
  | .senderLane .. => x.consumeLane reply now

/-- `authorize_reply`: the lane a reply has used up, if it needed one. -/
def authorizeReply (x : ReplyContext) (reply : Reply) (now : CanonicalTime) :
    Except CorrespondenceError (Option SenderScopedLane) := do
  let ordinary ← pendingOrStanding x.conversation x.relationship reply (x.billing.covers now)
  x.checkAuthentication reply now
  x.checkMessage reply now
  match x.destination with
  | .address authorization => x.authorizeAddress authorization reply now
  | .conversation _ => if ordinary then .ok none else x.consumeLane reply now

/-- The inbox assignment of a reply to an address, or to the conversation's own inbox. -/
def receiving (x : ReplyContext) (message : MessageId) (now : CanonicalTime) :
    Except CorrespondenceError DeliveredRoute :=
  match x.destination with
  | .address authorization => authorization.delivered message .external
  | .conversation entrance => do
    refuseIf (entrance.id ≠ x.conversation.record.receivingAlias ∨
      entrance.owner ≠ x.conversation.member) .unauthorized
    (entrance.checkConversation x.conversation.guest x.conversation.id now).mapError
      fun _ => .unauthorized
    DeliveredRoute.externalReply entrance x.conversation.guest x.conversation.id message now

/-- `admit_reply`: a reply is received only with its inbox assignment. -/
def admitReply (x : ReplyContext) (reply : Reply) (now : CanonicalTime) :
    Except CorrespondenceError AdmittedReply := do
  let lane ← x.authorizeReply reply now
  let receiving ← x.receiving reply.message.manifest.message now
  .ok ⟨reply.message, receiving, lane⟩

end ReplyContext
end
end CsMail
