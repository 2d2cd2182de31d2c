import CsMail.Accounts.AliasProofs
import CsMail.Application.AccountRuns
import CsMail.Capabilities.LaneProofs
import CsMail.Correspondence.DeliveryStore
import CsMail.External.Routing
import CsMail.Library.Machine

/-! What the admission of a message costs.

A message is admitted by one authority. Two of them are lanes, of the relationship and of the
entrance; the message then uses up one of its allowance, having not been counted before. Every
other authority leaves all lanes as they are, and so does whatever is refused or replayed. -/
namespace CsMail
open Library

/-! ### Authority -/

/-- What a message is admitted by. -/
inductive Authority
  | standing
  /-- Access confined to the conversation: an answer, or a pending invitation. -/
  | conversation
  | aliasLane
  | senderLane (id : LaneId)
  | pairedSender (id : LaneId)
  deriving DecidableEq

def Authority.paired : Authority → Option LaneId
  | pairedSender id => some id
  | standing | conversation | aliasLane | senderLane _ => none

def RouteBasis.authority : RouteBasis → Authority
  | aliasLane _ => .aliasLane
  | pairedSender id _ _ => .pairedSender id
  | standing _ => .standing
  | senderLane id _ => .senderLane id

def ReceivingProvenance.paired : ReceivingProvenance → Option LaneId
  | aliasPermission (.pairedSender id _ _) => some id
  | _ => none

theorem ReceivingProvenance.paired_eq_some {p : ReceivingProvenance} {id : LaneId} (h : p.paired = some id) :
    ∃ version revision, p = .aliasPermission (.pairedSender id version revision) := by
  unfold paired at h
  split at h
  · cases h
    exact ⟨_, _, rfl⟩
  · cases h

@[simp] theorem RouteBasis.paired_authority (b : RouteBasis) :
    (ReceivingProvenance.aliasPermission b).paired = b.authority.paired := by
  cases b <;> rfl

/-- What a message was admitted by within its conversation. -/
def AdmissionBasis.authority : AdmissionBasis → Option Authority
  | aliasLane _ _ => some .aliasLane
  | conversationReply _ => some .conversation
  | acceptedRelationship _ => some .standing
  | expressLane id _ => some (.senderLane id)
  | requestAnswer _ _ | initialRequest _ | requestFollowup _ _ => none

/-- What the record of a native message says it was admitted by. -/
def MessageRecord.authority (r : MessageRecord) : Option Authority :=
  match r.fields.receiving.provenance with
  | .aliasPermission basis => some basis.authority
  | .native admission => admission.authority
  | .request _ | .conversationReply | .developmentAssignment _ => none

/-- What a reply is admitted by: its entrance decides, or else access of its own, or its lane. -/
def ReplyContext.authority [Crypto] (x : ReplyContext) : Option Authority :=
  match x.destination with
  | .address authorization => some authorization.basis.authority
  | .conversation _ =>
    if x.relationship.state = .accepted then some .standing
    else if x.conversation.pendingAccess x.relationship = true then some .conversation
    else x.lane.map fun lane => .senderLane lane.grant.id

/-! ### Cost -/

/-- The lane an authority uses up, out of the relationship's and those of the entrance. -/
inductive Uses (lane : Option SenderScopedLane) (entrance : Option Alias) (message : MessageId)
    (now : CanonicalTime) : Authority → Option SenderScopedLane → Prop
  | standing : Uses lane entrance message now .standing none
  | conversation : Uses lane entrance message now .conversation none
  | aliasLane : Uses lane entrance message now .aliasLane none
  | senderLane {l next : SenderScopedLane} (hlane : lane = some l) (hadmits : l.Admits message now next) :
      Uses lane entrance message now (.senderLane l.grant.id) (some next)
  | pairedSender {a : Alias} {lanes : List SenderScopedLane} {l next : SenderScopedLane}
      (ha : entrance = some a) (hstate : a.permission.state = .senders lanes) (hlane : l ∈ lanes)
      (hadmits : l.Admits message now next) :
      Uses lane entrance message now (.pairedSender l.grant.id) (some next)

/-- The entrance with one of its lanes replaced. -/
structure Alias.Replaces (a : Alias) (lanes : List SenderScopedLane) (next : SenderScopedLane)
    (a' : Alias) : Prop where
  entrance : a'.record = {a.record with permission := a'.permission}
  permission : a'.permission.record =
    {a.permission.record with state := .senders (ReceivingPermission.replaceLane next lanes)}

/-- What an admission leaves in the stores: one lane with the message counted, or all as it was. -/
inductive DeliveryStore.Charges (s : DeliveryStore) (pair : Option RelationshipRef) (entrance : AliasId)
    (message : MessageId) (now : CanonicalTime) : Authority → DeliveryStore → Prop
  | standing : Charges s pair entrance message now .standing s
  | conversation : Charges s pair entrance message now .conversation s
  | aliasLane : Charges s pair entrance message now .aliasLane s
  | senderLane {ref : RelationshipRef} {l next : SenderScopedLane} (hpair : pair = some ref)
      (hlane : s.lanes.get? ref = some l) (hadmits : l.Admits message now next) :
      Charges s pair entrance message now (.senderLane l.grant.id) (s.setLane ref next)
  | pairedSender {a a' : Alias} {lanes : List SenderScopedLane} {l next : SenderScopedLane}
      (ha : s.entrances.get? entrance = some a) (hstate : a.permission.state = .senders lanes)
      (hlane : l ∈ lanes) (hadmits : l.Admits message now next) (hreplaces : a.Replaces lanes next a') :
      Charges s pair entrance message now (.pairedSender l.grant.id) (s.setEntrance a')

namespace DeliveryStore
variable {s s' : DeliveryStore} {pair : Option RelationshipRef} {route : DeliveredRoute}
  {message : MessageId} {now : CanonicalTime} {authority : Authority} {lane : Option SenderScopedLane}

theorem persistPaired_eq_ok {id : LaneId} {version : Version} {revision : PermissionRevision}
    {next : SenderScopedLane} (h : s.persistPaired route id version revision next = .ok s') :
    ∃ a a' lanes, s.entrances.get? route.receivingAlias = some a ∧ a.permission.state = .senders lanes ∧
      a.Replaces lanes next a' ∧ s' = s.setEntrance a' := by
  simp only [persistPaired, bind_eq_ok, okOr_eq_ok, mapError_eq_ok, Except.ok.injEq] at h
  obtain ⟨_, -, a, ha, _, -, permission, hpermission, a', ha', rfl⟩ := h
  obtain ⟨lanes, _, hstate, -, -, -, hrecord⟩ := ReceivingPermission.consume_eq_ok.mp hpermission
  have ha' := (Alias.withPermission_eq_ok.mp ha').2
  have hsame : a'.permission = permission := congrArg AliasRecord.permission ha'
  exact ⟨a, a', lanes, ha, hstate, ⟨hsame ▸ ha', hsame ▸ hrecord⟩, rfl⟩

/-- A lane is written back where it was used up. -/
theorem persistLane_charges (h : s.persistLane pair route lane = .ok s')
    (huses : Uses (pair.bind s.lanes.get?) (s.entrances.get? route.receivingAlias) message now authority lane)
    (hpaired : route.provenance.paired = authority.paired) :
    s.Charges pair route.receivingAlias message now authority s' := by
  cases huses with
  | standing =>
    cases h
    exact .standing
  | conversation =>
    cases h
    exact .conversation
  | aliasLane =>
    cases h
    exact .aliasLane
  | senderLane hlane hadmits =>
    obtain ⟨ref, hpair, hlane⟩ := Option.bind_eq_some_iff.mp hlane
    unfold persistLane at h
    split at h
    next heq => cases heq
    next hprovenance =>
      rw [hprovenance] at hpaired
      cases hpaired
    next heq _ =>
      cases heq
      obtain ⟨pair', hpair', h⟩ := bind_eq_ok.mp h
      cases hpair.symm.trans (okOr_eq_ok.mp hpair')
      cases h
      exact .senderLane hpair hlane hadmits
  | pairedSender ha hstate hlane hadmits =>
    unfold persistLane at h
    split at h
    next heq => cases heq
    next heq _ =>
      cases heq
      obtain ⟨a, a', lanes, ha', hstate', hreplaces, rfl⟩ := persistPaired_eq_ok h
      cases ha.symm.trans ha'
      cases hstate.symm.trans hstate'
      exact .pairedSender ha hstate hlane hadmits hreplaces
    next _ hother =>
      obtain ⟨version, revision, hprovenance⟩ := ReceivingProvenance.paired_eq_some hpaired
      exact absurd hprovenance (hother _ version revision)

end DeliveryStore

/-! ### Native messages -/

theorem SenderScopedLane.consumeOnce_eq_ok {l next : SenderScopedLane} {message : MessageId}
    {capability : Option LaneId} {declarations : MessageDeclarations} {evidence : LaneEvidence}
    {now : CanonicalTime} (h : l.consumeOnce message capability declarations evidence now = .ok next) :
    l.Admits message now next := by
  obtain ⟨⟨l', known⟩, hconsume, h⟩ := bind_eq_ok.mp h
  obtain ⟨_, hknown, h⟩ := bind_eq_ok.mp h
  cases h
  exact consume_new (mapError_eq_ok.mp hconsume) (refuseIf_eq_ok.mp hknown)

theorem ReceivingAuthorization.consumePaired_eq_ok {a : ReceivingAuthorization} {message : MessageId}
    {declarations : MessageDeclarations} {l : SenderScopedLane} {evidence : LaneEvidence}
    {lane : Option SenderScopedLane} (h : a.consumePaired message declarations = .ok lane)
    (hpaired : a.paired = some (l, evidence)) : ∃ next, lane = some next ∧ l.Admits message a.authorizedAt next := by
  rw [consumePaired, hpaired] at h
  obtain ⟨⟨next, known⟩, hconsume, h⟩ := bind_eq_ok.mp h
  obtain ⟨_, hknown, h⟩ := bind_eq_ok.mp h
  cases h
  exact ⟨next, rfl, SenderScopedLane.consume_new (mapError_eq_ok.mp hconsume) (refuseIf_eq_ok.mp hknown)⟩

theorem DeliveredRouteRecord.route_eq_ok {r : DeliveredRouteRecord} {route : DeliveredRoute}
    (h : r.route = .ok route) : route.receivingAlias = r.receivingAlias ∧ route.provenance = r.provenance := by
  unfold DeliveredRouteRecord.route at h
  split_ifs at h
  cases h
  exact ⟨rfl, rfl⟩

theorem Conversation.bindSubject_scope {c c' : Conversation} {subject : Option SubjectCommitment}
    (h : c.bindSubject subject = .ok c') : c'.scope = c.scope := by
  obtain ⟨_, -, h⟩ := bind_eq_ok.mp h
  obtain ⟨_, -, h⟩ := bind_eq_ok.mp h
  cases h
  rfl

theorem NativePackage.recipient_of_validatePrepared {p : NativePackage} {actor other : ProtocolIdentity}
    {key : OperationalKeyRef} {relationship : RelationshipRef} {custodyKey : Option EndpointPublicKey}
    {now : CanonicalTime} (h : p.validatePrepared actor key other relationship custodyKey now = .ok ()) :
    p.recipientCopy.binding.sender = actor ∧ p.recipientCopy.binding.recipient = other := by
  simp only [validatePrepared, checkCopy, bind_eq_ok, refuseIf_eq_ok, not_or, not_not] at h
  obtain ⟨_, -, _, -, _, -, _, -, _, -, _, -, _, -, hsender, hrecipient, -⟩ := h
  exact ⟨hsender, hrecipient⟩

namespace NativeContext
variable {context : NativeContext} {address : AliasId} {package : NativePackage} {actor destination : ProtocolIdentity}
  {key : OperationalKeyRef} {now : CanonicalTime} {basis : AdmissionBasis} {lane : Option SenderScopedLane}

theorem admitMessage_eq_ok {r : Relationship}
    (h : context.admitMessage r actor destination package now = .ok (basis, lane)) (entrance : Option Alias) :
    ∃ authority, basis.authority = some authority ∧ authority.paired = none ∧
      Uses context.lane entrance package.manifest.message now authority lane := by
  unfold admitMessage at h
  dsimp only at h
  by_cases haccepted : r.state = .accepted
  · rw [if_pos haccepted] at h
    cases h
    exact ⟨_, rfl, rfl, .standing⟩
  rw [if_neg haccepted] at h
  split at h
  next answer hanswer =>
    cases h
    obtain ⟨source, rfl⟩ : ∃ source, basis = .conversationReply source := by
      split_ifs at hanswer
      unfold answerBasis at hanswer
      split_ifs at hanswer
      obtain ⟨c, -, hanswer⟩ := Option.bind_eq_some_iff.mp hanswer
      obtain ⟨source, -, hanswer⟩ := Option.bind_eq_some_iff.mp hanswer
      cases hanswer
      exact ⟨source, rfl⟩
    exact ⟨_, rfl, rfl, .conversation⟩
  next =>
    obtain ⟨l, hlane, h⟩ := bind_eq_ok.mp h
    obtain ⟨_, -, h⟩ := bind_eq_ok.mp h
    obtain ⟨_, -, h⟩ := bind_eq_ok.mp h
    obtain ⟨next, hnext, h⟩ := bind_eq_ok.mp h
    have hadmits := SenderScopedLane.consumeOnce_eq_ok hnext
    cases h
    exact ⟨_, rfl, rfl, .senderLane (okOr_eq_ok.mp hlane) hadmits⟩

/-- A message to an entrance uses the lane its authorization rests on. -/
theorem admitDirect_eq_ok {route : RoutedContext} {authorization : ReceivingAuthorization}
    (h : context.admitDirect authorization address package now = .ok (basis, lane))
    (hauthorizes : (context.routeContext route actor package now).Authorizes now authorization) :
    Uses context.lane (some route.entrance) package.manifest.message now authorization.basis.authority lane := by
  have hgrants := hauthorizes.grants
  unfold admitDirect at h
  dsimp only at h
  generalize hbasis : authorization.basis = basis at hgrants h
  generalize hpaired : authorization.paired = paired at hgrants
  cases hgrants with
  | aliasLane =>
    cases h
    exact .aliasLane
  | pairedSender hstate hlane =>
    obtain ⟨used, hused, h⟩ := bind_eq_ok.mp h
    cases h
    obtain ⟨next, rfl, hadmits⟩ :=
      ReceivingAuthorization.consumePaired_eq_ok (mapError_eq_ok.mp hused) hpaired
    exact .pairedSender rfl hstate hlane (hauthorizes.time ▸ hadmits)
  | standing hr haccepted =>
    cases h
    exact .standing
  | senderLane hr hstate hlane =>
    obtain ⟨l, hl, h⟩ := bind_eq_ok.mp h
    cases hlane.symm.trans (okOr_eq_ok.mp hl)
    obtain ⟨_, -, h⟩ := bind_eq_ok.mp h
    obtain ⟨next, hnext, h⟩ := bind_eq_ok.mp h
    cases h
    exact .senderLane hlane (SenderScopedLane.consumeOnce_eq_ok hnext)

/-- What a delivery repeats. -/
structure Delivers (t : DeliveryTransition) (package : NativePackage) (actor : ProtocolIdentity)
    (receiving : DeliveredRoute) (admission : AdmissionBasis) (lane : Option SenderScopedLane) : Prop where
  receiving : t.delivery.record.fields.receiving = receiving
  admission : t.delivery.record.fields.admission = admission
  manifest : t.delivery.record.manifest = package.manifest
  author : t.delivery.record.fields.author = actor
  package : t.delivery.package = package
  lane : t.lane = lane

theorem deliver_eq_ok {receiving : DeliveredRoute} {conversation : Conversation} {t : DeliveryTransition}
    (h : deliver package actor receiving basis conversation lane now = .ok t) :
    Delivers t package actor receiving basis lane := by
  obtain ⟨record, hrecord, h⟩ := bind_eq_ok.mp h
  obtain ⟨delivery, hdelivery, h⟩ := bind_eq_ok.mp h
  unfold MessageRecord.new at hrecord
  split_ifs at hrecord
  cases hrecord
  unfold AdmittedDelivery.new at hdelivery
  split_ifs at hdelivery
  cases hdelivery
  unfold DeliveryTransition.new at h
  split_ifs at h
  split at h
  · cases h
  · split_ifs at h
    cases h
    exact ⟨rfl, rfl, rfl, rfl, rfl, rfl⟩

/-- A message is for the entrance's owner, in a conversation of the two, and neither blocked nor
under another relationship. -/
structure Addressed (context : NativeContext) (address : AliasId) (package : NativePackage)
    (actor : ProtocolIdentity) : Prop where
  entrance : ∃ route, context.routeTo address = some route ∧
    route.entrance.owner = package.recipientCopy.binding.recipient
  author : package.recipientCopy.binding.sender = actor
  conversation : ∀ c, context.sources.conversations.get? package.manifest.conversation = some c →
    c.scope.other actor = .ok package.recipientCopy.binding.recipient
  contact : ∀ r, context.contact = some r → r.key.sender = actor ∧
    r.key.recipient = package.recipientCopy.binding.recipient ∧ r.state ≠ .blocked

/-- A delivery by the entrance it was sent to, with the lane it uses up. -/
structure AdmittedBy (context : NativeContext) (address : AliasId) (package : NativePackage)
    (actor : ProtocolIdentity) (now : CanonicalTime) (t : DeliveryTransition) (authority : Authority) :
    Prop where
  addressed : context.Addressed address package actor
  recorded : t.delivery.record.authority = some authority
  paired : t.delivery.record.fields.receiving.provenance.paired = authority.paired
  receivingAlias : t.delivery.record.fields.receiving.receivingAlias = address
  content : t.delivery.package = package
  uses : Uses context.lane ((context.routeTo address).map RoutedContext.entrance)
    package.manifest.message now authority t.lane

theorem routeTo_eq_some {route : RoutedContext} (h : context.routeTo address = some route) :
    context.routed = some route ∧ route.entrance.id = address := by
  obtain ⟨hrouted, hid⟩ := Option.filter_eq_some_iff.mp h
  exact ⟨hrouted, of_decide_eq_true hid⟩

theorem directAuthority_eq_some {authorization : ReceivingAuthorization}
    (h : context.directAuthority address actor package now = some authorization) :
    ∃ route, context.routeTo address = some route ∧
      (context.routeContext route actor package now).Authorizes now authorization := by
  obtain ⟨route, hroute, h⟩ := Option.bind_eq_some_iff.mp h
  refine ⟨route, hroute, RouteContext.admission_eq_ok ?_⟩
  cases hadmission : (context.routeContext route actor package now).admission now with
  | error e =>
    rw [hadmission] at h
    cases h
  | ok decision =>
    rw [hadmission] at h
    cases decision with
    | hold | request => cases h
    | authorize a =>
      dsimp only at h
      split at h
      · split_ifs at h
        cases h
        rfl
      all_goals
        cases h
        rfl

theorem sendDirect_eq_ok {authorization : ReceivingAuthorization} {t : DeliveryTransition}
    {policyRevisions : SortedMap ConversationId U64}
    (hdirect : context.directAuthority address actor package now = some authorization)
    (h : context.sendDirect authorization address package actor key now = .ok (t, policyRevisions)) :
    context.AdmittedBy address package actor now t authorization.basis.authority := by
  obtain ⟨route, hroute, hauthorizes⟩ := directAuthority_eq_some hdirect
  obtain ⟨route', hroute', h⟩ := bind_eq_ok.mp h
  cases hroute.symm.trans (okOr_eq_ok.mp hroute')
  obtain ⟨scope, hscope, h⟩ := bind_eq_ok.mp h
  obtain ⟨current, hcurrent, h⟩ := bind_eq_ok.mp h
  obtain ⟨other, hother, h⟩ := bind_eq_ok.mp h
  obtain ⟨_, hpair, h⟩ := bind_eq_ok.mp h
  obtain ⟨⟨⟩, hprepared, h⟩ := bind_eq_ok.mp h
  obtain ⟨_, -, h⟩ := bind_eq_ok.mp h
  obtain ⟨⟨admission, lane⟩, hadmitted, h⟩ := bind_eq_ok.mp h
  obtain ⟨conversation, -, h⟩ := bind_eq_ok.mp h
  obtain ⟨receiving, hreceiving, h⟩ := bind_eq_ok.mp h
  obtain ⟨t', ht, h⟩ := bind_eq_ok.mp h
  cases h
  obtain ⟨hsender, hrecipient⟩ := NativePackage.recipient_of_validatePrepared hprepared
  have hother' := not_ne_iff.mp (not_or.mp (refuseIf_eq_ok.mp hpair)).1
  have hdelivers := deliver_eq_ok ht
  obtain ⟨halias, hprovenance⟩ := DeliveredRouteRecord.route_eq_ok hreceiving
  have hid := (routeTo_eq_some hroute).2
  refine ⟨⟨⟨route, hroute, hrecipient.symm⟩, hsender, fun c hc => ?_, fun r hr => ?_⟩, ?_, ?_, ?_,
    hdelivers.package, ?_⟩
  · rw [hc, Option.getD_some] at hcurrent
    rw [← Conversation.bindSubject_scope hcurrent, hrecipient, ← hother']
    exact hother
  · have hauthentication := hauthorizes.sender
    cases hauthentication
    obtain ⟨hkey, howner, hblocked⟩ := hauthorizes.related r hr
    exact ⟨hkey, howner.trans hrecipient.symm, hblocked⟩
  · rw [MessageRecord.authority, hdelivers.receiving, hprovenance]
  · rw [hdelivers.receiving, hprovenance, RouteBasis.paired_authority]
  · rw [hdelivers.receiving, halias]
    exact hauthorizes.entrance.trans hid
  · rw [hroute, hdelivers.lane]
    exact admitDirect_eq_ok hadmitted hauthorizes

theorem sendAnswer_eq_ok {t : DeliveryTransition} {policyRevisions : SortedMap ConversationId U64}
    (h : context.sendAnswer address package actor key now = .ok (t, policyRevisions)) :
    ∃ authority, context.AdmittedBy address package actor now t authority := by
  obtain ⟨_, -, h⟩ := bind_eq_ok.mp h
  obtain ⟨owned, howned, h⟩ := bind_eq_ok.mp h
  obtain ⟨current, hcurrent, h⟩ := bind_eq_ok.mp h
  obtain ⟨destination, hother, h⟩ := bind_eq_ok.mp h
  obtain ⟨route, hroute, h⟩ := bind_eq_ok.mp h
  obtain ⟨_, -, h⟩ := bind_eq_ok.mp h
  obtain ⟨_, -, h⟩ := bind_eq_ok.mp h
  obtain ⟨r, hcontact, h⟩ := bind_eq_ok.mp h
  obtain ⟨⟨⟩, hprepared, h⟩ := bind_eq_ok.mp h
  obtain ⟨⟨admission, lane⟩, hadmitted, h⟩ := bind_eq_ok.mp h
  obtain ⟨_, -, h⟩ := bind_eq_ok.mp h
  obtain ⟨conversation, -, h⟩ := bind_eq_ok.mp h
  obtain ⟨receiving, hreceiving, h⟩ := bind_eq_ok.mp h
  obtain ⟨t', ht, h⟩ := bind_eq_ok.mp h
  cases h
  obtain ⟨hroute, howner⟩ := Option.filter_eq_some_iff.mp (okOr_eq_ok.mp hroute)
  have howner := of_decide_eq_true howner
  obtain ⟨hsender, hrecipient⟩ := NativePackage.recipient_of_validatePrepared hprepared
  have hdelivers := deliver_eq_ok ht
  obtain ⟨halias, hprovenance⟩ := DeliveredRouteRecord.route_eq_ok hreceiving
  obtain ⟨authority, hbasis, hunpaired, huses⟩ := admitMessage_eq_ok hadmitted (some route.entrance)
  refine ⟨authority, ⟨⟨⟨route, hroute, howner.trans hrecipient.symm⟩, hsender, fun c hc => ?_,
    fun r' hr => ?_⟩, ?_, ?_, ?_, hdelivers.package, ?_⟩⟩
  · have howned := (Option.filter_eq_some_iff.mp (okOr_eq_ok.mp howned)).1
    cases hc.symm.trans howned
    rw [← Conversation.bindSubject_scope hcurrent, hrecipient]
    exact hother
  · obtain ⟨hcontact, hrelated⟩ := Option.filter_eq_some_iff.mp (okOr_eq_ok.mp hcontact)
    cases hr.symm.trans hcontact
    obtain ⟨hkey, hto, hblocked, -⟩ := of_decide_eq_true hrelated
    exact ⟨hkey, hto.trans hrecipient.symm, hblocked⟩
  · rw [MessageRecord.authority, hdelivers.receiving, hprovenance]
    exact hbasis
  · rw [hdelivers.receiving, hprovenance, hunpaired]
    rfl
  · rw [hdelivers.receiving, halias]
    exact (routeTo_eq_some hroute).2
  · rw [hroute, hdelivers.lane]
    exact huses

/-- Whatever is sent is delivered by one authority. -/
theorem send_eq_ok {answers : Bool} {t : DeliveryTransition} {policyRevisions : SortedMap ConversationId U64}
    (h : context.send address package answers actor key now = .ok (t, policyRevisions)) :
    ∃ authority, context.AdmittedBy address package actor now t authority := by
  unfold send at h
  split at h
  next authorization hdirect => exact ⟨_, sendDirect_eq_ok hdirect h⟩
  next =>
    split_ifs at h
    exact sendAnswer_eq_ok h

end NativeContext

/-! ### Native decisions -/

/-- Where a message is sent to, and what is sent. -/
def NativeCommand.sends : NativeCommand → Option (AliasId × NativePackage)
  | send address package | sendToAlias address package => some (address, package)
  | create .. | changePolicy .. | deleteCopies _ => none

theorem CorrespondenceRef.contains_of_new {a b : ProtocolIdentity} {r : CorrespondenceRef}
    (h : CorrespondenceRef.new a b = .ok r) : r.contains a = true := by
  unfold CorrespondenceRef.new at h
  split_ifs at h
  cases h
  rcases min_choice a b with hmin | hmin
  · simp [CorrespondenceRef.contains, hmin]
  · have hmax : max a b = a := max_eq_left (min_eq_right_iff.mp hmin)
    simp [CorrespondenceRef.contains, hmax]

theorem Conversation.change_eq_ok {c c' : Conversation} {actor : ProtocolIdentity} {revision : U64}
    {action : PolicyAction} (h : c.change actor revision action = .ok c') :
    c'.id = c.id ∧ c'.scope = c.scope := by
  unfold Conversation.change at h
  split_ifs at h
  split at h
  · cases h
  · cases h
  · cases h
    exact ⟨rfl, rfl⟩

namespace SignedRequest
variable [Crypto] [MemberJson] {r : SignedRequest} {context : NativeContext} {now : CanonicalTime}
  {digest : Bytes32} {outcome : NativeOutcome} {change : NativeChange} {effects : NativeEffects}
  {policyRevisions : SortedMap ConversationId U64}

omit [Crypto] [MemberJson] in
/-- What is recorded of a command is an outcome it may have. -/
theorem mayHave_of_change (h : r.change context now = .ok (outcome, change, policyRevisions)) :
    r.mayHave digest outcome = true := by
  unfold SignedRequest.change at h
  unfold mayHave
  generalize r.command = command at h ⊢
  cases command with
  | create subject id other =>
    obtain ⟨_, -, h⟩ := bind_eq_ok.mp h
    obtain ⟨_, -, h⟩ := bind_eq_ok.mp h
    obtain ⟨scope, hscope, h⟩ := bind_eq_ok.mp h
    obtain ⟨c, hc, h⟩ := bind_eq_ok.mp h
    cases h
    obtain ⟨_, -, hc⟩ := bind_eq_ok.mp hc
    obtain ⟨_, -, hc⟩ := bind_eq_ok.mp hc
    cases hc
    exact decide_eq_true ⟨rfl, CorrespondenceRef.contains_of_new hscope⟩
  | changePolicy id revision action =>
    obtain ⟨owned, howned, h⟩ := bind_eq_ok.mp h
    obtain ⟨next, hnext, h⟩ := bind_eq_ok.mp h
    cases h
    obtain ⟨howned, hcontains⟩ := Option.filter_eq_some_iff.mp (okOr_eq_ok.mp howned)
    obtain ⟨hid, hscope⟩ := Conversation.change_eq_ok hnext
    exact decide_eq_true ⟨hid.trans (context.sources.identified id owned howned), hscope ▸ hcontains⟩
  | send address package | sendToAlias address package =>
    obtain ⟨_, -, h⟩ := bind_eq_ok.mp h
    cases h
    exact decide_eq_true rfl
  | deleteCopies id =>
    obtain ⟨_, -, h⟩ := bind_eq_ok.mp h
    cases h
    rfl

omit [Crypto] [MemberJson] in
theorem mayHave_refused (reason : CorrespondenceError) :
    r.mayHave digest (.refused r.operation digest reason) = true := by
  unfold mayHave
  cases r.command <;> simp

omit [Crypto] [MemberJson] in
/-- A fresh command has done what it does, or is recorded as refused. -/
theorem execute_eq_ok (h : r.execute context now digest = .ok (outcome, effects)) :
    effects.receipt = (r.effects digest now outcome effects.change effects.receipt.policyRevisions).receipt ∧
      r.mayHave digest outcome = true ∧
      (r.change context now = .ok (outcome, effects.change, effects.receipt.policyRevisions) ∨
        ∃ reason, outcome = .refused r.operation digest reason ∧ effects.change = .refused) := by
  unfold execute at h
  split at h
  next outcome' change' policyRevisions' hchange =>
    cases h
    exact ⟨rfl, mayHave_of_change hchange, .inl hchange⟩
  next => cases h
  next => cases h
  next reason _ _ _ =>
    cases h
    exact ⟨rfl, mayHave_refused reason, .inr ⟨reason, rfl, rfl⟩⟩

omit [Crypto] [MemberJson] in
/-- What has been recorded is returned to the same command. -/
theorem replayed_of_execute (h : r.execute context now digest = .ok (outcome, effects)) :
    r.replayed digest effects.receipt = .ok outcome := by
  obtain ⟨hreceipt, hmay, -⟩ := execute_eq_ok h
  rw [hreceipt]
  have hsame : ¬(digest ≠ digest ∨ r.command.auditAction ≠ r.command.auditAction ∨ r.persona ≠ r.persona ∨
      r.key ≠ r.key) := by simp
  have hallowed : ¬r.mayHave digest outcome = false := by simp [hmay]
  exact bind_eq_ok.mpr ⟨⟨⟩, refuseIf_eq_ok.mpr hsame, bind_eq_ok.mpr ⟨⟨⟩, refuseIf_eq_ok.mpr hallowed, rfl⟩⟩

theorem decide_eq_ok {result : Option NativeEffects} (h : r.decide context now = .ok (outcome, result)) :
    ∃ digest, r.digest = .ok digest ∧
      ((∃ prior, context.prior = some prior ∧ r.replayed digest prior = .ok outcome ∧ result = none) ∨
        context.prior = none ∧ ∃ effects, r.execute context now digest = .ok (outcome, effects) ∧
          result = some effects) := by
  obtain ⟨⟨⟩, -, h⟩ := bind_eq_ok.mp h
  obtain ⟨digest, hdigest, h⟩ := bind_eq_ok.mp h
  refine ⟨digest, hdigest, ?_⟩
  cases hprior : context.prior with
  | some prior =>
    rw [hprior] at h
    obtain ⟨_, hreplayed, h⟩ := bind_eq_ok.mp h
    cases h
    exact .inl ⟨prior, rfl, hreplayed, rfl⟩
  | none =>
    rw [hprior] at h
    obtain ⟨⟨_, effects⟩, hexecuted, h⟩ := bind_eq_ok.mp h
    cases h
    exact .inr ⟨rfl, effects, hexecuted, rfl⟩

end SignedRequest

/-! ### Transactions -/

namespace DeliveryStore
variable {s s' : DeliveryStore}

/-- No lane has changed, of a relationship or of an entrance. -/
structure SameLanes (s s' : DeliveryStore) : Prop where
  lanes : s'.lanes = s.lanes
  entrances : s'.entrances = s.entrances

theorem sameLanes_receipts (s : DeliveryStore)
    (receipts : SortedMap (AccountId ×ₗ IdempotencyKey) NativeReceipt) : s.SameLanes {s with receipts} :=
  ⟨rfl, rfl⟩

theorem persistLane_receipts {pair : Option RelationshipRef} {route : DeliveredRoute}
    {lane : Option SenderScopedLane} (h : s.persistLane pair route lane = .ok s') :
    s'.receipts = s.receipts := by
  unfold persistLane at h
  split at h
  · cases h
    rfl
  · obtain ⟨_, _, _, -, -, -, rfl⟩ := persistPaired_eq_ok h
    rfl
  · obtain ⟨_, -, h⟩ := bind_eq_ok.mp h
    cases h
    rfl

theorem persistChange_undelivered {context : NativeContext} {change : NativeChange}
    (h : ∀ t, change ≠ .delivery t) : s.persistChange context change = .ok s := by
  cases change with
  | delivery t => exact absurd rfl (h t)
  | conversation _ | deleteCopies _ | refused => rfl

section
variable [Crypto] [MemberJson] {request : SignedRequest} {facts : NativeContext} {began now : CanonicalTime}
  {outcome : NativeOutcome} {effects : NativeEffects}

/-- A transaction either returns what was recorded, or records what it has done. -/
theorem transact_eq_ok {result : Option NativeEffects}
    (h : s.transact request facts began now = .ok (outcome, result, s')) :
    ∃ digest, request.digest = .ok digest ∧
      ((∃ prior, s.receipts.get? (toLex (request.account, request.operation)) = some prior ∧
          request.replayed digest prior = .ok outcome ∧ result = none ∧ s' = s) ∨
        s.receipts.get? (toLex (request.account, request.operation)) = none ∧ ∃ effects s₁,
          request.execute (s.nativeContext request facts) now digest = .ok (outcome, effects) ∧
          result = some effects ∧ s.persistChange (s.nativeContext request facts) effects.change = .ok s₁ ∧
          s' = {s₁ with receipts :=
            s₁.receipts.insert (toLex (request.account, request.operation)) effects.receipt}) := by
  obtain ⟨⟨⟩, -, h⟩ := bind_eq_ok.mp h
  obtain ⟨⟨_, decided⟩, hdecided, h⟩ := bind_eq_ok.mp h
  obtain ⟨digest, hdigest, ⟨prior, hprior, hreplayed, rfl⟩ | ⟨hprior, effects, hexecuted, rfl⟩⟩ :=
    SignedRequest.decide_eq_ok (mapError_eq_ok.mp hdecided)
  · cases h
    exact ⟨digest, hdigest, .inl ⟨prior, hprior, hreplayed, rfl, rfl⟩⟩
  · obtain ⟨_, hcommit, h⟩ := bind_eq_ok.mp h
    cases h
    obtain ⟨s₁, hs₁, hcommit⟩ := bind_eq_ok.mp hcommit
    exact ⟨digest, hdigest, .inr ⟨hprior, effects, s₁, hexecuted, rfl, hs₁, (Except.ok.inj hcommit).symm⟩⟩

/-- What has been recorded stays recorded. -/
theorem step_receipts {key : AccountId ×ₗ IdempotencyKey} {receipt : NativeReceipt} {input : DeliveryInput}
    (hreceipt : s.receipts.get? key = some receipt) (h : s.step input = .ok s') :
    s'.receipts.get? key = some receipt := by
  cases input with
  | native request facts began now =>
    obtain ⟨⟨outcome, result, _⟩, htransact, rfl⟩ := map_eq_ok.mp h
    obtain ⟨_, -, ⟨_, -, -, -, hsame⟩ | ⟨hnone, effects, s₁, -, -, hs₁, hsame⟩⟩ := transact_eq_ok htransact
    · rw [hsame]
      exact hreceipt
    · have hs₁ : s₁.receipts = s.receipts := by
        unfold persistChange at hs₁
        split at hs₁
        · exact persistLane_receipts hs₁
        all_goals
          cases hs₁
          rfl
      have hne : key ≠ toLex (request.account, request.operation) := fun heq => by
        rw [heq, hnone] at hreceipt
        cases hreceipt
      rw [hsame]
      show (s₁.receipts.insert _ _).get? key = some receipt
      rw [SortedMap.get?_insert_ne _ _ hne, hs₁]
      exact hreceipt
  | reply facts reply now =>
    obtain ⟨_, -, h⟩ := bind_eq_ok.mp h
    split at h
    · obtain ⟨_, -, h⟩ := bind_eq_ok.mp h
      cases h
      exact hreceipt
    · obtain ⟨_, -, h⟩ := bind_eq_ok.mp h
      obtain ⟨_, -, h⟩ := bind_eq_ok.mp h
      obtain ⟨_, -, h⟩ := bind_eq_ok.mp h
      obtain ⟨s₁, hs₁, h⟩ := bind_eq_ok.mp h
      cases h
      show s₁.receipts.get? key = some receipt
      rw [persistLane_receipts hs₁]
      exact hreceipt
  | other t =>
    cases h
    exact hreceipt

omit [Crypto] [MemberJson] in
/-- Only a message that is sent is delivered. -/
theorem sends_of_change {r : SignedRequest} {context : NativeContext} {t : DeliveryTransition}
    {policyRevisions : SortedMap ConversationId U64}
    (h : r.change context now = .ok (outcome, .delivery t, policyRevisions)) :
    ∃ address package authority, r.command.sends = some (address, package) ∧
      outcome = .committed package.manifest.message ∧
      context.AdmittedBy address package r.persona now t authority := by
  unfold SignedRequest.change at h
  generalize r.command = command at h ⊢
  cases command with
  | create subject id other =>
    obtain ⟨_, -, h⟩ := bind_eq_ok.mp h
    obtain ⟨_, -, h⟩ := bind_eq_ok.mp h
    obtain ⟨_, -, h⟩ := bind_eq_ok.mp h
    obtain ⟨_, -, h⟩ := bind_eq_ok.mp h
    cases h
  | changePolicy id revision action =>
    obtain ⟨_, -, h⟩ := bind_eq_ok.mp h
    obtain ⟨_, -, h⟩ := bind_eq_ok.mp h
    cases h
  | send address package | sendToAlias address package =>
    obtain ⟨⟨t', _⟩, hsend, h⟩ := bind_eq_ok.mp h
    cases h
    obtain ⟨authority, hadmitted⟩ := NativeContext.send_eq_ok hsend
    exact ⟨address, package, authority, rfl, rfl, hadmitted⟩
  | deleteCopies id =>
    obtain ⟨_, -, h⟩ := bind_eq_ok.mp h
    cases h

omit [Crypto] [MemberJson] in
/-- A message that is sent is delivered. -/
theorem delivery_of_sends {r : SignedRequest} {context : NativeContext} {address : AliasId}
    {package : NativePackage} {change : NativeChange} {policyRevisions : SortedMap ConversationId U64}
    (hsends : r.command.sends = some (address, package))
    (h : r.change context now = .ok (outcome, change, policyRevisions)) : ∃ t, change = .delivery t := by
  unfold SignedRequest.change at h
  generalize r.command = command at h hsends
  cases command with
  | create | changePolicy | deleteCopies => cases hsends
  | send | sendToAlias =>
    obtain ⟨⟨t, _⟩, -, h⟩ := bind_eq_ok.mp h
    cases h
    exact ⟨t, rfl⟩

omit [Crypto] [MemberJson] in
/-- An entrance is loaded from where it is stored. -/
theorem entrance_of_routeTo {address : AliasId} {route : RoutedContext}
    (h : (s.nativeContext request facts).routeTo address = some route) :
    s.entrances.get? address = some route.entrance := by
  obtain ⟨hrouted, hid⟩ := NativeContext.routeTo_eq_some h
  obtain ⟨loaded, -, hloaded⟩ := Option.bind_eq_some_iff.mp hrouted
  obtain ⟨entrance, hentrance, rfl⟩ := Option.map_eq_some_iff.mp hloaded
  rwa [← s.filed _ _ hentrance, show entrance.id = address from hid] at hentrance

omit [Crypto] [MemberJson] in
/-- What is stored with a delivery is what its authority costs. -/
theorem persistChange_charges {address : AliasId} {package : NativePackage} {actor : ProtocolIdentity}
    {t : DeliveryTransition} {authority : Authority}
    (hadmitted : (s.nativeContext request facts).AdmittedBy address package actor now t authority)
    (h : s.persistChange (s.nativeContext request facts) (.delivery t) = .ok s') :
    s.Charges (facts.contact.map (·.key.reference)) address package.manifest.message now authority s' := by
  obtain ⟨route, hroute, -⟩ := hadmitted.addressed.entrance
  have huses := hadmitted.uses
  rw [hroute, Option.map_some, ← entrance_of_routeTo hroute, ← hadmitted.receivingAlias] at huses
  have hlane : (s.nativeContext request facts).lane =
      (facts.contact.map (·.key.reference)).bind s.lanes.get? := by
    show facts.contact.bind _ = _
    cases facts.contact <;> rfl
  rw [hlane] at huses
  exact hadmitted.receivingAlias ▸ persistLane_charges h huses hadmitted.paired

/-- The commands that deliver something, and those that leave all lanes as they are. -/
theorem transact_lanes (h : s.transact request facts began now = .ok (outcome, some effects, s')) :
    (∃ address package t authority s₁, request.command.sends = some (address, package) ∧
        effects.change = .delivery t ∧ outcome = .committed package.manifest.message ∧
        (s.nativeContext request facts).AdmittedBy address package request.persona now t authority ∧
        s.Charges (facts.contact.map (·.key.reference)) address package.manifest.message now authority s₁ ∧
        s₁.SameLanes s') ∨
      (∀ t, effects.change ≠ .delivery t) ∧ s.SameLanes s' := by
  obtain ⟨digest, -, ⟨_, -, -, hresult, -⟩ | ⟨-, _, s₁, hexecuted, hresult, hs₁, rfl⟩⟩ := transact_eq_ok h
  · cases hresult
  cases hresult
  obtain ⟨-, -, hchange⟩ := SignedRequest.execute_eq_ok hexecuted
  have hsame := sameLanes_receipts s₁
    (s₁.receipts.insert (toLex (request.account, request.operation)) effects.receipt)
  by_cases hdelivers : ∃ t, effects.change = .delivery t
  · obtain ⟨t, ht⟩ := hdelivers
    rw [ht] at hs₁ hchange
    rcases hchange with hchange | ⟨_, -, hrefused⟩
    · obtain ⟨address, package, authority, hsends, houtcome, hadmitted⟩ := sends_of_change hchange
      have hcharges := persistChange_charges hadmitted hs₁
      exact .inl ⟨address, package, t, authority, s₁, hsends, ht, houtcome, hadmitted, hcharges, hsame⟩
    · cases hrefused
  · have hundelivered := not_exists.mp hdelivers
    have hs₁ := Except.ok.inj (hs₁.symm.trans (persistChange_undelivered hundelivered))
    subst hs₁
    exact .inr ⟨hundelivered, hsame⟩

end
end DeliveryStore

/-! ### External replies -/

section
variable [Crypto]

theorem ReplyContext.consumeLane_eq_ok {x : ReplyContext} {reply : Reply} {now : CanonicalTime}
    {lane : Option SenderScopedLane} (h : x.consumeLane reply now = .ok lane) :
    ∃ l next, x.lane = some l ∧ lane = some next ∧ l.Admits reply.message.manifest.message now next := by
  obtain ⟨l, hl, h⟩ := bind_eq_ok.mp h
  obtain ⟨_, -, h⟩ := bind_eq_ok.mp h
  obtain ⟨⟨next, known⟩, hconsume, h⟩ := bind_eq_ok.mp h
  obtain ⟨_, hknown, h⟩ := bind_eq_ok.mp h
  cases h
  have hadmits := SenderScopedLane.consume_new (mapError_eq_ok.mp hconsume) (refuseIf_eq_ok.mp hknown)
  exact ⟨l, next, okOr_eq_ok.mp hl, rfl, hadmits⟩

/-- A reply comes from the mailbox of its conversation and is for its member, who has not blocked
it. -/
structure ReplyFacts.Addressed (f : ReplyFacts) (reply : Reply) : Prop where
  mailbox : f.conversation.record.mailbox = reply.mailbox
  conversation : reply.conversation = f.conversation.id
  manifest : reply.message.manifest.conversation = f.conversation.id
  author : reply.message.memberCopy.binding.sender = f.conversation.guest
  recipient : reply.message.memberCopy.binding.recipient = f.conversation.member
  contact : f.relationship.key.sender = f.conversation.guest ∧
    f.relationship.key.recipient = f.conversation.member ∧ f.relationship.state ≠ .blocked

theorem ReplyContext.pendingOrStanding_eq_ok {c : ExternalConversation} {r : Relationship} {reply : Reply}
    {covered ordinary : Bool} (h : pendingOrStanding c r reply covered = .ok ordinary) :
    (c.record.mailbox = reply.mailbox ∧ c.id = reply.conversation ∧ r.key.sender = c.guest ∧
      r.key.recipient = c.member ∧ r.state ≠ .blocked ∧ reply.message.manifest.conversation = c.id) ∧
      (ordinary = true ↔ r.state = .accepted ∨ c.pendingAccess r = true) := by
  simp only [pendingOrStanding, bind_eq_ok, refuseIf_eq_ok, not_or, not_not, Except.ok.injEq] at h
  obtain ⟨_, ⟨-, hmailbox, hid, hsender, hrecipient, hblocked, hmanifest, -⟩, rfl⟩ := h
  exact ⟨⟨hmailbox, hid, hsender, hrecipient, hblocked, hmanifest⟩, decide_eq_true_iff⟩

theorem ReplyContext.checkMessage_eq_ok {x : ReplyContext} {reply : Reply} {now : CanonicalTime}
    (h : x.checkMessage reply now = .ok ()) :
    reply.message.memberCopy.binding.sender = x.conversation.guest ∧
      reply.message.memberCopy.binding.recipient = x.conversation.member := by
  simp only [checkMessage, bind_eq_ok, refuseIf_eq_ok, not_or, not_not] at h
  obtain ⟨_, -, -, -, hsender, hrecipient, -⟩ := h
  exact ⟨hsender, hrecipient⟩

namespace DeliveryStore
variable {s s' : DeliveryStore} {f : ReplyFacts} {reply : Reply} {now : CanonicalTime} {x : ReplyContext}

/-- Where a reply came to: an entrance that authorizes it, or the inbox of its conversation. -/
theorem replyContext_eq_ok (h : s.replyContext f reply now = .ok x) :
    ∃ destination, x = f.context destination (s.replyLane f) ∧
      ((∃ id entrance a, f.entrance = some id ∧ s.entrances.get? id = some entrance ∧
          destination = .address a ∧
          (f.routeContext entrance (s.replyLane f) reply now).Authorizes now a) ∨
        ∃ inbox, f.entrance = none ∧ destination = .conversation inbox) := by
  obtain ⟨authorization, hauthorization, h⟩ := bind_eq_ok.mp h
  obtain ⟨inbox, -, h⟩ := bind_eq_ok.mp h
  refine ⟨_, (Except.ok.inj h).symm, ?_⟩
  unfold DeliveryStore.authorization at hauthorization
  cases hentrance : f.entrance with
  | none =>
    rw [hentrance] at hauthorization
    cases hauthorization
    exact .inr ⟨inbox, rfl, rfl⟩
  | some id =>
    rw [hentrance] at hauthorization
    obtain ⟨entrance, hfound, hauthorization⟩ := bind_eq_ok.mp hauthorization
    obtain ⟨_, -, hauthorization⟩ := bind_eq_ok.mp hauthorization
    cases hadmission : (f.routeContext entrance (s.replyLane f) reply now).admission now with
    | error e =>
      rw [hadmission] at hauthorization
      cases hauthorization
    | ok decision =>
      rw [hadmission] at hauthorization
      cases decision with
      | hold | request => cases hauthorization
      | authorize a =>
        cases hauthorization
        exact .inl ⟨id, entrance, a, rfl, okOr_eq_ok.mp hfound, rfl, RouteContext.admission_eq_ok hadmission⟩

/-- An admitted reply uses what it is admitted by. -/
theorem admitReply_uses {admitted : AdmittedReply} (hx : s.replyContext f reply now = .ok x)
    (h : x.admitReply reply now = .ok admitted) :
    ∃ authority, x.authority = some authority ∧ f.Addressed reply ∧
      (∀ id, f.entrance = some id → admitted.receiving.receivingAlias = id) ∧
      admitted.receiving.provenance.paired = authority.paired ∧
      Uses (s.replyLane f) (s.entrances.get? admitted.receiving.receivingAlias)
        reply.message.manifest.message now authority admitted.lane := by
  obtain ⟨lane, hlane, h⟩ := bind_eq_ok.mp h
  obtain ⟨receiving, hreceiving, h⟩ := bind_eq_ok.mp h
  cases h
  obtain ⟨ordinary, hordinary, hlane⟩ := bind_eq_ok.mp hlane
  obtain ⟨_, -, hlane⟩ := bind_eq_ok.mp hlane
  obtain ⟨⟨⟩, hmessage, hlane⟩ := bind_eq_ok.mp hlane
  obtain ⟨⟨hmailbox, hid, hsender, hrecipient, hblocked, hmanifest⟩, hiff⟩ :=
    ReplyContext.pendingOrStanding_eq_ok hordinary
  obtain ⟨hauthor, hmember⟩ := ReplyContext.checkMessage_eq_ok hmessage
  obtain ⟨destination, rfl, ⟨id, entrance, a, hentrance, hstored, rfl, hauthorizes⟩ |
    ⟨inbox, hentrance, rfl⟩⟩ := replyContext_eq_ok hx
  · have haddressed : f.Addressed reply :=
      ⟨hmailbox, hid.symm, hmanifest, hauthor, hmember, hsender, hrecipient, hblocked⟩
    obtain ⟨halias, hprovenance⟩ := DeliveredRouteRecord.route_eq_ok hreceiving
    have hid : receiving.receivingAlias = id :=
      halias.trans (hauthorizes.entrance.trans (s.filed id entrance hstored))
    refine ⟨a.basis.authority, rfl, haddressed, fun id' hid' => ?_, ?_, ?_⟩
    · cases hentrance.symm.trans hid'
      exact hid
    · rw [hprovenance, RouteBasis.paired_authority]
    rw [hid, hstored]
    obtain ⟨_, -, hlane⟩ := bind_eq_ok.mp hlane
    have hgrants := hauthorizes.grants
    generalize hbasis : a.basis = basis at hgrants hlane ⊢
    generalize hpaired : a.paired = paired at hgrants
    cases hgrants with
    | aliasLane =>
      cases hlane
      exact .aliasLane
    | pairedSender hstate hmem =>
      obtain ⟨next, rfl, hadmits⟩ :=
        ReceivingAuthorization.consumePaired_eq_ok (mapError_eq_ok.mp hlane) hpaired
      exact .pairedSender rfl hstate hmem (hauthorizes.time ▸ hadmits)
    | standing hr haccepted =>
      cases hlane
      exact .standing
    | senderLane hr hstate hloaded =>
      obtain ⟨l, next, hl, rfl, hadmits⟩ := ReplyContext.consumeLane_eq_ok hlane
      cases hloaded.symm.trans hl
      exact .senderLane hloaded hadmits
  · have haddressed : f.Addressed reply :=
      ⟨hmailbox, hid.symm, hmanifest, hauthor, hmember, hsender, hrecipient, hblocked⟩
    obtain ⟨_, -, hreceiving⟩ := bind_eq_ok.mp hreceiving
    obtain ⟨_, -, hreceiving⟩ := bind_eq_ok.mp hreceiving
    obtain ⟨-, hprovenance⟩ := DeliveredRouteRecord.route_eq_ok hreceiving
    have hnone : ∀ id, f.entrance = some id → receiving.receivingAlias = id := fun id hid => by
      cases hentrance.symm.trans hid
    unfold ReplyContext.authority
    dsimp only [ReplyFacts.context] at hlane hiff ⊢
    by_cases haccepted : f.relationship.state = .accepted
    · rw [if_pos (hiff.mpr (.inl haccepted))] at hlane
      cases hlane
      exact ⟨.standing, if_pos haccepted, haddressed, hnone, hprovenance ▸ rfl, .standing⟩
    by_cases hpending : f.conversation.pendingAccess f.relationship = true
    · rw [if_pos (hiff.mpr (.inr hpending))] at hlane
      cases hlane
      exact ⟨.conversation, (if_neg haccepted).trans (if_pos hpending), haddressed, hnone,
        hprovenance ▸ rfl, .conversation⟩
    · have hneither : ¬(f.relationship.state = .accepted ∨
          f.conversation.pendingAccess f.relationship = true) := not_or.mpr ⟨haccepted, hpending⟩
      rw [if_neg (hneither ∘ hiff.mp)] at hlane
      obtain ⟨l, next, hl, rfl, hadmits⟩ := ReplyContext.consumeLane_eq_ok hlane
      have hl : s.replyLane f = some l := hl
      have hauthority : (s.replyLane f).map (fun l => Authority.senderLane l.grant.id) =
          some (.senderLane l.grant.id) := by rw [hl, Option.map_some]
      exact ⟨.senderLane l.grant.id, (if_neg haccepted).trans ((if_neg hpending).trans hauthority),
        haddressed, hnone, hprovenance ▸ rfl, .senderLane hl hadmits⟩

/-- A reply is received once, at the cost of what it is admitted by. -/
theorem receive_eq_ok (h : s.receive f reply now = .ok s') :
    (s.external.get? reply.message.manifest.message = some (some reply.deliveryDigest) ∧ s' = s) ∨
      s.external.get? reply.message.manifest.message = none ∧ f.Addressed reply ∧
        ∃ x authority address s₁, s.replyContext f reply now = .ok x ∧ x.authority = some authority ∧
          (∀ id, f.entrance = some id → address = id) ∧
          s.Charges (some f.relationship.key.reference) address reply.message.manifest.message now
            authority s₁ ∧ s₁.SameLanes s' := by
  obtain ⟨_, -, h⟩ := bind_eq_ok.mp h
  split at h
  next known hknown =>
    obtain ⟨_, hdigest, h⟩ := bind_eq_ok.mp h
    cases h
    exact .inl ⟨not_ne_iff.mp (refuseIf_eq_ok.mp hdigest) ▸ hknown, rfl⟩
  next hnew =>
    obtain ⟨_, -, h⟩ := bind_eq_ok.mp h
    obtain ⟨x, hx, h⟩ := bind_eq_ok.mp h
    obtain ⟨admitted, hadmitted, h⟩ := bind_eq_ok.mp h
    obtain ⟨s₁, hs₁, h⟩ := bind_eq_ok.mp h
    cases h
    have hx := mapError_eq_ok.mp hx
    obtain ⟨authority, hauthority, haddressed, hentrance, hpaired, huses⟩ :=
      admitReply_uses hx (mapError_eq_ok.mp hadmitted)
    exact .inr ⟨hnew, haddressed, x, authority, _, s₁, hx, hauthority, hentrance,
      persistLane_charges hs₁ huses hpaired, ⟨rfl, rfl⟩⟩

end DeliveryStore
end

/-! ### The law of admission -/

namespace DeliveryStore

/-- Whatever the stores hold, a native command and what it has recorded. -/
structure NativeLaw [Crypto] [MemberJson] (s : DeliveryStore) (request : SignedRequest)
    (facts : NativeContext) (began now : CanonicalTime) : Prop where
  /-- A delivery is admitted by one authority, at its cost. -/
  charged : ∀ outcome effects t s', s.transact request facts began now = .ok (outcome, some effects, s') →
    effects.change = .delivery t → ∃ address package authority s₁,
      request.command.sends = some (address, package) ∧ t.delivery.package = package ∧
      t.delivery.record.authority = some authority ∧
      s.Charges (facts.contact.map (·.key.reference)) address package.manifest.message now authority s₁ ∧
      s₁.SameLanes s'
  /-- A message blocked, or for anyone else, is refused, whatever lane there is. -/
  foreign : ∀ address package outcome effects s', request.command.sends = some (address, package) →
    ¬(s.nativeContext request facts).Addressed address package request.persona →
    s.transact request facts began now = .ok (outcome, some effects, s') →
    (∃ digest reason, outcome = .refused request.operation digest reason) ∧ s.SameLanes s'
  /-- A message the relationship's lane counts is not admitted on it. -/
  counted : ∀ outcome effects t s' r l, s.transact request facts began now = .ok (outcome, some effects, s') →
    effects.change = .delivery t → facts.contact = some r → s.lanes.get? r.key.reference = some l →
    l.admittedMessages.contains t.delivery.package.manifest.message = true →
    ∀ id, t.delivery.record.authority ≠ some (.senderLane id)
  refused : ∀ operation digest reason result s',
    s.transact request facts began now = .ok (.refused operation digest reason, result, s') → s.SameLanes s'
  /-- A caller whose authority is still live is given what was recorded, after whatever followed. -/
  replayed : ∀ outcome effects s', s.transact request facts began now = .ok (outcome, some effects, s') →
    ∀ inputs facts' began' now', request.authenticate facts'.authority began' = .ok () →
      request.authenticate facts'.authority now' = .ok () →
      (Machine.run step s' inputs).transact request facts' began' now' =
        .ok (outcome, none, Machine.run step s' inputs)
  unauthenticated : ∀ e, request.authenticate facts.authority began = .error e ∨
    request.authenticate facts.authority now = .error e →
      ∃ e', s.transact request facts began now = .error (.correspondence e')

/-- Whatever the stores hold, an external reply. -/
structure ReplyLaw [Crypto] (s : DeliveryStore) (f : ReplyFacts) (reply : Reply) (now : CanonicalTime) :
    Prop where
  /-- A reply is admitted once, by one authority, at its cost. -/
  charged : ∀ s', s.receive f reply now = .ok s' →
    s.external.get? reply.message.manifest.message = none → ∃ x authority address s₁,
      s.replyContext f reply now = .ok x ∧ x.authority = some authority ∧
      (∀ id, f.entrance = some id → address = id) ∧
      s.Charges (some f.relationship.key.reference) address reply.message.manifest.message now authority s₁ ∧
      s₁.SameLanes s'
  /-- A reply blocked, or foreign to the conversation, is refused, whatever lane there is. -/
  foreign : ¬f.Addressed reply → s.external.get? reply.message.manifest.message = none →
    ∃ e, s.receive f reply now = .error e
  /-- A reply the relationship's lane counts is not admitted on it. -/
  counted : ∀ s' x l, s.receive f reply now = .ok s' →
    s.external.get? reply.message.manifest.message = none → s.replyContext f reply now = .ok x →
    s.replyLane f = some l → l.admittedMessages.contains reply.message.manifest.message = true →
    ∀ id, x.authority ≠ some (.senderLane id)
  /-- A reply received before changes nothing. -/
  received : ∀ s' known, s.external.get? reply.message.manifest.message = some known →
    s.receive f reply now = .ok s' → s' = s

variable {s s₁ s' : DeliveryStore}

/-- The lane of the relationship had not counted a message it admits. -/
theorem Charges.fresh {pair : RelationshipRef} {address : AliasId} {message : MessageId} {now : CanonicalTime}
    {id : LaneId} {l : SenderScopedLane}
    (h : s.Charges (some pair) address message now (.senderLane id) s₁) (hl : s.lanes.get? pair = some l) :
    l.admittedMessages.contains message = false := by
  cases h with
  | senderLane hpair hlane hadmits =>
    cases hpair
    cases hlane.symm.trans hl
    exact SortedMap.contains_eq_false.mpr hadmits.fresh

section
variable [Crypto]

theorem reply_law (s : DeliveryStore) (f : ReplyFacts) (reply : Reply) (now : CanonicalTime) :
    s.ReplyLaw f reply now where
  charged s' h hnew := by
    rcases receive_eq_ok h with ⟨hknown, -⟩ | ⟨-, -, x, authority, address, s₁, hx, hauthority, hentrance,
      hcharges, hsame⟩
    · cases hnew.symm.trans hknown
    · exact ⟨x, authority, address, s₁, hx, hauthority, hentrance, hcharges, hsame⟩
  foreign hforeign hnew := by
    cases h : s.receive f reply now with
    | error e => exact ⟨e, rfl⟩
    | ok s' =>
      rcases receive_eq_ok h with ⟨hknown, -⟩ | ⟨-, haddressed, -⟩
      · cases hnew.symm.trans hknown
      · exact absurd haddressed hforeign
  counted s' x l h hnew hx hl hcounted id hid := by
    rcases receive_eq_ok h with ⟨hknown, -⟩ | ⟨-, -, x', authority, address, s₁, hx', hauthority, -,
      hcharges, -⟩
    · cases hnew.symm.trans hknown
    · cases hx.symm.trans hx'
      cases hid.symm.trans hauthority
      cases hcounted.symm.trans (hcharges.fresh hl)
  received s' known hknown h := by
    rcases receive_eq_ok h with ⟨-, hsame⟩ | ⟨hnew, -⟩
    · exact hsame
    · cases hnew.symm.trans hknown

variable [MemberJson] {request : SignedRequest} {facts : NativeContext} {began now : CanonicalTime}

theorem transact_unauthenticated {e : CorrespondenceError}
    (h : request.authenticate facts.authority began = .error e ∨
      request.authenticate facts.authority now = .error e) :
    ∃ e', s.transact request facts began now = .error (.correspondence e') := by
  cases hbegan : request.authenticate facts.authority began with
  | error e' =>
    refine ⟨e', ?_⟩
    rw [transact, hbegan]
    rfl
  | ok _ =>
    rcases h with h | h
    · cases hbegan.symm.trans h
    · have hdecide : request.decide (s.nativeContext request facts) now = .error e := by
        rw [SignedRequest.decide, show (s.nativeContext request facts).authority = facts.authority from rfl, h]
        rfl
      refine ⟨e, ?_⟩
      rw [transact, hbegan]
      dsimp only
      rw [hdecide]
      rfl

/-- What was recorded is returned, and nothing else happens. -/
theorem transact_recorded {digest : Bytes32} {prior : NativeReceipt} {outcome : NativeOutcome}
    (hbegan : request.authenticate facts.authority began = .ok ())
    (hnow : request.authenticate facts.authority now = .ok ()) (hdigest : request.digest = .ok digest)
    (hprior : s.receipts.get? (toLex (request.account, request.operation)) = some prior)
    (hreplayed : request.replayed digest prior = .ok outcome) :
    s.transact request facts began now = .ok (outcome, none, s) := by
  have hdecide : request.decide (s.nativeContext request facts) now = .ok (outcome, none) := by
    rw [SignedRequest.decide, show (s.nativeContext request facts).authority = facts.authority from rfl, hnow,
      hdigest, show (s.nativeContext request facts).prior = some prior from hprior]
    show (do let outcome ← request.replayed digest prior; .ok (outcome, none)) = _
    rw [hreplayed]
    rfl
  rw [transact, hbegan]
  dsimp only
  rw [hdecide]
  rfl

theorem native_law (s : DeliveryStore) (request : SignedRequest) (facts : NativeContext)
    (began now : CanonicalTime) : s.NativeLaw request facts began now where
  charged outcome effects t s' h ht := by
    rcases transact_lanes h with ⟨address, package, t', authority, s₁, hsends, ht', -, hadmitted, hcharges,
      hsame⟩ | ⟨hundelivered, -⟩
    · cases ht.symm.trans ht'
      exact ⟨address, package, authority, s₁, hsends, hadmitted.content, hadmitted.recorded, hcharges, hsame⟩
    · exact absurd ht (hundelivered t)
  foreign address package outcome effects s' hsends hforeign h := by
    rcases transact_lanes h with ⟨address', package', _, _, _, hsends', -, -, hadmitted, -⟩ |
      ⟨hundelivered, hsame⟩
    · cases hsends.symm.trans hsends'
      exact absurd hadmitted.addressed hforeign
    · obtain ⟨digest, -, ⟨_, -, -, hresult, -⟩ | ⟨-, _, _, hexecuted, hresult, -⟩⟩ := transact_eq_ok h
      · cases hresult
      cases hresult
      obtain ⟨-, -, hchange | ⟨reason, houtcome, -⟩⟩ := SignedRequest.execute_eq_ok hexecuted
      · obtain ⟨t, ht⟩ := delivery_of_sends hsends hchange
        exact absurd ht (hundelivered t)
      · exact ⟨⟨digest, reason, houtcome⟩, hsame⟩
  counted outcome effects t s' r l h ht hr hl hcounted id hid := by
    rcases transact_lanes h with ⟨address, package, t', authority, s₁, -, ht', -, hadmitted, hcharges,
      -⟩ | ⟨hundelivered, -⟩
    · cases ht.symm.trans ht'
      cases hid.symm.trans hadmitted.recorded
      rw [hadmitted.content] at hcounted
      rw [hr] at hcharges
      cases hcounted.symm.trans (hcharges.fresh hl)
    · exact absurd ht (hundelivered t)
  refused operation digest reason result s' h := by
    obtain ⟨_, -, ⟨_, -, -, -, rfl⟩ | ⟨-, effects, -, -, rfl, -⟩⟩ := transact_eq_ok h
    · exact ⟨rfl, rfl⟩
    · rcases transact_lanes h with ⟨_, _, _, _, _, -, -, houtcome, -⟩ | ⟨-, hsame⟩
      · cases houtcome
      · exact hsame
  replayed outcome effects s' h inputs facts' began' now' hbegan hnow := by
    obtain ⟨digest, hdigest, ⟨_, -, -, hresult, -⟩ | ⟨-, _, s₁, hexecuted, hresult, -, rfl⟩⟩ := transact_eq_ok h
    · cases hresult
    cases hresult
    refine transact_recorded hbegan hnow hdigest ?_ (SignedRequest.replayed_of_execute hexecuted)
    exact Machine.run_preserves (fun s i s' hs hstep => step_receipts hs hstep) (SortedMap.get?_insert_self ..)
      inputs
  unauthenticated e h := transact_unauthenticated h

/-- **A message is charged for once, to the lane it is admitted on, and to no lane otherwise**,
natively and from outside; what is refused or recorded already changes none. -/
theorem message_admission :
    (∀ (s : DeliveryStore) request facts began now, s.NativeLaw request facts began now) ∧
      ∀ (s : DeliveryStore) f reply now, s.ReplyLaw f reply now :=
  ⟨native_law, reply_law⟩

end

namespace Example
open BillingAccount.Example (crypto)

@[reducible] def json : MemberJson := ⟨fun _ => some [], fun _ => none⟩

def author : ProtocolIdentity := ⟨2⟩

def recipient : ProtocolIdentity := ⟨7⟩

def address : AliasId := ⟨71, by decide⟩

/-- An entrance that is open to every sender. -/
def entrance : Alias :=
  ⟨⟨address, recipient,
    ⟨"amy@mail.example".toList, "mail.example".toList, by decide +kernel, by decide +kernel⟩,
    ⟨⟨"garden".toList, by decide, by decide, by decide⟩, .aliasScoped⟩, ⟨100⟩, ⟨100⟩, 0, .active,
    ⟨⟨address, recipient, ⟨1⟩, ⟨100⟩, .broad ⟨address, recipient, ⟨100⟩, by decide⟩⟩, by decide⟩⟩, by decide⟩

def stored : DeliveryStore where
  receipts := .empty
  lanes := .empty
  entrances := SortedMap.empty.insert entrance.id entrance
  external := .empty
  filed id a h := by
    rcases SortedMap.get?_insert_eq_some.mp h with ⟨rfl, rfl⟩ | ⟨-, hold⟩
    · rfl
    · cases hold

/-- A service year that is paid for. -/
def billing : BillingAccount :=
  @BillingAccount.after crypto BillingAccount.Example.json (.new BillingAccount.Example.bank)
    (BillingAccount.Example.calls.take 2)

def custody : EndpointPublicKey := ⟨⟨9⟩, zero32⟩

def senderKey : EndpointPublicKey := ⟨⟨8⟩, Vector.replicate 32 1⟩

def now : CanonicalTime := ⟨1710000000000⟩

def copy (owner : ProtocolIdentity) (key : ContentKeyRef) : SealedRecord where
  binding := {
    contentRef := ⟨1⟩
    message := ⟨9⟩
    sender := author
    recipient := owner
    protocolVersion := ⟨2⟩
    relationship := ⟨1, zero32⟩
    declarations := ⟨.unspecified, ⟨.humanInitiated, .nativeSender ⟨11⟩⟩, none⟩
    messageValidUntil := ⟨⟨1710000001000⟩⟩
    capability := none
    wireVersion := ⟨1⟩
    contentScope := ⟨1, zero32⟩
    senderCertificate := zero32}
  envelope := ⟨⟨8⟩, key, [], [0]⟩
  createdAt := now
  expiresAt := ⟨1710000001000⟩

def package : NativePackage where
  manifest := ⟨⟨some ⟨Vector.replicate 32 1⟩, ⟨9⟩, ⟨81, by decide⟩, ⟨zero32⟩, [.text 1], []⟩, by decide⟩
  senderCopy := copy author ⟨12⟩
  recipientCopy := copy recipient ⟨13⟩
  senderRecovery := ⟨senderKey, copy author custody.reference⟩
  recipientRecovery := ⟨senderKey, copy recipient custody.reference⟩

def request : SignedRequest where
  product := ManagedAccount.Example.product
  account := ⟨7⟩
  persona := author
  key := ⟨11⟩
  operation := ⟨30⟩
  command := .sendToAlias address package
  signature := List.replicate 64 0

/-- What the message is decided on, with the author's account as it stands. -/
def facts (authority : AccountState) : NativeContext where
  routed := some ⟨entrance, none, true, billing, billing⟩
  receiverContact := none
  authority
  custodyKey := some custody
  contact := none
  lane := none
  sources := ⟨.empty, .empty, fun _ _ h => by cases h⟩
  prior := none

def live : AccountState := ManagedAccount.Example.enrolled.state

/-- The author has revoked the key it had signed with. -/
def lost : AccountState :=
  {live with registry := @KeyRegistry.after crypto [
    .register ⟨11⟩ (.sender author) zero32 ManagedAccount.Example.start,
    .revoke ⟨11⟩ .initial ⟨1710000000500⟩]}

/-- The message is sent. -/
def sent : Except DeliveryFailure (NativeOutcome × Option NativeEffects × DeliveryStore) :=
  letI := crypto
  letI := json
  stored.transact request (facts live) now now

/-- What was sent, if it was committed. -/
def committed : Option (MessageId × NativeEffects × DeliveryStore) :=
  match sent with
  | .ok (.committed message, some effects, s) => some (message, effects, s)
  | _ => none

theorem sent_committed : ∃ message effects s, sent = .ok (.committed message, some effects, s) := by
  have hsome : committed.isSome = true := by decide +kernel
  obtain ⟨⟨message, effects, s⟩, hcommitted⟩ := Option.isSome_iff_exists.mp hsome
  unfold committed at hcommitted
  split at hcommitted
  next hsent =>
    cases hcommitted
    exact ⟨message, effects, s, hsent⟩
  next => cases hcommitted

theorem lost_unauthorized :
    @SignedRequest.authenticate crypto json request lost ⟨1710000000600⟩ = .error .unauthorized := by
  decide +kernel

end Example

/-- A message was committed, its author revokes the key it was signed with, and the same command is
refused: it is not given what was recorded. -/
theorem replay_refused : ¬∀ (_ : Crypto) (_ : MemberJson) (s : DeliveryStore) request facts began now outcome
    effects s', s.transact request facts began now = .ok (outcome, some effects, s') →
      ∀ inputs facts' began' now', (Machine.run step s' inputs).transact request facts' began' now' =
        .ok (outcome, none, Machine.run step s' inputs) := by
  intro h
  obtain ⟨message, effects, s, hsent⟩ := Example.sent_committed
  have hreplayed := h BillingAccount.Example.crypto Example.json Example.stored Example.request
    (Example.facts Example.live) Example.now Example.now _ effects s hsent [] (Example.facts Example.lost)
    ⟨1710000000600⟩ ⟨1710000000600⟩
  obtain ⟨e, hrefused⟩ := @transact_unauthenticated s BillingAccount.Example.crypto Example.json Example.request
    (Example.facts Example.lost) ⟨1710000000600⟩ ⟨1710000000600⟩ _ (.inl Example.lost_unauthorized)
  cases hrefused.symm.trans hreplayed

end DeliveryStore
end CsMail
