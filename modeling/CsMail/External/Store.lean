import CsMail.External.Command
import Mathlib.Data.Char
import Mathlib.Data.List.Lex
import Mathlib.Data.Prod.Lex

/-! The tables of external conversations, and the transactions that change them.

Every transaction first takes the lock of the receipt order, so they run one after the other;
one that fails leaves the tables as they were. What a transaction reads of other tables comes
with it as its facts. -/
namespace CsMail
open Library

/-- Whatever a transaction fails with. -/
inductive ExternalFailure
  | correspondence (error : CorrespondenceError)
  /-- The database refused the statement. -/
  | database
  deriving DecidableEq

/-! ### Provider reports -/

/-- Provider event identity is not a provider email identity, but is written alike. -/
structure ProviderEventId where
  reference : ProviderReference
  deriving DecidableEq

inductive ProviderEventKind
  | processed
  | delivered
  | hardBounce
  | softBounce
  | rejected
  | spamComplaint
  deriving DecidableEq

structure ProviderEventTime where
  value : Text
  nonempty : value ≠ []
  bounded : value.length ≤ 64
  printable : value.all (fun c => 32 ≤ c.toNat ∧ c.toNat ≤ 126) = true

instance : DecidableEq ProviderEventTime := fun a b =>
  decidable_of_iff (a.value = b.value) (by
    cases a
    cases b
    simp)

structure ProviderEvent where
  id : ProviderEventId
  reference : ProviderReference
  message : MessageId
  sender : ProtocolIdentity
  recipient : GuestMailbox
  kind : ProviderEventKind
  /-- The provider's own time, kept as evidence. -/
  providerTime : ProviderEventTime
  deriving DecidableEq

/-! ### Dispatch -/

/-- What is released to the carrier once the dispatch boundary has committed. Where its thread
begins is left out. -/
structure ExternalDispatch [Crypto] where
  conversation : ExternalConversation
  message : ExternalMessage
  relayCopy : SealedRecord

structure DispatchContext [Crypto] where
  conversation : ExternalConversation
  relationship : Relationship
  authority : AccountState
  key : OperationalKeyRef
  billing : BillingAccount
  message : ExternalMessage
  relayCopy : SealedRecord
  relayKey : EndpointPublicKey
  state : DeliveryState

namespace DispatchContext
variable [Crypto]

/-- Everything a hand-over needs at its time. -/
def live (c : DispatchContext) (now : CanonicalTime) : Bool :=
  c.billing.covers now = true ∧ c.conversation.disclosure.permitsDispatch = true ∧
    c.relationship.state ≠ .blocked ∧
    (c.authority.personaKey c.authority.product c.conversation.member c.key now).isOk = true ∧
    now < c.relayCopy.expiresAt ∧ now < c.relayCopy.binding.messageValidUntil.time

/-- `begin_dispatch`: begun or terminal work is not handed over again. -/
def beginDispatch (c : DispatchContext) (now : CanonicalTime) :
    Except CorrespondenceError (DeliveryState × Option ExternalDispatch) := do
  refuseIf (c.state ≠ .waiting) .conflict
  c.message.validate c.conversation c.relationship
  validateCopy c.message.fields.manifest c.message.fields.senderKey c.relayCopy
  refuseIf (c.relayCopy.envelope.recipientKey ≠ c.relayKey.reference ∨
    c.message.fields.direction ≠ .memberToGuest ∨
    c.message.fields.memberCopy.binding ≠ c.relayCopy.binding) .invalid
  if c.live now = true then do
    let next ← c.state.begin now
    .ok (next, some ⟨c.conversation, c.message, c.relayCopy⟩)
  else .ok (c.state.cancel now, none)

end DispatchContext

/-- `provider_feedback`: the report is bound to the route and reconciles the handoff. -/
def providerFeedback [Crypto] (c : ExternalConversation) (state : DeliveryState) (event : ProviderEvent)
    (now : CanonicalTime) : Except CorrespondenceError DeliveryState := do
  refuseIf (event.sender ≠ c.member ∨ event.recipient ≠ c.record.mailbox) .unauthorized
  state.finish (some event.reference) now

/-! ### Tables -/

structure ConversationRow [Crypto] where
  account : AccountId
  conversation : ExternalConversation

structure ExternalDelivery where
  account : AccountId
  key : OperationalKeyRef
  relayCopy : SealedRecord
  state : DeliveryState
  deriving DecidableEq

structure ExternalTables [Crypto] where
  conversations : SortedMap ConversationId ConversationRow
  messages : SortedMap MessageId ExternalMessage
  deliveries : SortedMap MessageId ExternalDelivery
  receipts : SortedMap (AccountId ×ₗ IdempotencyKey) ExternalReceipt
  events : SortedMap Text ProviderEvent
  /-- The provider's identifiers of events, and of the mail they are about; the same tables
  hold those of notices. -/
  eventTargets : SortedMap Text MessageId
  referenceTargets : SortedMap Text MessageId

/-- What a transaction reads elsewhere. -/
structure ExternalFacts where
  receivingInbox : Option Alias
  scope : RecipientSigningScope
  authority : AccountState
  billing : BillingAccount
  relationship : Relationship
  relayKey : EndpointPublicKey
  memberKey : EndpointPublicKey

/-- `claim_provider_identity`. -/
def claimProviderIdentity (targets : SortedMap Text MessageId) (value : Text) (target : MessageId) :
    Except ExternalFailure (SortedMap Text MessageId) :=
  match targets.get? value with
  | none => .ok (targets.insert value target)
  | some known => if known = target then .ok targets else .error (.correspondence .conflict)

/-- The identifier of a handoff that was accepted. -/
def claimReference (targets : SortedMap Text MessageId) (accepted : Option ProviderReference)
    (target : MessageId) : Except ExternalFailure (SortedMap Text MessageId) :=
  match accepted with
  | some reference => claimProviderIdentity targets reference.value target
  | none => .ok targets

/-- What a transaction has done. -/
inductive ExternalResult [Crypto]
  | opened (conversation : ConversationId)
  | received (message : MessageId)
  | replayed (receipt : ExternalReceipt)
  | recorded (request : SignedExternalCommand) (receipt : ExternalReceipt)
  | handed (dispatch : ExternalDispatch)
  | withheld (message : MessageId)
  | finished (message : MessageId) (reference : Option ProviderReference)
  | repeated (event : ProviderEvent)

inductive ExternalCall
  /-- A conversation recorded by what was received in it. -/
  | inbound (id : ConversationId) (account : AccountId) (member : ProtocolIdentity)
      (receivingAlias : AliasId) (mailbox : GuestMailbox) (deployment : Bytes32)
      (relationship : Relationship) (now : CanonicalTime)
  /-- An admitted reply. -/
  | receive (message : ExternalMessage)
  | transact (request : SignedExternalCommand) (facts : ExternalFacts) (began now : CanonicalTime)
  | beginDispatch (message : MessageId) (facts : ExternalFacts) (now : CanonicalTime)
  | finishDispatch (message : MessageId) (accepted : Option ProviderReference) (now : CanonicalTime)
  | providerFeedback (event : ProviderEvent) (now : CanonicalTime)

namespace ExternalTables
variable [Crypto]

def empty : ExternalTables := ⟨∅, ∅, ∅, ∅, ∅, ∅, ∅⟩

def inbound (t : ExternalTables) (id : ConversationId) (account : AccountId) (member : ProtocolIdentity)
    (receivingAlias : AliasId) (mailbox : GuestMailbox) (deployment : Bytes32)
    (relationship : Relationship) (now : CanonicalTime) : Except ExternalFailure ExternalTables := do
  let conversation ← (ExternalConversation.inbound id member receivingAlias mailbox deployment
    relationship now).mapError .correspondence
  refuseIf (t.conversations.contains id = true) .database
  .ok {t with conversations := t.conversations.insert id ⟨account, conversation⟩}

def receive (t : ExternalTables) (message : ExternalMessage) : Except ExternalFailure ExternalTables := do
  refuseIf (t.conversations.contains message.fields.manifest.conversation = false ∨
    t.messages.contains message.message = true) .database
  .ok {t with messages := t.messages.insert message.message message}

/-! ### Commands -/

def upsertConversation (t : ExternalTables) (request : SignedExternalCommand)
    (conversation : ExternalConversation) : ExternalTables :=
  let account := ((t.conversations.get? request.conversation).map ConversationRow.account).getD request.account
  {t with conversations := t.conversations.insert request.conversation ⟨account, conversation⟩}

/-- Stores a message and queues it. -/
def enqueue (t : ExternalTables) (request : SignedExternalCommand) (p : PreparedMessage)
    (time : CanonicalTime) : Except ExternalFailure ExternalTables := do
  let message ← (ExternalMessage.new {
    manifest := p.manifest
    senderKey := p.senderKey
    memberCopy := p.memberCopy
    direction := .memberToGuest
    committedAt := time}).mapError .correspondence
  refuseIf (t.messages.contains message.message = true ∨ t.deliveries.contains message.message = true ∨
    message.fields.manifest.conversation ≠ request.conversation) .database
  .ok {t with
    messages := t.messages.insert message.message message
    deliveries := t.deliveries.insert message.message ⟨request.account, request.key, p.relayCopy, .waiting⟩}

/-- Stores and queues what a change has to hand over. -/
def enqueueDelivery (t : ExternalTables) (request : SignedExternalCommand) (delivery : Option PreparedMessage)
    (time : CanonicalTime) : Except ExternalFailure ExternalTables :=
  match delivery with
  | some p => t.enqueue request p time
  | none => .ok t

/-- The message belongs to the conversation. -/
def belongs (t : ExternalTables) (id : ConversationId) (message : MessageId) : Bool :=
  (t.messages.get? message).any fun m => m.fields.manifest.conversation = id

def cancelWaiting (t : ExternalTables) (id : ConversationId) (time : CanonicalTime) : ExternalTables :=
  {t with deliveries := t.deliveries.map fun message d =>
    if t.belongs id message = true then {d with state := d.state.cancel time} else d}

/-- `persist_changes`. -/
def persistChanges (t : ExternalTables) (request : SignedExternalCommand) (changes : ExternalChanges)
    (time : CanonicalTime) : Except ExternalFailure ExternalTables := do
  let t ← (t.upsertConversation request changes.conversation).enqueueDelivery request changes.delivery time
  .ok (if changes.cancelWaiting then t.cancelWaiting request.conversation time else t)

/-- The conversation a command names, if its member's account asks; only a start may open one. -/
def existing (t : ExternalTables) (request : SignedExternalCommand) :
    Except CorrespondenceError (Option ExternalConversation) :=
  match t.conversations.get? request.conversation with
  | some row =>
    if row.conversation.member = request.persona ∧ row.account = request.account then
      .ok (some row.conversation)
    else .error .unauthorized
  | none => if request.command.isStart then .ok none else .error .unavailable

def context (facts : ExternalFacts) (conversation : Option ExternalConversation) : ExternalContext where
  receivingInbox := facts.receivingInbox
  scope := facts.scope
  authority := facts.authority
  billing := facts.billing
  relationship := facts.relationship
  conversation := conversation
  relayKey := facts.relayKey
  memberKey := facts.memberKey
  prior := none

/-- A refusal commits only its receipt. -/
def persistEffects (t : ExternalTables) (request : SignedExternalCommand) (effects : ExternalEffects) :
    Except ExternalFailure ExternalTables :=
  match effects.changes with
  | some changes => t.persistChanges request changes effects.receipt.time
  | none => .ok t

def commit (t : ExternalTables) (request : SignedExternalCommand) (effects : ExternalEffects) :
    Except ExternalFailure ExternalTables := do
  let t ← t.persistEffects request effects
  .ok {t with receipts := t.receipts.insert (toLex (request.account, request.operation)) effects.receipt}

variable [ExternalJson]

def transact (t : ExternalTables) (request : SignedExternalCommand) (facts : ExternalFacts)
    (began now : CanonicalTime) : Except ExternalFailure (ExternalTables × ExternalResult) := do
  (request.authenticate facts.authority facts.scope began).mapError .correspondence
  match t.receipts.get? (toLex (request.account, request.operation)) with
  | some prior => do
    let receipt ← (request.replay prior).mapError .correspondence
    .ok (t, .replayed receipt)
  | none => do
    let conversation ← (t.existing request).mapError .correspondence
    let (receipt, effects) ← (decideExternal request (context facts conversation) now).mapError .correspondence
    match effects with
    | some effects => do
      let t ← t.commit request effects
      .ok (t, .recorded request receipt)
    | none => .ok (t, .replayed receipt)

/-! ### Deliveries -/

omit [ExternalJson] in
/-- The delivery of a message, with its conversation. -/
def delivery (t : ExternalTables) (id : MessageId) :
    Except CorrespondenceError (ExternalMessage × ExternalDelivery × ConversationRow) := do
  let message ← okOr (t.messages.get? id) .unavailable
  let d ← okOr (t.deliveries.get? id) .unavailable
  let row ← okOr (t.conversations.get? message.fields.manifest.conversation) .unavailable
  .ok (message, d, row)

def setState (t : ExternalTables) (id : MessageId) (d : ExternalDelivery) (state : DeliveryState) :
    ExternalTables :=
  {t with deliveries := t.deliveries.insert id {d with state}}

/-- The context a hand-over is decided in. -/
def dispatchContext (facts : ExternalFacts) (message : ExternalMessage) (d : ExternalDelivery)
    (row : ConversationRow) : DispatchContext where
  conversation := row.conversation
  relationship := facts.relationship
  authority := facts.authority
  key := d.key
  billing := facts.billing
  message := message
  relayCopy := d.relayCopy
  relayKey := facts.relayKey
  state := d.state

def beginDispatch (t : ExternalTables) (id : MessageId) (facts : ExternalFacts) (now : CanonicalTime) :
    Except ExternalFailure (ExternalTables × ExternalResult) := do
  let (message, d, row) ← (t.delivery id).mapError .correspondence
  refuseIf (d.account ≠ row.account) (.correspondence .invalid)
  refuseIf (message.message ≠ id) (.correspondence .invalid)
  let (next, dispatch) ← ((dispatchContext facts message d row).beginDispatch now).mapError .correspondence
  .ok (t.setState id d next, match dispatch with
    | some dispatch => .handed dispatch
    | none => .withheld id)

/-- Records or reconciles a handoff; without a reference it failed for certain. -/
def finishDispatch (t : ExternalTables) (id : MessageId) (accepted : Option ProviderReference)
    (now : CanonicalTime) : Except ExternalFailure (ExternalTables × ExternalResult) := do
  let d ← okOr (t.deliveries.get? id) (.correspondence .unavailable)
  let referenceTargets ← claimReference t.referenceTargets accepted id
  let next ← (d.state.finish accepted now).mapError .correspondence
  .ok ({t.setState id d next with referenceTargets}, .finished id accepted)

def providerFeedback (t : ExternalTables) (event : ProviderEvent) (now : CanonicalTime) :
    Except ExternalFailure (ExternalTables × ExternalResult) :=
  match t.events.get? event.id.reference.value with
  | some prior => do
    refuseIf (prior ≠ event) (.correspondence .conflict)
    .ok (t, .repeated event)
  | none => do
    let (_, d, row) ← (t.delivery event.message).mapError .correspondence
    let eventTargets ← claimProviderIdentity t.eventTargets event.id.reference.value event.message
    let referenceTargets ← claimProviderIdentity t.referenceTargets event.reference.value event.message
    let next ← (CsMail.providerFeedback row.conversation d.state event now).mapError .correspondence
    .ok ({t.setState event.message d next with
      events := t.events.insert event.id.reference.value event
      eventTargets
      referenceTargets}, .finished event.message (some event.reference))

/-- One transaction. -/
def call (t : ExternalTables) : ExternalCall → Except ExternalFailure (ExternalTables × ExternalResult)
  | .inbound id account member receivingAlias mailbox deployment relationship now =>
    (t.inbound id account member receivingAlias mailbox deployment relationship now).map (·, .opened id)
  | .receive message => (t.receive message).map (·, .received message.message)
  | .transact request facts began now => t.transact request facts began now
  | .beginDispatch message facts now => t.beginDispatch message facts now
  | .finishDispatch message accepted now => t.finishDispatch message accepted now
  | .providerFeedback event now => t.providerFeedback event now

end ExternalTables

/-! ### Runs -/

/-- The tables and what their transactions have done, the newest first. -/
structure ExternalLog [Crypto] where
  tables : ExternalTables
  results : List ExternalResult

namespace ExternalLog
variable [Crypto] [ExternalJson]

def new : ExternalLog := ⟨.empty, []⟩

def call (b : ExternalLog) (c : ExternalCall) : Except ExternalFailure ExternalLog :=
  (b.tables.call c).map fun r => ⟨r.1, r.2 :: b.results⟩

end ExternalLog
end CsMail
