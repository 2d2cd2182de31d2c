import CsMail.Accounts.Alias
import CsMail.Application.Accounts
import CsMail.External.Message

/-! Signed member commands on an external conversation, and their decision.

A decision reads the protected facts it is given and either changes the conversation, with at
most one message to hand over, or records why not. Only missing facts and unresolved policy
are returned instead. Reading a conversation decides nothing and is left out. -/
namespace CsMail
open Library

/-! ### Commands -/

/-- Newly authored content, sealed once for the member and once for the relay. -/
structure PreparedMessage where
  manifest : MessageManifest
  senderKey : EndpointPublicKey
  memberCopy : SealedRecord
  relayCopy : SealedRecord
  deriving DecidableEq

inductive ExternalCommand
  | start (receivingAlias : AliasId) (mailbox : GuestMailbox) (message : PreparedMessage)
      (discloseToExternalMail : Bool)
  | send (message : PreparedMessage) (discloseToExternalMail : Bool)
  | reject
  | withdrawDisclosure
  | grantDisclosure
  deriving DecidableEq

namespace ExternalCommand

def isStart : ExternalCommand → Bool
  | start .. => true
  | _ => false

/-- The message a command prepares. -/
def message : ExternalCommand → Option PreparedMessage
  | start _ _ message _ | send message _ => some message
  | reject | withdrawDisclosure | grantDisclosure => none

end ExternalCommand

structure RecipientSigningScope where
  deploymentDomain : Bytes32
  provider : ProviderRef
  deriving DecidableEq

/-- The part of a command its signature covers. -/
structure ExternalRequest where
  scope : RecipientSigningScope
  product : Text
  account : AccountId
  persona : ProtocolIdentity
  key : OperationalKeyRef
  operation : IdempotencyKey
  conversation : ConversationId
  command : ExternalCommand
  deriving DecidableEq

structure SignedExternalCommand extends ExternalRequest where
  signature : Bytes
  deriving DecidableEq

/-- The bytes serde_json writes a request as, if it does. -/
class ExternalJson where
  toVec : ExternalRequest → Option Bytes

/-! ### Outcomes -/

inductive ExternalOutcome
  | queued (message : MessageId)
  | rejected
  | disclosureWithdrawn
  | disclosureGranted
  | refused (error : CorrespondenceError)
  deriving DecidableEq

structure ExternalReceipt where
  digest : Bytes32
  key : OperationalKeyRef
  signature : Bytes
  time : CanonicalTime
  outcome : ExternalOutcome
  deriving DecidableEq

namespace SignedExternalCommand
variable [Crypto] [ExternalJson]

def bytes (r : SignedExternalCommand) : Except CorrespondenceError Bytes := do
  refuseIf (r.operation.val = 0 ∨ r.persona.val = 0 ∨ r.account.val = 0 ∨ r.product = []) .invalid
  okOr (ExternalJson.toVec r.toExternalRequest) .invalid

def digest (r : SignedExternalCommand) : Except CorrespondenceError Bytes32 := do
  let bytes ← r.bytes
  .ok (Crypto.sha256 bytes)

def authenticate (r : SignedExternalCommand) (authority : AccountState) (scope : RecipientSigningScope)
    (now : CanonicalTime) : Except CorrespondenceError Unit := do
  refuseIf (r.scope ≠ scope) .unauthorized
  let key ← (authority.personaKey r.product r.persona r.key now).mapError fun _ => .unauthorized
  refuseIf (Crypto.validKey key = false) .unauthorized
  let bytes ← r.bytes
  refuseIf (r.signature.length ≠ 64) .unauthorized
  refuseIf (Crypto.verifyStrict key bytes r.signature = false) .unauthorized

/-- An exact replay still requires live caller authority. -/
def replay (r : SignedExternalCommand) (receipt : ExternalReceipt) :
    Except CorrespondenceError ExternalReceipt := do
  let digest ← r.digest
  refuseIf (receipt.digest ≠ digest ∨ receipt.key ≠ r.key) .conflict
  .ok receipt

end SignedExternalCommand

/-! ### Decisions -/

/-- The facts a decision reads. -/
structure ExternalContext [Crypto] where
  receivingInbox : Option Alias
  scope : RecipientSigningScope
  authority : AccountState
  billing : BillingAccount
  relationship : Relationship
  conversation : Option ExternalConversation
  relayKey : EndpointPublicKey
  memberKey : EndpointPublicKey
  prior : Option ExternalReceipt

structure ExternalChanges [Crypto] where
  conversation : ExternalConversation
  delivery : Option PreparedMessage
  cancelWaiting : Bool

structure ExternalEffects [Crypto] where
  changes : Option ExternalChanges
  receipt : ExternalReceipt

section
variable [Crypto]

/-- A copy is bound to the message, to its author and to the relationship, and is in force. -/
def validatePrepared (p : PreparedMessage) (request : SignedExternalCommand) (c : ExternalContext)
    (now : CanonicalTime) (copy : SealedRecord) : Except CorrespondenceError Unit := do
  validateCopy p.manifest p.senderKey copy
  refuseIf (copy.binding.message ≠ p.manifest.message ∨
    copy.binding.recipient ≠ request.persona ∨
    copy.binding.sender ≠ request.persona ∨
    copy.binding.relationship ≠ c.relationship.key.reference ∨
    copy.envelope.senderKey ≠ p.senderKey.reference ∨
    copy.envelope.ciphertext = [] ∨
    maxEncodedDocumentBytes + 16 < copy.envelope.ciphertext.length ∨
    now < copy.createdAt ∨
    copy.expiresAt ≤ now ∨
    copy.binding.messageValidUntil.time ≤ now) .invalid

def validateExternalMessage (p : PreparedMessage) (request : SignedExternalCommand) (c : ExternalContext)
    (now : CanonicalTime) : Except CorrespondenceError Unit := do
  refuseIf (¬p.manifest.blocks.all BlockDescriptor.isAuthored = true ∨
    p.manifest.conversation ≠ request.conversation ∨
    p.manifest.sources ≠ [] ∨
    p.manifest.message.val = 0 ∨
    p.senderKey.bytes = zero32 ∨
    p.memberCopy.envelope.recipientKey ≠ c.memberKey.reference ∨
    p.relayCopy.envelope.recipientKey ≠ c.relayKey.reference ∨
    p.memberCopy.binding ≠ p.relayCopy.binding) .invalid
  refuseIf (p.memberCopy.binding.declarations.origin.authority ≠ .nativeSender request.key ∨
    p.memberCopy.binding.capability.isSome = true) .invalid
  [p.memberCopy, p.relayCopy].forM (validatePrepared p request c now)

/-- A message may come with consent to disclose the conversation. -/
def ExternalConversation.disclosing (c : ExternalConversation) (disclose : Bool) (actor : ProtocolIdentity)
    (now : CanonicalTime) : Except CorrespondenceError ExternalConversation :=
  if disclose then c.grantDisclosure actor now else .ok c

/-- What a command does to its conversation. -/
def externalMutation (request : SignedExternalCommand) (c : ExternalContext) (now : CanonicalTime) :
    Except CorrespondenceError (ExternalChanges × ExternalOutcome) :=
  match request.command with
  | .start receivingAlias mailbox message disclose => do
    let inbox ← okOr (c.receivingInbox.filter fun a =>
      a.id = receivingAlias ∧ a.owner = request.persona) .unavailable
    (inbox.checkConversation c.relationship.key.sender request.conversation now).mapError
      fun _ => .unauthorized
    refuseIf (disclose = false ∨ c.billing.covers now = false) .unauthorized
    refuseIf (c.conversation.isSome = true) .conflict
    validateExternalMessage message request c now
    let conversation ← ExternalConversation.start request.conversation request.persona receivingAlias
      mailbox c.scope.deploymentDomain c.relationship now
    .ok (⟨conversation, some message, false⟩, .queued message.manifest.message)
  | .send message disclose => do
    let conversation ← okOr c.conversation .unavailable
    let conversation ← conversation.disclosing disclose request.persona now
    refuseIf (c.billing.covers now = false ∨ conversation.disclosure.permitsDispatch = false ∨
      c.relationship.state = .blocked) .unauthorized
    validateExternalMessage message request c now
    .ok (⟨conversation, some message, false⟩, .queued message.manifest.message)
  | .reject => do
    let conversation ← okOr c.conversation .unavailable
    let conversation ← conversation.reject request.persona c.relationship now
    .ok (⟨conversation, none, false⟩, .rejected)
  | .withdrawDisclosure => do
    let conversation ← okOr c.conversation .unavailable
    let conversation ← conversation.withdraw request.persona now
    .ok (⟨conversation, none, true⟩, .disclosureWithdrawn)
  | .grantDisclosure => do
    refuseIf (c.billing.covers now = false ∨ c.relationship.state = .blocked) .unauthorized
    let conversation ← okOr c.conversation .unavailable
    let conversation ← conversation.grantDisclosure request.persona now
    .ok (⟨conversation, none, false⟩, .disclosureGranted)

/-- What a mutation has recorded: missing facts and unresolved policy cannot establish a refusal. -/
def recordedMutation (mutation : Except CorrespondenceError (ExternalChanges × ExternalOutcome)) :
    Except CorrespondenceError (Option ExternalChanges × ExternalOutcome) :=
  match mutation with
  | .ok (changes, outcome) => .ok (some changes, outcome)
  | .error .unavailable => .error .unavailable
  | .error .policyUnresolved => .error .policyUnresolved
  | .error e => .ok (none, .refused e)

variable [ExternalJson]

def decideExternal (request : SignedExternalCommand) (c : ExternalContext) (now : CanonicalTime) :
    Except CorrespondenceError (ExternalReceipt × Option ExternalEffects) := do
  request.authenticate c.authority c.scope now
  match c.prior with
  | some prior => do
    let receipt ← request.replay prior
    .ok (receipt, none)
  | none => do
    refuseIf (c.conversation.any (fun conversation => conversation.member ≠ request.persona) = true)
      .unauthorized
    let (changes, outcome) ← recordedMutation (externalMutation request c now)
    let digest ← request.digest
    let receipt := ⟨digest, request.key, request.signature, now, outcome⟩
    .ok (receipt, some ⟨changes, receipt⟩)

end
end CsMail
