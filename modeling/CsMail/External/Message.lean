import CsMail.Accounts.AliasPermission
import CsMail.External.Conversation
import CsMail.Protocol.Admission

/-! Messages of external conversations, and the sealed copies they are kept as.

A message is kept for its member and, while it is to be handed over, for the relay: two
ciphertexts under one binding. A received message exists only with the inbox assignment it
was delivered by. -/
namespace CsMail
open Library

/-! ### Sealed copies -/

structure EndpointPublicKey where
  reference : ContentKeyRef
  bytes : Bytes32
  deriving DecidableEq

/-- A `ContentScopeRef`. -/
structure ContentScopeRef where
  derivationVersion : U16
  bytes : Bytes32
  deriving DecidableEq

/-- What a ciphertext is bound to, with the versions and the certificate admission does not read. -/
structure SealedBinding extends ContentBinding where
  wireVersion : WireVersion
  contentScope : ContentScopeRef
  senderCertificate : Bytes32
  deriving DecidableEq

structure CiphertextEnvelope where
  senderKey : ContentKeyRef
  recipientKey : ContentKeyRef
  encapsulatedKey : Bytes
  ciphertext : Bytes
  deriving DecidableEq

/-- An `EncryptedContentRecord` with its ciphertext. -/
structure SealedRecord where
  binding : SealedBinding
  envelope : CiphertextEnvelope
  createdAt : CanonicalTime
  expiresAt : CanonicalTime
  deriving DecidableEq

/-- Structural checks of incoming packages and of restored records alike. -/
def validateCopy [Crypto] (manifest : MessageManifest) (senderKey : EndpointPublicKey)
    (copy : SealedRecord) : Except CorrespondenceError Unit :=
  let email := manifest.blocks.length = 1 ∧ manifest.blocks.all BlockDescriptor.isEmail = true
  let validContent := email ∨ manifest.blocks.all BlockDescriptor.isAuthored = true
  let maxCiphertext := maxEncodedDocumentBytes + 16
  refuseIf (manifest.sources ≠ [] ∨ ¬validContent ∨
    copy.binding.message ≠ manifest.message ∨
    copy.binding.contentRef.val = 0 ∨
    copy.binding.wireVersion ≠ ⟨1⟩ ∨
    copy.binding.protocolVersion ≠ ⟨2⟩ ∨
    copy.binding.declarations.validate ≠ .ok () ∨
    senderKey.bytes = zero32 ∨
    senderKey.reference.val = 0 ∨
    copy.envelope.senderKey ≠ senderKey.reference ∨
    copy.envelope.recipientKey.val = 0 ∨
    copy.envelope.encapsulatedKey.length ≠ 32 ∨
    ¬(16 ≤ copy.envelope.ciphertext.length ∧ copy.envelope.ciphertext.length ≤ maxCiphertext) ∨
    copy.expiresAt ≤ copy.createdAt ∨
    copy.binding.messageValidUntil.time ≤ copy.createdAt) .invalid

/-! ### Messages -/

inductive DeliveryTransport
  | native
  | external
  deriving DecidableEq

inductive RouteBasis
  | aliasLane (revision : PermissionRevision)
  | pairedSender (id : LaneId) (version : Version) (revision : PermissionRevision)
  | standing (version : RelationshipVersion)
  | senderLane (id : LaneId) (version : Version)
  deriving DecidableEq

inductive ReceivingProvenance
  | aliasPermission (basis : RouteBasis)
  | native (admission : AdmissionBasis)
  | request (request : RequestId)
  | conversationReply
  | developmentAssignment (operation : IdempotencyKey)
  deriving DecidableEq

/-- The provenance names what it rests on. -/
def ReceivingProvenance.named : ReceivingProvenance → Bool
  | aliasPermission (.senderLane id _) | aliasPermission (.pairedSender id _ _) => id.val ≠ 0
  | request id => id.val ≠ 0
  | developmentAssignment operation => operation.val ≠ 0
  | aliasPermission (.aliasLane _) | aliasPermission (.standing _) | native _ | conversationReply => true

/-- The inbox assignment of a delivered message. -/
structure DeliveredRoute where
  transport : DeliveryTransport
  message : MessageId
  receivingAlias : AliasId
  aliasRevision : U64
  sender : ProtocolIdentity
  recipient : ProtocolIdentity
  conversation : ConversationId
  time : CanonicalTime
  provenance : ReceivingProvenance
  named : message.val ≠ 0 ∧ sender.val ≠ 0 ∧ recipient.val ≠ 0 ∧ provenance.named = true
  distinct : sender ≠ recipient

instance : DecidableEq DeliveredRoute := fun a b =>
  decidable_of_iff (a.transport = b.transport ∧ a.message = b.message ∧
    a.receivingAlias = b.receivingAlias ∧ a.aliasRevision = b.aliasRevision ∧ a.sender = b.sender ∧
    a.recipient = b.recipient ∧ a.conversation = b.conversation ∧ a.time = b.time ∧
    a.provenance = b.provenance) (by
    cases a
    cases b
    simp)

structure DeliveredRouteRecord where
  transport : DeliveryTransport
  message : MessageId
  receivingAlias : AliasId
  aliasRevision : U64
  sender : ProtocolIdentity
  recipient : ProtocolIdentity
  conversation : ConversationId
  time : CanonicalTime
  provenance : ReceivingProvenance

/-- `TryFrom<DeliveredRouteRecord>`. -/
def DeliveredRouteRecord.route (r : DeliveredRouteRecord) : Except CorrespondenceError DeliveredRoute :=
  if h : (r.message.val ≠ 0 ∧ r.sender.val ≠ 0 ∧ r.recipient.val ≠ 0 ∧ r.provenance.named = true) ∧
      r.sender ≠ r.recipient then
    .ok {
      transport := r.transport
      message := r.message
      receivingAlias := r.receivingAlias
      aliasRevision := r.aliasRevision
      sender := r.sender
      recipient := r.recipient
      conversation := r.conversation
      time := r.time
      provenance := r.provenance
      named := h.1
      distinct := h.2}
  else .error .invalid

inductive Direction
  | memberToGuest
  | guestToMember (route : DeliveredRoute)
  deriving DecidableEq

structure MessageFields where
  manifest : MessageManifest
  senderKey : EndpointPublicKey
  memberCopy : SealedRecord
  direction : Direction
  committedAt : CanonicalTime
  deriving DecidableEq

/-- A received message repeats its inbox, its participants and its time. -/
def MessageFields.bound (f : MessageFields) : Bool :=
  match f.direction with
  | .memberToGuest => f.memberCopy.binding.sender = f.memberCopy.binding.recipient
  | .guestToMember route =>
    route.transport = .external ∧ route.message = f.manifest.message ∧
      route.conversation = f.manifest.conversation ∧ route.sender = f.memberCopy.binding.sender ∧
      route.recipient = f.memberCopy.binding.recipient ∧ route.time = f.committedAt

/-- `Message` of an external conversation. -/
structure ExternalMessage where
  fields : MessageFields
  bound : fields.bound = true

instance : DecidableEq ExternalMessage := fun a b =>
  decidable_of_iff (a.fields = b.fields) (by
    cases a
    cases b
    simp)

namespace ExternalMessage

def new (fields : MessageFields) : Except CorrespondenceError ExternalMessage :=
  if h : fields.bound = true then .ok ⟨fields, h⟩ else .error .invalid

theorem new_eq_ok {fields : MessageFields} {m : ExternalMessage} (h : new fields = .ok m) :
    m.fields = fields := by
  unfold new at h
  split_ifs at h
  cases h
  rfl

def message (m : ExternalMessage) : MessageId := m.fields.manifest.message

variable [Crypto]

def validate (m : ExternalMessage) (c : ExternalConversation) (r : Relationship) :
    Except CorrespondenceError Unit := do
  validateCopy m.fields.manifest m.fields.senderKey m.fields.memberCopy
  let sender := match m.fields.direction with
    | .memberToGuest => c.member
    | .guestToMember _ => c.guest
  refuseIf (m.fields.manifest.conversation ≠ c.id ∨ r.key.sender ≠ c.guest ∨ r.key.recipient ≠ c.member ∨
    m.fields.memberCopy.binding.sender ≠ sender ∨
    m.fields.memberCopy.binding.recipient ≠ c.member ∨
    m.fields.memberCopy.binding.relationship ≠ r.key.reference ∨
    m.fields.committedAt < m.fields.memberCopy.createdAt) .invalid
  match m.fields.direction with
  | .memberToGuest => .ok ()
  | .guestToMember route =>
    refuseIf (route.transport ≠ .external ∨ route.message ≠ m.fields.manifest.message ∨
      route.conversation ≠ c.id ∨ route.sender ≠ c.guest ∨ route.recipient ≠ c.member ∨
      route.time ≠ m.fields.committedAt) .invalid

end ExternalMessage
end CsMail
