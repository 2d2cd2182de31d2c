import CsMail.Protocol.Model

/-! Admission of messages: the checks every delivery route shares, and the messages
that need no request because a standing permission covers them. -/
namespace CsMail
open Library

structure AdmissionPolicy where
  version : Version
  supportedCriticalSchemas : List NamespacedIdentifier
  deriving DecidableEq

/-- A critical schema the recipient does not support. -/
def AdmissionPolicy.unsupported (p : AdmissionPolicy) (s : PayloadSchema) : Bool :=
  s.criticality = .critical ∧ s.id ∉ p.supportedCriticalSchemas

def AdmissionPolicy.evaluate (p : AdmissionPolicy) (declarations : MessageDeclarations) :
    Except AdmissionFailure Unit := do
  declarations.validate.mapError fun _ => .invalidDeclaration
  refuseIf (declarations.payloadSchema.any p.unsupported = true) .unsupportedCriticalExtension

structure ContentBinding where
  contentRef : ContentRef
  message : MessageId
  sender : ProtocolIdentity
  recipient : ProtocolIdentity
  protocolVersion : ProtocolVersion
  relationship : RelationshipRef
  declarations : MessageDeclarations
  messageValidUntil : MessageValidityUntil
  capability : Option LaneId
  deriving DecidableEq

structure EncryptedContentRecord where
  binding : ContentBinding
  createdAt : CanonicalTime
  expiresAt : CanonicalTime
  deriving DecidableEq

/-- Authority has already been established at durable receipt. -/
structure AdmissionContext where
  relationship : RelationshipKey
  protocol : ProtocolVersion
  now : CanonicalTime
  authority : DeclarationAuthority
  capability : Option LaneId
  deriving DecidableEq

section
variable [Crypto]

/-- Validates a proposed message against its stored ciphertext and current policy. -/
def validateMessage (record : EncryptedContentRecord) (message : Message)
    (context : AdmissionContext) (policy : AdmissionPolicy) : Except AdmissionFailure Unit := do
  let binding := record.binding
  refuseIf (binding.declarations.origin.authority ≠ context.authority ∨
    binding.capability ≠ context.capability) .authenticationMismatch
  refuseIf (context.now < record.createdAt) .contentMissing
  refuseIf (record.expiresAt ≤ context.now) .contentExpired
  refuseIf (message.validUntil.time < context.now) .messageValidityClosed
  refuseIf (binding.message ≠ message.id ∨ binding.contentRef ≠ message.content ∨
    binding.relationship ≠ context.relationship.reference ∨
    binding.sender ≠ context.relationship.sender ∨
    binding.recipient ≠ context.relationship.recipient ∨
    binding.protocolVersion ≠ context.protocol ∨
    binding.messageValidUntil ≠ message.validUntil) .contentScopeMismatch
  let digest ← binding.declarations.digest.mapError fun _ => .invalidDeclaration
  refuseIf (digest ≠ message.declaration) .contentScopeMismatch
  policy.evaluate binding.declarations

end

inductive AdmissionPlanError
  | protocol (error : ProtocolError)
  | policy (failure : AdmissionFailure)
  | capability (error : CapabilityError)
  deriving DecidableEq

/-- The complete consequence of free permission selection. -/
structure FreeAdmissionPlan where
  message : Message
  nextLane : Option SenderScopedLane
  deriving DecidableEq

def consumeLane (lane : SenderScopedLane) (request : BondFreeAdmission) (now : CanonicalTime) :
    Except AdmissionPlanError SenderScopedLane := do
  let evidence ← okOr request.evidence (.capability .notAuthorized)
  (lane.authorizes request.sender request.recipient request.capability request.declarations
    evidence now).mapError .capability
  let (lane, replayed) ← (lane.consume request.message request.capability request.declarations
    evidence now).mapError .capability
  refuseIf (replayed = true) (.protocol .duplicateConflict)
  .ok lane

/-- Accepted permission takes precedence over an attached lane. -/
def selectPermission (state : ProtocolState) (lane : Option SenderScopedLane) :
    Except AdmissionPlanError (AdmissionBasis × Option SenderScopedLane) :=
  if state.relationship.state = .accepted then
    .ok (.acceptedRelationship state.relationship.version, none)
  else do
    let lane ← okOr lane (.capability .notAuthorized)
    .ok (.expressLane lane.grant.id lane.version, some lane)

def BondFreeAdmission.authority (r : BondFreeAdmission) : DeclarationAuthority :=
  match r.authentication with
  | .nativeKey key => .nativeSender key
  | .legacyDmarc => .legacyGateway r.intendedProvider

/-- Plans accepted-relationship or lane delivery. -/
def planFreeAdmission [Crypto] (state : ProtocolState) (request : BondFreeAdmission)
    (record : Option EncryptedContentRecord) (lane : Option SenderScopedLane) (now : CanonicalTime)
    (policy : AdmissionPolicy) : Except AdmissionPlanError FreeAdmissionPlan := do
  refuseIf (state.relationship.state = .blocked) (.protocol .contactBlocked)
  refuseIf (request.sender ≠ state.relationship.key.sender ∨
    request.recipient ≠ state.relationship.key.recipient) (.capability .notAuthorized)
  let record ← okOr record (.policy .contentMissing)
  let (basis, candidate) ← selectPermission state lane
  let declaration ← request.declarations.digest.mapError fun _ => .policy .invalidDeclaration
  let message : Message := {
    id := request.message
    relationship := state.relationship.key.reference
    content := request.content
    delivery := request.deliveryIntent
    declaration
    validUntil := request.messageValidUntil
    admittedAt := now
    basis}
  let context : AdmissionContext := {
    relationship := state.relationship.key
    protocol := request.protocolVersion
    now
    authority := request.authority
    capability := request.capability}
  (validateMessage record message context policy).mapError .policy
  match candidate with
  | none => .ok ⟨message, none⟩
  | some lane => do
    let lane ← consumeLane lane request now
    .ok ⟨{message with basis := .expressLane lane.grant.id lane.version}, some lane⟩

end CsMail
