import CsMail.Library.Codec
import CsMail.Protocol.Command
import CsMail.Wire.Json

/-! Authenticated commands as deterministic CBOR.

The format uses only arrays of a fixed length, integers, text and byte strings of a fixed
width. A decoded command is encoded once more and compared with the bytes it came from. -/
namespace CsMail
open Library

abbrev U8 := Fin (2 ^ 8)

inductive WireError
  | codec (message : Text)
  | unexpectedShape
  | unsupportedVersion (version : ProtocolVersion)
  | unknownTag (tag : U32)
  | invalidIdentifier
  | trailingData
  deriving DecidableEq

/-- minicbor: the bytes of one item, and the reader of one. -/
class Cbor where
  array : U64 → Bytes
  u8 : U8 → Bytes
  u16 : U16 → Bytes
  u32 : U32 → Bytes
  u64 : U64 → Bytes
  bytes : Bytes → Bytes
  str : Text → Bytes
  /-- The length of an array, unless it is indefinite. -/
  readArray : Codec.Reader UInt8 Text (Option U64)
  readU8 : Codec.Reader UInt8 Text U8
  readU16 : Codec.Reader UInt8 Text U16
  readU32 : Codec.Reader UInt8 Text U32
  readU64 : Codec.Reader UInt8 Text U64
  readBytes : Codec.Reader UInt8 Text Bytes
  readStr : Codec.Reader UInt8 Text Text

abbrev Encoder := Codec.Writer UInt8 WireError

abbrev Decoder := Codec.Reader UInt8 WireError

section
variable [Cbor]

namespace Encoder

def array (length : U64) : Encoder Unit := Codec.write (Cbor.array length)
def u8 (x : U8) : Encoder Unit := Codec.write (Cbor.u8 x)
def u16 (x : U16) : Encoder Unit := Codec.write (Cbor.u16 x)
def u32 (x : U32) : Encoder Unit := Codec.write (Cbor.u32 x)
def u64 (x : U64) : Encoder Unit := Codec.write (Cbor.u64 x)
def bytes (b : Bytes) : Encoder Unit := Codec.write (Cbor.bytes b)
def str (t : Text) : Encoder Unit := Codec.write (Cbor.str t)

end Encoder

namespace Decoder

def array : Decoder (Option U64) := Codec.mapErrors .codec Cbor.readArray
def u8 : Decoder U8 := Codec.mapErrors .codec Cbor.readU8
def u16 : Decoder U16 := Codec.mapErrors .codec Cbor.readU16
def u32 : Decoder U32 := Codec.mapErrors .codec Cbor.readU32
def u64 : Decoder U64 := Codec.mapErrors .codec Cbor.readU64
def bytes : Decoder Bytes := Codec.mapErrors .codec Cbor.readBytes
def str : Decoder Text := Codec.mapErrors .codec Cbor.readStr

end Decoder

/-! ### Fields -/

/-- `<[u8; 32]>::try_from`. -/
def bytes32 (b : Bytes) : Option Bytes32 :=
  if h : b.length = 32 then some ⟨b.toArray, by simpa using h⟩ else none

/-- `u128::from_be_bytes` of a `[u8; 16]`. -/
def u128OfBytes (b : Bytes) : Option U128 :=
  if h : b.length = 16 then some ⟨ofBeBytes b, (ofBeBytes_lt b).trans_eq (by rw [h]; decide)⟩ else none

def unknownTag (tag : U8) : WireError := .unknownTag ⟨tag.val, tag.isLt.trans (by decide)⟩

def expectArray (expected : U64) : Decoder Unit := do
  let actual ← Decoder.array
  refuseIf (actual ≠ some expected) WireError.unexpectedShape

def read32 : Decoder Bytes32 := do
  let b ← Decoder.bytes
  okOr (bytes32 b) WireError.unexpectedShape

def encodeId (value : U128) : Encoder Unit := Encoder.bytes (beBytes 16 value.val)

def decodeId : Decoder U128 := do
  let b ← Decoder.bytes
  okOr (u128OfBytes b) WireError.invalidIdentifier

def encodeScopedRef (version : U16) (b : Bytes32) : Encoder Unit := do
  Encoder.array 2
  Encoder.u16 version
  Encoder.bytes b.toList

def decodeScopedRef {k : ScopeKind} : Decoder (ScopedRef k) := do
  expectArray 2
  let version ← Decoder.u16
  let b ← Decoder.bytes
  let b ← okOr (bytes32 b) WireError.invalidIdentifier
  pure ⟨version, b⟩

def encodeOptionalDeclarationDigest : Option MessageDeclarationDigest → Encoder Unit
  | some digest => do
    Encoder.array 1
    Encoder.bytes digest.bytes.toList
  | none => Encoder.array 0

def decodeOptionalDeclarationDigest : Decoder (Option MessageDeclarationDigest) := do
  let length ← Decoder.array
  if length = some 0 then pure none
  else if length = some 1 then do
    let digest ← read32
    pure (some ⟨digest⟩)
  else throw WireError.unexpectedShape

/-- `serde_json::to_vec`, as a byte string. -/
def encodeJson [Json] (v : JsonValue) : Encoder Unit := do
  let b ← okOr (Json.toVec v) WireError.invalidIdentifier
  Encoder.bytes b

/-- `serde_json::from_slice` of a byte string. -/
def decodeJson [Json] {α : Type} (ofJson : JsonValue → Option α) : Decoder α := do
  let b ← Decoder.bytes
  okOr ((Json.fromSlice b).bind ofJson) WireError.invalidIdentifier

/-! ### Request terms -/

def encodeFinancialScope (scope : FinancialScope) : Encoder Unit := do
  Encoder.array 5
  Encoder.bytes scope.deploymentDomain.toList
  encodeId scope.operator.val
  encodeId scope.program.val
  Encoder.bytes scope.paymentAccount.toList
  Encoder.u16 scope.protocolVersion.val

def decodeFinancialScope : Decoder FinancialScope := do
  expectArray 5
  let deploymentDomain ← read32
  let operator ← decodeId
  let program ← decodeId
  let paymentAccount ← read32
  let protocolVersion ← Decoder.u16
  pure ⟨deploymentDomain, ⟨operator⟩, ⟨program⟩, paymentAccount, ⟨protocolVersion⟩⟩

def decodeAlias : Decoder AliasId := do
  let value ← decodeId
  okOr (AliasId.new value) WireError.invalidIdentifier

def encodeSelectedClass (c : SelectedRequestClass) : Encoder Unit := do
  encodeId c.id.val
  Encoder.str c.description

def decodeSelectedClass : Decoder SelectedRequestClass := do
  let id ← decodeId
  let description ← Decoder.str
  (SelectedRequestClass.new ⟨id⟩ description).mapError fun _ => WireError.invalidIdentifier

variable [Json]

def encodeTerms (terms : RequestTerms) : Encoder Unit := do
  Encoder.array 36
  encodeJson terms.returnRoute.json
  encodeId terms.receivingAlias.val
  encodeSelectedClass terms.selectedClass
  encodeId terms.quoteId.val
  Encoder.u16 terms.protocolVersion.val
  Encoder.u64 terms.policyVersion.val
  Encoder.u64 terms.pricingPolicyVersion.val
  Encoder.u16 terms.privacyProfileVersion.val
  Encoder.u16 terms.retentionPolicyVersion.val
  encodeScopedRef terms.relationship.derivationVersion terms.relationship.bytes
  encodeScopedRef terms.requestHistory.derivationVersion terms.requestHistory.bytes
  encodeId terms.sender.val
  encodeId terms.recipient.val
  encodeId terms.recipientProvider.val
  Encoder.u64 terms.relationshipVersion.val
  Encoder.u64 terms.historyVersion.val
  Encoder.u64 terms.processingCharge.minorUnits
  Encoder.u64 terms.collateral.minorUnits
  Encoder.u32 terms.requestLevel
  Encoder.u64 terms.eligibilityTime.val
  Encoder.u32 terms.unit.val
  Encoder.u64 terms.submissionWindow.val
  Encoder.u64 terms.decisionWindow.val
  Encoder.u64 terms.issuedAt.val
  Encoder.u64 terms.expiresAt.val
  encodeOptionalDeclarationDigest terms.declarationDigest
  encodeFinancialScope terms.financial.scope
  Encoder.u64 terms.financial.policyVersion.val
  Encoder.u16 terms.financial.corporateBasisPoints
  Encoder.u64 terms.financial.maturityDelay.val
  Encoder.bytes terms.paymentProviderKey.toList
  Encoder.u64 terms.expiryCooldown.val
  Encoder.u64 terms.rejectionCooldown.val
  Encoder.u64 terms.nextRequestBackoff.val
  encodeJson terms.replyLane.json

def decodeTerms : Decoder RequestTerms := do
  expectArray 36
  let returnRoute ← decodeJson RequestReturnRoute.ofJson
  let receivingAlias ← decodeAlias
  let selectedClass ← decodeSelectedClass
  let quoteId ← decodeId
  let protocolVersion ← Decoder.u16
  let policyVersion ← Decoder.u64
  let pricingPolicyVersion ← Decoder.u64
  let privacyProfileVersion ← Decoder.u16
  let retentionPolicyVersion ← Decoder.u16
  let relationship ← decodeScopedRef
  let requestHistory ← decodeScopedRef
  let sender ← decodeId
  let recipient ← decodeId
  let recipientProvider ← decodeId
  let relationshipVersion ← Decoder.u64
  let historyVersion ← Decoder.u64
  let processingCharge ← Decoder.u64
  let collateral ← Decoder.u64
  let requestLevel ← Decoder.u32
  let eligibilityTime ← Decoder.u64
  let unit ← Decoder.u32
  let submissionWindow ← Decoder.u64
  let decisionWindow ← Decoder.u64
  let issuedAt ← Decoder.u64
  let expiresAt ← Decoder.u64
  let declarationDigest ← decodeOptionalDeclarationDigest
  let scope ← decodeFinancialScope
  let financialPolicyVersion ← Decoder.u64
  let corporateBasisPoints ← Decoder.u16
  let maturityDelay ← Decoder.u64
  let paymentProviderKey ← read32
  let expiryCooldown ← Decoder.u64
  let rejectionCooldown ← Decoder.u64
  let nextRequestBackoff ← Decoder.u64
  let replyLane ← decodeJson RequestReplyAgreement.ofJson
  pure {
    returnRoute
    receivingAlias
    replyLane
    selectedClass
    pricingPolicyVersion := ⟨pricingPolicyVersion⟩
    quoteId := ⟨quoteId⟩
    protocolVersion := ⟨protocolVersion⟩
    policyVersion := ⟨policyVersion⟩
    privacyProfileVersion := ⟨privacyProfileVersion⟩
    retentionPolicyVersion := ⟨retentionPolicyVersion⟩
    relationship
    requestHistory
    sender := ⟨sender⟩
    recipient := ⟨recipient⟩
    recipientProvider := ⟨recipientProvider⟩
    relationshipVersion := (⟨relationshipVersion⟩ : Version).into
    historyVersion := (⟨historyVersion⟩ : Version).into
    processingCharge := ⟨processingCharge⟩
    collateral := ⟨collateral⟩
    requestLevel
    eligibilityTime := ⟨eligibilityTime⟩
    unit := ⟨unit⟩
    submissionWindow := ⟨submissionWindow⟩
    decisionWindow := ⟨decisionWindow⟩
    issuedAt := ⟨issuedAt⟩
    expiresAt := ⟨expiresAt⟩
    declarationDigest
    financial := ⟨scope, ⟨financialPolicyVersion⟩, corporateBasisPoints, ⟨maturityDelay⟩⟩
    paymentProviderKey
    expiryCooldown := ⟨expiryCooldown⟩
    rejectionCooldown := ⟨rejectionCooldown⟩
    nextRequestBackoff := ⟨nextRequestBackoff⟩}

/-! ### Commands -/

def encodePaymentOutcome : PaymentOutcome → Encoder Unit
  | .settled => Encoder.u8 0
  | .pending => Encoder.u8 3
  | .failed => Encoder.u8 4
  | .voided => Encoder.u8 1
  | .reversed => Encoder.u8 2

def paymentOutcomeOf (code : U8) : Except WireError PaymentOutcome :=
  match code.val with
  | 0 => .ok .settled
  | 1 => .ok .voided
  | 2 => .ok .reversed
  | 3 => .ok .pending
  | 4 => .ok .failed
  | _ => .error .unexpectedShape

def encodeCancellationReason : CancellationReason → Encoder Unit
  | .senderRequested => Encoder.u8 0
  | .submissionTimeout => Encoder.u8 1
  | .preSubmissionFailure => Encoder.u8 2

def cancellationReasonOf (code : U8) : Except WireError CancellationReason :=
  match code.val with
  | 0 => .ok .senderRequested
  | 1 => .ok .submissionTimeout
  | 2 => .ok .preSubmissionFailure
  | _ => .error (unknownTag code)

def encodeVersionCommand (tag : U8) (version : Version) : Encoder Unit := do
  Encoder.array 2
  Encoder.u8 tag
  Encoder.u64 version.val

def encodeCommand : ProtocolCommand → Encoder Unit
  | .recordPayment request receipt => do
    Encoder.array 7
    Encoder.u8 11
    encodeId request.val
    encodeId receipt.evidence.eventId.val
    encodeId receipt.evidence.operationId.val
    Encoder.bytes receipt.evidence.operationDigest.toList
    encodePaymentOutcome receipt.evidence.outcome
    Encoder.bytes receipt.signature
  | .setFollowupPolicy expectedVersion policy => do
    Encoder.array 6
    Encoder.u8 12
    Encoder.u64 expectedVersion.val
    Encoder.u64 policy.version.val
    Encoder.u32 policy.maxMessages
    Encoder.u32 policy.maxPerInterval
    Encoder.u64 policy.interval.val
  | .admitFollowup request message content deliveryIntent declarationDigest messageValidUntil
      expectedPolicyVersion => do
    Encoder.array 8
    Encoder.u8 13
    encodeId request.val
    encodeId message.val
    encodeId content.val
    encodeId deliveryIntent.val
    Encoder.bytes declarationDigest.bytes.toList
    Encoder.u64 messageValidUntil.time.val
    Encoder.u64 expectedPolicyVersion.val
  | .issueRequestTerms returnRoute address classId quote declarationDigest => do
    Encoder.array 6
    Encoder.u8 0
    encodeJson returnRoute.json
    encodeId address.val
    encodeId classId.val
    encodeId quote.val
    encodeOptionalDeclarationDigest declarationDigest
  | .createRequest paymentMethod request message terms => do
    Encoder.array 5
    Encoder.u8 1
    encodeId request.val
    encodeId message.val
    encodeTerms terms
    Encoder.bytes paymentMethod.toList
  | .submitRequestToRecipient request expectedRequestVersion content deliveryIntent declarationDigest
      messageValidUntil => do
    Encoder.array 7
    Encoder.u8 2
    encodeId request.val
    Encoder.u64 expectedRequestVersion.val
    encodeId content.val
    encodeId deliveryIntent.val
    Encoder.bytes declarationDigest.bytes.toList
    Encoder.u64 messageValidUntil.time.val
  | .cancelRequestSubmission request expectedRequestVersion reason => do
    Encoder.array 4
    Encoder.u8 3
    encodeId request.val
    Encoder.u64 expectedRequestVersion.val
    encodeCancellationReason reason
  | .acceptRelationship expectedVersion => encodeVersionCommand 4 expectedVersion
  | .rejectRelationship expectedVersion => encodeVersionCommand 5 expectedVersion
  | .blockRelationship expectedVersion => encodeVersionCommand 6 expectedVersion
  | .unblockRelationship expectedVersion => encodeVersionCommand 7 expectedVersion
  | .expireRequest request expectedRequestVersion => do
    Encoder.array 3
    Encoder.u8 8
    encodeId request.val
    Encoder.u64 expectedRequestVersion.val
  | .revokeRelationship expectedVersion => encodeVersionCommand 10 expectedVersion

namespace DecodeCommand

def recordPayment : Decoder ProtocolCommand := do
  let request ← decodeId
  let eventId ← decodeId
  let operationId ← decodeId
  let operationDigest ← read32
  let code ← Decoder.u8
  let outcome ← paymentOutcomeOf code
  let signature ← Decoder.bytes
  refuseIf (signature.length ≠ 64) WireError.unexpectedShape
  pure (.recordPayment ⟨request⟩ ⟨⟨⟨eventId⟩, ⟨operationId⟩, operationDigest, outcome⟩, signature⟩)

def setFollowupPolicy : Decoder ProtocolCommand := do
  let expectedVersion ← Decoder.u64
  let version ← Decoder.u64
  let maxMessages ← Decoder.u32
  let maxPerInterval ← Decoder.u32
  let interval ← Decoder.u64
  pure (.setFollowupPolicy ⟨expectedVersion⟩ ⟨⟨version⟩, maxMessages, maxPerInterval, ⟨interval⟩⟩)

def admitFollowup : Decoder ProtocolCommand := do
  let request ← decodeId
  let message ← decodeId
  let content ← decodeId
  let deliveryIntent ← decodeId
  let declarationDigest ← read32
  let messageValidUntil ← Decoder.u64
  let expectedPolicyVersion ← Decoder.u64
  pure (.admitFollowup ⟨request⟩ ⟨message⟩ ⟨content⟩ ⟨deliveryIntent⟩ ⟨declarationDigest⟩
    ⟨⟨messageValidUntil⟩⟩ ⟨expectedPolicyVersion⟩)

def issueRequestTerms : Decoder ProtocolCommand := do
  let returnRoute ← decodeJson RequestReturnRoute.ofJson
  let address ← decodeAlias
  let classId ← decodeId
  let quote ← decodeId
  let declarationDigest ← decodeOptionalDeclarationDigest
  pure (.issueRequestTerms returnRoute address ⟨classId⟩ ⟨quote⟩ declarationDigest)

def createRequest : Decoder ProtocolCommand := do
  let request ← decodeId
  let message ← decodeId
  let terms ← decodeTerms
  let paymentMethod ← read32
  pure (.createRequest paymentMethod ⟨request⟩ ⟨message⟩ terms)

def submitRequestToRecipient : Decoder ProtocolCommand := do
  let request ← decodeId
  let expectedRequestVersion ← Decoder.u64
  let content ← decodeId
  let deliveryIntent ← decodeId
  let declarationDigest ← read32
  let messageValidUntil ← Decoder.u64
  pure (.submitRequestToRecipient ⟨request⟩ ⟨expectedRequestVersion⟩ ⟨content⟩ ⟨deliveryIntent⟩
    ⟨declarationDigest⟩ ⟨⟨messageValidUntil⟩⟩)

def cancelRequestSubmission : Decoder ProtocolCommand := do
  let request ← decodeId
  let expectedRequestVersion ← Decoder.u64
  let code ← Decoder.u8
  let reason ← cancellationReasonOf code
  pure (.cancelRequestSubmission ⟨request⟩ ⟨expectedRequestVersion⟩ reason)

def expireRequest : Decoder ProtocolCommand := do
  let request ← decodeId
  let expectedRequestVersion ← Decoder.u64
  pure (.expireRequest ⟨request⟩ ⟨expectedRequestVersion⟩)

/-- A command that is a version and nothing else. -/
def version (command : Version → ProtocolCommand) : Decoder ProtocolCommand := do
  let expectedVersion ← Decoder.u64
  pure (command ⟨expectedVersion⟩)

/-- The tag table. -/
def tagged (tag : U8) (length : U64) : Decoder ProtocolCommand :=
  match tag.val, length.val with
  | 11, 7 => recordPayment
  | 12, 6 => setFollowupPolicy
  | 13, 8 => admitFollowup
  | 0, 6 => issueRequestTerms
  | 1, 5 => createRequest
  | 2, 7 => submitRequestToRecipient
  | 3, 4 => cancelRequestSubmission
  | 4, 2 => version .acceptRelationship
  | 5, 2 => version .rejectRelationship
  | 6, 2 => version .blockRelationship
  | 7, 2 => version .unblockRelationship
  | 8, 3 => expireRequest
  | 10, 2 => version .revokeRelationship
  | _, _ => throw (unknownTag tag)

end DecodeCommand

def decodeCommand : Decoder ProtocolCommand := do
  let length ← Decoder.array
  let length ← okOr length WireError.unexpectedShape
  let tag ← Decoder.u8
  DecodeCommand.tagged tag length

/-! ### Envelopes -/

inductive CommandTarget
  | relationship (reference : RelationshipRef)
  deriving DecidableEq

structure CanonicalCommandEnvelope where
  wireVersion : WireVersion
  protocolVersion : ProtocolVersion
  deploymentDomain : Bytes32
  intendedProvider : ProviderRef
  target : CommandTarget
  actor : ActorRef
  operationalKey : OperationalKeyRef
  idempotencyKey : IdempotencyKey
  command : ProtocolCommand
  deriving DecidableEq

def signingDomain : Text := "cs-mail/command/v7".toList

def quoteSigningDomain : Text := "cs-mail/request-terms/v7".toList

def encodeTarget : CommandTarget → Encoder Unit
  | .relationship reference => do
    Encoder.array 2
    Encoder.u8 0
    encodeScopedRef reference.derivationVersion reference.bytes

def decodeTarget : Decoder CommandTarget := do
  expectArray 2
  let tag ← Decoder.u8
  if tag = 0 then do
    let reference ← decodeScopedRef
    pure (.relationship reference)
  else throw (unknownTag tag)

def encodeActor (actor : ActorRef) : Encoder Unit := do
  Encoder.array 2
  match actor with
  | .sender identity => do
    Encoder.u8 0
    encodeId identity.val
  | .recipient identity => do
    Encoder.u8 1
    encodeId identity.val
  | .provider provider => do
    Encoder.u8 2
    encodeId provider.val
  | .scheduler provider => do
    Encoder.u8 3
    encodeId provider.val

def actorOf (tag : U8) (id : U128) : Except WireError ActorRef :=
  match tag.val with
  | 0 => .ok (.sender ⟨id⟩)
  | 1 => .ok (.recipient ⟨id⟩)
  | 2 => .ok (.provider ⟨id⟩)
  | 3 => .ok (.scheduler ⟨id⟩)
  | _ => .error (unknownTag tag)

def decodeActor : Decoder ActorRef := do
  expectArray 2
  let tag ← Decoder.u8
  let id ← decodeId
  actorOf tag id

def encodeEnvelope (e : CanonicalCommandEnvelope) : Encoder Unit := do
  Encoder.array 10
  Encoder.str signingDomain
  Encoder.u16 e.wireVersion.val
  Encoder.u16 e.protocolVersion.val
  Encoder.bytes e.deploymentDomain.toList
  encodeId e.intendedProvider.val
  encodeTarget e.target
  encodeActor e.actor
  encodeId e.operationalKey.val
  encodeId e.idempotencyKey.val
  encodeCommand e.command

def decodeEnvelope : Decoder CanonicalCommandEnvelope := do
  expectArray 10
  let domain ← Decoder.str
  refuseIf (domain ≠ signingDomain) WireError.unexpectedShape
  let wireVersion ← Decoder.u16
  let protocolVersion ← Decoder.u16
  let deploymentDomain ← read32
  let intendedProvider ← decodeId
  let target ← decodeTarget
  let actor ← decodeActor
  let operationalKey ← decodeId
  let idempotencyKey ← decodeId
  let command ← decodeCommand
  pure ⟨⟨wireVersion⟩, ⟨protocolVersion⟩, deploymentDomain, ⟨intendedProvider⟩, target, actor,
    ⟨operationalKey⟩, ⟨idempotencyKey⟩, command⟩

/-- The exact bytes covered by an operational-key signature. -/
def encodeCommandEnvelope (e : CanonicalCommandEnvelope) : Except WireError Bytes := do
  let (_, b) ← (encodeEnvelope e).run []
  .ok b

/-- The bytes a provider signs when it issues terms. -/
def encodeContactTermsArtifact (terms : RequestTerms) : Except WireError Bytes := do
  let (_, b) ← (do
    Encoder.array 2
    Encoder.str quoteSigningDomain
    encodeTerms terms : Encoder Unit).run []
  .ok b

/-- Decodes one canonical command envelope: one value, nothing after it, and in the only way
to write it. -/
def decodeCommandEnvelope (b : Bytes) : Except WireError CanonicalCommandEnvelope := do
  let (envelope, cursor) ← decodeEnvelope.run ⟨b, 0⟩
  refuseIf (cursor.position ≠ b.length) .trailingData
  let again ← encodeCommandEnvelope envelope
  refuseIf (again ≠ b) .unexpectedShape
  .ok envelope

end
end CsMail
