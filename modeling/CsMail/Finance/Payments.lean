import CsMail.Library.Refusal
import CsMail.Primitives

/-! Payment operations and the signed evidence a processor returns about them.

Hashing and signature verification are parameters (`Crypto`): what the program adds
is which bytes are hashed or signed, and what it checks before it verifies. -/
namespace CsMail
open Library

/-- The cryptographic primitives the program calls. -/
class Crypto where
  sha256 : Bytes → Bytes32
  /-- `VerifyingKey::from_bytes` accepts the key. -/
  validKey : Bytes32 → Bool
  /-- `verify_strict` accepts the signature of the message under the key. -/
  verifyStrict : Bytes32 → Bytes → Bytes → Bool

structure FinancialScope where
  deploymentDomain : Bytes32
  operator : ProviderRef
  program : ProgramRef
  paymentAccount : Bytes32
  protocolVersion : ProtocolVersion
  deriving DecidableEq

def FinancialScope.canonicalBytes (s : FinancialScope) : Bytes :=
  byteString "cs-mail/financial-scope/v1" ++ s.deploymentDomain.toList ++ s.operator.toBeBytes ++
    s.program.toBeBytes ++ s.paymentAccount.toList ++ beBytes 2 s.protocolVersion.val.val

inductive PaymentError
  | fundingRestricted
  | invalidSignature
  | operationMismatch
  | duplicateConflict
  | unavailable
  | invalidOperation
  deriving DecidableEq

inductive PaymentKind
  | capture
  | refund (capture : PaymentOperationId)
  | memberPayout (allocation : AllocationId)
  deriving DecidableEq

structure PaymentOperation where
  scope : FinancialScope
  id : PaymentOperationId
  kind : PaymentKind
  amount : Money
  unit : SettlementUnit
  /-- The provider's token for the original payment method or the verified member. -/
  destination : Bytes32
  deriving DecidableEq

namespace PaymentOperation

def validate (o : PaymentOperation) : Except PaymentError Unit := do
  refuseIf (o.id.val = 0 ∨ o.amount.isZero = true ∨ o.destination = zero32) .invalidOperation
  match o.kind with
  | .refund capture => refuseIf (capture.val = 0 ∨ capture = o.id) .invalidOperation
  | .memberPayout allocation => refuseIf (allocation.val = 0) .invalidOperation
  | .capture => .ok ()

def kindBytes : PaymentKind → Bytes
  | .capture => [0]
  | .refund capture => 1 :: capture.toBeBytes
  | .memberPayout allocation => 2 :: allocation.toBeBytes

def digestBytes (o : PaymentOperation) : Bytes :=
  byteString "cs-mail/payment-operation/v2" ++ o.scope.canonicalBytes ++ o.id.toBeBytes ++
    kindBytes o.kind ++ beBytes 8 o.amount.units ++ beBytes 4 o.unit.val.val ++
    o.destination.toList

def digest [Crypto] (o : PaymentOperation) : Bytes32 := Crypto.sha256 o.digestBytes

end PaymentOperation

def requestPaymentBytes (scope : FinancialScope) (relationship : RelationshipRef)
    (request : RequestId) (refund : Bool) : Bytes :=
  byteString "cs-mail/request-payment/v2" ++ scope.canonicalBytes ++
    beBytes 2 relationship.derivationVersion.val ++ relationship.bytes.toList ++
    request.toBeBytes ++ [if refund then 1 else 0]

/-- The operation identifier a request's capture or refund is bound to: sixteen bytes
of a hash over the scope, the relationship and the request. -/
def requestPaymentId [Crypto] (scope : FinancialScope) (relationship : RelationshipRef)
    (request : RequestId) (refund : Bool) : PaymentOperationId :=
  ⟨firstU128 (Crypto.sha256 (requestPaymentBytes scope relationship request refund))⟩

inductive PaymentOutcome
  | pending
  | settled
  | failed
  | voided
  | reversed
  deriving DecidableEq

structure PaymentEvidence where
  eventId : FinancialEventId
  operationId : PaymentOperationId
  operationDigest : Bytes32
  outcome : PaymentOutcome
  deriving DecidableEq

def PaymentOutcome.byte : PaymentOutcome → UInt8
  | settled => 0
  | pending => 3
  | failed => 4
  | voided => 1
  | reversed => 2

def PaymentEvidence.signingBytes (e : PaymentEvidence) : Bytes :=
  byteString "cs-mail/payment-evidence/v1" ++ e.eventId.toBeBytes ++ e.operationId.toBeBytes ++
    e.operationDigest.toList ++ [e.outcome.byte]

structure SignedPaymentEvidence where
  evidence : PaymentEvidence
  signature : Bytes
  deriving DecidableEq

/-- Verifies provider authority and the complete original operation. -/
def SignedPaymentEvidence.verify [Crypto] (s : SignedPaymentEvidence) (key : Bytes32)
    (operation : PaymentOperation) : Except PaymentError Unit := do
  refuseIf (s.evidence.operationId ≠ operation.id ∨ s.evidence.operationDigest ≠ operation.digest)
    .operationMismatch
  refuseIf (s.evidence.outcome = .voided ∧ operation.kind ≠ .capture) .invalidOperation
  refuseIf (Crypto.validKey key = false) .invalidSignature
  refuseIf (s.signature.length ≠ 64) .invalidSignature
  refuseIf (Crypto.verifyStrict key s.evidence.signingBytes s.signature = false) .invalidSignature

end CsMail
