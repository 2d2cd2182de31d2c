import CsMail.Protocol.Model

/-! What the host brings to a transition: the operator's policy, a price, permission. -/
namespace CsMail
open Library

structure PolicySnapshot where
  replyLane : ReplyLaneTerms
  protocolVersion : ProtocolVersion
  policyVersion : PolicyVersion
  privacyProfileVersion : PrivacyProfileVersion
  retentionPolicyVersion : RetentionPolicyVersion
  recipientProvider : ProviderRef
  unit : SettlementUnit
  submissionWindow : Duration
  decisionWindow : Duration
  quoteLifetime : Duration
  backoff : List Duration
  financial : FinancialTerms
  paymentProviderKey : Bytes32
  expiryCooldown : Duration
  rejectionCooldown : Duration
  deriving DecidableEq

namespace PolicySnapshot

/-- Waiting time by request level; levels past the last step wait the last step. -/
def backoffFor (p : PolicySnapshot) (level : U32) : Duration :=
  (p.backoff[level.val]?.orElse fun _ => p.backoff.getLast?).getD ⟨0⟩

def startsAtZero (p : PolicySnapshot) : Bool := p.backoff.head? = some ⟨0⟩

def neverDecreases (p : PolicySnapshot) : Bool :=
  (p.backoff.zip p.backoff.tail).all fun pair => pair.1 ≤ pair.2

def validate (p : PolicySnapshot) : Except ProtocolError Unit :=
  refuseIf (p.financial.validate ≠ .ok () ∨ p.paymentProviderKey = zero32 ∨
    p.decisionWindow.val = 0 ∨ p.startsAtZero = false ∨ p.neverDecreases = false) .policyInvalid

end PolicySnapshot

/-- Why a requested class cannot be priced. -/
inductive PricingRefusal
  | noPolicy
  | classUnknown
  | classOutsidePolicy
  deriving DecidableEq

def ProtocolError.ofPricing : PricingRefusal → ProtocolError
  | .noPolicy => policyInvalid
  | .classUnknown => requestClassUnknown
  | .classOutsidePolicy => requestClassOutsidePolicy

/-- The price of one request class under one policy version. -/
structure RequestPrice where
  policyVersion : PolicyVersion
  unit : SettlementUnit
  processingCharge : Money
  collateral : Money
  selected : SelectedRequestClass
  published : policyVersion.val ≠ 0
  charged : processingCharge.isZero = false
  secured : collateral.isZero = false
  payable : (processingCharge.checkedAdd collateral).isSome = true

theorem RequestPrice.ext_iff_data {a b : RequestPrice} :
    (a.policyVersion, a.unit, a.processingCharge, a.collateral, a.selected) =
      (b.policyVersion, b.unit, b.processingCharge, b.collateral, b.selected) ↔ a = b := by
  cases a
  cases b
  simp

instance : DecidableEq RequestPrice := fun _ _ => decidable_of_iff _ RequestPrice.ext_iff_data

inductive QuotePricing
  | notRequested
  | resolved (price : RequestPrice)
  | refused (refusal : PricingRefusal)
  deriving DecidableEq

def QuotePricing.price : QuotePricing → Except ProtocolError RequestPrice
  | resolved price => .ok price
  | refused refusal => .error (.ofPricing refusal)
  | notRequested => .error .policyInvalid

/-- Current permission for the exact receiving alias, independently of pricing. -/
inductive RequestPermission
  | notRequested
  | bondedRequest
  | directContact
  deriving DecidableEq

inductive RequestDeliveryRoute
  | guestRelay
  | nativeMailboxes
  deriving DecidableEq

structure TransitionContext where
  requestPermission : RequestPermission
  requestDelivery : RequestDeliveryRoute
  /-- Result of the host's content and policy checks at canonical receipt time. -/
  admission : Except AdmissionFailure Unit
  now : CanonicalTime
  journalPosition : JournalPosition
  protocolVersion : ProtocolVersion
  policy : PolicySnapshot
  pricing : QuotePricing

end CsMail
