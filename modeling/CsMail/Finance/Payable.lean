import CsMail.Finance.Distribution
import CsMail.Finance.Funding

/-! One annual allocation, one bank payment. -/
namespace CsMail
open Library

structure MemberPayable where
  id : AllocationId
  member : MemberId
  distribution : AnnualDistributionId
  amount : Money
  terms : DistributionTerms
  scope : FinancialScope
  unit : SettlementUnit
  payment : Option PaymentExecution
  correction : Option FinancialEventId
  deriving DecidableEq

def payoutBytes (scope : FinancialScope) (allocation : AllocationId) (attempt : Nat) : Bytes :=
  byteString "cs-mail/distribution-payment/v1" ++ scope.canonicalBytes ++ allocation.toBeBytes ++
    beBytes 16 attempt

/-- The identifier of an allocation's payment attempt: sixteen bytes of a hash. -/
def payoutId [Crypto] (scope : FinancialScope) (allocation : AllocationId) (attempt : Nat) :
    PaymentOperationId :=
  ⟨firstU128 (Crypto.sha256 (payoutBytes scope allocation attempt))⟩

namespace MemberPayable

/-- The current attempt pays this allocation. -/
def Pays (p : MemberPayable) (scope : FinancialScope) (unit : SettlementUnit)
    (operation : PaymentOperation) : Prop :=
  operation.scope = scope ∧ operation.unit = unit ∧ operation.amount = p.amount ∧
    operation.kind = .memberPayout p.id

instance (p : MemberPayable) (scope : FinancialScope) (unit : SettlementUnit)
    (operation : PaymentOperation) : Decidable (p.Pays scope unit operation) :=
  inferInstanceAs (Decidable (_ ∧ _))

section
variable [Crypto]

def validate (p : MemberPayable) (scope : FinancialScope) (unit : SettlementUnit) :
    Except ProgramError Unit := do
  let year ← okOr (AnnualDistributionSchedule.year p.distribution) .invalidPolicy
  let next ← okOr (Checked.succ year) .invalidPolicy
  let cutoff ← okOr (calendarDate next 1 1) .invalidPolicy
  refuseIf (p.id.val = 0 ∨ p.member.val = 0 ∨ p.scope ≠ scope ∨ p.unit ≠ unit ∨
    p.terms.dueAt < cutoff) .invalidPayment
  match p.payment with
  | none => .ok ()
  | some payment => do
    payment.validate.mapError .payment
    refuseIf (¬p.Pays scope unit payment.current) .invalidPayment

def new (id : AllocationId) (member : MemberId) (distribution : AnnualDistributionId)
    (amount : Money) (terms : DistributionTerms) (scope : FinancialScope) (unit : SettlementUnit)
    (correction : Option FinancialEventId) : Except ProgramError MemberPayable := do
  let value : MemberPayable :=
    {id, member, distribution, amount, terms, scope, unit, payment := none, correction}
  value.validate scope unit
  .ok value

end

def outstanding (p : MemberPayable) : Money :=
  if p.payment.any fun payment => payment.state.isSettled then .zero else p.amount

/-- The first attempt at paying this allocation. -/
def payout [Crypto] (p : MemberPayable) (destination : Bytes32) : PaymentOperation where
  scope := p.scope
  id := payoutId p.scope p.id 0
  kind := .memberPayout p.id
  amount := p.amount
  unit := p.unit
  destination := destination

/-- Prepares the payment of a due allocation to the member's verified bank account. -/
def prepare [Crypto] (p : MemberPayable) (bank : VerifiedBankAccount) (now : CanonicalTime) :
    Except ProgramError (MemberPayable × Option PaymentOperation) := do
  let evidence := bank.evidence
  refuseIf (evidence.scope ≠ p.scope ∨ evidence.unit ≠ p.unit ∨ evidence.member ≠ p.member)
    .invalidPayment
  refuseIf (now < p.terms.dueAt) .tooEarly
  match p.payment with
  | some payment => do
    refuseIf (payment.current.destination ≠ evidence.bankToken) .invalidPayment
    match payment.state with
    | .pending => .ok (p, some payment.current)
    | .failed _ => do
      let (payment, operation) ←
        (payment.retry (payoutId p.scope p.id payment.attemptCount)).mapError .payment
      .ok ({p with payment := some payment}, some operation)
    | .settled _ => .ok (p, none)
    | _ => .error .invalidPayment
  | none =>
    if p.amount.isZero then .ok (p, none)
    else do
      let operation := p.payout evidence.bankToken
      let payment ← (PaymentExecution.new operation).mapError .payment
      .ok ({p with payment := some payment}, some operation)

/-- Records a receipt, and posts what it changes. -/
def recordReceipt [Crypto] (p : MemberPayable) (receipt : SignedPaymentEvidence) (key : Bytes32) :
    Except ProgramError (MemberPayable × LedgerBatch) := do
  let payment ← okOr p.payment .invalidPayment
  let (payment, change) ← (payment.record receipt key).mapError .payment
  let batch : LedgerBatch := match change with
    | .settled => (∅ : LedgerBatch).transfer (.memberPayable p.id) .processorClearing p.amount
    | .reversed => (∅ : LedgerBatch).transfer .processorClearing (.memberPayable p.id) p.amount
    | .none => ∅
  .ok ({p with payment := some payment}, batch)

end MemberPayable
end CsMail
