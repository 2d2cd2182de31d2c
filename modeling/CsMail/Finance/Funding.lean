import CsMail.Finance.Execution
import Mathlib.Data.Finset.Insert

/-! Bank accounts and the funding sources that captures draw on.

A verified bank account is a verifier-produced capability: it cannot be built without
the identity fields the verifier checks. A funding source limits how many captures are
unresolved at once, and whether a reserved one may still be dispatched. -/
namespace CsMail
open Library

structure BankVerification where
  scope : FinancialScope
  account : BillingAccountId
  member : MemberId
  /-- The bank integration's stable reference to the account. -/
  bankToken : Bytes32
  unit : SettlementUnit
  version : U64
  signature : Bytes
  deriving DecidableEq

/-- What a verification must name. -/
structure BankVerification.Identified (b : BankVerification) : Prop where
  account : b.account.val ≠ 0
  member : b.member.val ≠ 0
  bankToken : b.bankToken ≠ zero32
  version : b.version ≠ 0

structure VerifiedBankAccount where
  evidence : BankVerification
  authority : Bytes32
  identified : evidence.Identified
  deriving DecidableEq

/-- Verifies the association under the bank authority's key; `bytes` is its encoding for signing. -/
def BankVerification.verify [Crypto] (b : BankVerification)
    (bytes : BankVerification → Except PaymentError Bytes) (authority : Bytes32) :
    Except PaymentError VerifiedBankAccount :=
  if h : b.account.val = 0 ∨ b.member.val = 0 ∨ b.bankToken = zero32 ∨ b.version = 0 then
    .error .invalidOperation
  else do
    refuseIf (Crypto.validKey authority = false) .invalidSignature
    let message ← bytes b
    refuseIf (b.signature.length ≠ 64) .invalidSignature
    refuseIf (Crypto.verifyStrict authority message b.signature = false) .invalidSignature
    .ok ⟨b, authority, by
      simp only [not_or] at h
      exact ⟨h.1, h.2.1, h.2.2.1, h.2.2.2⟩⟩

/-- What establishes a funding source. -/
inductive SourceEvidence
  | bankVerification (version : U64)
  | guestInstrument
  deriving DecidableEq

structure FundingSource where
  token : Bytes32
  evidence : SourceEvidence
  restricted : Bool
  maximumUnresolved : U32
  attempts : SortedMap PaymentOperationId PaymentExecution
  dispatched : Finset PaymentOperationId
  deriving DecidableEq

structure StoredSource where
  token : Bytes32
  evidence : SourceEvidence
  restricted : Bool
  maximumUnresolved : U32
  attempts : SortedMap PaymentOperationId PaymentExecution
  dispatched : Finset PaymentOperationId
  deriving DecidableEq

namespace FundingSource

def verified (bank : VerifiedBankAccount) (maximumUnresolved : U32) :
    Except PaymentError FundingSource := do
  refuseIf (maximumUnresolved = 0) .invalidOperation
  .ok {
    token := bank.evidence.bankToken
    evidence := .bankVerification bank.evidence.version
    restricted := false
    maximumUnresolved
    attempts := ∅
    dispatched := ∅}

/-- A guest's payment instrument, identified by the processor's token for it. -/
def guestInstrument (token : Bytes32) (maximumUnresolved : U32) :
    Except PaymentError FundingSource := do
  refuseIf (maximumUnresolved = 0 ∨ token = zero32) .invalidOperation
  .ok {
    token, maximumUnresolved
    evidence := .guestInstrument
    restricted := false
    attempts := ∅
    dispatched := ∅}

/-- How many attempts have no outcome yet. -/
def unresolved (s : FundingSource) : Nat := s.attempts.values.countP fun p => p.state = .pending

def reserve (s : FundingSource) (operation : PaymentOperation) : Except PaymentError FundingSource :=
  match s.attempts.get? operation.id with
  | some old => if old.current = operation then .ok s else .error .duplicateConflict
  | none => do
    refuseIf (s.restricted = true ∨ s.maximumUnresolved.val ≤ s.unresolved ∨
      operation.destination ≠ s.token ∨ operation.kind ≠ .capture) .fundingRestricted
    let execution ← PaymentExecution.new operation
    .ok {s with attempts := s.attempts.insert operation.id execution}

/-- Grants the dispatch of a reserved attempt, once. -/
def authorizeDispatch (s : FundingSource) (id : PaymentOperationId) :
    Except PaymentError FundingSource :=
  if id ∈ s.dispatched then .ok s
  else do
    refuseIf (s.restricted = true ∨ (s.attempts.get? id).map PaymentExecution.state ≠ some .pending)
      .fundingRestricted
    .ok {s with dispatched := insert id s.dispatched}

def record [Crypto] (s : FundingSource) (receipt : SignedPaymentEvidence) (key : Bytes32) :
    Except PaymentError FundingSource := do
  let id := receipt.evidence.operationId
  refuseIf (id ∉ s.dispatched ∧ receipt.evidence.outcome ≠ .voided) .invalidOperation
  let payment ← okOr (s.attempts.get? id) .invalidOperation
  let (payment, _) ← payment.record receipt key
  .ok {s with
    attempts := s.attempts.insert id payment
    restricted := s.restricted || payment.state.isAdverse}

/-- A later verification of the same account lifts a restriction. -/
def reverify (s : FundingSource) (bank : VerifiedBankAccount) : Except PaymentError FundingSource :=
  match s.evidence with
  | .guestInstrument => .error .invalidOperation
  | .bankVerification version => do
    refuseIf (bank.evidence.bankToken ≠ s.token ∨ bank.evidence.version ≤ version) .invalidOperation
    .ok {s with evidence := .bankVerification bank.evidence.version, restricted := false}

def toStored (s : FundingSource) : StoredSource where
  token := s.token
  evidence := s.evidence
  restricted := s.restricted
  maximumUnresolved := s.maximumUnresolved
  attempts := s.attempts
  dispatched := s.dispatched

end FundingSource

namespace StoredSource

def checkAttempt (token : Bytes32) (e : PaymentOperationId × PaymentExecution) :
    Except PaymentError Unit :=
  refuseIf (e.1 ≠ e.2.current.id ∨ e.2.attemptCount ≠ 1 ∨ e.2.current.kind ≠ .capture ∨
    e.2.current.destination ≠ token) .invalidOperation

def tryFrom (v : StoredSource) : Except PaymentError FundingSource := do
  refuseIf (v.token = zero32 ∨ v.evidence = .bankVerification 0 ∨ v.maximumUnresolved = 0)
    .invalidOperation
  v.attempts.entries.forM (checkAttempt v.token)
  refuseIf (¬∀ id ∈ v.dispatched, v.attempts.contains id = true) .invalidOperation
  .ok {
    token := v.token
    evidence := v.evidence
    restricted := v.restricted
    maximumUnresolved := v.maximumUnresolved
    attempts := v.attempts
    dispatched := v.dispatched}

end StoredSource
end CsMail
