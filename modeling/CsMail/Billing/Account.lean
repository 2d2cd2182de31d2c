import CsMail.Billing.Service
import CsMail.Library.InPlace
import CsMail.Wire.Json
import Mathlib.Data.List.Sort

/-! A billing account: one verified bank account, and the service contracts bought with it.

Every operation is made on the account in place; the checks come before the revision is
raised, and the revision before anything else is assigned. -/
namespace CsMail
open Library

/-! ### What a bank verification signs -/

def FinancialScope.json (s : FinancialScope) : JsonValue :=
  .object [("deployment_domain".toList, Bytes.json s.deploymentDomain.toList),
    ("operator".toList, .unsigned s.operator.val), ("program".toList, .unsigned s.program.val),
    ("payment_account".toList, Bytes.json s.paymentAccount.toList),
    ("protocol_version".toList,
      .unsigned ⟨s.protocolVersion.val.val, s.protocolVersion.val.isLt.trans (by decide)⟩)]

def BankVerification.bytes [Json] (b : BankVerification) : Except PaymentError Bytes :=
  okOr (Json.toVec (.array [.string "cs-mail/bank-association/v1".toList, b.scope.json,
    .unsigned b.account.val, .unsigned b.member.val, Bytes.json b.bankToken.toList,
    .unsigned ⟨b.unit.val.val, b.unit.val.isLt.trans (by decide)⟩,
    .unsigned ⟨b.version.val, b.version.isLt.trans (by decide)⟩])) .invalidOperation

/-! ### The account -/

structure BillingAccount where
  bank : VerifiedBankAccount
  revision : U64
  contracts : SortedMap ServiceContractId ServiceContract
  deriving DecidableEq

/-- The stored form of an account. -/
structure StoredAccount where
  bank : BankVerification
  verificationAuthority : Bytes32
  revision : U64
  contracts : SortedMap ServiceContractId ServiceContract
  deriving DecidableEq

namespace BillingAccount

def new (bank : VerifiedBankAccount) : BillingAccount := ⟨bank, 0, ∅⟩

def id (a : BillingAccount) : BillingAccountId := a.bank.evidence.account

def scope (a : BillingAccount) : FinancialScope := a.bank.evidence.scope

def unit (a : BillingAccount) : SettlementUnit := a.bank.evidence.unit

def covers (a : BillingAccount) (time : CanonicalTime) : Bool := a.contracts.values.any (·.covers time)

abbrev Method := InPlace BillingAccount BillingError

def bump : Method Unit := do
  let a ← get
  let revision ← okOr (Checked.succ a.revision) BillingError.overflow
  modify ({· with revision})

/-- Changes future payment instructions; every existing obligation stays. -/
def rebindBank (bank : VerifiedBankAccount) : Method Unit := do
  let a ← get
  let old := a.bank.evidence
  let new := bank.evidence
  let _ ← refuseIf (old.account ≠ new.account ∨ old.member ≠ new.member ∨ old.scope ≠ new.scope ∨
    old.unit ≠ new.unit ∨ new.version ≤ old.version) BillingError.conflict
  bump
  modify ({· with bank})

/-- The contract that a purchase of the offer would be. -/
def contractId [Crypto] (a : BillingAccount) (offer : ServiceOffer) : ServiceContractId :=
  ⟨(operationId a.scope (byteString "service-contract") a.id.val
    ⟨offer.period.start.val.val, offer.period.start.val.isLt.trans (by decide)⟩).val⟩

def capture [Crypto] (a : BillingAccount) (offer : ServiceOffer) : PaymentOperation where
  scope := a.scope
  id := ⟨(a.contractId offer).val⟩
  kind := .capture
  amount := offer.price
  unit := a.unit
  destination := a.bank.evidence.bankToken

/-- The service periods have an instant in common. -/
def overlaps (a b : ServicePeriod) : Bool := a.start < b.ends ∧ b.start < a.ends

def purchase [Crypto] (offer : ServiceOffer) (processorKey : Bytes32) : Method ServiceContractId := do
  let a ← get
  let _ ← refuseIf (offer.unit ≠ a.unit ∨ processorKey = zero32) BillingError.conflict
  match a.contracts.get? (a.contractId offer) with
  | some old =>
    let _ ← refuseIf (¬(old.offer = offer ∧ old.processorKey = processorKey)) BillingError.conflict
    pure (a.contractId offer)
  | none =>
    let _ ← refuseIf (a.contracts.values.any (fun c => overlaps c.offer.period offer.period) = true)
      BillingError.conflict
    let collection ← (PaymentExecution.new (a.capture offer)).mapError BillingError.payment
    let contract : ServiceContract := ⟨a.contractId offer, offer, processorKey, collection, .unfunded⟩
    bump
    modify fun b => {b with contracts := b.contracts.insert contract.id contract}
    pure contract.id

def retryCollection [Crypto] (id : ServiceContractId) : Method PaymentOperation := do
  let a ← get
  let contract ← okOr (a.contracts.get? id) BillingError.missingRecord
  let (contract, operation) ← contract.retry
  bump
  modify fun b => {b with contracts := b.contracts.insert id contract}
  pure operation

def recordCollection [Crypto] (id : ServiceContractId) (receipt : SignedPaymentEvidence)
    (time : CanonicalTime) : Method LedgerBatch := do
  let a ← get
  let previous ← okOr (a.contracts.get? id) BillingError.missingRecord
  let (next, batch) ← previous.record receipt time
  if next ≠ previous then
    bump
    modify fun b => {b with contracts := b.contracts.insert id next}
    pure batch
  else pure batch

def toStored (a : BillingAccount) : StoredAccount := ⟨a.bank.evidence, a.bank.authority, a.revision, a.contracts⟩

/-- `windows(2)` of the sorted periods: one of them ends after the next has begun. -/
def crowded : List ServicePeriod → Bool
  | a :: b :: rest => b.start < a.ends || crowded (b :: rest)
  | [] | [_] => false

def checkContract (bank : BankVerification) (e : ServiceContractId × ServiceContract) :
    Except BillingError Unit :=
  refuseIf (e.1 ≠ e.2.id ∨ e.2.collection.current.scope ≠ bank.scope ∨
    e.2.collection.current.unit ≠ bank.unit) .conflict

/-- Reads an account back. -/
def tryFrom [Crypto] [Json] (v : StoredAccount) : Except BillingError BillingAccount := do
  let bank ← (v.bank.verify BankVerification.bytes v.verificationAuthority).mapError .payment
  v.contracts.entries.forM (checkContract v.bank)
  let periods := (v.contracts.values.map (·.offer.period)).insertionSort fun a b => a.start ≤ b.start
  refuseIf (crowded periods = true) .conflict
  .ok ⟨bank, v.revision, v.contracts⟩

end BillingAccount

end CsMail
