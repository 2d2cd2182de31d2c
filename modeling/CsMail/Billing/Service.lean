import CsMail.Finance.Funding
import CsMail.Ledger

/-! Annual service contracts.

A contract is bought under a published offer, for one service period, and is paid by one
logical payment. It covers an instant of its period from the time its payment settled until
that is reversed. Period and offer carry what their constructors check. -/
namespace CsMail
open Library

inductive BillingError
  | serviceNotCovered
  | invalidSchedule
  | conflict
  | overflow
  | tooEarly
  | missingRecord
  | payment (error : PaymentError)
  deriving DecidableEq

/-! ### Periods -/

inductive LeapDayRule
  | february28
  | march1
  deriving DecidableEq

structure PeriodAnchor where
  year : U16
  month : Fin (2 ^ 8)
  day : Fin (2 ^ 8)
  leapDay : LeapDayRule
  deriving DecidableEq

namespace PeriodAnchor

/-- The anchor's day in a year; February 29 has a stand-in in a common year. -/
def date (a : PeriodAnchor) (year : U16) : Except BillingError CanonicalTime :=
  okOr (calendarDate year a.month a.day <|>
    if a.month ≠ 2 ∨ a.day ≠ 29 then none
    else match a.leapDay with
      | .february28 => calendarDate year 2 28
      | .march1 => calendarDate year 3 1) .invalidSchedule

def interval (a : PeriodAnchor) : Except BillingError (CanonicalTime × CanonicalTime) := do
  let start ← a.date a.year
  let next ← okOr (Checked.succ a.year) .overflow
  let ends ← a.date next
  .ok (start, ends)

end PeriodAnchor

/-- A calendar-year or anniversary-year interval with an explicit leap-day convention. -/
structure ServicePeriod where
  anchor : PeriodAnchor
  start : CanonicalTime
  ends : CanonicalTime
  dated : anchor.interval = .ok (start, ends)

namespace ServicePeriod

instance : DecidableEq ServicePeriod := fun a b =>
  decidable_of_iff (a.anchor = b.anchor ∧ a.start = b.start ∧ a.ends = b.ends)
    (by cases a; cases b; simp)

def ofAnchor (anchor : PeriodAnchor) : Except BillingError ServicePeriod :=
  match h : anchor.interval with
  | .ok (start, ends) => .ok ⟨anchor, start, ends, h⟩
  | .error e => .error e

def annual (year : U16) (month day : Fin (2 ^ 8)) (leapDay : LeapDayRule) :
    Except BillingError ServicePeriod := ofAnchor ⟨year, month, day, leapDay⟩

def contains (p : ServicePeriod) (time : CanonicalTime) : Bool := p.start ≤ time ∧ time < p.ends

end ServicePeriod

/-! ### Offers -/

/-- The stored form of an offer. -/
structure StoredOffer where
  version : PolicyVersion
  period : PeriodAnchor
  collectAt : CanonicalTime
  price : Money
  unit : SettlementUnit
  deriving DecidableEq

/-- Published terms; a purchase references them rather than supplying a price. -/
structure ServiceOffer where
  version : PolicyVersion
  period : ServicePeriod
  collectAt : CanonicalTime
  price : Money
  unit : SettlementUnit
  published : ¬(version.val = 0 ∨ price.isZero = true ∨ period.start ≤ collectAt)

namespace ServiceOffer

instance : DecidableEq ServiceOffer := fun a b =>
  decidable_of_iff (a.version = b.version ∧ a.period = b.period ∧ a.collectAt = b.collectAt ∧
    a.price = b.price ∧ a.unit = b.unit) (by cases a; cases b; simp)

def new (version : PolicyVersion) (period : ServicePeriod) (collectAt : CanonicalTime) (price : Money)
    (unit : SettlementUnit) : Except BillingError ServiceOffer :=
  if h : version.val = 0 ∨ price.isZero = true ∨ period.start ≤ collectAt then .error .invalidSchedule
  else .ok ⟨version, period, collectAt, price, unit, h⟩

def toStored (o : ServiceOffer) : StoredOffer := ⟨o.version, o.period.anchor, o.collectAt, o.price, o.unit⟩

def tryFrom (v : StoredOffer) : Except BillingError ServiceOffer := do
  let period ← ServicePeriod.ofAnchor v.period
  new v.version period v.collectAt v.price v.unit

end ServiceOffer

/-! ### Contracts -/

inductive ServiceSettlement
  | unfunded
  | funded (time : CanonicalTime)
  | reversed (fundedAt : CanonicalTime)
  deriving DecidableEq

structure ServiceContract where
  id : ServiceContractId
  offer : ServiceOffer
  processorKey : Bytes32
  collection : PaymentExecution
  settlement : ServiceSettlement

/-- The stored form of a contract. -/
structure StoredContract where
  id : ServiceContractId
  offer : StoredOffer
  processorKey : Bytes32
  collection : StoredExecution
  settlement : ServiceSettlement
  deriving DecidableEq

def operationIdBytes (scope : FinancialScope) (purpose : Bytes) (owner cycle : U128) : Bytes :=
  byteString "cs-mail/billing-operation/v2" ++ scope.canonicalBytes ++ beBytes 8 purpose.length ++ purpose ++
    beBytes 16 owner.val ++ beBytes 16 cycle.val

/-- An identifier derived from who pays and for what: sixteen bytes of a hash. -/
def operationId [Crypto] (scope : FinancialScope) (purpose : Bytes) (owner cycle : U128) : PaymentOperationId :=
  ⟨firstU128 (Crypto.sha256 (operationIdBytes scope purpose owner cycle))⟩

namespace ServiceContract

instance : DecidableEq ServiceContract := fun a b =>
  decidable_of_iff (a.id = b.id ∧ a.offer = b.offer ∧ a.processorKey = b.processorKey ∧
    a.collection = b.collection ∧ a.settlement = b.settlement) (by cases a; cases b; simp)

/-- The logical payment and the account of receipts are named after the contract. -/
def payment (c : ServiceContract) : PaymentOperationId := ⟨c.id.val⟩

def covers (c : ServiceContract) (time : CanonicalTime) : Bool :=
  (match c.settlement with
    | .funded paid => paid ≤ time
    | _ => false) && c.offer.period.contains time

def retry [Crypto] (c : ServiceContract) : Except BillingError (ServiceContract × PaymentOperation) := do
  let id := operationId c.collection.current.scope (byteString "service-attempt") c.id.val
    (Fin.ofNat (2 ^ 128) c.collection.attemptCount)
  let (collection, operation) ← (c.collection.retry id).mapError .payment
  .ok ({c with collection}, operation)

/-- Applies processor evidence, with what it posts. -/
def record [Crypto] (c : ServiceContract) (receipt : SignedPaymentEvidence) (time : CanonicalTime) :
    Except BillingError (ServiceContract × LedgerBatch) := do
  refuseIf (time < c.offer.collectAt) .tooEarly
  let (collection, change) ← (c.collection.record receipt c.processorKey).mapError .payment
  match change, c.settlement with
  | .settled, _ =>
    .ok ({c with collection, settlement := .funded time},
      LedgerBatch.transfer ∅ .processorClearing (.utilityServiceReceipts c.payment) c.offer.price)
  | .reversed, .funded fundedAt =>
    .ok ({c with collection, settlement := .reversed fundedAt},
      LedgerBatch.transfer ∅ .corporateLossClearing .processorClearing c.offer.price)
  | .reversed, _ => .error .conflict
  | .none, _ => .ok ({c with collection}, ∅)

/-- The settlement agrees with the state of the collection. -/
def agrees (c : ServiceContract) : Bool :=
  match c.collection.state, c.settlement with
  | .pending, .unfunded | .failed _, .unfunded | .voided _, .unfunded => true
  | .settled _, .funded time | .reversed _ _, .reversed time => c.offer.collectAt ≤ time
  | _, _ => false

def validate [Crypto] (c : ServiceContract) : Except BillingError Unit := do
  c.collection.validate.mapError .payment
  refuseIf (c.id.val = 0 ∨ c.collection.operation c.payment = none ∨ c.processorKey = zero32 ∨
    c.collection.current.kind ≠ .capture ∨ c.collection.current.amount ≠ c.offer.price ∨
    c.collection.current.unit ≠ c.offer.unit) .conflict
  refuseIf (c.agrees = false) .conflict

def toStored (c : ServiceContract) : StoredContract :=
  ⟨c.id, c.offer.toStored, c.processorKey, c.collection.toStored, c.settlement⟩

/-- Reads a stored contract back, and what is stored in it. -/
def tryFrom [Crypto] (v : StoredContract) : Except BillingError ServiceContract := do
  let offer ← ServiceOffer.tryFrom v.offer
  let collection ← v.collection.tryFrom.mapError .payment
  let result : ServiceContract := ⟨v.id, offer, v.processorKey, collection, v.settlement⟩
  result.validate
  .ok result

end ServiceContract

end CsMail
