import CsMail.Finance.Lot

/-! The money of one request: its capture, its settlement and its refund.

Financial execution outlives the request that caused it, so the record keeps the
capture, the contract it was checked against, and the evidence received. The check
made when the record is created is a field of it (`matched`); no later step changes
the capture or the contract. -/
namespace CsMail
open Library

inductive CaptureStatus
  | pending
  | cancellationRequested
  | fundingFinalized
  | voided
  | reversed
  deriving DecidableEq

inductive RefundStatus
  | none
  | pending (operation : PaymentOperation)
  | confirmed (operation : PaymentOperation)
  deriving DecidableEq

def RefundStatus.operation : RefundStatus → Option PaymentOperation
  | none => .none
  | pending p | confirmed p => some p

inductive RequestSettlement
  | accepted
  | rejected
  | expired
  | cancelled
  deriving DecidableEq

structure RequestFinancialContract where
  refundId : PaymentOperationId
  processingCharge : Money
  collateral : Money
  terms : FinancialTerms
  providerKey : Bytes32
  deriving DecidableEq

/-- What a capture and its contract must agree on. -/
structure CaptureMatches (capture : PaymentOperation) (contract : RequestFinancialContract) :
    Prop where
  operation : capture.validate = .ok ()
  terms : contract.terms.validate = .ok ()
  kind : capture.kind = .capture
  amount : capture.amount.isZero = false
  scope : capture.scope = contract.terms.scope
  charge : contract.processingCharge.checkedAdd contract.collateral = some capture.amount
  refundId : capture.id ≠ contract.refundId
  providerKey : contract.providerKey ≠ zero32

structure RequestFinancials where
  capture : PaymentOperation
  captureStatus : CaptureStatus
  refund : RefundStatus
  events : SortedMap FinancialEventId PaymentEvidence
  contract : RequestFinancialContract
  settlement : Option RequestSettlement
  matched : CaptureMatches capture contract
  deriving DecidableEq

structure RequestFinancialEffects where
  postings : LedgerBatch := ∅
  operations : List PaymentOperationId := []
  forfeitures : List Forfeiture := []
  holds : List PaymentOperationId := []
  captureVoided : Bool := false
  deriving DecidableEq

namespace RequestFinancials

/-- Creates a capture obligation from validated immutable financial terms. -/
def new (capture : PaymentOperation) (contract : RequestFinancialContract) :
    Except PaymentError RequestFinancials :=
  match hvalid : capture.validate with
  | .error e => .error e
  | .ok () =>
    if h : contract.terms.validate ≠ .ok () ∨ capture.kind ≠ .capture ∨
        capture.amount.isZero = true ∨ capture.scope ≠ contract.terms.scope ∨
        contract.processingCharge.checkedAdd contract.collateral ≠ some capture.amount ∨
        capture.id = contract.refundId ∨ contract.providerKey = zero32 then
      .error .invalidOperation
    else .ok {
      capture, contract
      settlement := none
      captureStatus := .pending
      refund := .none
      events := ∅
      matched := by
        simp only [not_or, ne_eq, Decidable.not_not, Bool.not_eq_true] at h
        exact ⟨hvalid, h.1, h.2.1, h.2.2.1, h.2.2.2.1, h.2.2.2.2.1, h.2.2.2.2.2.1, h.2.2.2.2.2.2⟩}

def fundingFinalized (f : RequestFinancials) : Bool :=
  match f.captureStatus with
  | .fundingFinalized | .reversed => true
  | _ => false

def captureVoided (f : RequestFinancials) : Bool := f.captureStatus = .voided

def captureReversed (f : RequestFinancials) : Bool := f.captureStatus = .reversed

/-- The operation the record knows under this identifier. -/
def operation (f : RequestFinancials) (id : PaymentOperationId) : Option PaymentOperation :=
  if f.capture.id = id then some f.capture else f.refund.operation.filter fun o => o.id = id

def refundOperation (f : RequestFinancials) (amount : Money) : PaymentOperation where
  scope := f.capture.scope
  id := f.contract.refundId
  kind := .refund f.capture.id
  amount := amount
  unit := f.capture.unit
  destination := f.capture.destination

def createRefund (f : RequestFinancials) (amount : Money) (effects : RequestFinancialEffects) :
    Except PaymentError (RequestFinancials × RequestFinancialEffects) :=
  if amount.isZero then .ok (f, effects)
  else
    let operation := f.refundOperation amount
    match f.refund.operation with
    | some previous => if previous = operation then .ok (f, effects) else .error .duplicateConflict
    | none => .ok ({f with refund := .pending operation},
        {effects with
          postings := effects.postings.transfer (.requestEscrow f.capture.id)
            (.refundPayable operation.id) amount
          operations := effects.operations ++ [operation.id]})

/-- Records an obligation, independently of provider completion. -/
def settle (f : RequestFinancials) (settlement : RequestSettlement) (now : CanonicalTime) :
    Except PaymentError (RequestFinancials × RequestFinancialEffects) :=
  match f.settlement with
  | some previous => if previous = settlement then .ok (f, {}) else .error .duplicateConflict
  | none =>
    if settlement ≠ .cancelled ∧ f.fundingFinalized = false then .error .invalidOperation
    else
      let next := {f with settlement := some settlement}
      match settlement with
      | .cancelled =>
        if next.fundingFinalized then next.createRefund next.capture.amount {}
        else if next.captureVoided then .ok (next, {})
        else .ok ({next with captureStatus := .cancellationRequested},
          {operations := [next.capture.id]})
      | .accepted => next.createRefund next.capture.amount {}
      | .expired => next.createRefund next.contract.collateral {
          postings := (∅ : LedgerBatch).transfer (.requestEscrow next.capture.id)
            .processingRevenue next.contract.processingCharge}
      | .rejected =>
        let postings := (∅ : LedgerBatch).transfer (.requestEscrow next.capture.id)
          .processingRevenue next.contract.processingCharge
        if next.contract.collateral.isZero then .ok (next, {postings})
        else .ok (next, {
          postings := postings.transfer (.requestEscrow next.capture.id)
            (.programClearing next.capture.id) next.contract.collateral
          forfeitures := [{
            id := next.capture.id
            amount := next.contract.collateral
            unit := next.capture.unit
            forfeitedAt := now
            terms := next.contract.terms
            requiresReview := next.captureReversed}]})

/-- What verified evidence about the capture changes. -/
def recordCapture (f : RequestFinancials) (outcome : PaymentOutcome) :
    Except PaymentError (RequestFinancials × RequestFinancialEffects) :=
  match outcome with
  | .pending => .ok (f, {})
  | .settled =>
    if f.fundingFinalized then .ok (f, {})
    else
      let next := {f with captureStatus := .fundingFinalized}
      let effects : RequestFinancialEffects := {
        postings := (∅ : LedgerBatch).transfer .processorClearing
          (.requestEscrow next.capture.id) next.capture.amount}
      if next.settlement = some .cancelled then next.createRefund next.capture.amount effects
      else .ok (next, effects)
  | .voided | .failed =>
    if f.fundingFinalized then .ok (f, {})
    else .ok ({f with captureStatus := .voided, settlement := some .cancelled},
      {captureVoided := true})
  | .reversed =>
    if f.fundingFinalized = false then .error .invalidOperation
    else if f.captureReversed then .ok (f, {})
    else .ok ({f with captureStatus := .reversed}, {
      postings := (∅ : LedgerBatch).transfer .corporateLossClearing .processorClearing
        f.capture.amount
      holds := if f.settlement = some .rejected ∧ f.contract.collateral.isZero = false
        then [f.capture.id] else []})

/-- What verified evidence about the refund changes. -/
def recordRefund (f : RequestFinancials) (outcome : PaymentOutcome) :
    Except PaymentError (RequestFinancials × RequestFinancialEffects) :=
  match outcome with
  | .pending | .failed => .ok (f, {})
  | .settled =>
    match f.refund with
    | .pending refund => .ok ({f with refund := .confirmed refund}, {
        postings := (∅ : LedgerBatch).transfer (.refundPayable refund.id) .processorClearing
          refund.amount})
    | _ => .ok (f, {})
  | .voided | .reversed => .error .invalidOperation

/-- Reconciles verified evidence without consulting a request's conversational state. -/
def recordPayment [Crypto] (f : RequestFinancials) (receipt : SignedPaymentEvidence) :
    Except PaymentError (RequestFinancials × RequestFinancialEffects) := do
  let operation ← okOr (f.operation receipt.evidence.operationId) .operationMismatch
  receipt.verify f.contract.providerKey operation
  match f.events.get? receipt.evidence.eventId with
  | some previous =>
    if previous = receipt.evidence then .ok (f, {}) else .error .duplicateConflict
  | none =>
    let (next, effects) ←
      if operation.id = f.capture.id then f.recordCapture receipt.evidence.outcome
      else f.recordRefund receipt.evidence.outcome
    .ok ({next with events := next.events.insert receipt.evidence.eventId receipt.evidence},
      effects)

end RequestFinancials

/-! ### What the parties see -/

inductive RefundView
  | none
  | owed (amount : Money)
  | confirmed (amount : Money)
  deriving DecidableEq

def RefundView.isOwed : RefundView → Bool
  | owed _ => true
  | _ => false

structure RequestFinancialView where
  charge : Money
  processingCharge : Money
  collateral : Money
  capture : CaptureStatus
  settlement : Option RequestSettlement
  refund : RefundView
  processingRetained : Money
  collateralForfeited : Money
  awaitingProcessor : Bool
  deriving DecidableEq

/-- The parties' view of this request's money, derived from its recorded settlement. -/
def RequestFinancials.view (f : RequestFinancials) : RequestFinancialView :=
  let (processingRetained, collateralForfeited) := match f.settlement with
    | some .rejected => (f.contract.processingCharge, f.contract.collateral)
    | some .expired => (f.contract.processingCharge, .zero)
    | some .accepted | some .cancelled | none => (.zero, .zero)
  let refund : RefundView := match f.refund with
    | .none => .none
    | .pending operation => .owed operation.amount
    | .confirmed operation => .confirmed operation.amount
  {charge := f.capture.amount
   processingCharge := f.contract.processingCharge
   collateral := f.contract.collateral
   capture := f.captureStatus
   settlement := f.settlement
   refund, processingRetained, collateralForfeited
   awaitingProcessor := f.captureStatus = .pending ∨ f.captureStatus = .cancellationRequested ∨
     refund.isOwed = true}

end CsMail
