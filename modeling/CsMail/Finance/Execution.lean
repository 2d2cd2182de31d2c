import CsMail.Finance.Payments

/-! One logical payment: sequential processor attempts and the evidence about them.

Every attempt repeats the same operation under a new identifier. Only the last one may
still change its outcome; the earlier ones have definitively failed. A payment has at
least one attempt, which is a field of it (`nonempty`); what else a stored payment must
satisfy is checked when it is read back (`StoredExecution.validate`). -/
namespace CsMail
open Library

inductive PaymentState
  | pending
  | settled (evidence : FinancialEventId)
  | failed (evidence : FinancialEventId)
  | voided (evidence : FinancialEventId)
  | reversed (settlement reversal : FinancialEventId)
  deriving DecidableEq

namespace PaymentState

def isSettled : PaymentState → Bool
  | settled _ => true
  | _ => false

/-- No transfer occurred and none can. -/
def isUnsuccessful : PaymentState → Bool
  | failed _ | voided _ => true
  | _ => false

/-- Outcomes that count against the source of the money. -/
def isAdverse : PaymentState → Bool
  | failed _ | reversed _ _ => true
  | _ => false

end PaymentState

structure Attempt where
  operation : PaymentOperation
  state : PaymentState
  deriving DecidableEq

inductive PaymentChange
  | none
  | settled
  | reversed
  deriving DecidableEq

def nextState (state : PaymentState) (evidence : PaymentEvidence) :
    Except PaymentError (PaymentState × PaymentChange) :=
  let id := evidence.eventId
  match state, evidence.outcome with
  | .pending, .settled => .ok (.settled id, .settled)
  | .pending, .failed => .ok (.failed id, .none)
  | .pending, .voided => .ok (.voided id, .none)
  | .settled settlement, .reversed => .ok (.reversed settlement id, .reversed)
  | _, .pending
  | .settled _, .settled | .reversed _ _, .settled
  | .failed _, .failed
  | .voided _, .voided
  | .reversed _ _, .reversed => .ok (state, .none)
  | _, _ => .error .invalidOperation

/-- The stored form of a payment. -/
structure StoredExecution where
  attempts : List Attempt
  events : SortedMap FinancialEventId PaymentEvidence
  deriving DecidableEq

structure PaymentExecution where
  attempts : List Attempt
  events : SortedMap FinancialEventId PaymentEvidence
  nonempty : attempts ≠ []
  deriving DecidableEq

namespace PaymentExecution

def toStored (p : PaymentExecution) : StoredExecution := ⟨p.attempts, p.events⟩

def new (operation : PaymentOperation) : Except PaymentError PaymentExecution := do
  operation.validate
  .ok ⟨[⟨operation, .pending⟩], ∅, by simp⟩

def last (p : PaymentExecution) : Attempt := p.attempts.getLast p.nonempty

def current (p : PaymentExecution) : PaymentOperation := p.last.operation

def state (p : PaymentExecution) : PaymentState := p.last.state

def attemptCount (p : PaymentExecution) : Nat := p.attempts.length

def operation (p : PaymentExecution) (id : PaymentOperationId) : Option PaymentOperation :=
  (p.attempts.find? fun a => a.operation.id = id).map Attempt.operation

/-- A new attempt at the same operation, after the last one failed. -/
def retry (p : PaymentExecution) (id : PaymentOperationId) :
    Except PaymentError (PaymentExecution × PaymentOperation) := do
  refuseIf (p.state.isUnsuccessful = false ∨ (p.operation id).isSome = true) .invalidOperation
  let operation := {p.current with id}
  operation.validate
  .ok (⟨p.attempts ++ [⟨operation, .pending⟩], p.events, by simp⟩, operation)

/-- Records processor evidence about the first attempt with its identifier. -/
def record [Crypto] (p : PaymentExecution) (receipt : SignedPaymentEvidence) (key : Bytes32) :
    Except PaymentError (PaymentExecution × PaymentChange) :=
  match p.attempts.span fun a => a.operation.id ≠ receipt.evidence.operationId with
  | (_, []) => .error .operationMismatch
  | (earlier, attempt :: later) => do
    receipt.verify key attempt.operation
    match p.events.get? receipt.evidence.eventId with
    | some old => if old = receipt.evidence then .ok (p, .none) else .error .duplicateConflict
    | none =>
      let (state, change) ← nextState attempt.state receipt.evidence
      -- A previous definitively failed attempt cannot acquire a new economic outcome.
      refuseIf (later ≠ [] ∧ change ≠ .none) .invalidOperation
      .ok (⟨earlier ++ {attempt with state} :: later,
        p.events.insert receipt.evidence.eventId receipt.evidence, by simp⟩, change)

end PaymentExecution

namespace StoredExecution
variable [Crypto]

/-- The recorded event says this about the operation. -/
def attests (events : SortedMap FinancialEventId PaymentEvidence) (operation : PaymentOperation)
    (id : FinancialEventId) (outcome : PaymentOutcome) : Bool :=
  match events.get? id with
  | some e => e.operationId = operation.id ∧ e.operationDigest = operation.digest ∧ e.outcome = outcome
  | none => false

/-- The state of an attempt rests on recorded events. -/
def supported (events : SortedMap FinancialEventId PaymentEvidence) (a : Attempt) : Bool :=
  match a.state with
  | .pending => true
  | .settled evidence => attests events a.operation evidence .settled
  | .failed evidence => attests events a.operation evidence .failed
  | .voided evidence => a.operation.kind = .capture ∧ attests events a.operation evidence .voided
  | .reversed settlement reversal =>
    attests events a.operation settlement .settled ∧ attests events a.operation reversal .reversed

def validateAttempts (first : Attempt) (events : SortedMap FinancialEventId PaymentEvidence) :
    List PaymentOperationId → List Attempt → Except PaymentError Unit
  | _, [] => .ok ()
  | ids, a :: rest => do
    a.operation.validate
    refuseIf (a.operation ≠ {first.operation with id := a.operation.id} ∨ a.operation.id ∈ ids ∨
      (rest ≠ [] ∧ a.state.isUnsuccessful = false)) .invalidOperation
    refuseIf (supported events a = false) .invalidOperation
    validateAttempts first events (a.operation.id :: ids) rest

def validateEvent (attempts : List Attempt) (e : FinancialEventId × PaymentEvidence) :
    Except PaymentError Unit := do
  let attempt ← okOr (attempts.find? fun a => a.operation.id = e.2.operationId) .invalidOperation
  refuseIf (e.1 ≠ e.2.eventId ∨ e.2.operationDigest ≠ attempt.operation.digest) .invalidOperation
  let (state, _) ← nextState attempt.state e.2
  refuseIf (state ≠ attempt.state) .invalidOperation

def validate (s : StoredExecution) : Except PaymentError Unit := do
  let first ← okOr s.attempts.head? .invalidOperation
  validateAttempts first s.events [] s.attempts
  s.events.entries.forM (validateEvent s.attempts)

/-- Reads a stored payment back. -/
def tryFrom (s : StoredExecution) : Except PaymentError PaymentExecution :=
  match s.validate with
  | .error e => .error e
  | .ok _ => if h : s.attempts ≠ [] then .ok ⟨s.attempts, s.events, h⟩ else .error .invalidOperation

end StoredExecution

def PaymentExecution.validate [Crypto] (p : PaymentExecution) : Except PaymentError Unit :=
  p.toStored.validate

end CsMail
