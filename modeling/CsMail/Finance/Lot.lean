import CsMail.Finance.Payments
import CsMail.Ledger

/-! Forfeited collateral: the terms it was fixed under and the life of one lot. -/
namespace CsMail
open Library

inductive ProgramError
  | invalidPolicy
  | incompleteSnapshot
  | duplicateConflict
  | missingRecord
  | tooEarly
  | closedPeriod
  | timeRegression
  | insufficientEvidence
  | invalidPayment
  | arithmeticOverflow
  | ledger (error : LedgerError)
  | payment (error : PaymentError)
  deriving DecidableEq

structure FinancialTerms where
  scope : FinancialScope
  policyVersion : PolicyVersion
  corporateBasisPoints : U16
  maturityDelay : Duration
  deriving DecidableEq

/-- Rejects a corporate rate greater than the entire eligible amount. -/
def FinancialTerms.validate (t : FinancialTerms) : Except ProgramError Unit :=
  refuseIf (10000 < t.corporateBasisPoints.val) .invalidPolicy

structure Forfeiture where
  id : PaymentOperationId
  amount : Money
  unit : SettlementUnit
  forfeitedAt : CanonicalTime
  requiresReview : Bool
  terms : FinancialTerms
  deriving DecidableEq

structure MaturityClearance where
  time : CanonicalTime
  evidence : FinancialEventId
  deriving DecidableEq

inductive LotLifecycle
  | pending (held : Bool)
  | cleared (clearance : MaturityClearance)
  | assessed (clearance : MaturityClearance) (distribution : AnnualDistributionId)
  deriving DecidableEq

namespace LotLifecycle

def isAssessed : LotLifecycle → Bool
  | assessed _ _ => true
  | _ => false

@[simp] theorem isAssessed_pending (held : Bool) : (pending held).isAssessed = false := rfl

@[simp] theorem isAssessed_cleared (c : MaturityClearance) : (cleared c).isAssessed = false := rfl

@[simp] theorem isAssessed_assessed (c : MaturityClearance) (d : AnnualDistributionId) :
    (assessed c d).isAssessed = true := rfl

end LotLifecycle

structure ForfeitureLot where
  source : Forfeiture
  lifecycle : LotLifecycle
  deriving DecidableEq

namespace ForfeitureLot

/-- Refuses changes to a lot already assessed in a distribution. -/
def setHold (lot : ForfeitureLot) (held : Bool) : Except ProgramError ForfeitureLot :=
  if lot.lifecycle.isAssessed then .error .closedPeriod
  else .ok {lot with lifecycle := .pending held}

/-- Refuses held, immature, assessed, or unidentified clearance evidence. -/
def clear (lot : ForfeitureLot) (evidence : FinancialEventId) (now : CanonicalTime) :
    Except ProgramError ForfeitureLot := do
  refuseIf (lot.lifecycle = .pending true ∨ lot.lifecycle.isAssessed = true ∨ evidence.val = 0)
    .insufficientEvidence
  let mature ← okOr (lot.source.forfeitedAt.checkedAdd lot.source.terms.maturityDelay)
    .arithmeticOverflow
  refuseIf (now < mature) .tooEarly
  .ok {lot with lifecycle := .cleared ⟨now, evidence⟩}

def eligibleAt (lot : ForfeitureLot) (cutoff : CanonicalTime) : Bool :=
  match lot.lifecycle with
  | .cleared c => c.time < cutoff
  | _ => false

/-- Requires a cleared lot that has not already been assessed. -/
def assess (lot : ForfeitureLot) (distribution : AnnualDistributionId) :
    Except ProgramError ForfeitureLot :=
  match lot.lifecycle with
  | .cleared clearance => .ok {lot with lifecycle := .assessed clearance distribution}
  | _ => .error .insufficientEvidence

end ForfeitureLot
end CsMail
