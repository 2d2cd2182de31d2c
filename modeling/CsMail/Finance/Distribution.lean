import CsMail.Finance.Lot
import Mathlib.Data.Finset.Card

/-! The yearly distribution: its published schedule, who qualifies, and what was allocated. -/
namespace CsMail
open Library

structure MembershipStatus where
  optedIn : Bool
  verified : Bool
  suspended : Bool
  deriving DecidableEq

inductive IntentionalActivity
  | read
  | send
  | decision
  deriving DecidableEq

structure EligibilityPolicy where
  version : PolicyVersion
  minimumTenure : Duration
  minimumActiveDays : U32
  deriving DecidableEq

/-- Published reporting and payment terms; terms without a version or a charge cannot be built. -/
structure DistributionTerms where
  version : PolicyVersion
  utilityCharge : Money
  dueAt : CanonicalTime
  versioned : version.val ≠ 0
  charged : utilityCharge.isZero = false
  deriving DecidableEq

def DistributionTerms.new (version : PolicyVersion) (utilityCharge : Money) (dueAt : CanonicalTime) :
    Except ProgramError DistributionTerms :=
  if h : version.val = 0 ∨ utilityCharge.isZero = true then .error .invalidPolicy
  else .ok ⟨version, utilityCharge, dueAt, (not_or.mp h).1, by simpa using (not_or.mp h).2⟩

structure AnnualDistributionSchedule where
  id : AnnualDistributionId
  start : CanonicalTime
  cutoff : CanonicalTime
  eligibility : EligibilityPolicy
  payment : DistributionTerms
  deriving DecidableEq

namespace AnnualDistributionSchedule

/-- The identifier of a year's distribution is the year. -/
def yearId (year : U16) : AnnualDistributionId :=
  ⟨⟨year.val, year.isLt.trans (by decide)⟩⟩

/-- An exact Gregorian calendar year in UTC milliseconds. -/
def utc (year : U16) (eligibility : EligibilityPolicy) (payment : DistributionTerms) :
    Except ProgramError AnnualDistributionSchedule := do
  refuseIf (eligibility.minimumActiveDays = 0) .invalidPolicy
  let start ← okOr (calendarDate year 1 1) .invalidPolicy
  let next ← okOr (Checked.succ year) .invalidPolicy
  let cutoff ← okOr (calendarDate next 1 1) .invalidPolicy
  refuseIf (payment.dueAt < cutoff) .invalidPolicy
  .ok {id := yearId year, start, cutoff, eligibility, payment}

/-- `u16::try_from` of a distribution's identifier. -/
def year (id : AnnualDistributionId) : Option U16 :=
  if h : id.val.val < 2 ^ 16 then some ⟨id.val.val, h⟩ else none

def isCalendarYear (s : AnnualDistributionSchedule) : Bool :=
  match year s.id with
  | none => false
  | some year =>
    match utc year s.eligibility s.payment with
    | .ok expected => expected = s
    | .error _ => false

end AnnualDistributionSchedule

structure AnnualAllocation where
  schedule : AnnualDistributionSchedule
  finalizedAt : CanonicalTime
  members : List MemberId
  funding : List PaymentOperationId
  newlyEligible : Money
  corporateShare : Money
  memberContribution : Money
  each : Money
  remainder : Money
  deriving DecidableEq

/-! ### Members -/

structure Member where
  id : MemberId
  identityDigest : Bytes32
  joinedAt : CanonicalTime
  changes : List (CanonicalTime × MembershipStatus)
  activityDays : Finset Nat
  deriving DecidableEq

namespace Member

def eligible (s : MembershipStatus) : Bool := s.optedIn && s.verified && !s.suspended

/-- The last change made before the instant. -/
def statusBefore (m : Member) (t : CanonicalTime) : Option MembershipStatus :=
  (m.changes.reverse.find? fun c => c.1 < t).map Prod.snd

def activeDays (m : Member) (start cutoff : CanonicalTime) : Nat :=
  (m.activityDays.filter fun d => start.millis / dayMillis ≤ d ∧ d < cutoff.millis / dayMillis).card

def qualifies (m : Member) (s : AnnualDistributionSchedule) : Bool :=
  (m.statusBefore s.cutoff).any eligible &&
    (m.joinedAt.checkedAdd s.eligibility.minimumTenure).any (fun t => t ≤ s.cutoff) &&
    decide (s.eligibility.minimumActiveDays.val ≤ m.activeDays s.start s.cutoff)

end Member
end CsMail
