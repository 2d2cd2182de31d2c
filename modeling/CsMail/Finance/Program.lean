import CsMail.Finance.Payable

/-! The company-owned member program: forfeited collateral, its members, and the yearly
distribution of what is eligible.

Every operation runs on a copy of the program and is kept only if it succeeds (`atomic`);
what it posts goes to the program's own ledger at the ledger's current revision. -/
namespace CsMail
open Library

structure ProgramJournalEntry where
  time : CanonicalTime
  cause : FinancialEventId
  batch : LedgerBatch
  deriving DecidableEq

structure ProgramRecords where
  funding : SortedMap PaymentOperationId ForfeitureLot := ∅
  members : SortedMap MemberId Member := ∅
  schedules : SortedMap AnnualDistributionId AnnualDistributionSchedule := ∅
  annualAllocations : SortedMap AnnualDistributionId AnnualAllocation := ∅
  payables : SortedMap AllocationId MemberPayable := ∅
  deriving DecidableEq

structure ProgramMetadata where
  scope : FinancialScope
  unit : SettlementUnit
  revision : U64
  lastEventAt : CanonicalTime
  deriving DecidableEq

structure FinancialProgram where
  scope : FinancialScope
  unit : SettlementUnit
  revision : U64
  complete : Bool
  ledger : LedgerState
  records : ProgramRecords
  journal : List ProgramJournalEntry
  lastEventAt : CanonicalTime
  deriving DecidableEq

/-! ### Identifiers derived by hashing -/

def allocationBytes (scope : FinancialScope) (unit : SettlementUnit)
    (distribution : AnnualDistributionId) (member : MemberId) : Bytes :=
  byteString "cs-mail/member-allocation/v2" ++ scope.canonicalBytes ++ beBytes 4 unit.val.val ++
    distribution.toBeBytes ++ member.toBeBytes

def allocationId [Crypto] (scope : FinancialScope) (unit : SettlementUnit)
    (distribution : AnnualDistributionId) (member : MemberId) : AllocationId :=
  ⟨firstU128 (Crypto.sha256 (allocationBytes scope unit distribution member))⟩

def correctionBytes (scope : FinancialScope) (unit : SettlementUnit) (event : FinancialEventId) :
    Bytes :=
  byteString "cs-mail/member-correction/v2" ++ scope.canonicalBytes ++ beBytes 4 unit.val.val ++
    event.toBeBytes

def correctionId [Crypto] (scope : FinancialScope) (unit : SettlementUnit)
    (event : FinancialEventId) : AllocationId :=
  ⟨firstU128 (Crypto.sha256 (correctionBytes scope unit event))⟩

/-! ### Assessing a year's lots -/

/-- The state of the loop over the eligible lots. -/
structure Assessment where
  funding : SortedMap PaymentOperationId ForfeitureLot
  /-- The rate and the amount of each policy version met so far. -/
  cohorts : SortedMap PolicyVersion (U16 × Money)
  newlyEligible : Money
  batch : LedgerBatch

def assessLot (distribution : AnnualDistributionId) (s : Assessment) (id : PaymentOperationId) :
    Except ProgramError Assessment := do
  let lot ← okOr (s.funding.get? id) .missingRecord
  let version := lot.source.terms.policyVersion
  let rate := lot.source.terms.corporateBasisPoints
  let group := (s.cohorts.get? version).getD (rate, .zero)
  refuseIf (group.1 ≠ rate) .invalidPolicy
  let amount ← okOr (group.2.checkedAdd lot.source.amount) .arithmeticOverflow
  let newlyEligible ← okOr (s.newlyEligible.checkedAdd lot.source.amount) .arithmeticOverflow
  let assessed ← lot.assess distribution
  .ok {
    funding := s.funding.insert id assessed
    cohorts := s.cohorts.insert version (group.1, amount)
    newlyEligible
    batch := s.batch.transfer (.pendingForfeiture id) .restrictedMemberFunds lot.source.amount}

/-- Rounds once per rate cohort, leaving fractional corporate units for members. -/
def addShare (corporate : Money) (cohort : U16 × Money) : Except ProgramError Money := do
  let share ← okOr (u64OfInt ((cohort.2.units * cohort.1.val / 10000 : Nat) : Int)) .arithmeticOverflow
  okOr (corporate.checkedAdd share) .arithmeticOverflow

structure Assessed where
  funding : SortedMap PaymentOperationId ForfeitureLot
  batch : LedgerBatch
  newlyEligible : Money
  corporate : Money
  contribution : Money

def assessFunding (funding : SortedMap PaymentOperationId ForfeitureLot)
    (lots : List PaymentOperationId) (distribution : AnnualDistributionId) :
    Except ProgramError Assessed := do
  let s ← lots.foldlM (assessLot distribution) ⟨funding, ∅, .zero, ∅⟩
  let corporate ← s.cohorts.values.foldlM addShare .zero
  let contribution ← okOr (s.newlyEligible.checkedSub corporate) .arithmeticOverflow
  .ok {
    funding := s.funding
    batch := s.batch.transfer .restrictedMemberFunds .corporatePoolRevenue corporate
    newlyEligible := s.newlyEligible
    corporate, contribution}

/-! ### Allocating to the members -/

/-- The state of the loop over the qualifying members. -/
structure Allocating where
  payables : SortedMap AllocationId MemberPayable
  batch : LedgerBatch

def allocateMember [Crypto] (scope : FinancialScope) (unit : SettlementUnit)
    (schedule : AnnualDistributionSchedule) (each : Money) (s : Allocating) (member : MemberId) :
    Except ProgramError Allocating := do
  let allocation := allocationId scope unit schedule.id member
  refuseIf (s.payables.contains allocation = true) .duplicateConflict
  let payable ← MemberPayable.new allocation member schedule.id each schedule.payment scope unit none
  .ok {
    payables := s.payables.insert allocation payable
    batch := s.batch.transfer .restrictedMemberFunds (.memberPayable allocation) each}

/-- Nothing is allocated when nothing is to be shared. -/
def allocateMembers [Crypto] (scope : FinancialScope) (unit : SettlementUnit)
    (schedule : AnnualDistributionSchedule) (each : Money) (members : List MemberId)
    (s : Allocating) : Except ProgramError Allocating :=
  if each.isZero then .ok s else members.foldlM (allocateMember scope unit schedule each) s

namespace FinancialProgram

def new (scope : FinancialScope) (unit : SettlementUnit) : FinancialProgram where
  scope := scope
  unit := unit
  revision := 0
  complete := true
  ledger := .new unit
  records := {}
  journal := []
  lastEventAt := ⟨0⟩

def metadata (p : FinancialProgram) : ProgramMetadata :=
  ⟨p.scope, p.unit, p.revision, p.lastEventAt⟩

def requireComplete (p : FinancialProgram) : Except ProgramError Unit :=
  refuseIf (p.complete = false) .incompleteSnapshot

/-- Runs an operation on a copy, and keeps it as one event. -/
def atomic {α : Type} (p : FinancialProgram) (now : CanonicalTime)
    (f : FinancialProgram → Except ProgramError (FinancialProgram × α)) :
    Except ProgramError (FinancialProgram × α) := do
  refuseIf (now < p.lastEventAt) .timeRegression
  let (next, result) ← f p
  let revision ← okOr (Checked.succ next.revision) .arithmeticOverflow
  .ok ({next with lastEventAt := now, revision}, result)

/-- An operation whose only result is the program. -/
def commit (p : FinancialProgram) (now : CanonicalTime)
    (f : FinancialProgram → Except ProgramError FinancialProgram) :
    Except ProgramError FinancialProgram := do
  let (next, _) ← p.atomic now fun p => do
    let next ← f p
    .ok (next, ())
  .ok next

def post (p : FinancialProgram) (now : CanonicalTime) (cause : FinancialEventId)
    (batch : LedgerBatch) : Except ProgramError FinancialProgram := do
  let ledger ← (p.ledger.apply p.ledger.view.revision batch).mapError .ledger
  .ok {p with ledger, journal := p.journal ++ [⟨now, cause, batch⟩]}

/-! ### Lots -/

def putLot (p : FinancialProgram) (id : PaymentOperationId) (lot : ForfeitureLot) :
    FinancialProgram :=
  {p with records := {p.records with funding := p.records.funding.insert id lot}}

/-- Ingests a contribution exported by a terminal request; exact replay is harmless. -/
def recordForfeiture (p : FinancialProgram) (source : Forfeiture) (now : CanonicalTime) :
    Except ProgramError FinancialProgram :=
  match p.records.funding.get? source.id with
  | some f => if f.source = source then .ok p else .error .duplicateConflict
  | none => p.commit (max now p.lastEventAt) fun p => do
    source.terms.validate
    refuseIf (source.terms.scope ≠ p.scope ∨ source.unit ≠ p.unit ∨ now < source.forfeitedAt)
      .invalidPolicy
    let batch := (∅ : LedgerBatch).transfer (.programClearing source.id)
      (.pendingForfeiture source.id) source.amount
    let p ← p.post now ⟨source.id.val⟩ batch
    .ok (p.putLot source.id ⟨source, .pending source.requiresReview⟩)

def updateLot (p : FinancialProgram) (id : PaymentOperationId)
    (f : ForfeitureLot → Except ProgramError ForfeitureLot) : Except ProgramError FinancialProgram := do
  let lot ← okOr (p.records.funding.get? id) .missingRecord
  let lot ← f lot
  .ok (p.putLot id lot)

/-- Records a financial review hold; assessed funds cannot be silently clawed back. -/
def setHold (p : FinancialProgram) (id : PaymentOperationId) (hold : Bool) (now : CanonicalTime) :
    Except ProgramError FinancialProgram :=
  p.commit now fun p => p.updateLot id fun lot => lot.setHold hold

def clearMaturity (p : FinancialProgram) (id : PaymentOperationId) (evidence : FinancialEventId)
    (now : CanonicalTime) : Except ProgramError FinancialProgram :=
  p.commit now fun p => p.updateLot id fun lot => lot.clear evidence now

/-- Provider reversal evidence blocks an unassessed lot without clawing back member rights. -/
def noteReversal (p : FinancialProgram) (id : PaymentOperationId) (now : CanonicalTime) :
    Except ProgramError FinancialProgram :=
  p.commit (max now p.lastEventAt) fun p => p.updateLot id fun lot =>
    if lot.lifecycle.isAssessed then .ok lot else lot.setHold true

/-! ### Members -/

def putMember (p : FinancialProgram) (id : MemberId) (member : Member) : FinancialProgram :=
  {p with records := {p.records with members := p.records.members.insert id member}}

/-- Enrolls one verified-person identity digest. -/
def enroll (p : FinancialProgram) (id : MemberId) (identityDigest : Bytes32)
    (status : MembershipStatus) (now : CanonicalTime) : Except ProgramError FinancialProgram := do
  p.requireComplete
  p.commit now fun p => do
    refuseIf (identityDigest = zero32 ∨ p.records.members.contains id = true ∨
      p.records.members.values.any (fun m => m.identityDigest = identityDigest) = true)
      .duplicateConflict
    .ok (p.putMember id {
      id, identityDigest
      joinedAt := now
      changes := [(now, status)]
      activityDays := ∅})

def updateMember (p : FinancialProgram) (id : MemberId) (f : Member → Member) :
    Except ProgramError FinancialProgram := do
  let member ← okOr (p.records.members.get? id) .missingRecord
  .ok (p.putMember id (f member))

def setMembership (p : FinancialProgram) (id : MemberId) (status : MembershipStatus)
    (now : CanonicalTime) : Except ProgramError FinancialProgram :=
  p.commit now fun p => p.updateMember id fun m => {m with changes := m.changes ++ [(now, status)]}

/-- Records only the UTC day of authenticated intentional use. -/
def recordActivity (p : FinancialProgram) (id : MemberId) (_ : IntentionalActivity)
    (now : CanonicalTime) : Except ProgramError FinancialProgram :=
  p.commit now fun p => p.updateMember id fun m =>
    {m with activityDays := insert (now.millis / dayMillis) m.activityDays}

/-! ### Distributions -/

/-- Publishes an immutable calendar and eligibility policy before the period begins. -/
def publishAnnualDistribution (p : FinancialProgram) (schedule : AnnualDistributionSchedule)
    (now : CanonicalTime) : Except ProgramError FinancialProgram := do
  p.requireComplete
  match p.records.schedules.get? schedule.id with
  | some old => if old = schedule then .ok p else .error .duplicateConflict
  | none => p.commit now fun p => do
    refuseIf (schedule.isCalendarYear = false ∨ schedule.start < now ∨
      schedule.cutoff ≤ schedule.start ∨ schedule.eligibility.minimumActiveDays = 0 ∨
      p.records.schedules.values.any
        (fun s => s.start < schedule.cutoff ∧ schedule.start < s.cutoff) = true) .invalidPolicy
    .ok {p with records :=
      {p.records with schedules := p.records.schedules.insert schedule.id schedule}}

def qualifyingMembers (p : FinancialProgram) (schedule : AnnualDistributionSchedule) : List MemberId :=
  (p.records.members.values.filter fun m => m.qualifies schedule).map Member.id

def eligibleLots (p : FinancialProgram) (schedule : AnnualDistributionSchedule) :
    List PaymentOperationId :=
  (p.records.funding.values.filter fun f => f.eligibleAt schedule.cutoff).map fun f => f.source.id

/-- An earlier published year is still open. -/
def earlierOpen (p : FinancialProgram) (schedule : AnnualDistributionSchedule) : Bool :=
  p.records.schedules.values.any fun s =>
    s.cutoff ≤ schedule.start ∧ p.records.annualAllocations.contains s.id = false

/-- Freezes funding, equal allocations, assessment marks, and carryforward atomically. -/
def finalizeAnnualDistribution [Crypto] (p : FinancialProgram) (id : AnnualDistributionId)
    (now : CanonicalTime) : Except ProgramError (FinancialProgram × AnnualAllocation) := do
  p.requireComplete
  match p.records.annualAllocations.get? id with
  | some q => .ok (p, q)
  | none => p.atomic now fun p => do
    let schedule ← okOr (p.records.schedules.get? id) .missingRecord
    refuseIf (now < schedule.cutoff) .tooEarly
    refuseIf (p.earlierOpen schedule = true) .closedPeriod
    let members := p.qualifyingMembers schedule
    let funding := p.eligibleLots schedule
    let a ← assessFunding p.records.funding funding schedule.id
    let available ← okOr ((p.ledger.view.balance .restrictedMemberFunds).checkedAdd a.contribution)
      .arithmeticOverflow
    refuseIf (2 ^ 64 ≤ members.length) .arithmeticOverflow
    let each := if members.length = 0 then .zero else available.div members.length
    let remainder := if members.length = 0 then available else available.mod members.length
    let allocated ← allocateMembers p.scope p.unit schedule each members ⟨p.records.payables, a.batch⟩
    let posted ← p.post now ⟨schedule.id.val⟩ allocated.batch
    let result : AnnualAllocation := {
      schedule, members, funding, each, remainder
      finalizedAt := now
      newlyEligible := a.newlyEligible
      corporateShare := a.corporate
      memberContribution := a.contribution}
    .ok ({posted with records := {posted.records with
      funding := a.funding
      payables := allocated.payables
      annualAllocations := posted.records.annualAllocations.insert id result}}, result)

/-! ### Payables -/

def putPayable (p : FinancialProgram) (id : AllocationId) (payable : MemberPayable) :
    FinancialProgram :=
  {p with records := {p.records with payables := p.records.payables.insert id payable}}

/-- Prepares one due allocation using the account's verified bank association. -/
def prepareMemberPayment [Crypto] (p : FinancialProgram) (id : AllocationId)
    (bank : VerifiedBankAccount) (now : CanonicalTime) :
    Except ProgramError (FinancialProgram × Option PaymentOperation) :=
  p.atomic now fun p => do
    let payable ← okOr (p.records.payables.get? id) .missingRecord
    let (payable, operation) ← payable.prepare bank now
    .ok (p.putPayable id payable, operation)

/-- Discharges a fixed payable only after verified provider confirmation. -/
def confirmPayout [Crypto] (p : FinancialProgram) (id : AllocationId)
    (receipt : SignedPaymentEvidence) (key : Bytes32) (now : CanonicalTime) :
    Except ProgramError FinancialProgram := do
  let previous ← okOr (p.records.payables.get? id) .missingRecord
  let (next, batch) ← previous.recordReceipt receipt key
  if next = previous then .ok p
  else p.commit now fun p =>
    let p := p.putPayable id next
    if batch.transfers.isEmpty then .ok p else p.post now receipt.evidence.eventId batch

/-- Adds a separately authorized, company-funded correction without rewriting a distribution. -/
def compensateMember [Crypto] (p : FinancialProgram) (event : FinancialEventId) (member : MemberId)
    (distribution : AnnualDistributionId) (amount : Money) (reason : Text) (now : CanonicalTime) :
    Except ProgramError FinancialProgram := do
  p.requireComplete
  p.commit now fun p => do
    refuseIf (event.val = 0 ∨ amount.isZero = true ∨ reason.isBlank = true ∨
      2000 < reason.utf8.length ∨ p.records.members.contains member = false) .invalidPolicy
    let allocation ← okOr (p.records.annualAllocations.get? distribution) .invalidPolicy
    let id := correctionId p.scope p.unit event
    refuseIf (p.records.payables.contains id = true) .duplicateConflict
    let payable ← MemberPayable.new id member distribution amount allocation.schedule.payment
      p.scope p.unit (some event)
    let batch := (∅ : LedgerBatch).transfer .corporateLossClearing (.memberPayable id) amount
    (p.putPayable id payable).post now event batch

end FinancialProgram

/-! ### Administration -/

inductive ProgramCommand
  | compensateMember (event : FinancialEventId) (member : MemberId)
      (distribution : AnnualDistributionId) (amount : Money) (reason : Text)
  | enroll (member : MemberId) (identityDigest : Bytes32) (status : MembershipStatus)
  | setMembership (member : MemberId) (status : MembershipStatus)
  | recordActivity (member : MemberId) (activity : IntentionalActivity)
  | publishAnnualDistribution (schedule : AnnualDistributionSchedule)
  | hold (source : PaymentOperationId) (hold : Bool)
  | clearMaturity (source : PaymentOperationId) (evidence : FinancialEventId)
  | finalizeAnnualDistribution (distribution : AnnualDistributionId)
  deriving DecidableEq

inductive ProgramOutcome
  | recorded
  | annualAllocation (allocation : AnnualAllocation)
  deriving DecidableEq

/-- Executes already-authorized program administration at canonical receipt time. -/
def FinancialProgram.apply [Crypto] (p : FinancialProgram) (command : ProgramCommand)
    (now : CanonicalTime) : Except ProgramError (FinancialProgram × ProgramOutcome) :=
  let recorded (p : FinancialProgram) := (p, ProgramOutcome.recorded)
  match command with
  | .compensateMember event member distribution amount reason =>
    (p.compensateMember event member distribution amount reason now).map recorded
  | .enroll member identityDigest status => (p.enroll member identityDigest status now).map recorded
  | .setMembership member status => (p.setMembership member status now).map recorded
  | .recordActivity member activity => (p.recordActivity member activity now).map recorded
  | .publishAnnualDistribution schedule => (p.publishAnnualDistribution schedule now).map recorded
  | .hold source hold => (p.setHold source hold now).map recorded
  | .clearMaturity source evidence => (p.clearMaturity source evidence now).map recorded
  | .finalizeAnnualDistribution id =>
    (p.finalizeAnnualDistribution id now).map fun r => (r.1, .annualAllocation r.2)

/-! ### Restoring a stored program -/

/-- Every member under its own identifier, with its own identity and an ordered history. -/
def checkMembers : List Bytes32 → List (MemberId × Member) → Except ProgramError Unit
  | _, [] => .ok ()
  | identities, (id, member) :: rest => do
    refuseIf (id ≠ member.id ∨ member.identityDigest = zero32 ∨ member.identityDigest ∈ identities ∨
      member.changes = [] ∨ member.changes.any (fun c => c.1 < member.joinedAt) = true ∨
      (member.changes.zip member.changes.tail).any (fun c => c.2.1 < c.1.1) = true) .invalidPolicy
    checkMembers (member.identityDigest :: identities) rest

def checkLot (metadata : ProgramMetadata) (e : PaymentOperationId × ForfeitureLot) :
    Except ProgramError Unit := do
  let (id, lot) := e
  refuseIf (id ≠ lot.source.id ∨ lot.source.unit ≠ metadata.unit ∨
    lot.source.terms.scope ≠ metadata.scope ∨ lot.source.amount.isZero = true) .invalidPolicy
  lot.source.terms.validate
  let clearance : Option MaturityClearance := match lot.lifecycle with
    | .pending _ => none
    | .cleared c | .assessed c _ => some c
  refuseIf (clearance.any (fun c => c.evidence.val = 0 ∨
    (lot.source.forfeitedAt.checkedAdd lot.source.terms.maturityDelay).all (fun t => c.time < t) = true)
    = true) .insufficientEvidence

def checkPayable [Crypto] (metadata : ProgramMetadata) (ledger : LedgerView)
    (e : AllocationId × MemberPayable) : Except ProgramError Unit := do
  e.2.validate metadata.scope metadata.unit
  refuseIf (e.1 ≠ e.2.id ∨ ledger.balance (.memberPayable e.1) ≠ e.2.outstanding) .invalidPayment

def checkSchedule (e : AnnualDistributionId × AnnualDistributionSchedule) : Except ProgramError Unit :=
  refuseIf (e.1 ≠ e.2.id ∨ e.2.isCalendarYear = false) .invalidPolicy

def checkAllocation (e : AnnualDistributionId × AnnualAllocation) : Except ProgramError Unit := do
  let (id, a) := e
  refuseIf (id ≠ a.schedule.id ∨ a.schedule.isCalendarYear = false ∨
    a.finalizedAt < a.schedule.cutoff ∨
    a.corporateShare.checkedAdd a.memberContribution ≠ some a.newlyEligible ∨
    ¬a.members.Nodup ∨ ¬a.funding.Nodup) .invalidPolicy
  let count := a.members.length
  refuseIf (u64Max < a.each.units * count + a.remainder.units ∨
    (count = 0 ∧ a.each.isZero = false) ∨ (0 < count ∧ count ≤ a.remainder.units)) .invalidPolicy

namespace FinancialProgram

/-- Assembles a program from its stored records, its ledger and its journal. -/
def restore [Crypto] (metadata : ProgramMetadata) (records : ProgramRecords) (ledger : LedgerView)
    (journal : List ProgramJournalEntry) : Except ProgramError FinancialProgram := do
  refuseIf (ledger.unit ≠ metadata.unit) .invalidPolicy
  let total ← ledger.totalValue.mapError .ledger
  refuseIf (total ≠ .zero) .invalidPayment
  checkMembers [] records.members.entries
  records.funding.entries.forM (checkLot metadata)
  records.payables.entries.forM (checkPayable metadata ledger)
  records.schedules.entries.forM checkSchedule
  records.annualAllocations.entries.forM checkAllocation
  .ok {
    scope := metadata.scope
    unit := metadata.unit
    revision := metadata.revision
    complete := true
    lastEventAt := metadata.lastEventAt
    records, journal
    ledger := ⟨ledger⟩}

/-! ### Runs -/

/-- The public operations of a program. -/
inductive Call
  | apply (command : ProgramCommand)
  | recordForfeiture (source : Forfeiture)
  | noteReversal (id : PaymentOperationId)
  | prepareMemberPayment (id : AllocationId) (bank : VerifiedBankAccount)
  | confirmPayout (id : AllocationId) (receipt : SignedPaymentEvidence) (key : Bytes32)
  deriving DecidableEq

section
variable [Crypto]

def call (p : FinancialProgram) (c : Call × CanonicalTime) : Except ProgramError FinancialProgram :=
  match c.1 with
  | .apply command => (p.apply command c.2).map Prod.fst
  | .recordForfeiture source => p.recordForfeiture source c.2
  | .noteReversal id => p.noteReversal id c.2
  | .prepareMemberPayment id bank => (p.prepareMemberPayment id bank c.2).map Prod.fst
  | .confirmPayout id receipt key => p.confirmPayout id receipt key c.2

end

end FinancialProgram
end CsMail
