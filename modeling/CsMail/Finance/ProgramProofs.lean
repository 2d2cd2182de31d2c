import CsMail.Finance.PayableProofs
import CsMail.Finance.Program

/-! What each operation of the member program does.

An operation either finds its work already done or is one event (`Event`): a change of
the records, and a batch applied to the ledger. Everything later is derived from that. -/
namespace CsMail
open Library

namespace FinancialProgram
variable {p p' next : FinancialProgram} {now : CanonicalTime}

/-! ### Committing and posting -/

/-- The program after an event at this time. -/
def stamped (p : FinancialProgram) (now : CanonicalTime) (revision : U64) : FinancialProgram :=
  {p with lastEventAt := now, revision}

/-- The program after the batch was applied. -/
def posted (p : FinancialProgram) (now : CanonicalTime) (cause : FinancialEventId)
    (batch : LedgerBatch) (view : LedgerView) : FinancialProgram :=
  {p with ledger := ⟨view⟩, journal := p.journal ++ [⟨now, cause, batch⟩]}

theorem atomic_eq_ok {α : Type} {f : FinancialProgram → Except ProgramError (FinancialProgram × α)}
    {result : α} (h : p.atomic now f = .ok (p', result)) :
    p.lastEventAt ≤ now ∧ ∃ next revision, f p = .ok (next, result) ∧
      Checked.succ next.revision = some revision ∧ p' = next.stamped now revision := by
  simp only [atomic, bind_eq_ok, refuseIf_eq_ok, okOr_eq_ok, exists_const, not_lt, Except.ok.injEq,
    Prod.mk.injEq] at h
  obtain ⟨htime, ⟨next, result'⟩, hf, revision, hrevision, rfl, rfl⟩ := h
  exact ⟨htime, next, revision, hf, hrevision, rfl⟩

theorem commit_eq_ok {f : FinancialProgram → Except ProgramError FinancialProgram}
    (h : p.commit now f = .ok p') :
    p.lastEventAt ≤ now ∧ ∃ next revision, f p = .ok next ∧
      Checked.succ next.revision = some revision ∧ p' = next.stamped now revision := by
  obtain ⟨⟨q, ⟨⟩⟩, hatomic, hq⟩ := bind_eq_ok.mp h
  cases hq
  obtain ⟨htime, next, revision, hf, hrevision, rfl⟩ := atomic_eq_ok hatomic
  obtain ⟨next', hf, heq⟩ := bind_eq_ok.mp hf
  cases heq
  exact ⟨htime, next, revision, hf, hrevision, rfl⟩

theorem post_eq_ok {cause : FinancialEventId} {batch : LedgerBatch} :
    p.post now cause batch = .ok p' ↔
      ∃ view, p.ledger.view.apply batch = .ok view ∧ p' = p.posted now cause batch view := by
  simp only [post, LedgerState.apply, refuseIf, ne_eq, not_true_eq_false, if_false, ok_bind,
    bind_eq_ok, mapError_eq_ok, Except.ok.injEq]
  constructor
  · rintro ⟨_, ⟨view, hview, rfl⟩, rfl⟩
    exact ⟨view, hview, rfl⟩
  · rintro ⟨view, hview, rfl⟩
    exact ⟨_, ⟨view, hview, rfl⟩, rfl⟩

/-! ### What one event changes -/

/-- What a review or a clearance makes of a lot. -/
inductive LotChange (now : CanonicalTime) (id : PaymentOperationId) (lot : ForfeitureLot) :
    Call → ForfeitureLot → Prop
  | held (held : Bool) : lot.lifecycle.isAssessed = false →
      LotChange now id lot (.apply (.hold id held)) {lot with lifecycle := .pending held}
  | cleared (evidence : FinancialEventId) (mature : CanonicalTime) :
      lot.lifecycle ≠ .pending true → lot.lifecycle.isAssessed = false → evidence.val ≠ 0 →
      lot.source.forfeitedAt.checkedAdd lot.source.terms.maturityDelay = some mature →
      mature ≤ now →
      LotChange now id lot (.apply (.clearMaturity id evidence))
        {lot with lifecycle := .cleared ⟨now, evidence⟩}
  | reversed : lot.lifecycle.isAssessed = false →
      LotChange now id lot (.noteReversal id) {lot with lifecycle := .pending true}
  | kept : lot.lifecycle.isAssessed = true → LotChange now id lot (.noteReversal id) lot

theorem LotChange.source {c : Call} {id : PaymentOperationId} {lot lot' : ForfeitureLot}
    (h : LotChange now id lot c lot') : lot'.source = lot.source := by
  cases h <;> rfl

/-- A review never touches an assessed lot. -/
theorem LotChange.assessed {c : Call} {id : PaymentOperationId} {lot lot' : ForfeitureLot}
    {clearance : MaturityClearance} {d : AnnualDistributionId} (h : LotChange now id lot c lot')
    (hassessed : lot.lifecycle = .assessed clearance d) : lot' = lot := by
  have hlot : lot.lifecycle.isAssessed = true := by rw [hassessed]; rfl
  cases h with
  | held held hnot | reversed hnot => rw [hlot] at hnot; cases hnot
  | cleared evidence mature hheld hnot => rw [hlot] at hnot; cases hnot
  | kept => rfl

/-- What a membership operation makes of a member. -/
inductive MemberChange (now : CanonicalTime) (id : MemberId) (m : Member) : Call → Member → Prop
  | status (status : MembershipStatus) :
      MemberChange now id m (.apply (.setMembership id status))
        {m with changes := m.changes ++ [(now, status)]}
  | activity (activity : IntentionalActivity) :
      MemberChange now id m (.apply (.recordActivity id activity))
        {m with activityDays := insert (now.millis / dayMillis) m.activityDays}

theorem MemberChange.id {c : Call} {id : MemberId} {m m' : Member} (h : MemberChange now id m c m') :
    m'.id = m.id := by
  cases h <;> rfl

/-- The batch that brings a forfeiture into the program. -/
def forfeitureBatch (source : Forfeiture) : LedgerBatch :=
  (∅ : LedgerBatch).transfer (.programClearing source.id) (.pendingForfeiture source.id) source.amount

def correctionBatch (id : AllocationId) (amount : Money) : LedgerBatch :=
  (∅ : LedgerBatch).transfer .corporateLossClearing (.memberPayable id) amount

/-- A forfeiture the program takes: new, and of its own scope and unit. -/
structure Takes (p : FinancialProgram) (source : Forfeiture) (now : CanonicalTime) : Prop where
  fresh : p.records.funding.get? source.id = none
  rated : source.terms.validate = .ok ⟨⟩
  scope : source.terms.scope = p.scope
  unit : source.unit = p.unit
  past : source.forfeitedAt ≤ now

structure Enrolls (p : FinancialProgram) (id : MemberId) (identityDigest : Bytes32) : Prop where
  fresh : p.records.members.get? id = none
  digest : identityDigest ≠ zero32
  unique : ∀ m ∈ p.records.members.values, m.identityDigest ≠ identityDigest

structure Publishes (p : FinancialProgram) (schedule : AnnualDistributionSchedule)
    (now : CanonicalTime) : Prop where
  fresh : p.records.schedules.get? schedule.id = none
  calendar : schedule.isCalendarYear = true
  ahead : now ≤ schedule.start
  ordered : schedule.start < schedule.cutoff
  active : schedule.eligibility.minimumActiveDays ≠ 0
  disjoint : ∀ s ∈ p.records.schedules.values,
    ¬(s.start < schedule.cutoff ∧ schedule.start < s.cutoff)

/-- What a finalization computes before it posts. -/
structure Distribution where
  assessed : Assessed
  available : Money
  allocated : Allocating

def Distribution.each (d : Distribution) (members : List MemberId) : Money :=
  if members.length = 0 then .zero else d.available.div members.length

def Distribution.remainder (d : Distribution) (members : List MemberId) : Money :=
  if members.length = 0 then d.available else d.available.mod members.length

section
variable [Crypto]

/-- The distribution of a year is the one the program's records call for. -/
structure Distributes (p : FinancialProgram) (id : AnnualDistributionId)
    (schedule : AnnualDistributionSchedule) (now : CanonicalTime) (d : Distribution) : Prop where
  published : p.records.schedules.get? id = some schedule
  unfinished : p.records.annualAllocations.get? id = none
  due : schedule.cutoff ≤ now
  ordered : p.earlierOpen schedule = false
  assessed : assessFunding p.records.funding (p.eligibleLots schedule) schedule.id = .ok d.assessed
  available : (p.ledger.view.balance .restrictedMemberFunds).checkedAdd d.assessed.contribution =
    some d.available
  allocated : allocateMembers p.scope p.unit schedule (d.each (p.qualifyingMembers schedule))
    (p.qualifyingMembers schedule) ⟨p.records.payables, d.assessed.batch⟩ = .ok d.allocated

/-- What the year's record says. -/
def allocation (p : FinancialProgram) (schedule : AnnualDistributionSchedule) (now : CanonicalTime)
    (d : Distribution) : AnnualAllocation where
  schedule := schedule
  finalizedAt := now
  members := p.qualifyingMembers schedule
  funding := p.eligibleLots schedule
  newlyEligible := d.assessed.newlyEligible
  corporateShare := d.assessed.corporate
  memberContribution := d.assessed.contribution
  each := d.each (p.qualifyingMembers schedule)
  remainder := d.remainder (p.qualifyingMembers schedule)

/-- The program after a year's distribution was posted. -/
def distributed (p : FinancialProgram) (id : AnnualDistributionId)
    (schedule : AnnualDistributionSchedule) (now : CanonicalTime) (d : Distribution)
    (view : LedgerView) : FinancialProgram :=
  {p.posted now ⟨schedule.id.val⟩ d.allocated.batch view with
    records := {p.records with
      funding := d.assessed.funding
      payables := d.allocated.payables
      annualAllocations := p.records.annualAllocations.insert id (p.allocation schedule now d)}}

/-- A correction the program grants. -/
structure Corrects (p : FinancialProgram) (event : FinancialEventId) (member : MemberId)
    (distribution : AnnualDistributionId) (amount : Money) (payable : MemberPayable) : Prop where
  identified : event.val ≠ 0
  positive : amount.isZero = false
  enrolled : p.records.members.contains member = true
  fresh : p.records.payables.get? (correctionId p.scope p.unit event) = none
  granted : ∃ a, p.records.annualAllocations.get? distribution = some a ∧
    MemberPayable.new (correctionId p.scope p.unit event) member distribution amount
      a.schedule.payment p.scope p.unit (some event) = .ok payable

/-- The program an accepted operation leaves, before it is stamped with the event's time. -/
inductive Event (p : FinancialProgram) (now : CanonicalTime) : Call → FinancialProgram → Prop
  | forfeited {source : Forfeiture} {view : LedgerView} : p.Takes source now →
      p.ledger.view.apply (forfeitureBatch source) = .ok view →
      Event p now (.recordForfeiture source)
        ((p.posted now ⟨source.id.val⟩ (forfeitureBatch source) view).putLot source.id
          ⟨source, .pending source.requiresReview⟩)
  | reviewed {c : Call} {id : PaymentOperationId} {lot lot' : ForfeitureLot} :
      p.records.funding.get? id = some lot → LotChange now id lot c lot' →
      Event p now c (p.putLot id lot')
  | enrolled {id : MemberId} {identityDigest : Bytes32} {status : MembershipStatus} :
      p.Enrolls id identityDigest →
      Event p now (.apply (.enroll id identityDigest status))
        (p.putMember id ⟨id, identityDigest, now, [(now, status)], ∅⟩)
  | changed {c : Call} {id : MemberId} {m m' : Member} :
      p.records.members.get? id = some m → MemberChange now id m c m' →
      Event p now c (p.putMember id m')
  | published {schedule : AnnualDistributionSchedule} : p.Publishes schedule now →
      Event p now (.apply (.publishAnnualDistribution schedule))
        {p with records :=
          {p.records with schedules := p.records.schedules.insert schedule.id schedule}}
  | finalized {id : AnnualDistributionId} {schedule : AnnualDistributionSchedule}
      {d : Distribution} {view : LedgerView} : p.Distributes id schedule now d →
      p.ledger.view.apply d.allocated.batch = .ok view →
      Event p now (.apply (.finalizeAnnualDistribution id)) (p.distributed id schedule now d view)
  | prepared {id : AllocationId} {bank : VerifiedBankAccount} {payable payable' : MemberPayable}
      {operation : Option PaymentOperation} : p.records.payables.get? id = some payable →
      payable.prepare bank now = .ok (payable', operation) →
      Event p now (.prepareMemberPayment id bank) (p.putPayable id payable')
  | noted {id : AllocationId} {receipt : SignedPaymentEvidence} {key : Bytes32}
      {payable payable' : MemberPayable} {batch : LedgerBatch} :
      p.records.payables.get? id = some payable →
      payable.recordReceipt receipt key = .ok (payable', batch) → batch.transfers = [] →
      Event p now (.confirmPayout id receipt key) (p.putPayable id payable')
  | confirmed {id : AllocationId} {receipt : SignedPaymentEvidence} {key : Bytes32}
      {payable payable' : MemberPayable} {batch : LedgerBatch} {view : LedgerView} :
      p.records.payables.get? id = some payable →
      payable.recordReceipt receipt key = .ok (payable', batch) →
      p.ledger.view.apply batch = .ok view →
      Event p now (.confirmPayout id receipt key)
        ((p.putPayable id payable').posted now receipt.evidence.eventId batch view)
  | corrected {event : FinancialEventId} {member : MemberId} {distribution : AnnualDistributionId}
      {amount : Money} {reason : Text} {payable : MemberPayable} {view : LedgerView} :
      p.Corrects event member distribution amount payable →
      p.ledger.view.apply (correctionBatch (correctionId p.scope p.unit event) amount) = .ok view →
      Event p now (.apply (.compensateMember event member distribution amount reason))
        ((p.putPayable (correctionId p.scope p.unit event) payable).posted now event
          (correctionBatch (correctionId p.scope p.unit event) amount) view)

/-- Evidence from the settlement side may come late: it is stamped with the later time. -/
def eventTime (p : FinancialProgram) (c : Call × CanonicalTime) : CanonicalTime :=
  match c.1 with
  | .recordForfeiture _ | .noteReversal _ => max c.2 p.lastEventAt
  | _ => c.2

/-- An accepted operation: one event, stamped with its time and the next revision. -/
def Happens (p : FinancialProgram) (c : Call × CanonicalTime) (p' : FinancialProgram) : Prop :=
  p.lastEventAt ≤ p.eventTime c ∧ ∃ next revision, p.Event c.2 c.1 next ∧
    Checked.succ next.revision = some revision ∧ p' = next.stamped (p.eventTime c) revision

/-- An operation of which nothing is left to do. -/
inductive Done (p : FinancialProgram) : Call → Prop
  | forfeited {source : Forfeiture} {lot : ForfeitureLot} :
      p.records.funding.get? source.id = some lot → lot.source = source →
      Done p (.recordForfeiture source)
  | published {schedule : AnnualDistributionSchedule} :
      p.records.schedules.get? schedule.id = some schedule →
      Done p (.apply (.publishAnnualDistribution schedule))
  | finalized {id : AnnualDistributionId} : p.records.annualAllocations.contains id = true →
      Done p (.apply (.finalizeAnnualDistribution id))
  | confirmed {id : AllocationId} {receipt : SignedPaymentEvidence} {key : Bytes32} :
      Done p (.confirmPayout id receipt key)

/-! ### Accepted operations -/

section
variable {c : Call}

theorem happens_of_commit {time : CanonicalTime} {f : FinancialProgram → Except ProgramError FinancialProgram}
    (h : p.commit time f = .ok p') (htime : p.eventTime (c, now) = time)
    (hevent : ∀ next, f p = .ok next → p.Event now c next) : p.Happens (c, now) p' := by
  obtain ⟨hlast, next, revision, hf, hrevision, rfl⟩ := commit_eq_ok h
  subst htime
  exact ⟨hlast, next, revision, hevent next hf, hrevision, rfl⟩

theorem happens_of_atomic {α : Type} {result : α} {time : CanonicalTime}
    {f : FinancialProgram → Except ProgramError (FinancialProgram × α)}
    (h : p.atomic time f = .ok (p', result)) (htime : p.eventTime (c, now) = time)
    (hevent : ∀ next, f p = .ok (next, result) → p.Event now c next) : p.Happens (c, now) p' := by
  obtain ⟨hlast, next, revision, hf, hrevision, rfl⟩ := atomic_eq_ok h
  subst htime
  exact ⟨hlast, next, revision, hevent next hf, hrevision, rfl⟩

omit [Crypto] in
theorem updateLot_eq_ok {id : PaymentOperationId} {f : ForfeitureLot → Except ProgramError ForfeitureLot}
    (h : p.updateLot id f = .ok next) : ∃ lot lot', p.records.funding.get? id = some lot ∧
      f lot = .ok lot' ∧ next = p.putLot id lot' := by
  simp only [updateLot, bind_eq_ok, okOr_eq_ok, Except.ok.injEq] at h
  obtain ⟨lot, hlot, lot', hf, rfl⟩ := h
  exact ⟨lot, lot', hlot, hf, rfl⟩

omit [Crypto] in
theorem updateMember_eq_ok {id : MemberId} {f : Member → Member} (h : p.updateMember id f = .ok next) :
    ∃ m, p.records.members.get? id = some m ∧ next = p.putMember id (f m) := by
  simp only [updateMember, bind_eq_ok, okOr_eq_ok, Except.ok.injEq] at h
  obtain ⟨m, hm, rfl⟩ := h
  exact ⟨m, hm, rfl⟩

theorem recordForfeiture_eq_ok {source : Forfeiture} (h : p.recordForfeiture source now = .ok p') :
    p' = p ∧ p.Done (.recordForfeiture source) ∨ p.Happens (.recordForfeiture source, now) p' := by
  unfold recordForfeiture at h
  cases hlot : p.records.funding.get? source.id with
  | some lot =>
    simp only [hlot] at h
    split_ifs at h with hsame
    cases h
    exact .inl ⟨rfl, .forfeited hlot hsame⟩
  | none =>
    simp only [hlot] at h
    refine .inr (happens_of_commit h rfl fun next hnext => ?_)
    simp only [bind_eq_ok, refuseIf_eq_ok, exists_const, post_eq_ok, Except.ok.injEq, not_or,
      not_lt, ne_eq, Decidable.not_not] at hnext
    obtain ⟨⟨⟩, hrated, ⟨hscope, hunit, hpast⟩, q, ⟨view, hview, rfl⟩, rfl⟩ := hnext
    exact .forfeited ⟨hlot, hrated, hscope, hunit, hpast⟩ hview

theorem setHold_eq_ok {id : PaymentOperationId} {held : Bool} (h : p.setHold id held now = .ok p') :
    p.Happens (.apply (.hold id held), now) p' := by
  refine happens_of_commit h rfl fun next hnext => ?_
  obtain ⟨lot, lot', hlot, hf, rfl⟩ := updateLot_eq_ok hnext
  unfold ForfeitureLot.setHold at hf
  split_ifs at hf with hassessed
  cases hf
  exact .reviewed hlot (.held held (by simpa using hassessed))

theorem noteReversal_eq_ok {id : PaymentOperationId} (h : p.noteReversal id now = .ok p') :
    p.Happens (.noteReversal id, now) p' := by
  refine happens_of_commit h rfl fun next hnext => ?_
  obtain ⟨lot, lot', hlot, hf, rfl⟩ := updateLot_eq_ok hnext
  split_ifs at hf with hassessed
  · cases hf
    exact .reviewed hlot (.kept hassessed)
  · rw [ForfeitureLot.setHold, if_neg hassessed] at hf
    cases hf
    exact .reviewed hlot (.reversed (by simpa using hassessed))

theorem clearMaturity_eq_ok {id : PaymentOperationId} {evidence : FinancialEventId}
    (h : p.clearMaturity id evidence now = .ok p') :
    p.Happens (.apply (.clearMaturity id evidence), now) p' := by
  refine happens_of_commit h rfl fun next hnext => ?_
  obtain ⟨lot, lot', hlot, hf, rfl⟩ := updateLot_eq_ok hnext
  simp only [ForfeitureLot.clear, bind_eq_ok, refuseIf_eq_ok, okOr_eq_ok, exists_const, not_or,
    not_lt, Bool.not_eq_true, Except.ok.injEq] at hf
  obtain ⟨⟨hheld, hassessed, hevidence⟩, mature, hmature, htime, rfl⟩ := hf
  exact .reviewed hlot (.cleared evidence mature hheld hassessed hevidence hmature htime)

theorem enroll_eq_ok {id : MemberId} {identityDigest : Bytes32} {status : MembershipStatus}
    (h : p.enroll id identityDigest status now = .ok p') :
    p.Happens (.apply (.enroll id identityDigest status), now) p' := by
  obtain ⟨⟨⟩, -, h⟩ := bind_eq_ok.mp h
  refine happens_of_commit h rfl fun next hnext => ?_
  simp only [bind_eq_ok, refuseIf_eq_ok, exists_const, Except.ok.injEq, not_or, List.any_eq_true,
    decide_eq_true_eq, not_exists, not_and, Bool.not_eq_true, SortedMap.contains_eq_false] at hnext
  obtain ⟨⟨hdigest, hfresh, hunique⟩, rfl⟩ := hnext
  exact .enrolled ⟨hfresh, hdigest, hunique⟩

theorem setMembership_eq_ok {id : MemberId} {status : MembershipStatus}
    (h : p.setMembership id status now = .ok p') :
    p.Happens (.apply (.setMembership id status), now) p' := by
  refine happens_of_commit h rfl fun next hnext => ?_
  obtain ⟨m, hm, rfl⟩ := updateMember_eq_ok hnext
  exact .changed hm (.status status)

theorem recordActivity_eq_ok {id : MemberId} {activity : IntentionalActivity}
    (h : p.recordActivity id activity now = .ok p') :
    p.Happens (.apply (.recordActivity id activity), now) p' := by
  refine happens_of_commit h rfl fun next hnext => ?_
  obtain ⟨m, hm, rfl⟩ := updateMember_eq_ok hnext
  exact .changed hm (.activity activity)

theorem publish_eq_ok {schedule : AnnualDistributionSchedule}
    (h : p.publishAnnualDistribution schedule now = .ok p') :
    p' = p ∧ p.Done (.apply (.publishAnnualDistribution schedule)) ∨
      p.Happens (.apply (.publishAnnualDistribution schedule), now) p' := by
  obtain ⟨⟨⟩, -, h⟩ := bind_eq_ok.mp h
  cases hold : p.records.schedules.get? schedule.id with
  | some old =>
    simp only [hold] at h
    split_ifs at h with hsame
    cases h
    exact .inl ⟨rfl, .published (hsame ▸ hold)⟩
  | none =>
    simp only [hold] at h
    refine .inr (happens_of_commit h rfl fun next hnext => ?_)
    simp only [bind_eq_ok, refuseIf_eq_ok, exists_const, Except.ok.injEq, not_or, not_lt, not_le,
      Bool.not_eq_false, List.any_eq_true, decide_eq_true_eq, not_exists, not_and] at hnext
    obtain ⟨⟨hcalendar, hahead, hordered, hactive, hdisjoint⟩, rfl⟩ := hnext
    exact .published ⟨hold, hcalendar, hahead, hordered, hactive, fun s hs h =>
      absurd (hdisjoint s hs h.1) (not_le.mpr h.2)⟩

/-- A year is finalized once, into the distribution its records call for. -/
theorem finalize_accepted {id : AnnualDistributionId} {a : AnnualAllocation}
    (hdone : p.records.annualAllocations.get? id = none)
    (h : p.finalizeAnnualDistribution id now = .ok (p', a)) : p.lastEventAt ≤ now ∧
      ∃ schedule d view revision, p.Distributes id schedule now d ∧
        p.ledger.view.apply d.allocated.batch = .ok view ∧ Checked.succ p.revision = some revision ∧
        p' = (p.distributed id schedule now d view).stamped now revision ∧
        a = p.allocation schedule now d := by
  obtain ⟨⟨⟩, -, h⟩ := bind_eq_ok.mp h
  simp only [hdone] at h
  obtain ⟨hlast, next, revision, hnext, hrevision, rfl⟩ := atomic_eq_ok h
  simp only [bind_eq_ok, refuseIf_eq_ok, okOr_eq_ok, exists_const, post_eq_ok, Except.ok.injEq,
    Prod.mk.injEq, not_lt, Bool.not_eq_true] at hnext
  obtain ⟨schedule, hschedule, hdue, hordered, assessed, hassessed, available, havailable, -,
    allocated, hallocated, q, ⟨view, hview, rfl⟩, rfl, rfl⟩ := hnext
  exact ⟨hlast, schedule, ⟨assessed, available, allocated⟩, view, revision,
    ⟨hschedule, hdone, hdue, hordered, hassessed, havailable, hallocated⟩, hview, hrevision, rfl, rfl⟩

theorem finalize_eq_ok {id : AnnualDistributionId} {a : AnnualAllocation}
    (h : p.finalizeAnnualDistribution id now = .ok (p', a)) :
    p' = p ∧ p.Done (.apply (.finalizeAnnualDistribution id)) ∨
      p.Happens (.apply (.finalizeAnnualDistribution id), now) p' := by
  cases hdone : p.records.annualAllocations.get? id with
  | some old =>
    obtain ⟨⟨⟩, -, h⟩ := bind_eq_ok.mp h
    simp only [hdone] at h
    cases h
    exact .inl ⟨rfl, .finalized (SortedMap.contains_eq_true.mpr ⟨_, hdone⟩)⟩
  | none =>
    obtain ⟨hlast, schedule, d, view, revision, hd, hview, hrevision, rfl, -⟩ := finalize_accepted hdone h
    exact .inr ⟨hlast, _, revision, .finalized hd hview, hrevision, rfl⟩

theorem prepare_eq_ok {id : AllocationId} {bank : VerifiedBankAccount}
    {operation : Option PaymentOperation} (h : p.prepareMemberPayment id bank now = .ok (p', operation)) :
    p.Happens (.prepareMemberPayment id bank, now) p' := by
  refine happens_of_atomic h rfl fun next hnext => ?_
  simp only [bind_eq_ok, okOr_eq_ok, Except.ok.injEq, Prod.mk.injEq] at hnext
  obtain ⟨payable, hpayable, ⟨payable', operation⟩, hprepare, rfl, rfl⟩ := hnext
  exact .prepared hpayable hprepare

theorem confirmPayout_eq_ok {id : AllocationId} {receipt : SignedPaymentEvidence} {key : Bytes32}
    (h : p.confirmPayout id receipt key now = .ok p') :
    p' = p ∧ p.Done (.confirmPayout id receipt key) ∨
      p.Happens (.confirmPayout id receipt key, now) p' := by
  simp only [confirmPayout, bind_eq_ok, okOr_eq_ok] at h
  obtain ⟨previous, hprevious, ⟨payable', batch⟩, hrecord, h⟩ := h
  split_ifs at h with hsame hempty
  · cases h
    exact .inl ⟨rfl, .confirmed⟩
  · refine .inr (happens_of_commit h rfl fun next hnext => ?_)
    cases hnext
    exact .noted hprevious hrecord (List.isEmpty_iff.mp hempty)
  · refine .inr (happens_of_commit h rfl fun next hnext => ?_)
    obtain ⟨view, hview, rfl⟩ := post_eq_ok.mp hnext
    exact .confirmed hprevious hrecord hview

theorem compensateMember_eq_ok {event : FinancialEventId} {member : MemberId}
    {distribution : AnnualDistributionId} {amount : Money} {reason : Text}
    (h : p.compensateMember event member distribution amount reason now = .ok p') :
    p.Happens (.apply (.compensateMember event member distribution amount reason), now) p' := by
  obtain ⟨⟨⟩, -, h⟩ := bind_eq_ok.mp h
  refine happens_of_commit h rfl fun next hnext => ?_
  simp only [bind_eq_ok, refuseIf_eq_ok, okOr_eq_ok, exists_const, not_or, Bool.not_eq_true,
    SortedMap.contains_eq_false] at hnext
  obtain ⟨⟨hevent, hamount, -, -, hmember⟩, a, ha, hfresh, payable, hpayable, hpost⟩ := hnext
  have henrolled : p.records.members.contains member = true := by
    rwa [← Bool.not_eq_false, SortedMap.contains_eq_false]
  obtain ⟨view, hview, rfl⟩ := post_eq_ok.mp hpost
  exact .corrected ⟨hevent, hamount, henrolled, hfresh, a, ha, hpayable⟩ hview

/-- An accepted operation has nothing left to do, or is one event. -/
theorem call_eq_ok {c : Call × CanonicalTime} (h : p.call c = .ok p') :
    p' = p ∧ p.Done c.1 ∨ p.Happens c p' := by
  obtain ⟨c, now⟩ := c
  cases c with
  | recordForfeiture source => exact recordForfeiture_eq_ok h
  | noteReversal id => exact .inr (noteReversal_eq_ok h)
  | prepareMemberPayment id bank =>
    obtain ⟨⟨q, operation⟩, hprepare, rfl⟩ := map_eq_ok.mp h
    exact .inr (prepare_eq_ok hprepare)
  | confirmPayout id receipt key => exact confirmPayout_eq_ok h
  | apply command =>
    obtain ⟨⟨q, outcome⟩, happly, rfl⟩ := map_eq_ok.mp h
    cases command with
    | finalizeAnnualDistribution id =>
      obtain ⟨⟨q', a⟩, hfinalize, heq⟩ := map_eq_ok.mp happly
      cases heq
      exact finalize_eq_ok hfinalize
    | publishAnnualDistribution schedule =>
      obtain ⟨q', hpublish, heq⟩ := map_eq_ok.mp happly
      cases heq
      exact publish_eq_ok hpublish
    | compensateMember event member distribution amount reason =>
      obtain ⟨q', hcompensate, heq⟩ := map_eq_ok.mp happly
      cases heq
      exact .inr (compensateMember_eq_ok hcompensate)
    | enroll id identityDigest status =>
      obtain ⟨q', henroll, heq⟩ := map_eq_ok.mp happly
      cases heq
      exact .inr (enroll_eq_ok henroll)
    | setMembership id status =>
      obtain ⟨q', hset, heq⟩ := map_eq_ok.mp happly
      cases heq
      exact .inr (setMembership_eq_ok hset)
    | recordActivity id activity =>
      obtain ⟨q', hrecord, heq⟩ := map_eq_ok.mp happly
      cases heq
      exact .inr (recordActivity_eq_ok hrecord)
    | hold id held =>
      obtain ⟨q', hhold, heq⟩ := map_eq_ok.mp happly
      cases heq
      exact .inr (setHold_eq_ok hhold)
    | clearMaturity id evidence =>
      obtain ⟨q', hclear, heq⟩ := map_eq_ok.mp happly
      cases heq
      exact .inr (clearMaturity_eq_ok hclear)

end

end
end FinancialProgram
end CsMail
