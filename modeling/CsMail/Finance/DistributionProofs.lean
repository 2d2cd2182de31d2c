import CsMail.Finance.PayableProofs
import CsMail.Finance.Program

/-! The calendar of a distribution, and the two loops of a finalization.

The first loop moves every eligible lot into the restricted funds and takes the corporate
share out of them (`assessFunding_spec`); the second hands each member an equal share
(`allocateMembers_spec`). -/
namespace CsMail
open Library

/-! ### Calendar years -/

namespace AnnualDistributionSchedule
variable {s s' : AnnualDistributionSchedule}

/-- The schedule covers a Gregorian year, and is named by it. -/
structure Covers (s : AnnualDistributionSchedule) (year : ℕ) : Prop where
  epoch : 1970 ≤ year
  id : s.id.val.val = year
  start : s.start.millis = daysBefore year * dayMillis
  cutoff : s.cutoff.millis = daysBefore (year + 1) * dayMillis

theorem covers_of_isCalendarYear (h : s.isCalendarYear = true) : s.Covers s.id.val.val := by
  unfold isCalendarYear year at h
  split at h
  · cases h
  rename_i year hyear
  split_ifs at hyear with hsmall
  cases hyear
  split at h
  · rename_i expected hexpected
    simp only [decide_eq_true_eq] at h
    subst h
    simp only [utc, bind_eq_ok, okOr_eq_ok, refuseIf_eq_ok, exists_const, calendarDate_newYear,
      Checked.succ_eq_some, Except.ok.injEq] at hexpected
    obtain ⟨-, start, ⟨hrange, hstart⟩, next, hnext, cutoff, ⟨-, hcutoff⟩, -, heq⟩ := hexpected
    have hs := congrArg AnnualDistributionSchedule.start heq
    have hc := congrArg AnnualDistributionSchedule.cutoff heq
    refine ⟨hrange.1, rfl, ?_, ?_⟩
    · rw [← hs]
      exact hstart
    · rw [← hc]
      exact hcutoff.trans (by rw [hnext])
  · cases h

theorem Covers.lt_cutoff {year : ℕ} (h : s.Covers year) : s.start < s.cutoff := by
  have hdays := daysBefore_strictMono h.epoch (Nat.lt_succ_self year)
  rw [CanonicalTime.lt_iff_millis, h.start, h.cutoff]
  exact Nat.mul_lt_mul_of_pos_right hdays (by decide)

/-- An earlier year ends before a later one begins. -/
theorem Covers.cutoff_le {year year' : ℕ} (h : s.Covers year) (h' : s'.Covers year')
    (hlt : s.id < s'.id) : s.cutoff ≤ s'.start := by
  have hyears : year < year' := by
    rw [← h.id, ← h'.id]
    exact hlt
  rw [CanonicalTime.le_iff_millis, h.cutoff, h'.start]
  refine Nat.mul_le_mul_right _ ?_
  rcases Nat.lt_or_eq_of_le hyears with hnext | hnext
  · exact (daysBefore_strictMono (by have := h.epoch; omega) hnext).le
  · exact (congrArg daysBefore hnext).le

end AnnualDistributionSchedule

/-! ### Assessing -/

/-- What the lot recorded under this identifier holds. -/
def lotAmount (funding : SortedMap PaymentOperationId ForfeitureLot) (id : PaymentOperationId) : ℕ :=
  ((funding.get? id).map fun lot => lot.source.amount.units).getD 0

/-- The lot once it is assessed. -/
def ForfeitureLot.assessedIn (lot : ForfeitureLot) (distribution : AnnualDistributionId) :
    ForfeitureLot :=
  match lot.lifecycle with
  | .cleared clearance => {lot with lifecycle := .assessed clearance distribution}
  | _ => lot

theorem ForfeitureLot.assessedIn_source (lot : ForfeitureLot) (distribution : AnnualDistributionId) :
    (lot.assessedIn distribution).source = lot.source := by
  unfold ForfeitureLot.assessedIn
  split <;> rfl

theorem ForfeitureLot.assessedIn_lifecycle {lot : ForfeitureLot} {distribution : AnnualDistributionId}
    {clearance : MaturityClearance} (h : lot.lifecycle = .cleared clearance) :
    (lot.assessedIn distribution).lifecycle = .assessed clearance distribution := by
  simp only [assessedIn, h]

theorem ForfeitureLot.assess_eq_ok {lot lot' : ForfeitureLot} {distribution : AnnualDistributionId}
    (h : lot.assess distribution = .ok lot') :
    (∃ clearance, lot.lifecycle = .cleared clearance) ∧ lot' = lot.assessedIn distribution := by
  unfold ForfeitureLot.assess at h
  cases hlot : lot.lifecycle with
  | cleared clearance =>
    simp only [hlot, Except.ok.injEq] at h
    exact ⟨⟨clearance, rfl⟩, by rw [assessedIn, hlot, ← h]⟩
  | pending held => simp [hlot] at h
  | assessed clearance d => simp [hlot] at h

/-- The loop over the lots, after these. -/
structure AssessedUpTo (funding : SortedMap PaymentOperationId ForfeitureLot)
    (distribution : AnnualDistributionId) (lots : List PaymentOperationId) (s : Assessment) : Prop where
  marked : ∀ id, s.funding.get? id =
    if id ∈ lots then (funding.get? id).map (ForfeitureLot.assessedIn · distribution)
    else funding.get? id
  cleared : ∀ id ∈ lots, ∃ lot clearance, funding.get? id = some lot ∧
    lot.lifecycle = .cleared clearance
  newlyEligible : s.newlyEligible.units = (lots.map (lotAmount funding)).sum
  cohorts : s.cohorts.sumBy (fun cohort => cohort.2.units) = s.newlyEligible.units
  pending : ∀ id, s.batch.net (.pendingForfeiture id) =
    if id ∈ lots then -(lotAmount funding id : ℤ) else 0
  restricted : s.batch.net .restrictedMemberFunds = s.newlyEligible.units
  others : ∀ a, (∀ id, a ≠ .pendingForfeiture id) → a ≠ .restrictedMemberFunds → s.batch.net a = 0

section
variable {funding : SortedMap PaymentOperationId ForfeitureLot} {distribution : AnnualDistributionId}
  {lots : List PaymentOperationId}

theorem AssessedUpTo.start : AssessedUpTo funding distribution [] ⟨funding, ∅, .zero, ∅⟩ where
  marked id := by simp
  cleared := by simp
  newlyEligible := rfl
  cohorts := rfl
  pending id := by simp
  restricted := rfl
  others a _ _ := rfl

theorem AssessedUpTo.step {s s' : Assessment} {id : PaymentOperationId} (hnew : id ∉ lots)
    (h : AssessedUpTo funding distribution lots s) (hstep : assessLot distribution s id = .ok s') :
    AssessedUpTo funding distribution (lots ++ [id]) s' := by
  simp only [assessLot, bind_eq_ok, refuseIf_eq_ok, okOr_eq_ok, exists_const, Except.ok.injEq,
    Money.checkedAdd_eq_some] at hstep
  obtain ⟨lot, hlot, hrate, amount, hamount, newly, hnewly, lot', hassess, rfl⟩ := hstep
  have hheld : funding.get? id = some lot := by rw [← hlot, h.marked, if_neg hnew]
  have hown : lotAmount funding id = lot.source.amount.units := by simp [lotAmount, hheld]
  obtain ⟨⟨clearance, hcleared⟩, rfl⟩ := ForfeitureLot.assess_eq_ok hassess
  refine ⟨fun i => ?_, fun i hi => ?_, ?_, ?_, fun i => ?_, ?_, fun a hpending hrestricted => ?_⟩
  · rw [SortedMap.get?_insert]
    by_cases heq : i = id
    · subst heq
      simp [hheld]
    · rw [if_neg heq, h.marked]
      simp [heq]
  · rcases List.mem_append.mp hi with hi | hi
    · exact h.cleared i hi
    · rw [List.mem_singleton.mp hi]
      exact ⟨lot, clearance, hheld, hcleared⟩
  · rw [List.map_append, List.sum_append, ← h.newlyEligible]
    simp [hnewly, hown]
  · have hsum := SortedMap.sumBy_insert s.cohorts lot.source.terms.policyVersion
      (((s.cohorts.get? lot.source.terms.policyVersion).getD
        (lot.source.terms.corporateBasisPoints, .zero)).1, amount) fun cohort => cohort.2.units
    have hcohorts := h.cohorts
    cases hgroup : s.cohorts.get? lot.source.terms.policyVersion <;>
      simp [hgroup] at hsum hamount ⊢ <;> omega
  · rw [LedgerBatch.net_transfer, h.pending i]
    by_cases heq : i = id
    · subst heq
      simp [hnew, hown]
    · simp [heq, Ne.symm heq]
  · rw [LedgerBatch.net_transfer, h.restricted]
    simp [hnewly]
  · rw [LedgerBatch.net_transfer, h.others a hpending hrestricted]
    simp [Ne.symm hrestricted, Ne.symm (hpending id)]

/-- What assessing these lots comes to. -/
structure Assesses (funding : SortedMap PaymentOperationId ForfeitureLot)
    (distribution : AnnualDistributionId) (lots : List PaymentOperationId) (a : Assessed) : Prop where
  marked : ∀ id, a.funding.get? id =
    if id ∈ lots then (funding.get? id).map (ForfeitureLot.assessedIn · distribution)
    else funding.get? id
  cleared : ∀ id ∈ lots, ∃ lot clearance, funding.get? id = some lot ∧
    lot.lifecycle = .cleared clearance
  newlyEligible : a.newlyEligible.units = (lots.map (lotAmount funding)).sum
  shared : a.newlyEligible.units = a.corporate.units + a.contribution.units
  pending : ∀ id, a.batch.net (.pendingForfeiture id) =
    if id ∈ lots then -(lotAmount funding id : ℤ) else 0
  restricted : a.batch.net .restrictedMemberFunds = a.contribution.units
  corporate : a.batch.net .corporatePoolRevenue = a.corporate.units
  payable : ∀ id, a.batch.net (.memberPayable id) = 0

/-- **Assessment.** Every listed lot leaves its account, and the corporate share and the
members' contribution are the whole of it. -/
theorem assessFunding_spec {a : Assessed} (hnodup : lots.Nodup)
    (h : assessFunding funding lots distribution = .ok a) : Assesses funding distribution lots a := by
  simp only [assessFunding, bind_eq_ok, okOr_eq_ok, Except.ok.injEq, Money.checkedSub_eq_some] at h
  obtain ⟨s, hfold, corporate, -, contribution, hshare, rfl⟩ := h
  have hs := foldlM_induction AssessedUpTo.start
    (fun done i rest s s' hsplit hdone hstep => hdone.step (notMem_of_split hnodup hsplit) hstep) hfold
  have hshared : s.newlyEligible.units = corporate.units + contribution.units := by omega
  refine ⟨hs.marked, hs.cleared, hs.newlyEligible, hshared, fun id => ?_, ?_, ?_, fun id => ?_⟩ <;>
    simp only [LedgerBatch.net_transfer]
  · simpa using hs.pending id
  · rw [hs.restricted]
    simp
    omega
  · rw [hs.others _ (by simp) (by simp)]
    simp
  · rw [hs.others _ (by simp) (by simp)]
    simp

end

/-! ### Allocating -/

section
variable [Crypto] {scope : FinancialScope} {unit : SettlementUnit}
  {schedule : AnnualDistributionSchedule} {each : Money} {members : List MemberId}
  {s₀ s s' : Allocating}

/-- A payable the loop has added: new, and owing one share. -/
structure Granted (scope : FinancialScope) (unit : SettlementUnit)
    (schedule : AnnualDistributionSchedule) (each : Money) (members : List MemberId)
    (s s' : Allocating) (id : AllocationId) : Prop where
  fresh : s.payables.get? id = none
  granted : ∃ member ∈ members, id = allocationId scope unit schedule.id member ∧
    ∃ payable, MemberPayable.new id member schedule.id each schedule.payment scope unit none =
      .ok payable ∧ s'.payables.get? id = some payable
  owed : s'.batch.net (.memberPayable id) = s.batch.net (.memberPayable id) + each.units

/-- What allocating to these members comes to. -/
structure Allocates (scope : FinancialScope) (unit : SettlementUnit)
    (schedule : AnnualDistributionSchedule) (each : Money) (members : List MemberId)
    (s s' : Allocating) : Prop where
  payables : ∀ id, (s'.payables.get? id = s.payables.get? id ∧
      s'.batch.net (.memberPayable id) = s.batch.net (.memberPayable id)) ∨
    Granted scope unit schedule each members s s' id
  restricted : s'.batch.net .restrictedMemberFunds =
    s.batch.net .restrictedMemberFunds - (each.units * members.length : ℕ)
  others : ∀ a, (∀ id, a ≠ .memberPayable id) → a ≠ .restrictedMemberFunds →
    s'.batch.net a = s.batch.net a

theorem Allocates.refl (s : Allocating) : Allocates scope unit schedule each [] s s where
  payables id := .inl ⟨rfl, rfl⟩
  restricted := by simp
  others a _ _ := rfl

theorem Allocates.step {member : MemberId} (h : Allocates scope unit schedule each members s₀ s)
    (hstep : allocateMember scope unit schedule each s member = .ok s') :
    Allocates scope unit schedule each (members ++ [member]) s₀ s' := by
  simp only [allocateMember, bind_eq_ok, refuseIf_eq_ok, exists_const, Except.ok.injEq,
    Bool.not_eq_true, SortedMap.contains_eq_false] at hstep
  obtain ⟨hfresh, payable, hnew, rfl⟩ := hstep
  refine ⟨fun id => ?_, ?_, fun a hpayable hrestricted => ?_⟩
  · by_cases heq : id = allocationId scope unit schedule.id member
    · subst heq
      rcases h.payables (allocationId scope unit schedule.id member) with ⟨hsame, hnet⟩ | hgranted
      · refine .inr ⟨hsame ▸ hfresh, ⟨member, by simp, rfl, payable, hnew, by simp⟩, ?_⟩
        rw [LedgerBatch.net_transfer, hnet]
        simp
      · obtain ⟨-, -, -, q, -, hq⟩ := hgranted.granted
        rw [hfresh] at hq
        cases hq
    · have hget : ∀ q, (s.payables.insert (allocationId scope unit schedule.id member) q).get? id =
          s.payables.get? id := fun q => SortedMap.get?_insert_ne _ _ heq
      have hnet : (s.batch.transfer .restrictedMemberFunds
          (.memberPayable (allocationId scope unit schedule.id member)) each).net (.memberPayable id) =
          s.batch.net (.memberPayable id) := by
        rw [LedgerBatch.net_transfer]
        simp [Ne.symm heq]
      rcases h.payables id with ⟨hsame, howed⟩ | hgranted
      · exact .inl ⟨(hget _).trans hsame, hnet.trans howed⟩
      · obtain ⟨m, hm, hid, q, hq, hheld⟩ := hgranted.granted
        exact .inr ⟨hgranted.fresh, ⟨m, List.mem_append_left _ hm, hid, q, hq, (hget _).trans hheld⟩,
          hnet.trans hgranted.owed⟩
  · rw [LedgerBatch.net_transfer, h.restricted, List.length_append]
    simp [Nat.mul_add]
    omega
  · rw [LedgerBatch.net_transfer, h.others a hpayable hrestricted, if_neg (hpayable _).symm,
      if_neg hrestricted.symm]
    simp

/-- **Allocation.** Every payable is left alone, or is new and owes one share; the shares come
out of the restricted funds. -/
theorem allocateMembers_spec
    (h : allocateMembers scope unit schedule each members s = .ok s') :
    Allocates scope unit schedule each members s s' := by
  unfold allocateMembers at h
  split_ifs at h with hzero
  · cases h
    refine ⟨fun id => .inl ⟨rfl, rfl⟩, ?_, fun a _ _ => rfl⟩
    simp [Money.isZero_iff.mp hzero]
  · exact foldlM_induction (P := fun done next => Allocates scope unit schedule each done s next)
      (Allocates.refl s) (fun done i rest s s' _ hdone hstep => hdone.step hstep) h

end
end CsMail
