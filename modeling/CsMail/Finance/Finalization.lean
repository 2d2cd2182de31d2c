import CsMail.Finance.ProgramRestore

/-! Whether a due year can be finalized.

Finalization checks again what forfeitures and enrolments brought in: that a policy version
has one corporate rate, and that every qualifying member can be owed a payable. Where these
checks pass only arithmetic can stop it (`finalization_unwedged`), and they pass where the
entries were coherent (`coherent_calls`). -/
namespace CsMail
open Library

/-- A sum left its integer type. -/
def ProgramError.IsOverflow (e : ProgramError) : Prop :=
  e = .arithmeticOverflow ∨ e = .ledger .arithmeticOverflow

/-- The payables of a calendar year fall due after it. -/
theorem AnnualDistributionSchedule.due_of_isCalendarYear {s : AnnualDistributionSchedule}
    (h : s.isCalendarYear = true) : ∃ year next cutoff, AnnualDistributionSchedule.year s.id = some year ∧
      Checked.succ year = some next ∧ calendarDate next 1 1 = some cutoff ∧ cutoff ≤ s.payment.dueAt := by
  unfold isCalendarYear at h
  split at h
  · cases h
  rename_i year hyear
  split at h
  · rename_i expected hexpected
    simp only [utc, bind_eq_ok, okOr_eq_ok, refuseIf_eq_ok, exists_const, not_lt,
      Except.ok.injEq] at hexpected
    obtain ⟨-, start, -, next, hnext, cutoff, hcutoff, hdue, -⟩ := hexpected
    exact ⟨year, next, cutoff, hyear, hnext, hcutoff, hdue⟩
  · cases h

/-! ### Assessing -/

/-- Lots that can be assessed: cleared, at valid rates, one rate to a policy version, and
each with its amount in its own account. -/
structure Assessable (funding : SortedMap PaymentOperationId ForfeitureLot)
    (lots : List PaymentOperationId) (sheet : Account → ℤ) : Prop where
  distinct : lots.Nodup
  cleared : ∀ id ∈ lots, ∃ lot clearance, funding.get? id = some lot ∧
    lot.lifecycle = .cleared clearance
  rated : ∀ id ∈ lots, ∀ lot, funding.get? id = some lot →
    lot.source.terms.corporateBasisPoints.val ≤ 10000
  uniform : ∀ id ∈ lots, ∀ id' ∈ lots, ∀ lot lot', funding.get? id = some lot →
    funding.get? id' = some lot' →
    lot.source.terms.policyVersion = lot'.source.terms.policyVersion →
    lot.source.terms.corporateBasisPoints = lot'.source.terms.corporateBasisPoints
  held : ∀ id ∈ lots, sheet (.pendingForfeiture id) = lotAmount funding id
  restricted : 0 ≤ sheet .restrictedMemberFunds

/-- The loop over the lots, after these: every cohort has the rate of one of them, and what
was moved was there. -/
structure PricedUpTo (funding : SortedMap PaymentOperationId ForfeitureLot)
    (distribution : AnnualDistributionId) (sheet : Account → ℤ) (lots : List PaymentOperationId)
    (s : Assessment) : Prop where
  assessed : AssessedUpTo funding distribution lots s
  cohorts : ∀ version cohort, s.cohorts.get? version = some cohort → cohort.1.val ≤ 10000 ∧
    ∃ id ∈ lots, ∃ lot, funding.get? id = some lot ∧ lot.source.terms.policyVersion = version ∧
      lot.source.terms.corporateBasisPoints = cohort.1
  paid : s.batch.PaidBy sheet

section
variable {funding : SortedMap PaymentOperationId ForfeitureLot} {distribution : AnnualDistributionId}
  {lots done : List PaymentOperationId} {sheet : Account → ℤ} {s s' : Assessment}
  {id : PaymentOperationId}

theorem PricedUpTo.start : PricedUpTo funding distribution sheet [] ⟨funding, ∅, .zero, ∅⟩ where
  assessed := .start
  cohorts := by simp
  paid := .empty sheet

theorem PricedUpTo.step (hlots : Assessable funding lots sheet) (hid : id ∈ lots) (hnew : id ∉ done)
    (h : PricedUpTo funding distribution sheet done s) (hstep : assessLot distribution s id = .ok s') :
    PricedUpTo funding distribution sheet (done ++ [id]) s' := by
  refine ⟨h.assessed.step hnew hstep, ?_, ?_⟩ <;>
    simp only [assessLot, bind_eq_ok, refuseIf_eq_ok, okOr_eq_ok, exists_const, Except.ok.injEq,
      ne_eq, Decidable.not_not] at hstep <;>
    obtain ⟨lot, hlot, hrate, amount, hamount, newly, hnewly, lot', hassess, rfl⟩ := hstep
  · have hheld : funding.get? id = some lot := by rw [← hlot, h.assessed.marked, if_neg hnew]
    intro version cohort hcohort
    rw [SortedMap.get?_insert] at hcohort
    split_ifs at hcohort with heq
    · cases hcohort
      have hbound := hlots.rated id hid lot hheld
      rw [← hrate] at hbound
      exact ⟨hbound, id, by simp, lot, hheld, heq.symm, hrate.symm⟩
    · obtain ⟨hbound, i, hi, l, hl⟩ := h.cohorts version cohort hcohort
      exact ⟨hbound, i, List.mem_append_left _ hi, l, hl⟩
  · have hheld : funding.get? id = some lot := by rw [← hlot, h.assessed.marked, if_neg hnew]
    refine h.paid.transfer (by simp) fun _ => ?_
    rw [h.assessed.pending, if_neg hnew, hlots.held id hid, lotAmount, hheld, add_zero]
    rfl

theorem PricedUpTo.refuses (hlots : Assessable funding lots sheet) (hid : id ∈ lots) (hnew : id ∉ done)
    (hdone : ∀ i ∈ done, i ∈ lots) (h : PricedUpTo funding distribution sheet done s) :
    RefusesOnly ProgramError.IsOverflow (assessLot distribution s id) := by
  obtain ⟨lot, clearance, hlot, hcleared⟩ := hlots.cleared id hid
  have hheld : s.funding.get? id = some lot := by rw [h.assessed.marked, if_neg hnew, hlot]
  have hrate : ((s.cohorts.get? lot.source.terms.policyVersion).getD
      (lot.source.terms.corporateBasisPoints, .zero)).1 = lot.source.terms.corporateBasisPoints := by
    cases hgroup : s.cohorts.get? lot.source.terms.policyVersion with
    | none => rfl
    | some cohort =>
      obtain ⟨-, i, hi, l, hl, hversion, hsame⟩ := h.cohorts _ _ hgroup
      exact hsame.symm.trans (hlots.uniform i (hdone i hi) id hid l lot hl hlot hversion)
  have hassess : ∃ lot', lot.assess distribution = .ok lot' := by
    simp only [ForfeitureLot.assess, hcleared]
    exact ⟨_, rfl⟩
  obtain ⟨lot', hassess⟩ := hassess
  unfold assessLot
  rw [hheld, okOr, ok_bind, hassess]
  refine .bind (.refuseIf fun hne => absurd hrate hne) fun _ _ => ?_
  refine .bind (.okOr fun _ => .inl rfl) fun _ _ => ?_
  exact .bind (.okOr fun _ => .inl rfl) fun _ _ => .ok _

theorem assessLots_spec (hlots : Assessable funding lots sheet)
    (h : lots.foldlM (assessLot distribution) ⟨funding, ∅, .zero, ∅⟩ = .ok s) :
    PricedUpTo funding distribution sheet lots s :=
  foldlM_induction PricedUpTo.start (fun _ _ _ _ _ hsplit hdone hstep =>
    hdone.step hlots (hsplit ▸ List.mem_append_right _ (List.mem_cons_self ..))
      (notMem_of_split hlots.distinct hsplit) hstep) h

theorem assessLots_refuses (hlots : Assessable funding lots sheet) :
    RefusesOnly ProgramError.IsOverflow
      (lots.foldlM (assessLot distribution) ⟨funding, ∅, .zero, ∅⟩) :=
  .foldlM PricedUpTo.start (fun _ _ _ _ _ hsplit hdone hstep =>
      hdone.step hlots (hsplit ▸ List.mem_append_right _ (List.mem_cons_self ..))
        (notMem_of_split hlots.distinct hsplit) hstep)
    fun _ _ _ _ hsplit hdone =>
      hdone.refuses hlots (hsplit ▸ List.mem_append_right _ (List.mem_cons_self ..))
        (notMem_of_split hlots.distinct hsplit) (fun _ hi => hsplit ▸ List.mem_append_left _ hi)

/-! ### The corporate share -/

theorem addShares_spec {cohorts : List (U16 × Money)} {start corporate : Money}
    (hrates : ∀ cohort ∈ cohorts, cohort.1.val ≤ 10000)
    (h : cohorts.foldlM addShare start = .ok corporate) :
    corporate.units ≤ start.units + (cohorts.map fun cohort => cohort.2.units).sum := by
  induction cohorts generalizing start with
  | nil =>
    cases h
    exact Nat.le_add_right _ _
  | cons cohort rest ih =>
    obtain ⟨hrate, hrest⟩ := List.forall_mem_cons.mp hrates
    obtain ⟨next, hnext, hfold⟩ := bind_eq_ok.mp h
    simp only [addShare, bind_eq_ok, okOr_eq_ok, Money.checkedAdd_eq_some] at hnext
    obtain ⟨share, hshare, hsum⟩ := hnext
    have hle : share.units ≤ cohort.2.units := by
      unfold u64OfInt at hshare
      split_ifs at hshare
      cases hshare
      show ((cohort.2.units * cohort.1.val / 10000 : ℕ) : ℤ).toNat ≤ _
      rw [Int.toNat_natCast]
      exact Nat.div_le_of_le_mul (by rw [Nat.mul_comm]; exact Nat.mul_le_mul_right _ hrate)
    have := ih hrest hfold
    simp only [List.map_cons, List.sum_cons]
    omega

theorem addShares_refuses (cohorts : List (U16 × Money)) (start : Money) :
    RefusesOnly ProgramError.IsOverflow (cohorts.foldlM addShare start) := by
  refine .foldlM (I := fun _ _ => True) trivial (fun _ _ _ _ _ _ _ _ => trivial) fun _ _ _ _ _ _ => ?_
  exact .bind (.okOr fun _ => .inl rfl) fun _ _ => .okOr fun _ => .inl rfl

theorem assessFunding_refuses (hlots : Assessable funding lots sheet) :
    RefusesOnly ProgramError.IsOverflow (assessFunding funding lots distribution) := by
  unfold assessFunding
  refine .bind (assessLots_refuses hlots) fun s hs => ?_
  refine .bind (addShares_refuses _ _) fun corporate hcorporate => ?_
  exact .bind (.okOr fun _ => .inl rfl) fun _ _ => .ok _

/-- The corporate share never exceeds what it is taken from. -/
theorem corporate_le (hlots : Assessable funding lots sheet) {corporate : Money}
    (hs : lots.foldlM (assessLot distribution) ⟨funding, ∅, .zero, ∅⟩ = .ok s)
    (hcorporate : s.cohorts.values.foldlM addShare .zero = .ok corporate) :
    corporate.units ≤ s.newlyEligible.units := by
  have hpriced := assessLots_spec hlots hs
  have hrates : ∀ cohort ∈ s.cohorts.values, cohort.1.val ≤ 10000 := fun cohort hmem => by
    obtain ⟨version, hversion⟩ := SortedMap.mem_values.mp hmem
    exact (hpriced.cohorts version cohort hversion).1
  have hsum := addShares_spec hrates hcorporate
  have htotal := hpriced.assessed.cohorts
  rw [SortedMap.sumBy] at htotal
  rw [htotal, Money.units_zero] at hsum
  omega

theorem assessFunding_paid (hlots : Assessable funding lots sheet) {a : Assessed}
    (h : assessFunding funding lots distribution = .ok a) : a.batch.PaidBy sheet := by
  simp only [assessFunding, bind_eq_ok, okOr_eq_ok, Except.ok.injEq] at h
  obtain ⟨s, hs, corporate, hcorporate, contribution, -, rfl⟩ := h
  have hpriced := assessLots_spec hlots hs
  refine hpriced.paid.transfer (by simp) fun _ => ?_
  have hle := corporate_le hlots hs hcorporate
  have hheld := hlots.restricted
  rw [hpriced.assessed.restricted]
  omega

/-- What was assessed had one rate to a policy version. -/
theorem uniform_of_assessLots (hnodup : lots.Nodup)
    (h : lots.foldlM (assessLot distribution) ⟨funding, ∅, .zero, ∅⟩ = .ok s) :
    ∀ id ∈ lots, ∀ lot, funding.get? id = some lot →
      ∃ amount, s.cohorts.get? lot.source.terms.policyVersion =
        some (lot.source.terms.corporateBasisPoints, amount) := by
  refine (foldlM_induction (P := fun done s => AssessedUpTo funding distribution done s ∧
    ∀ id ∈ done, ∀ lot, funding.get? id = some lot →
      ∃ amount, s.cohorts.get? lot.source.terms.policyVersion =
        some (lot.source.terms.corporateBasisPoints, amount)) ⟨.start, by simp⟩ ?_ h).2
  rintro done id rest s s' hsplit ⟨hassessed, hgrouped⟩ hstep
  have hnew := notMem_of_split hnodup hsplit
  refine ⟨hassessed.step hnew hstep, fun i hi lot hlot => ?_⟩
  simp only [assessLot, bind_eq_ok, refuseIf_eq_ok, okOr_eq_ok, exists_const, Except.ok.injEq,
    ne_eq, Decidable.not_not] at hstep
  obtain ⟨l, hl, hrate, amount, -, newly, -, l', -, rfl⟩ := hstep
  rw [hassessed.marked, if_neg hnew] at hl
  rw [SortedMap.get?_insert]
  rcases List.mem_append.mp hi with hi | hi
  · obtain ⟨before, hbefore⟩ := hgrouped i hi lot hlot
    split_ifs with heq
    · rw [← heq, hbefore] at hrate
      exact ⟨amount, by rw [← heq, hbefore]; rfl⟩
    · exact ⟨before, hbefore⟩
  · rw [List.mem_singleton.mp hi, hl] at hlot
    cases hlot
    rw [if_pos rfl, hrate]
    exact ⟨amount, rfl⟩

end

/-! ### Allocating -/

/-- Members who can each be owed a payable of their own. -/
structure Allocatable [Crypto] (scope : FinancialScope) (unit : SettlementUnit)
    (distribution : AnnualDistributionId) (payables : SortedMap AllocationId MemberPayable)
    (members : List MemberId) : Prop where
  named : ∀ member ∈ members, member.val ≠ 0
  derived : ∀ member ∈ members, (allocationId scope unit distribution member).val ≠ 0
  fresh : ∀ member ∈ members, payables.get? (allocationId scope unit distribution member) = none
  distinct : (members.map (allocationId scope unit distribution)).Nodup

section
variable [Crypto] {scope : FinancialScope} {unit : SettlementUnit}
  {schedule : AnnualDistributionSchedule} {each : Money} {members done : List MemberId}
  {member : MemberId} {s₀ s s' : Allocating} {sheet : Account → ℤ}

theorem new_payable {id : AllocationId} (hcalendar : schedule.isCalendarYear = true)
    (hid : id.val ≠ 0) (hmember : member.val ≠ 0) : ∃ payable,
    MemberPayable.new id member schedule.id each schedule.payment scope unit none = .ok payable := by
  have hsound : (⟨id, member, schedule.id, each, schedule.payment, scope, unit, none, none⟩ :
      MemberPayable).Sound := ⟨nofun, nofun⟩
  have hvalid := hsound.validate
    ⟨hid, hmember, rfl, rfl, AnnualDistributionSchedule.due_of_isCalendarYear hcalendar⟩
  refine ⟨_, bind_eq_ok.mpr ⟨⟨⟩, hvalid, rfl⟩⟩

/-- The loop over the members, after these: the others have no payable yet, and the shares
given out were there. -/
structure AllocatedUpTo (scope : FinancialScope) (unit : SettlementUnit)
    (schedule : AnnualDistributionSchedule) (each : Money) (sheet : Account → ℤ) (s₀ : Allocating)
    (members : List MemberId) (s : Allocating) : Prop where
  allocates : Allocates scope unit schedule each members s₀ s
  paid : s.batch.PaidBy sheet

theorem AllocatedUpTo.untouched (h : AllocatedUpTo scope unit schedule each sheet s₀ done s)
    (hmembers : Allocatable scope unit schedule.id s₀.payables members) {rest : List MemberId}
    (hsplit : done ++ member :: rest = members) :
    s.payables.get? (allocationId scope unit schedule.id member) = none := by
  have hmem : member ∈ members := hsplit ▸ List.mem_append_right _ (List.mem_cons_self ..)
  rcases h.allocates.payables (allocationId scope unit schedule.id member) with ⟨hsame, -⟩ | hgranted
  · exact hsame.trans (hmembers.fresh member hmem)
  · obtain ⟨other, hother, hid, -⟩ := hgranted.granted
    have hdistinct := hmembers.distinct
    rw [← hsplit, List.map_append, List.map_cons] at hdistinct
    have hin : allocationId scope unit schedule.id member ∈
        done.map (allocationId scope unit schedule.id) := by
      rw [hid]
      exact List.mem_map_of_mem hother
    exact absurd hin (notMem_of_split hdistinct rfl)

theorem AllocatedUpTo.step (h : AllocatedUpTo scope unit schedule each sheet s₀ done s)
    (hheld : (each.units * (done.length + 1) : ℕ) ≤
      sheet .restrictedMemberFunds + s₀.batch.net .restrictedMemberFunds)
    (hstep : allocateMember scope unit schedule each s member = .ok s') :
    AllocatedUpTo scope unit schedule each sheet s₀ (done ++ [member]) s' := by
  refine ⟨h.allocates.step hstep, ?_⟩
  simp only [allocateMember, bind_eq_ok, refuseIf_eq_ok, exists_const, Except.ok.injEq] at hstep
  obtain ⟨-, payable, -, rfl⟩ := hstep
  have hrestricted := h.allocates.restricted
  refine h.paid.transfer Account.noConfusion fun _ => ?_
  rw [hrestricted]
  rw [Nat.mul_add, Nat.mul_one] at hheld
  omega

theorem AllocatedUpTo.refuses {P : ProgramError → Prop} (hcalendar : schedule.isCalendarYear = true)
    (hmembers : Allocatable scope unit schedule.id s₀.payables members)
    (h : AllocatedUpTo scope unit schedule each sheet s₀ done s) {rest : List MemberId}
    (hsplit : done ++ member :: rest = members) :
    RefusesOnly P (allocateMember scope unit schedule each s member) := by
  have hmem : member ∈ members := hsplit ▸ List.mem_append_right _ (List.mem_cons_self ..)
  obtain ⟨payable, hnew⟩ := @new_payable _ scope unit schedule each member _ hcalendar
    (hmembers.derived member hmem) (hmembers.named member hmem)
  unfold allocateMember
  refine .bind (.refuseIf fun hheld => ?_) fun _ _ => ?_
  · obtain ⟨q, hq⟩ := SortedMap.contains_eq_true.mp hheld
    rw [h.untouched hmembers hsplit] at hq
    cases hq
  · rw [hnew]
    exact .ok _

/-- **Allocation is not refused**, and what it posts can be paid. -/
theorem allocateMembers_unrefused {P : ProgramError → Prop} (hcalendar : schedule.isCalendarYear = true)
    (hmembers : Allocatable scope unit schedule.id s₀.payables members) (hpaid : s₀.batch.PaidBy sheet)
    (hheld : (each.units * members.length : ℕ) ≤
      sheet .restrictedMemberFunds + s₀.batch.net .restrictedMemberFunds) :
    RefusesOnly P (allocateMembers scope unit schedule each members s₀) ∧
      ∀ s, allocateMembers scope unit schedule each members s₀ = .ok s → s.batch.PaidBy sheet := by
  have hstep : ∀ done i rest s s', done ++ i :: rest = members →
      AllocatedUpTo scope unit schedule each sheet s₀ done s →
      allocateMember scope unit schedule each s i = .ok s' →
      AllocatedUpTo scope unit schedule each sheet s₀ (done ++ [i]) s' :=
    fun done i rest s s' hsplit hdone hs => hdone.step (by
      refine le_trans (Int.ofNat_le.mpr (Nat.mul_le_mul_left _ ?_)) hheld
      rw [← hsplit, List.length_append, List.length_cons]
      omega) hs
  have hstart : AllocatedUpTo scope unit schedule each sheet s₀ [] s₀ := ⟨.refl s₀, hpaid⟩
  unfold allocateMembers
  split_ifs with hzero
  · exact ⟨.ok _, fun s hs => by cases hs; exact hpaid⟩
  · exact ⟨.foldlM hstart hstep fun _ _ _ _ hsplit hdone => hdone.refuses hcalendar hmembers hsplit,
      fun s hs => (foldlM_induction hstart hstep hs).paid⟩

/-- Shares were given only to members who could be owed one. -/
theorem allocatable_of_allocateMembers (heach : each.isZero = false)
    (h : allocateMembers scope unit schedule each members s₀ = .ok s) :
    Allocatable scope unit schedule.id s₀.payables members := by
  rw [allocateMembers, heach, if_neg Bool.false_ne_true] at h
  refine (foldlM_induction (P := fun done s => Allocates scope unit schedule each done s₀ s ∧
    Allocatable scope unit schedule.id s₀.payables done ∧
    ∀ m ∈ done, s.payables.contains (allocationId scope unit schedule.id m) = true)
    ⟨.refl s₀, ⟨by simp, by simp, by simp, by simp⟩, by simp⟩ ?_ h).2.1
  rintro done m rest s s' - ⟨hallocates, hdone, hheld⟩ hstep
  have hnext := hallocates.step hstep
  simp only [allocateMember, bind_eq_ok, refuseIf_eq_ok, exists_const, Except.ok.injEq,
    Bool.not_eq_true, SortedMap.contains_eq_false] at hstep
  obtain ⟨hfresh, payable, hnew, rfl⟩ := hstep
  obtain ⟨rfl, hallocated, -⟩ := MemberPayable.new_eq_ok hnew
  refine ⟨hnext, ⟨?_, ?_, ?_, ?_⟩, ?_⟩
  · exact List.forall_mem_append.mpr ⟨hdone.named, by simpa using hallocated.member⟩
  · exact List.forall_mem_append.mpr ⟨hdone.derived, by simpa using hallocated.id⟩
  · refine List.forall_mem_append.mpr ⟨hdone.fresh, ?_⟩
    rcases hallocates.payables (allocationId scope unit schedule.id m) with ⟨hsame, -⟩ | hgranted
    · simpa using hsame ▸ hfresh
    · obtain ⟨-, -, -, q, -, hq⟩ := hgranted.granted
      rw [hfresh] at hq
      cases hq
  · rw [List.map_append, List.nodup_append]
    refine ⟨hdone.distinct, by simp, fun id hid id' hid' heq => ?_⟩
    obtain ⟨other, hother, rfl⟩ := List.mem_map.mp hid
    obtain ⟨q, hq⟩ := SortedMap.contains_eq_true.mp (hheld other hother)
    rw [heq, List.mem_singleton.mp hid', hfresh] at hq
    cases hq
  · intro i hi
    rw [SortedMap.contains_eq_true]
    show ∃ v, (s.payables.insert _ _).get? _ = some v
    rw [SortedMap.get?_insert]
    split_ifs with heq
    · exact ⟨_, rfl⟩
    · rcases List.mem_append.mp hi with hi | hi
      · exact SortedMap.contains_eq_true.mp (hheld i hi)
      · exact absurd (by rw [List.mem_singleton.mp hi]) heq

end

namespace FinancialProgram

/-! ### Finalizing -/

/-- A published year that is over, after years that are all finalized. -/
structure Due (p : FinancialProgram) (id : AnnualDistributionId)
    (schedule : AnnualDistributionSchedule) (now : CanonicalTime) : Prop where
  published : p.records.schedules.get? id = some schedule
  ended : schedule.cutoff ≤ now
  ordered : ∀ id' s, p.records.schedules.get? id' = some s → s.cutoff ≤ schedule.start →
    p.records.annualAllocations.contains id' = true
  present : p.lastEventAt ≤ now

/-- The eligible lots of one policy version have one rate. -/
def Uniform (p : FinancialProgram) (schedule : AnnualDistributionSchedule) : Prop :=
  ∀ lot ∈ p.records.funding.values, ∀ lot' ∈ p.records.funding.values,
    lot.eligibleAt schedule.cutoff = true → lot'.eligibleAt schedule.cutoff = true →
    lot.source.terms.policyVersion = lot'.source.terms.policyVersion →
    lot.source.terms.corporateBasisPoints = lot'.source.terms.corporateBasisPoints

/-- Every qualifying member can be owed a payable of the year. -/
def Payable [Crypto] (p : FinancialProgram) (schedule : AnnualDistributionSchedule) : Prop :=
  Allocatable p.scope p.unit schedule.id p.records.payables (p.qualifyingMembers schedule)

/-- There is less to share than one unit for each qualifying member. -/
def SharesNothing (p : FinancialProgram) (schedule : AnnualDistributionSchedule) : Prop :=
  ∀ a, assessFunding p.records.funding (p.eligibleLots schedule) schedule.id = .ok a →
    (p.ledger.view.balance .restrictedMemberFunds).units + a.contribution.units <
      (p.qualifyingMembers schedule).length

/-- What finalization does not check again is only arithmetic. -/
def Finalizable [Crypto] (p : FinancialProgram) (schedule : AnnualDistributionSchedule) : Prop :=
  p.Uniform schedule ∧ (p.Payable schedule ∨ p.SharesNothing schedule)

/-- The year is finalized, or a sum overflows. -/
def Finalizes [Crypto] (p : FinancialProgram) (id : AnnualDistributionId) (now : CanonicalTime) : Prop :=
  (∃ result, p.finalizeAnnualDistribution id now = .ok result) ∨
    ∃ e, p.finalizeAnnualDistribution id now = .error e ∧ e.IsOverflow

/-- A program that is whole, with valid rates. -/
structure Admits (p : FinancialProgram) : Prop where
  complete : p.complete = true
  rated : ∀ id lot, p.records.funding.get? id = some lot →
    lot.source.terms.corporateBasisPoints.val ≤ 10000

theorem admits_new (scope : FinancialScope) (unit : SettlementUnit) : (new scope unit).Admits where
  complete := rfl
  rated := by simp [new]

section
variable {p : FinancialProgram} {schedule : AnnualDistributionSchedule}

theorem mem_eligibleLots (hfiled : ∀ id lot, p.records.funding.get? id = some lot → lot.source.id = id)
    {id : PaymentOperationId} (hid : id ∈ p.eligibleLots schedule) :
    ∃ lot, p.records.funding.get? id = some lot ∧ lot ∈ p.records.funding.values ∧
      lot.eligibleAt schedule.cutoff = true := by
  obtain ⟨lot, hlot, rfl⟩ := List.mem_map.mp hid
  obtain ⟨hvalue, heligible⟩ := List.mem_filter.mp hlot
  obtain ⟨i, hi⟩ := SortedMap.mem_values.mp hvalue
  exact ⟨lot, hfiled i lot hi ▸ hi, hvalue, heligible⟩

theorem cleared_of_eligibleAt {lot : ForfeitureLot} {cutoff : CanonicalTime}
    (h : lot.eligibleAt cutoff = true) : ∃ clearance, lot.lifecycle = .cleared clearance := by
  unfold ForfeitureLot.eligibleAt at h
  split at h
  · rename_i clearance hcleared
    exact ⟨clearance, hcleared⟩
  · cases h

variable [Crypto] {now : CanonicalTime} {id : AnnualDistributionId} {c : Call}
  {next : FinancialProgram}

theorem Admits.event (h : p.Admits) (hfiled : p.Filed) (he : p.Event now c next) : next.Admits := by
  refine ⟨he.fixed.2.2.trans h.complete, fun i l hl => ?_⟩
  cases he with
  | @forfeited source view htakes hview =>
    have hl : (p.records.funding.insert source.id _).get? i = some l := hl
    rw [SortedMap.get?_insert] at hl
    split_ifs at hl
    · cases hl
      exact not_lt.mp (refuseIf_eq_ok.mp htakes.rated)
    · exact h.rated i l hl
  | @reviewed _ id old lot' hold hchange =>
    have hl : (p.records.funding.insert id lot').get? i = some l := hl
    rw [SortedMap.get?_insert] at hl
    split_ifs at hl
    · cases hl
      rw [hchange.source]
      exact h.rated id old hold
    · exact h.rated i l hl
  | @finalized id schedule d view hd hview =>
    have hl : d.assessed.funding.get? i = some l := hl
    rw [(hfiled.assesses hd).marked] at hl
    split_ifs at hl
    · obtain ⟨old, hold, rfl⟩ := Option.map_eq_some_iff.mp hl
      rw [ForfeitureLot.assessedIn_source]
      exact h.rated i old hold
    · exact h.rated i l hl
  | enrolled | changed | published | prepared | noted | confirmed | corrected => exact h.rated i l hl

theorem Kept.assessable (h : p.Kept) (hadmits : p.Admits) (huniform : p.Uniform schedule) :
    Assessable p.records.funding (p.eligibleLots schedule) p.ledger.view.signedBalance where
  distinct := eligibleLots_nodup h.filed.funding schedule
  cleared id hid := by
    obtain ⟨lot, hlot, -, heligible⟩ := mem_eligibleLots h.filed.funding hid
    obtain ⟨clearance, hcleared⟩ := cleared_of_eligibleAt heligible
    exact ⟨lot, clearance, hlot, hcleared⟩
  rated id _ lot hlot := hadmits.rated id lot hlot
  uniform id hid id' hid' lot lot' hlot hlot' := by
    obtain ⟨l, hl, hvalue, heligible⟩ := mem_eligibleLots h.filed.funding hid
    obtain ⟨l', hl', hvalue', heligible'⟩ := mem_eligibleLots h.filed.funding hid'
    rw [hlot] at hl
    rw [hlot'] at hl'
    cases hl
    cases hl'
    exact huniform lot hvalue lot' hvalue' heligible heligible'
  held id hid := by
    obtain ⟨lot, hlot, -, heligible⟩ := mem_eligibleLots h.filed.funding hid
    obtain ⟨clearance, hcleared⟩ := cleared_of_eligibleAt heligible
    rw [h.reconciled.pending, pendingOf, lotAmount, hlot]
    simp [pendingUnits, hcleared]
  restricted := by
    rw [h.reconciled.carried]
    exact Int.natCast_nonneg _

omit [Crypto] in
theorem atomic_refuses {α : Type} {P : ProgramError → Prop}
    {f : FinancialProgram → Except ProgramError (FinancialProgram × α)} (hlast : p.lastEventAt ≤ now)
    (hoverflow : P .arithmeticOverflow) (hf : RefusesOnly P (f p)) : RefusesOnly P (p.atomic now f) := by
  refine .bind (.refuseIf fun hlt => absurd hlt (not_lt.mpr hlast)) fun _ _ => ?_
  exact .bind hf fun _ _ => .bind (.okOr fun _ => hoverflow) fun _ _ => .ok _

omit [Crypto] in
theorem post_refuses {cause : FinancialEventId} {batch : LedgerBatch}
    (hconserved : p.ledger.view.Conserved) (hpaid : batch.PaidBy p.ledger.view.signedBalance) :
    RefusesOnly ProgramError.IsOverflow (p.post now cause batch) := by
  refine .bind (.mapError fun e he => ?_) fun _ _ => .ok _
  refine .inr (congrArg ProgramError.ledger ?_)
  rcases bind_eq_error.mp he with he | ⟨-, -, he⟩
  · exact absurd rfl (refuseIf_eq_error.mp he).1
  have he : (p.ledger.view.apply batch).map LedgerState.mk = .error e := he
  cases hview : p.ledger.view.apply batch with
  | ok view =>
    rw [hview] at he
    cases he
  | error e' =>
    rw [hview] at he
    cases he
    exact LedgerView.apply_funded hconserved hpaid.balanced hpaid.funded hview

/-- The shares of a finalization are given out, and what it posts can be paid. -/
theorem Kept.allocates (h : p.Kept) (hlots : Assessable p.records.funding (p.eligibleLots schedule)
      p.ledger.view.signedBalance) (hcalendar : schedule.isCalendarYear = true)
    (hpayable : p.Payable schedule ∨ p.SharesNothing schedule) {a : Assessed} {available : Money}
    (ha : assessFunding p.records.funding (p.eligibleLots schedule) schedule.id = .ok a)
    (havailable : (p.ledger.view.balance .restrictedMemberFunds).checkedAdd a.contribution =
      some available) (d : Distribution) (hd : d.available = available) :
    RefusesOnly ProgramError.IsOverflow (allocateMembers p.scope p.unit schedule
        (d.each (p.qualifyingMembers schedule)) (p.qualifyingMembers schedule) ⟨p.records.payables, a.batch⟩) ∧
      ∀ s, allocateMembers p.scope p.unit schedule (d.each (p.qualifyingMembers schedule))
        (p.qualifyingMembers schedule) ⟨p.records.payables, a.batch⟩ = .ok s →
        s.batch.PaidBy p.ledger.view.signedBalance := by
  have hassesses := assessFunding_spec (eligibleLots_nodup h.filed.funding schedule) ha
  have hsum := Money.checkedAdd_eq_some.mp havailable
  rcases hpayable with hpayable | hnothing
  · refine allocateMembers_unrefused hcalendar hpayable (assessFunding_paid hlots ha) ?_
    have hbalance := h.reconciled.conserved.units_balance (a := .restrictedMemberFunds) rfl
    have hshared := available_shared d (p.qualifyingMembers schedule)
    rw [hd] at hshared
    show _ ≤ p.ledger.view.signedBalance .restrictedMemberFunds + a.batch.net .restrictedMemberFunds
    rw [hassesses.restricted]
    omega
  · have hless := hnothing a ha
    have hzero : (d.each (p.qualifyingMembers schedule)).isZero = true := by
      rw [Money.isZero_iff, Distribution.each]
      split_ifs
      · rfl
      · rw [Money.units_div, hd]
        exact Nat.div_eq_of_lt (by omega)
    rw [allocateMembers, if_pos hzero]
    exact ⟨.ok _, fun s hs => by cases hs; exact assessFunding_paid hlots ha⟩

/-- **A due year is finalized**, or arithmetic fails. -/
theorem Kept.finalize_refuses (h : p.Kept) (hadmits : p.Admits) (hdue : p.Due id schedule now)
    (hfinalizable : p.Finalizable schedule) :
    RefusesOnly ProgramError.IsOverflow (p.finalizeAnnualDistribution id now) := by
  obtain ⟨huniform, hpayable⟩ := hfinalizable
  obtain ⟨hid, hcalendar⟩ := h.filed.schedules id schedule hdue.published
  have hlots := h.assessable hadmits huniform
  have hearlier : p.earlierOpen schedule = false := by
    simp only [earlierOpen, List.any_eq_false, decide_eq_true_eq, not_and, Bool.not_eq_false]
    intro s hs hcutoff
    obtain ⟨i, hi⟩ := SortedMap.mem_values.mp hs
    rw [(h.filed.schedules i s hi).1]
    exact hdue.ordered i s hi hcutoff
  unfold finalizeAnnualDistribution
  refine .bind (.refuseIf fun hno => by rw [hadmits.complete] at hno; cases hno) fun _ _ => ?_
  cases hdone : p.records.annualAllocations.get? id with
  | some a => exact .ok _
  | none =>
    refine atomic_refuses hdue.present (.inl rfl) ?_
    rw [hdue.published, okOr, ok_bind]
    refine .bind (.refuseIf fun hlt => absurd hlt (not_lt.mpr hdue.ended)) fun _ _ => ?_
    refine .bind (.refuseIf fun hopen => by rw [hearlier] at hopen; cases hopen) fun _ _ => ?_
    refine .bind (assessFunding_refuses hlots) fun a ha => ?_
    refine .bind (.okOr fun _ => .inl rfl) fun available havailable => ?_
    refine .bind (.refuseIf fun _ => .inl rfl) fun _ _ => ?_
    obtain ⟨hrefuses, hallocated⟩ := h.allocates hlots hcalendar hpayable ha (okOr_eq_ok.mp havailable)
      ⟨a, available, ⟨p.records.payables, a.batch⟩⟩ rfl
    refine .bind hrefuses fun allocated hok => ?_
    exact .bind (post_refuses h.reconciled.conserved (hallocated allocated hok)) fun _ _ => .ok _

/-- A finalized year could be. -/
theorem Distributes.finalizable {d : Distribution} (hfiled : p.Filed) (hd : p.Distributes id schedule now d) :
    p.Finalizable schedule := by
  refine ⟨fun lot hlot lot' hlot' heligible heligible' hversion => ?_, ?_⟩
  · have hassessed := hd.assessed
    simp only [assessFunding, bind_eq_ok, okOr_eq_ok, Except.ok.injEq] at hassessed
    obtain ⟨s, hs, -⟩ := hassessed
    have hgrouped := uniform_of_assessLots (eligibleLots_nodup hfiled.funding schedule) hs
    have hrate : ∀ lot ∈ p.records.funding.values, lot.eligibleAt schedule.cutoff = true → ∃ amount,
        s.cohorts.get? lot.source.terms.policyVersion =
          some (lot.source.terms.corporateBasisPoints, amount) := fun lot hlot heligible => by
      obtain ⟨i, hi⟩ := SortedMap.mem_values.mp hlot
      exact hgrouped lot.source.id (List.mem_map_of_mem (List.mem_filter.mpr ⟨hlot, heligible⟩)) lot
        (hfiled.funding i lot hi ▸ hi)
    obtain ⟨amount, hamount⟩ := hrate lot hlot heligible
    obtain ⟨amount', hamount'⟩ := hrate lot' hlot' heligible'
    rw [hversion, hamount'] at hamount
    exact (congrArg Prod.fst (Option.some.inj hamount)).symm
  · cases hzero : (d.each (p.qualifyingMembers schedule)).isZero with
    | false => exact .inl (allocatable_of_allocateMembers hzero hd.allocated)
    | true =>
      have hsum := Money.checkedAdd_eq_some.mp hd.available
      by_cases hnobody : (p.qualifyingMembers schedule).length = 0
      · rw [List.length_eq_zero_iff] at hnobody
        refine .inl ?_
        unfold Payable
        rw [hnobody]
        exact ⟨by simp, by simp, by simp, by simp⟩
      · refine .inr fun a ha => ?_
        rw [hd.assessed] at ha
        cases ha
        rw [Money.isZero_iff, Distribution.each, if_neg hnobody, Money.units_div] at hzero
        have hless := (Nat.div_eq_zero_iff.mp hzero).resolve_left hnobody
        omega

theorem admits_calls (scope : FinancialScope) (unit : SettlementUnit) (cs : List (Call × CanonicalTime)) :
    ((new scope unit).calls cs).Admits :=
  (Machine.run_preserves (P := fun p : FinancialProgram => p.Kept ∧ p.Admits)
    (step_preserves fun p c p' hp hhappens => ⟨hp.1.happens hhappens, by
      obtain ⟨-, next, revision, he, -, rfl⟩ := hhappens
      have hnext := hp.2.event hp.1.filed he
      exact ⟨hnext.complete, hnext.rated⟩⟩)
    ⟨kept_new scope unit, admits_new scope unit⟩ cs).2

/-- **Finalization is wedged only by rates and payables.** After any operations, a due year
whose lots have one rate to a policy version, and whose members can be owed their shares, is
finalized unless a sum overflows; and only such a year is finalized. -/
theorem finalization_unwedged (scope : FinancialScope) (unit : SettlementUnit)
    (cs : List (Call × CanonicalTime)) (hdue : ((new scope unit).calls cs).Due id schedule now) :
    (((new scope unit).calls cs).Finalizable schedule → ((new scope unit).calls cs).Finalizes id now) ∧
    (((new scope unit).calls cs).records.annualAllocations.get? id = none →
      (∃ result, ((new scope unit).calls cs).finalizeAnnualDistribution id now = .ok result) →
      ((new scope unit).calls cs).Finalizable schedule) := by
  have hkept := (kept_new scope unit).calls cs
  have hadmits := admits_calls scope unit cs
  refine ⟨fun hfinalizable => ?_, fun hnew hok => ?_⟩
  · exact (hkept.finalize_refuses hadmits hdue hfinalizable).cases
  · obtain ⟨⟨p', a⟩, hok⟩ := hok
    obtain ⟨-, s, d, view, revision, hd, -⟩ := finalize_accepted hnew hok
    have hs := hdue.published
    rw [hd.published] at hs
    cases hs
    exact Distributes.finalizable hkept.filed hd

/-! ### What the program should let in -/

/-- A forfeiture comes at the rate its policy version already has, and a member with an
identifier. -/
def Coheres (p : FinancialProgram) (c : Call × CanonicalTime) : Prop :=
  match c.1 with
  | .recordForfeiture source => ∀ lot ∈ p.records.funding.values,
      lot.source.terms.policyVersion = source.terms.policyVersion →
      lot.source.terms.corporateBasisPoints = source.terms.corporateBasisPoints
  | .apply (.enroll member _ _) => member.val ≠ 0
  | _ => True

/-- One rate to a policy version, and every member has an identifier. -/
structure Coherent (p : FinancialProgram) : Prop where
  rates : ∀ id id' lot lot', p.records.funding.get? id = some lot →
    p.records.funding.get? id' = some lot' →
    lot.source.terms.policyVersion = lot'.source.terms.policyVersion →
    lot.source.terms.corporateBasisPoints = lot'.source.terms.corporateBasisPoints
  members : ∀ id m, p.records.members.get? id = some m → id.val ≠ 0

omit [Crypto] in
/-- Lots whose terms were all there before are coherent as before. -/
theorem Coherent.keep (h : p.Coherent)
    (hlots : ∀ id lot, next.records.funding.get? id = some lot → ∃ id' lot',
      p.records.funding.get? id' = some lot' ∧ lot'.source.terms = lot.source.terms)
    (hmembers : ∀ id m, next.records.members.get? id = some m → id.val ≠ 0) : next.Coherent where
  rates id id' lot lot' hlot hlot' hversion := by
    obtain ⟨i, l, hl, hterms⟩ := hlots id lot hlot
    obtain ⟨i', l', hl', hterms'⟩ := hlots id' lot' hlot'
    rw [← hterms, ← hterms'] at hversion ⊢
    exact h.rates i i' l l' hl hl' hversion
  members := hmembers

theorem Coherent.event (h : p.Coherent) (hfiled : p.Filed) (hc : p.Coheres (c, now))
    (he : p.Event now c next) : next.Coherent := by
  cases he with
  | @forfeited source view htakes hview =>
    have hget : ∀ {i l}, (p.records.funding.insert source.id
        ⟨source, .pending source.requiresReview⟩).get? i = some l →
        l.source = source ∨ p.records.funding.get? i = some l := fun {i l} hl => by
      rw [SortedMap.get?_insert] at hl
      split_ifs at hl
      · cases hl
        exact .inl rfl
      · exact .inr hl
    refine ⟨fun i i' l l' hl hl' hversion => ?_, h.members⟩
    rcases hget hl with hsource | hl <;> rcases hget hl' with hsource' | hl'
    · rw [hsource, hsource']
    · rw [hsource] at hversion ⊢
      exact (hc l' (SortedMap.mem_values.mpr ⟨i', hl'⟩) hversion.symm).symm
    · rw [hsource'] at hversion ⊢
      exact hc l (SortedMap.mem_values.mpr ⟨i, hl⟩) hversion
    · exact h.rates i i' l l' hl hl' hversion
  | @reviewed _ id old lot' hold hchange =>
    refine h.keep (fun i l hl => ?_) h.members
    have hl : (p.records.funding.insert id lot').get? i = some l := hl
    rw [SortedMap.get?_insert] at hl
    split_ifs at hl
    · cases hl
      exact ⟨id, old, hold, by rw [hchange.source]⟩
    · exact ⟨i, l, hl, rfl⟩
  | @finalized id schedule d view hd hview =>
    refine h.keep (fun i l hl => ?_) h.members
    have hl : d.assessed.funding.get? i = some l := hl
    rw [(hfiled.assesses hd).marked] at hl
    split_ifs at hl
    · obtain ⟨old, hold, rfl⟩ := Option.map_eq_some_iff.mp hl
      exact ⟨i, old, hold, by rw [ForfeitureLot.assessedIn_source]⟩
    · exact ⟨i, l, hl, rfl⟩
  | @enrolled id identityDigest status henrolls =>
    refine h.keep (fun i l hl => ⟨i, l, hl, rfl⟩) fun i m hm => ?_
    have hm : (p.records.members.insert id _).get? i = some m := hm
    rw [SortedMap.get?_insert] at hm
    split_ifs at hm with heq
    · rw [heq]
      exact hc
    · exact h.members i m hm
  | @changed _ id old m' hold hchange =>
    refine h.keep (fun i l hl => ⟨i, l, hl, rfl⟩) fun i m hm => ?_
    have hm : (p.records.members.insert id m').get? i = some m := hm
    rw [SortedMap.get?_insert] at hm
    split_ifs at hm with heq
    · rw [heq]
      exact h.members id old hold
    · exact h.members i m hm
  | published | prepared | noted | confirmed | corrected =>
    exact h.keep (fun i l hl => ⟨i, l, hl, rfl⟩) h.members

/-- **Coherent entries keep every year open to finalization.** Whatever else was done, the
lots of a year have one rate to a policy version, and its members identifiers. -/
theorem coherent_calls (scope : FinancialScope) (unit : SettlementUnit)
    {cs : List (Call × CanonicalTime)} (hcs : Machine.Along call Coheres (new scope unit) cs)
    (schedule : AnnualDistributionSchedule) : ((new scope unit).calls cs).Uniform schedule ∧
      ∀ member ∈ ((new scope unit).calls cs).qualifyingMembers schedule, member.val ≠ 0 := by
  have hstart : (new scope unit).Kept ∧ (new scope unit).Coherent :=
    ⟨kept_new scope unit, by constructor <;> simp [new]⟩
  obtain ⟨hkept, hcoherent⟩ := Machine.run_preserves_along
    (P := fun p : FinancialProgram => p.Kept ∧ p.Coherent) (fun p c p' hc hp hcall => by
      rcases call_eq_ok hcall with ⟨rfl, -⟩ | hhappens
      · exact hp
      · refine ⟨hp.1.happens hhappens, ?_⟩
        obtain ⟨-, next, revision, he, -, rfl⟩ := hhappens
        have hnext := hp.2.event hp.1.filed hc he
        exact ⟨hnext.rates, hnext.members⟩) hstart hcs
  refine ⟨fun lot hlot lot' hlot' _ _ hversion => ?_, fun member hmember => ?_⟩
  · obtain ⟨id, hid⟩ := SortedMap.mem_values.mp hlot
    obtain ⟨id', hid'⟩ := SortedMap.mem_values.mp hlot'
    exact hcoherent.rates id id' lot lot' hid hid' hversion
  · obtain ⟨m, hm, rfl⟩ := List.mem_map.mp hmember
    obtain ⟨id, hid⟩ := SortedMap.mem_values.mp (List.mem_filter.mp hm).1
    rw [hkept.filed.members id m hid]
    exact hcoherent.members id m hid

end

/-! ### The year 1970, with a second forfeiture at another rate -/

namespace Example
open RequestBooks

/-- Another forfeiture of the first one's policy version, at five percent instead of three. -/
def secondForfeiture : Forfeiture where
  id := ⟨2⟩
  amount := ⟨1000⟩
  unit := unit
  forfeitedAt := ⟨0⟩
  requiresReview := false
  terms := ⟨exampleScope, ⟨1⟩, 500, ⟨1⟩⟩

def mixedCalls : List (Call × CanonicalTime) :=
  yearCalls ++
    [(.recordForfeiture secondForfeiture, ⟨5⟩), (.apply (.clearMaturity ⟨2⟩ ⟨9⟩), ⟨6⟩)]

def mixed : FinancialProgram := @calls crypto (new exampleScope unit) mixedCalls

/-- The first year is due at its cutoff. -/
theorem first_due {p : FinancialProgram} (hvalues : p.records.schedules.values = [schedule])
    (hpublished : p.records.schedules.get? ⟨1970⟩ = some schedule)
    (hlast : p.lastEventAt ≤ ⟨31536000000⟩) : p.Due ⟨1970⟩ schedule ⟨31536000000⟩ where
  published := hpublished
  ended := le_rfl
  ordered id s hs hcutoff := by
    have hs := SortedMap.mem_values.mpr ⟨id, hs⟩
    rw [hvalues, List.mem_singleton] at hs
    rw [hs] at hcutoff
    exact absurd hcutoff (by decide)
  present := hlast

end Example

/-- The year with one rate is finalized. -/
theorem finalization_unwedged_year :
    @Finalizes Example.crypto Example.year ⟨1970⟩ ⟨31536000000⟩ := by
  have hdue := Example.first_due (p := Example.year) (by decide +kernel) (by decide +kernel)
    (by decide +kernel)
  have hpayable : @Payable Example.crypto Example.year Example.schedule :=
    @Allocatable.mk Example.crypto _ _ _ _ _ (by decide +kernel) (by decide +kernel)
      (by decide +kernel) (by decide +kernel)
  have huniform : Example.year.Uniform Example.schedule := by
    unfold Uniform
    decide +kernel
  exact (@finalization_unwedged _ Example.crypto _ _ RequestBooks.exampleScope Example.unit
    Example.yearCalls hdue).1 ⟨huniform, .inl hpayable⟩

/-- Two forfeitures of one policy version, at two rates, are both accepted and cleared; then
the year is refused. -/
theorem finalization_wedged :
    Example.mixedCalls.foldlM (@call Example.crypto) (new RequestBooks.exampleScope Example.unit) =
        .ok Example.mixed ∧
      Example.mixed.Due ⟨1970⟩ Example.schedule ⟨31536000000⟩ ∧
      ¬@Finalizes Example.crypto Example.mixed ⟨1970⟩ ⟨31536000000⟩ := by
  have hrefused : @finalizeAnnualDistribution Example.crypto Example.mixed ⟨1970⟩ ⟨31536000000⟩ =
      .error .invalidPolicy := by decide +kernel
  have hdue := Example.first_due (p := Example.mixed) (by decide +kernel) (by decide +kernel)
    (by decide +kernel)
  refine ⟨by decide +kernel, hdue, ?_⟩
  rintro (⟨result, hok⟩ | ⟨e, herror, hoverflow⟩)
  · rw [hrefused] at hok
    cases hok
  · rw [hrefused] at herror
    cases herror
    rcases hoverflow with h | h <;> cases h

end FinancialProgram
end CsMail
