import CsMail.Finance.ProgramRestore
import CsMail.Library.Machine

/-! A year's distribution, to the unit.

Lots are grouped by policy version, and the corporate share is rounded once for each group;
what is left goes to the members in equal shares, and what cannot be shared is carried. The
results hold of every program that can be built: a new one or a restored one, after any
operations. -/
namespace CsMail
open Library

/-! ### Rate cohorts -/

/-- The policy version of the lot recorded under this identifier. -/
def lotVersion (funding : SortedMap PaymentOperationId ForfeitureLot) (id : PaymentOperationId) :
    Option PolicyVersion := (funding.get? id).map fun lot => lot.source.terms.policyVersion

/-- What these lots hold under one policy version. -/
def versionUnits (funding : SortedMap PaymentOperationId ForfeitureLot) (lots : List PaymentOperationId)
    (version : PolicyVersion) : ℕ :=
  ((lots.filter fun id => lotVersion funding id = some version).map (lotAmount funding)).sum

section
variable {funding : SortedMap PaymentOperationId ForfeitureLot} {lots : List PaymentOperationId}
  {distribution : AnnualDistributionId}

theorem versionUnits_append (id : PaymentOperationId) (version : PolicyVersion) :
    versionUnits funding (lots ++ [id]) version =
      versionUnits funding lots version + if lotVersion funding id = some version then lotAmount funding id else 0 := by
  unfold versionUnits
  rw [List.filter_append, List.map_append, List.sum_append]
  by_cases h : lotVersion funding id = some version <;> simp [h]

theorem versionUnits_eq_zero {version : PolicyVersion} (h : ∀ id ∈ lots, lotVersion funding id ≠ some version) :
    versionUnits funding lots version = 0 := by
  unfold versionUnits
  rw [List.filter_eq_nil_iff.mpr fun id hid => by simpa using h id hid]
  rfl

/-- The cohorts after these lots: one for each policy version among them, at its one rate. -/
structure CohortsUpTo (funding : SortedMap PaymentOperationId ForfeitureLot) (lots : List PaymentOperationId)
    (cohorts : SortedMap PolicyVersion (U16 × Money)) : Prop where
  units : ∀ version cohort, cohorts.get? version = some cohort → cohort.2.units = versionUnits funding lots version
  rate : ∀ version cohort, cohorts.get? version = some cohort → ∀ id ∈ lots, ∀ lot, funding.get? id = some lot →
    lot.source.terms.policyVersion = version → lot.source.terms.corporateBasisPoints = cohort.1
  met : ∀ version, cohorts.contains version = true ↔ ∃ id ∈ lots, lotVersion funding id = some version

theorem CohortsUpTo.start : CohortsUpTo funding [] ∅ where
  units version cohort hcohort := by cases hcohort
  rate version cohort hcohort := by cases hcohort
  met version := by simp [SortedMap.contains_eq_true]

theorem CohortsUpTo.step {s s' : Assessment} {id : PaymentOperationId} (h : CohortsUpTo funding lots s.cohorts)
    (hheld : s.funding.get? id = funding.get? id) (hstep : assessLot distribution s id = .ok s') :
    CohortsUpTo funding (lots ++ [id]) s'.cohorts := by
  simp only [assessLot, bind_eq_ok, refuseIf_eq_ok, okOr_eq_ok, exists_const, Except.ok.injEq,
    Money.checkedAdd_eq_some, not_not] at hstep
  obtain ⟨lot, hlot, hrate, amount, hamount, newly, -, lot', -, rfl⟩ := hstep
  rw [hheld] at hlot
  have hversion : lotVersion funding id = some lot.source.terms.policyVersion := by simp [lotVersion, hlot]
  have hown : lotAmount funding id = lot.source.amount.units := by simp [lotAmount, hlot]
  have hgroup : ((s.cohorts.get? lot.source.terms.policyVersion).getD
      (lot.source.terms.corporateBasisPoints, .zero)).2.units =
      versionUnits funding lots lot.source.terms.policyVersion := by
    cases hget : s.cohorts.get? lot.source.terms.policyVersion with
    | some cohort => exact h.units _ cohort hget
    | none =>
      refine (versionUnits_eq_zero fun i hi hsame => ?_).symm
      obtain ⟨cohort, hcohort⟩ := SortedMap.contains_eq_true.mp ((h.met _).mpr ⟨i, hi, hsame⟩)
      rw [hget] at hcohort
      cases hcohort
  refine ⟨fun version cohort hcohort => ?_, fun version cohort hcohort i hi l hl hsame => ?_, fun version => ?_⟩
  · rw [versionUnits_append]
    rcases SortedMap.get?_insert_eq_some.mp hcohort with ⟨rfl, rfl⟩ | ⟨hne, hold⟩
    · rw [if_pos hversion, hamount, hgroup, hown]
    · rw [if_neg (by rw [hversion]; exact fun heq => hne (Option.some.inj heq).symm), h.units version cohort hold]
      rfl
  · rcases SortedMap.get?_insert_eq_some.mp hcohort with ⟨rfl, rfl⟩ | ⟨hne, hold⟩
    · rcases List.mem_append.mp hi with hi | hi
      · have hversion : lotVersion funding i = some lot.source.terms.policyVersion := by
          rw [lotVersion, hl, Option.map_some, hsame]
        obtain ⟨cohort, hcohort⟩ := SortedMap.contains_eq_true.mp ((h.met _).mpr ⟨i, hi, hversion⟩)
        rw [hcohort]
        exact h.rate _ cohort hcohort i hi l hl hsame
      · rw [List.mem_singleton.mp hi, hlot] at hl
        cases hl
        exact hrate.symm
    · rcases List.mem_append.mp hi with hi | hi
      · exact h.rate version cohort hold i hi l hl hsame
      · rw [List.mem_singleton.mp hi, hlot] at hl
        cases hl
        exact absurd hsame.symm hne
  · rw [SortedMap.contains_eq_true]
    simp only [SortedMap.get?_insert]
    constructor
    · rintro ⟨cohort, hcohort⟩
      split_ifs at hcohort with heq
      · exact ⟨id, by simp, heq ▸ hversion⟩
      · obtain ⟨i, hi, hsame⟩ := (h.met version).mp (SortedMap.contains_eq_true.mpr ⟨cohort, hcohort⟩)
        exact ⟨i, List.mem_append_left _ hi, hsame⟩
    · rintro ⟨i, hi, hsame⟩
      split_ifs with heq
      · exact ⟨_, rfl⟩
      · rcases List.mem_append.mp hi with hi | hi
        · exact SortedMap.contains_eq_true.mp ((h.met version).mpr ⟨i, hi, hsame⟩)
        · rw [List.mem_singleton.mp hi, hversion] at hsame
          exact absurd (Option.some.inj hsame).symm heq

theorem addShare_eq_ok {corporate corporate' : Money} {cohort : U16 × Money} (h : addShare corporate cohort = .ok corporate') :
    corporate'.units = corporate.units + cohort.2.units * cohort.1.val / 10000 := by
  simp only [addShare, bind_eq_ok, okOr_eq_ok, Money.checkedAdd_eq_some] at h
  obtain ⟨share, hshare, hsum⟩ := h
  unfold u64OfInt at hshare
  split_ifs at hshare
  cases hshare
  exact hsum

theorem addShares_eq_ok {cohorts : List (U16 × Money)} {start total : Money} (h : cohorts.foldlM addShare start = .ok total) :
    total.units = start.units + (cohorts.map fun c => c.2.units * c.1.val / 10000).sum := by
  induction cohorts generalizing start with
  | nil =>
    cases h
    simp
  | cons cohort rest ih =>
    rw [List.foldlM_cons] at h
    obtain ⟨next, hnext, hrest⟩ := bind_eq_ok.mp h
    rw [ih hrest, addShare_eq_ok hnext, List.map_cons, List.sum_cons, Nat.add_assoc]

/-- The policy versions of these lots, each once. -/
def versionsOf (funding : SortedMap PaymentOperationId ForfeitureLot) (lots : List PaymentOperationId) :
    List PolicyVersion := (lots.filterMap (lotVersion funding)).dedup

/-- **The corporate share** of these lots: for each policy version the floor of its rate. -/
theorem assessFunding_corporate {a : Assessed} (hnodup : lots.Nodup)
    (h : assessFunding funding lots distribution = .ok a) : ∃ rate : PolicyVersion → U16,
      (∀ id ∈ lots, ∀ lot, funding.get? id = some lot →
        lot.source.terms.corporateBasisPoints = rate lot.source.terms.policyVersion) ∧
      a.corporate.units = ((versionsOf funding lots).map fun version =>
        versionUnits funding lots version * (rate version).val / 10000).sum := by
  simp only [assessFunding, bind_eq_ok, okOr_eq_ok, Except.ok.injEq] at h
  obtain ⟨s, hfold, corporate, hshares, contribution, -, rfl⟩ := h
  have hs := (foldlM_induction (P := fun done s => AssessedUpTo funding distribution done s ∧
      CohortsUpTo funding done s.cohorts) ⟨.start, .start⟩ (fun done i rest s s' hsplit hdone hstep => by
    have hnew := notMem_of_split hnodup hsplit
    refine ⟨hdone.1.step hnew hstep, hdone.2.step ?_ hstep⟩
    rw [hdone.1.marked, if_neg hnew]) hfold).2
  have hkeys : s.cohorts.keys.Perm (versionsOf funding lots) := by
    refine (List.perm_ext_iff_of_nodup s.cohorts.keys_nodup (List.nodup_dedup _)).mpr fun version => ?_
    rw [SortedMap.mem_keys, ← SortedMap.contains_eq_true, hs.met, List.mem_dedup, List.mem_filterMap]
  refine ⟨fun version => ((s.cohorts.get? version).map Prod.fst).getD 0, fun id hid lot hlot => ?_, ?_⟩
  · have hversion : lotVersion funding id = some lot.source.terms.policyVersion := by rw [lotVersion, hlot, Option.map_some]
    obtain ⟨cohort, hcohort⟩ := SortedMap.contains_eq_true.mp ((hs.met _).mpr ⟨id, hid, hversion⟩)
    show _ = ((s.cohorts.get? lot.source.terms.policyVersion).map Prod.fst).getD 0
    rw [hcohort, Option.map_some, Option.getD_some]
    exact hs.rate _ cohort hcohort id hid lot hlot rfl
  · show corporate.units = _
    rw [addShares_eq_ok hshares, ← (hkeys.map _).sum_eq, SortedMap.values, SortedMap.keys, List.map_map, List.map_map,
      show Money.zero.units = 0 from rfl, Nat.zero_add]
    refine congrArg List.sum (List.map_congr_left fun e he => ?_)
    have hcohort := SortedMap.mem_entries.mp he
    simp only [Function.comp_apply, hcohort, Option.map_some, Option.getD_some, hs.units e.1 e.2 hcohort]

end

/-! ### Equal shares -/

section
variable [Crypto] {scope : FinancialScope} {unit : SettlementUnit} {schedule : AnnualDistributionSchedule}
  {each : Money} {members : List MemberId} {s₀ s s' : Allocating}

/-- One new payable of one share for each of these members, and nothing else. -/
structure GrantedEach (scope : FinancialScope) (unit : SettlementUnit) (schedule : AnnualDistributionSchedule)
    (each : Money) (members : List MemberId) (s s' : Allocating) : Prop where
  granted : ∀ m ∈ members, s.payables.get? (allocationId scope unit schedule.id m) = none ∧
    ∃ payable, MemberPayable.new (allocationId scope unit schedule.id m) m schedule.id each schedule.payment scope unit
      none = .ok payable ∧ s'.payables.get? (allocationId scope unit schedule.id m) = some payable
  others : ∀ id, (∀ m ∈ members, id ≠ allocationId scope unit schedule.id m) →
    s'.payables.get? id = s.payables.get? id

theorem GrantedEach.refl (s : Allocating) : GrantedEach scope unit schedule each [] s s where
  granted := by simp
  others id _ := rfl

theorem GrantedEach.step {member : MemberId} (h : GrantedEach scope unit schedule each members s₀ s)
    (hstep : allocateMember scope unit schedule each s member = .ok s') :
    GrantedEach scope unit schedule each (members ++ [member]) s₀ s' := by
  simp only [allocateMember, bind_eq_ok, refuseIf_eq_ok, exists_const, Except.ok.injEq,
    Bool.not_eq_true, SortedMap.contains_eq_false] at hstep
  obtain ⟨hfresh, payable, hnew, rfl⟩ := hstep
  -- Whoever was granted a payable before has another identifier.
  have hapart : ∀ m ∈ members, allocationId scope unit schedule.id m ≠ allocationId scope unit schedule.id member := by
    intro m hm heq
    obtain ⟨-, q, -, hq⟩ := h.granted m hm
    rw [heq, hfresh] at hq
    cases hq
  refine ⟨fun m hm => ?_, fun id hid => ?_⟩
  · rcases List.mem_append.mp hm with hm | hm
    · obtain ⟨hbefore, q, hq, hheld⟩ := h.granted m hm
      exact ⟨hbefore, q, hq, (SortedMap.get?_insert_ne _ _ (hapart m hm)).trans hheld⟩
    · rw [List.mem_singleton.mp hm]
      refine ⟨?_, payable, hnew, SortedMap.get?_insert_self ..⟩
      rw [← h.others _ fun m hm => (hapart m hm).symm]
      exact hfresh
  · exact (SortedMap.get?_insert_ne _ _ (hid member (by simp))).trans
      (h.others id fun m hm => hid m (List.mem_append_left _ hm))

theorem allocateMembers_grants (heach : each.isZero = false)
    (h : allocateMembers scope unit schedule each members s = .ok s') :
    GrantedEach scope unit schedule each members s s' := by
  unfold allocateMembers at h
  rw [if_neg (by simp [heach])] at h
  exact foldlM_induction (P := fun done next => GrantedEach scope unit schedule each done s next)
    (GrantedEach.refl s) (fun done i rest s s' _ hdone hstep => hdone.step hstep) h

end

/-! ### Programs that can be built -/

theorem checkMembers_filed {l : List (MemberId × Member)} {identities : List Bytes32}
    (h : checkMembers identities l = .ok ()) : ∀ e ∈ l, e.2.id = e.1 := by
  induction l generalizing identities with
  | nil => simp
  | cons head rest ih =>
    obtain ⟨id, m⟩ := head
    obtain ⟨_, hhead, hrest⟩ := bind_eq_ok.mp h
    refine List.forall_mem_cons.mpr ⟨?_, ih hrest⟩
    exact (not_not.mp (not_or.mp (refuseIf_eq_ok.mp hhead)).1).symm

namespace FinancialProgram
variable [Crypto] {p p' next : FinancialProgram} {now : CanonicalTime} {c : Call}

/-- A new program, or one assembled from stored records, after any accepted operations. -/
inductive Built : FinancialProgram → Prop
  | new (scope : FinancialScope) (unit : SettlementUnit) : Built (new scope unit)
  | restored {metadata : ProgramMetadata} {records : ProgramRecords} {ledger : LedgerView}
      {journal : List ProgramJournalEntry} {p : FinancialProgram} (complete : Bool) :
      restore metadata records ledger journal = .ok p → Built {p with complete}
  | called {p p' : FinancialProgram} {c : Call × CanonicalTime} : Built p → p.call c = .ok p' → Built p'

/-- Lots, members and schedules are filed under their own identifiers. -/
structure Indexed (p : FinancialProgram) : Prop where
  funding : ∀ id lot, p.records.funding.get? id = some lot → lot.source.id = id
  members : ∀ id m, p.records.members.get? id = some m → m.id = id
  schedules : ∀ id s, p.records.schedules.get? id = some s → s.id = id

omit [Crypto] in
theorem Indexed.putLot (h : p.Indexed) {id : PaymentOperationId} {lot : ForfeitureLot} (hid : lot.source.id = id) :
    (p.putLot id lot).Indexed where
  funding i l hl := by
    rcases SortedMap.get?_insert_eq_some.mp hl with ⟨rfl, rfl⟩ | ⟨-, hold⟩
    · exact hid
    · exact h.funding i l hold
  members := h.members
  schedules := h.schedules

omit [Crypto] in
theorem Indexed.putMember (h : p.Indexed) {id : MemberId} {member : Member} (hid : member.id = id) :
    (p.putMember id member).Indexed where
  funding := h.funding
  members i m hm := by
    rcases SortedMap.get?_insert_eq_some.mp hm with ⟨rfl, rfl⟩ | ⟨-, hold⟩
    · exact hid
    · exact h.members i m hold
  schedules := h.schedules

theorem Indexed.event (h : p.Indexed) (he : p.Event now c next) : next.Indexed := by
  cases he with
  | @forfeited source view htakes hview =>
    have hput := @Indexed.putLot _ h source.id ⟨source, .pending source.requiresReview⟩ rfl
    exact ⟨hput.funding, hput.members, hput.schedules⟩
  | reviewed hlot hchange => exact h.putLot (by rw [hchange.source]; exact h.funding _ _ hlot)
  | enrolled henrolls => exact h.putMember rfl
  | changed hm hchange => exact h.putMember (by rw [hchange.id]; exact h.members _ _ hm)
  | published hpublishes =>
    refine ⟨h.funding, h.members, fun i s hs => ?_⟩
    rcases SortedMap.get?_insert_eq_some.mp hs with ⟨rfl, rfl⟩ | ⟨-, hold⟩
    · rfl
    · exact h.schedules i s hold
  | @finalized id schedule d view hd hview =>
    refine ⟨fun i l hl => ?_, h.members, h.schedules⟩
    have hassesses := assessFunding_spec (eligibleLots_nodup h.funding schedule) hd.assessed
    have hl : d.assessed.funding.get? i = some l := hl
    rw [hassesses.marked] at hl
    split_ifs at hl
    · obtain ⟨old, hold, rfl⟩ := Option.map_eq_some_iff.mp hl
      rw [ForfeitureLot.assessedIn_source]
      exact h.funding i old hold
    · exact h.funding i l hl
  | prepared | noted | confirmed | corrected => exact ⟨h.funding, h.members, h.schedules⟩

theorem indexed_of_restore {metadata : ProgramMetadata} {records : ProgramRecords} {ledger : LedgerView}
    {journal : List ProgramJournalEntry} (h : restore metadata records ledger journal = .ok p) : p.Indexed := by
  simp only [restore, bind_eq_ok, Except.ok.injEq] at h
  obtain ⟨_, -, _, -, _, -, _, hmembers, _, hlots, _, -, _, hschedules, _, -, rfl⟩ := h
  refine ⟨fun id lot hlot => ?_, fun id m hm => ?_, fun id s hs => ?_⟩
  · obtain ⟨_, hcheck, -⟩ := bind_eq_ok.mp (forM_eq_ok.mp hlots (id, lot) (SortedMap.mem_entries.mpr hlot))
    exact (not_not.mp (not_or.mp (refuseIf_eq_ok.mp hcheck)).1).symm
  · exact checkMembers_filed hmembers (id, m) (SortedMap.mem_entries.mpr hm)
  · have hcheck := forM_eq_ok.mp hschedules (id, s) (SortedMap.mem_entries.mpr hs)
    exact (not_not.mp (not_or.mp (refuseIf_eq_ok.mp hcheck)).1).symm

theorem Built.calls (h : p.Built) (cs : List (Call × CanonicalTime)) : (p.calls cs).Built :=
  Machine.run_preserves (fun _ _ _ hp hcall => hp.called hcall) h cs

theorem Built.indexed (h : p.Built) : p.Indexed := by
  induction h with
  | new scope unit => constructor <;> simp [FinancialProgram.new]
  | restored complete hrestore =>
    have := indexed_of_restore hrestore
    exact ⟨this.funding, this.members, this.schedules⟩
  | called hbuilt hcall ih =>
    rcases call_eq_ok hcall with ⟨rfl, -⟩ | ⟨-, next, revision, he, -, rfl⟩
    · exact ih
    · have := ih.event he
      exact ⟨this.funding, this.members, this.schedules⟩

/-! ### A finalized year -/

/-- A payable of one share of the year that the program did not have. -/
def NewShare (p p' : FinancialProgram) (a : AnnualAllocation) (member : MemberId) (id : AllocationId) : Prop :=
  p.records.payables.get? id = none ∧ ∃ payable, p'.records.payables.get? id = some payable ∧
    payable.member = member ∧ payable.distribution = a.schedule.id ∧ payable.amount = a.each ∧
    payable.correction = none

/-- What finalizing a year comes to, to the unit. -/
structure ExactYear (p : FinancialProgram) (id : AnnualDistributionId) (p' : FinancialProgram)
    (a : AnnualAllocation) : Prop where
  published : p.records.schedules.get? id = some a.schedule
  funding : ∀ lot, lot ∈ a.funding ↔ ∃ l, p.records.funding.get? lot = some l ∧
    l.eligibleAt a.schedule.cutoff = true ∧ l.lifecycle.isAssessed = false
  fundingOnce : a.funding.Nodup
  assessed : ∀ lot, p'.records.funding.get? lot = if lot ∈ a.funding
    then (p.records.funding.get? lot).map (ForfeitureLot.assessedIn · a.schedule.id) else p.records.funding.get? lot
  newlyEligible : a.newlyEligible.units = (a.funding.map (lotAmount p.records.funding)).sum
  corporate : ∃ rate : PolicyVersion → U16,
    (∀ lot ∈ a.funding, ∀ l, p.records.funding.get? lot = some l →
      l.source.terms.corporateBasisPoints = rate l.source.terms.policyVersion) ∧
    a.corporateShare.units = ((versionsOf p.records.funding a.funding).map fun version =>
      versionUnits p.records.funding a.funding version * (rate version).val / 10000).sum
  contribution : a.newlyEligible.units = a.corporateShare.units + a.memberContribution.units
  members : ∀ m, m ∈ a.members ↔ ∃ member, p.records.members.get? m = some member ∧
    member.qualifies a.schedule = true
  membersOnce : a.members.Nodup
  /-- The previous carry and the contribution are shared out or carried. -/
  shared : a.each.units * a.members.length + a.remainder.units =
    (p.ledger.view.balance .restrictedMemberFunds).units + a.memberContribution.units
  remainder : 0 < a.members.length → a.remainder.units < a.members.length
  whole : a.members.length = 0 ∨ a.each.units = 0 → a.remainder.units =
    (p.ledger.view.balance .restrictedMemberFunds).units + a.memberContribution.units
  carried : (p'.ledger.view.balance .restrictedMemberFunds).units = a.remainder.units
  revenue : p'.ledger.view.signedBalance .corporatePoolRevenue =
    p.ledger.view.signedBalance .corporatePoolRevenue + a.corporateShare.units
  granted : a.each.units ≠ 0 → ∀ m ∈ a.members, ∃! id, NewShare p p' a m id
  others : ∀ id, p'.records.payables.get? id = p.records.payables.get? id ∨
    a.each.units ≠ 0 ∧ ∃ m ∈ a.members, NewShare p p' a m id

section
variable {id : AnnualDistributionId} {schedule : AnnualDistributionSchedule} {d : Distribution} {view : LedgerView}
  {revision : U64}

omit [Crypto] in
theorem mem_qualifyingMembers (h : ∀ id m, p.records.members.get? id = some m → m.id = id) {m : MemberId} :
    m ∈ p.qualifyingMembers schedule ↔
      ∃ member, p.records.members.get? m = some member ∧ member.qualifies schedule = true := by
  unfold qualifyingMembers
  simp only [List.mem_map, List.mem_filter, SortedMap.mem_values]
  constructor
  · rintro ⟨member, ⟨⟨i, hi⟩, hqualifies⟩, rfl⟩
    exact ⟨member, (h i member hi).symm ▸ hi, hqualifies⟩
  · rintro ⟨member, hmember, hqualifies⟩
    exact ⟨member, ⟨⟨m, hmember⟩, hqualifies⟩, h m member hmember⟩

omit [Crypto] in
theorem mem_eligibleLots_iff (h : ∀ id lot, p.records.funding.get? id = some lot → lot.source.id = id)
    {lot : PaymentOperationId} : lot ∈ p.eligibleLots schedule ↔ ∃ l, p.records.funding.get? lot = some l ∧
      l.eligibleAt schedule.cutoff = true ∧ l.lifecycle.isAssessed = false := by
  have hunassessed : ∀ l : ForfeitureLot, l.eligibleAt schedule.cutoff = true → l.lifecycle.isAssessed = false := by
    intro l hl
    unfold ForfeitureLot.eligibleAt at hl
    split at hl
    · next c hc => rw [hc]; rfl
    · cases hl
  unfold eligibleLots
  simp only [List.mem_map, List.mem_filter, SortedMap.mem_values]
  constructor
  · rintro ⟨l, ⟨⟨i, hi⟩, heligible⟩, rfl⟩
    exact ⟨l, (h i l hi).symm ▸ hi, heligible, hunassessed l heligible⟩
  · rintro ⟨l, hl, heligible, -⟩
    exact ⟨l, ⟨⟨lot, hl⟩, heligible⟩, h lot l hl⟩

/-- The payables of a finalized year: the ones there were, and one new share for each member. -/
theorem Distributes.shares (hd : p.Distributes id schedule now d) :
    ((p.allocation schedule now d).each.units ≠ 0 → ∀ m ∈ (p.allocation schedule now d).members,
      ∃! i, NewShare p ((p.distributed id schedule now d view).stamped now revision) (p.allocation schedule now d) m i) ∧
    ∀ i, d.allocated.payables.get? i = p.records.payables.get? i ∨
      (p.allocation schedule now d).each.units ≠ 0 ∧ ∃ m ∈ (p.allocation schedule now d).members,
        NewShare p ((p.distributed id schedule now d view).stamped now revision) (p.allocation schedule now d) m i := by
  cases heach : (d.each (p.qualifyingMembers schedule)).isZero with
  | true =>
    have hzero : (p.allocation schedule now d).each.units = 0 := Money.isZero_iff.mp heach
    refine ⟨fun hnot => absurd hzero hnot, fun i => .inl ?_⟩
    have hsame := hd.allocated
    unfold allocateMembers at hsame
    rw [if_pos heach] at hsame
    exact (congrArg (fun s => s.payables.get? i) (Except.ok.inj hsame)).symm
  | false =>
    have hnonzero : (p.allocation schedule now d).each.units ≠ 0 := fun hzero =>
      Bool.false_ne_true (heach.symm.trans (Money.isZero_iff.mpr hzero))
    have hgrants := allocateMembers_grants heach hd.allocated
    have hnew : ∀ m ∈ p.qualifyingMembers schedule,
        NewShare p ((p.distributed id schedule now d view).stamped now revision) (p.allocation schedule now d) m
          (allocationId p.scope p.unit schedule.id m) := by
      intro m hm
      obtain ⟨hfresh, payable, hpayable, hheld⟩ := hgrants.granted m hm
      obtain ⟨rfl, -, -⟩ := MemberPayable.new_eq_ok hpayable
      exact ⟨hfresh, _, hheld, rfl, rfl, rfl, rfl⟩
    refine ⟨fun _ m hm => ⟨_, hnew m hm, fun i hi => ?_⟩, fun i => ?_⟩
    · obtain ⟨hfresh, payable, hheld, hmember, -⟩ := hi
      by_cases hmine : ∃ m' ∈ p.qualifyingMembers schedule, i = allocationId p.scope p.unit schedule.id m'
      · obtain ⟨m', hm', rfl⟩ := hmine
        obtain ⟨-, payable', hheld', hmember', -⟩ := hnew m' hm'
        rw [hheld] at hheld'
        cases hheld'
        rw [← hmember, hmember']
      · have hsame := hgrants.others i fun m' hm' heq => hmine ⟨m', hm', heq⟩
        have hheld : d.allocated.payables.get? i = some payable := hheld
        rw [hsame] at hheld
        exact absurd (hfresh.symm.trans hheld) (by simp)
    · by_cases hmine : ∃ m' ∈ p.qualifyingMembers schedule, i = allocationId p.scope p.unit schedule.id m'
      · obtain ⟨m', hm', rfl⟩ := hmine
        exact .inr ⟨hnonzero, m', hm', hnew m' hm'⟩
      · exact .inl (hgrants.others i fun m' hm' heq => hmine ⟨m', hm', heq⟩)

theorem Distributes.exact (hd : p.Distributes id schedule now d) (hp : p.Indexed)
    (hview : p.ledger.view.apply d.allocated.batch = .ok view) :
    p.ExactYear id ((p.distributed id schedule now d view).stamped now revision) (p.allocation schedule now d) := by
  have hnodup := eligibleLots_nodup hp.funding schedule
  have hassesses := assessFunding_spec hnodup hd.assessed
  have hallocates := allocateMembers_spec hd.allocated
  obtain ⟨hgranted, hothers⟩ := @Distributes.shares _ p now id schedule d view revision hd
  obtain ⟨hbefore, hafter, -, -, hnet⟩ := LedgerView.apply_spec hview
  have havailable := Money.checkedAdd_eq_some.mp hd.available
  have hshared := available_shared d (p.qualifyingMembers schedule)
  have hwhole : (d.each (p.qualifyingMembers schedule)).units * (p.qualifyingMembers schedule).length +
      (d.remainder (p.qualifyingMembers schedule)).units =
      (p.ledger.view.balance .restrictedMemberFunds).units + d.assessed.contribution.units := by omega
  refine {
    published := hd.published
    funding := fun lot => mem_eligibleLots_iff hp.funding
    fundingOnce := hnodup
    assessed := hassesses.marked
    newlyEligible := hassesses.newlyEligible
    corporate := assessFunding_corporate hnodup hd.assessed
    contribution := hassesses.shared
    members := fun m => mem_qualifyingMembers hp.members
    membersOnce := qualifyingMembers_nodup hp.members schedule
    shared := hwhole
    remainder := remainder_lt d
    whole := fun hnothing => ?_
    carried := ?_
    revenue := ?_
    granted := hgranted
    others := hothers}
  · have hnone : (d.each (p.qualifyingMembers schedule)).units * (p.qualifyingMembers schedule).length = 0 := by
      rcases hnothing with hnobody | hnothing
      · exact (congrArg _ hnobody).trans (Nat.mul_zero _)
      · exact (congrArg (· * _) hnothing).trans (Nat.zero_mul _)
    show (d.remainder (p.qualifyingMembers schedule)).units = _ + d.assessed.contribution.units
    omega
  · have hbalance := hbefore.units_balance (a := .restrictedMemberFunds) rfl
    have hbalance' := hafter.units_balance (a := .restrictedMemberFunds) rfl
    rw [hnet, hallocates.restricted, hassesses.restricted] at hbalance'
    show (view.balance .restrictedMemberFunds).units = (d.remainder (p.qualifyingMembers schedule)).units
    omega
  · show view.signedBalance .corporatePoolRevenue = _ + (d.assessed.corporate.units : ℤ)
    rw [hnet, hallocates.others _ (by simp) (by simp), hassesses.corporate]

end

/-- **The annual distribution is exact.** A year that is finalized assesses the lots eligible
at its cutoff, rounds the corporate share once for each policy version, and shares out or
carries everything else. Finalizing it again gives the same distribution and changes nothing;
a refused finalization changes nothing either. -/
theorem annual_distribution_exact (hp : p.Built) (id : AnnualDistributionId) (now : CanonicalTime) :
    (∀ p' a, p.finalizeAnnualDistribution id now = .ok (p', a) →
      (p.records.annualAllocations.get? id = none → p.ExactYear id p' a) ∧
      (p.records.annualAllocations.get? id ≠ none → p' = p) ∧
      ∀ later, p'.finalizeAnnualDistribution id later = .ok (p', a)) ∧
    ∀ e, p.finalizeAnnualDistribution id now = .error e →
      p.calls [(.apply (.finalizeAnnualDistribution id), now)] = p := by
  refine ⟨fun p' a h => ?_, fun e h => ?_⟩
  · have hcomplete := (bind_eq_ok.mp h).choose_spec.1
    cases hdone : p.records.annualAllocations.get? id with
    | some old =>
      obtain ⟨⟨⟩, -, hold⟩ := bind_eq_ok.mp h
      simp only [hdone] at hold
      cases hold
      exact ⟨fun hnone => (by cases hnone), fun _ => rfl, fun later => by simpa only [finalizeAnnualDistribution, hdone] using h⟩
    | none =>
      obtain ⟨-, schedule, d, view, revision, hd, hview, -, rfl, rfl⟩ := finalize_accepted hdone h
      refine ⟨fun _ => hd.exact hp.indexed hview, fun hnot => absurd rfl hnot, fun later => ?_⟩
      have hheld : ((p.distributed id schedule now d view).stamped now revision).records.annualAllocations.get? id =
          some (p.allocation schedule now d) := SortedMap.get?_insert_self ..
      unfold finalizeAnnualDistribution
      rw [hheld]
      exact bind_eq_ok.mpr ⟨(), hcomplete, rfl⟩
  · show Machine.advance call p _ = p
    simp only [Machine.advance, call, apply, h]
    rfl

omit [Crypto] in
/-- In the example's year one member has everything but the corporate share. -/
theorem annual_distribution_exact_year : ∃ p' a,
    @finalizeAnnualDistribution Example.crypto Example.year ⟨1970⟩ ⟨31536000000⟩ = .ok (p', a) ∧
    Example.year.ExactYear ⟨1970⟩ p' a ∧ a.corporateShare = ⟨30⟩ ∧ a.each = ⟨970⟩ := by
  have hbuilt : @Built Example.crypto Example.year :=
    @Built.calls Example.crypto _ (@Built.new Example.crypto RequestBooks.exampleScope Example.unit) Example.yearCalls
  have hshares : (@finalizeAnnualDistribution Example.crypto Example.year ⟨1970⟩ ⟨31536000000⟩).map
      (fun result => (result.2.corporateShare, result.2.each)) = .ok (⟨30⟩, ⟨970⟩) := by decide +kernel
  obtain ⟨⟨p', a⟩, hfinal, heq⟩ := map_eq_ok.mp hshares
  obtain ⟨hcorporate, heach⟩ := Prod.mk.inj heq
  exact ⟨p', a, hfinal, ((@annual_distribution_exact Example.crypto _ hbuilt ⟨1970⟩ ⟨31536000000⟩).1 p' a hfinal).1
    (by decide +kernel), hcorporate, heach⟩

end FinancialProgram

end CsMail
