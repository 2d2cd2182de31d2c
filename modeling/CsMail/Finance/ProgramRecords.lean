import CsMail.Finance.DistributionProofs
import CsMail.Finance.ProgramProofs

/-! The records of the member program, over whole runs.

Every record is filed under its own identifier (`Filed`), and years are closed in order,
each with lots of its own (`Closed`). Every event preserves both. -/
namespace CsMail
open Library

namespace FinancialProgram

section
variable [Crypto] {p p' next : FinancialProgram} {now : CanonicalTime} {c : Call}

omit [Crypto] in
theorem eligibleLots_nodup (h : ∀ id lot, p.records.funding.get? id = some lot → lot.source.id = id)
    (schedule : AnnualDistributionSchedule) : (p.eligibleLots schedule).Nodup := by
  have hvalues : (p.records.funding.values.map fun lot => lot.source.id).Nodup :=
    SortedMap.values_nodup fun k k' v v' hk hk' heq => by rw [← h k v hk, ← h k' v' hk', heq]
  exact hvalues.sublist (List.filter_sublist.map _)

omit [Crypto] in
theorem qualifyingMembers_nodup (h : ∀ id m, p.records.members.get? id = some m → m.id = id)
    (schedule : AnnualDistributionSchedule) : (p.qualifyingMembers schedule).Nodup := by
  have hvalues : (p.records.members.values.map Member.id).Nodup :=
    SortedMap.values_nodup fun k k' v v' hk hk' heq => by rw [← h k v hk, ← h k' v' hk', heq]
  exact hvalues.sublist (List.filter_sublist.map _)

/-! ### Filing -/

/-- Every record is filed under its own identifier, and every payable is sound. -/
structure Filed (p : FinancialProgram) : Prop where
  funding : ∀ id lot, p.records.funding.get? id = some lot → lot.source.id = id
  members : ∀ id m, p.records.members.get? id = some m → m.id = id
  schedules : ∀ id s, p.records.schedules.get? id = some s → s.id = id ∧ s.isCalendarYear = true
  allocations : ∀ id a, p.records.annualAllocations.get? id = some a →
    p.records.schedules.get? id = some a.schedule
  payables : ∀ id payable, p.records.payables.get? id = some payable →
    payable.id = id ∧ payable.Sound ∧ payable.Allocated p.scope p.unit

theorem filed_new (scope : FinancialScope) (unit : SettlementUnit) : (new scope unit).Filed := by
  constructor <;> simp [new]

theorem Filed.putLot (h : p.Filed) {id : PaymentOperationId} {lot : ForfeitureLot}
    (hid : lot.source.id = id) : (p.putLot id lot).Filed where
  funding i l hl := by
    have hl : (p.records.funding.insert id lot).get? i = some l := hl
    rw [SortedMap.get?_insert] at hl
    split_ifs at hl with heq
    · cases hl
      exact hid.trans heq.symm
    · exact h.funding i l hl
  members := h.members
  schedules := h.schedules
  allocations := h.allocations
  payables := h.payables

theorem Filed.putMember (h : p.Filed) {id : MemberId} {member : Member} (hid : member.id = id) :
    (p.putMember id member).Filed where
  funding := h.funding
  members i m hm := by
    have hm : (p.records.members.insert id member).get? i = some m := hm
    rw [SortedMap.get?_insert] at hm
    split_ifs at hm with heq
    · cases hm
      exact hid.trans heq.symm
    · exact h.members i m hm
  schedules := h.schedules
  allocations := h.allocations
  payables := h.payables

theorem Filed.putPayable (h : p.Filed) {id : AllocationId} {payable : MemberPayable}
    (hid : payable.id = id) (hsound : payable.Sound) (hallocated : payable.Allocated p.scope p.unit) :
    (p.putPayable id payable).Filed where
  funding := h.funding
  members := h.members
  schedules := h.schedules
  allocations := h.allocations
  payables i q hq := by
    have hq : (p.records.payables.insert id payable).get? i = some q := hq
    rw [SortedMap.get?_insert] at hq
    split_ifs at hq with heq
    · cases hq
      exact ⟨hid.trans heq.symm, hsound, hallocated⟩
    · exact h.payables i q hq

theorem Filed.assesses {id : AnnualDistributionId} {schedule : AnnualDistributionSchedule}
    {d : Distribution} (h : p.Filed) (hd : p.Distributes id schedule now d) :
    Assesses p.records.funding schedule.id (p.eligibleLots schedule) d.assessed :=
  assessFunding_spec (eligibleLots_nodup h.funding schedule) hd.assessed

theorem Filed.allocates {id : AnnualDistributionId} {schedule : AnnualDistributionSchedule}
    {d : Distribution} (h : p.Filed) (hd : p.Distributes id schedule now d) :
    Allocates p.scope p.unit schedule (d.each (p.qualifyingMembers schedule))
      (p.qualifyingMembers schedule) ⟨p.records.payables, d.assessed.batch⟩ d.allocated :=
  allocateMembers_spec hd.allocated

theorem Filed.distributed {id : AnnualDistributionId} {schedule : AnnualDistributionSchedule}
    {d : Distribution} {view : LedgerView} (h : p.Filed) (hd : p.Distributes id schedule now d) :
    (p.distributed id schedule now d view).Filed where
  funding i l hl := by
    have hl : d.assessed.funding.get? i = some l := hl
    rw [(h.assesses hd).marked] at hl
    split_ifs at hl
    · obtain ⟨old, hold, rfl⟩ := Option.map_eq_some_iff.mp hl
      rw [ForfeitureLot.assessedIn_source]
      exact h.funding i old hold
    · exact h.funding i l hl
  members := h.members
  schedules := h.schedules
  allocations i a ha := by
    have ha : (p.records.annualAllocations.insert id (p.allocation schedule now d)).get? i = some a := ha
    rw [SortedMap.get?_insert] at ha
    split_ifs at ha with heq
    · cases ha
      rw [heq]
      exact hd.published
    · exact h.allocations i a ha
  payables i q hq := by
    have hq : d.allocated.payables.get? i = some q := hq
    rcases (h.allocates hd).payables i with ⟨hsame, -⟩ | hgranted
    · exact h.payables i q (hsame ▸ hq)
    · obtain ⟨m, -, -, payable, hnew, hheld⟩ := hgranted.granted
      rw [hheld] at hq
      cases hq
      obtain ⟨rfl, hallocated, hsound⟩ := MemberPayable.new_eq_ok hnew
      exact ⟨rfl, hsound, hallocated⟩

theorem Filed.event (h : p.Filed) (he : p.Event now c next) : next.Filed := by
  cases he with
  | @forfeited source view htakes hview =>
    have hput := @Filed.putLot _ _ h source.id ⟨source, .pending source.requiresReview⟩ rfl
    exact ⟨hput.funding, hput.members, hput.schedules, hput.allocations, hput.payables⟩
  | reviewed hlot hchange => exact h.putLot (by rw [hchange.source]; exact h.funding _ _ hlot)
  | enrolled henrolls => exact h.putMember rfl
  | changed hm hchange => exact h.putMember (by rw [hchange.id]; exact h.members _ _ hm)
  | @published schedule hpublishes =>
    refine ⟨h.funding, h.members, fun i s hs => ?_, fun i a ha => ?_, h.payables⟩
    · have hs : (p.records.schedules.insert schedule.id schedule).get? i = some s := hs
      rw [SortedMap.get?_insert] at hs
      split_ifs at hs with heq
      · cases hs
        exact ⟨heq.symm, hpublishes.calendar⟩
      · exact h.schedules i s hs
    · have hs := h.allocations i a ha
      refine (SortedMap.get?_insert_ne _ _ fun heq => ?_).trans hs
      rw [heq, hpublishes.fresh] at hs
      cases hs
  | finalized hd hview => exact h.distributed hd
  | @prepared id bank payable payable' operation hpayable hprepare =>
    obtain ⟨hid, hsound, hallocated⟩ := h.payables _ _ hpayable
    obtain ⟨hsound', rfl | ⟨o, -, hopens⟩⟩ := MemberPayable.prepare_eq_ok hsound hprepare
    · exact h.putPayable hid hsound hallocated
    · exact h.putPayable (hopens.fixed.id.trans hid) hsound' (hopens.fixed.allocated hallocated)
  | noted hpayable hrecord hempty =>
    obtain ⟨hid, hsound, hallocated⟩ := h.payables _ _ hpayable
    obtain ⟨hsound', hfixed, -⟩ := MemberPayable.recordReceipt_eq_ok hsound hrecord
    exact h.putPayable (hfixed.id.trans hid) hsound' (hfixed.allocated hallocated)
  | confirmed hpayable hrecord hview =>
    obtain ⟨hid, hsound, hallocated⟩ := h.payables _ _ hpayable
    obtain ⟨hsound', hfixed, -⟩ := MemberPayable.recordReceipt_eq_ok hsound hrecord
    have hput := h.putPayable (hfixed.id.trans hid) hsound' (hfixed.allocated hallocated)
    exact ⟨hput.funding, hput.members, hput.schedules, hput.allocations, hput.payables⟩
  | corrected hcorrects hview =>
    obtain ⟨a, -, hnew⟩ := hcorrects.granted
    obtain ⟨rfl, hallocated, hsound⟩ := MemberPayable.new_eq_ok hnew
    have hput := h.putPayable rfl hsound hallocated
    exact ⟨hput.funding, hput.members, hput.schedules, hput.allocations, hput.payables⟩

/-! ### Assessed lots -/

/-- What the program has assessed stays as it is. -/
def Frozen (p p' : FinancialProgram) : Prop :=
  ∀ id lot clearance d, p.records.funding.get? id = some lot →
    lot.lifecycle = .assessed clearance d → p'.records.funding.get? id = some lot

omit [Crypto] in
theorem Frozen.trans {p'' : FinancialProgram} (h : p.Frozen p') (h' : p'.Frozen p'') : p.Frozen p'' :=
  fun id lot clearance d hlot hassessed =>
    h' id lot clearance d (h id lot clearance d hlot hassessed) hassessed

theorem Frozen.event (hfiled : p.Filed) (he : p.Event now c next) : p.Frozen next := by
  intro id lot clearance d hlot hassessed
  cases he with
  | forfeited htakes hview =>
    refine (SortedMap.get?_insert_ne _ _ fun heq => ?_).trans hlot
    rw [heq, htakes.fresh] at hlot
    cases hlot
  | @reviewed _ i old lot' hold hchange =>
    refine (SortedMap.get?_insert ..).trans ?_
    split_ifs with heq
    · rw [heq, hold] at hlot
      cases hlot
      rw [hchange.assessed hassessed]
    · exact hlot
  | enrolled | changed | published | prepared | noted | confirmed | corrected => exact hlot
  | @finalized _ schedule dist view hd hview =>
    have hassesses := hfiled.assesses hd
    have hnot : id ∉ p.eligibleLots schedule := fun hmem => by
      obtain ⟨l, clearance', hl, hcleared⟩ := hassesses.cleared id hmem
      rw [hlot] at hl
      cases hl
      rw [hassessed] at hcleared
      cases hcleared
    exact (hassesses.marked id).trans ((if_neg hnot).trans hlot)

/-! ### Closing the years in order -/

/-- The finalized years are the first of the published ones, closed one after the other, and
what they assessed stays assessed. -/
structure Closed (p : FinancialProgram) : Prop where
  finalized : ∀ id a, p.records.annualAllocations.get? id = some a →
    a.schedule.cutoff ≤ a.finalizedAt ∧ a.finalizedAt ≤ p.lastEventAt
  ordered : ∀ id a id' s, p.records.annualAllocations.get? id = some a →
    p.records.schedules.get? id' = some s → id' < id →
    p.records.annualAllocations.contains id' = true
  successive : ∀ id a id' a', p.records.annualAllocations.get? id = some a →
    p.records.annualAllocations.get? id' = some a' → id < id' → a.finalizedAt ≤ a'.finalizedAt
  assessed : ∀ id a lot, p.records.annualAllocations.get? id = some a → lot ∈ a.funding →
    ∃ l clearance, p.records.funding.get? lot = some l ∧ l.lifecycle = .assessed clearance id
  distinct : ∀ id a, p.records.annualAllocations.get? id = some a → a.funding.Nodup

omit [Crypto] in
theorem closed_new (scope : FinancialScope) (unit : SettlementUnit) : (new scope unit).Closed := by
  constructor <;> simp [new]

omit [Crypto] in
/-- An event that closes no year, and keeps what is assessed. -/
theorem Closed.keep (h : p.Closed) (hlast : p.lastEventAt ≤ p'.lastEventAt)
    (hallocations : p'.records.annualAllocations = p.records.annualAllocations)
    (hschedules : p'.records.schedules = p.records.schedules)
    (hfrozen : p.Frozen p') : p'.Closed where
  finalized id a ha := by
    obtain ⟨hcutoff, htime⟩ := h.finalized id a (hallocations ▸ ha)
    exact ⟨hcutoff, htime.trans hlast⟩
  ordered id a id' s ha hs hlt := by
    rw [hallocations] at ha ⊢
    rw [hschedules] at hs
    exact h.ordered id a id' s ha hs hlt
  successive id a id' a' ha ha' := by
    rw [hallocations] at ha ha'
    exact h.successive id a id' a' ha ha'
  assessed id a lot ha hlot := by
    rw [hallocations] at ha
    obtain ⟨l, clearance, hl, hassessed⟩ := h.assessed id a lot ha hlot
    exact ⟨l, clearance, hfrozen lot l clearance id hl hassessed, hassessed⟩
  distinct id a ha := h.distinct id a (hallocations ▸ ha)

omit [Crypto] in
theorem earlier_finalized {schedule s : AnnualDistributionSchedule} {id : AnnualDistributionId}
    (h : p.earlierOpen schedule = false) (hs : p.records.schedules.get? id = some s)
    (hcutoff : s.cutoff ≤ schedule.start) : p.records.annualAllocations.contains s.id = true := by
  simp only [earlierOpen, List.any_eq_false, decide_eq_true_eq, not_and, Bool.not_eq_false] at h
  exact h s (SortedMap.mem_values.mpr ⟨id, hs⟩) hcutoff

/-- A year is finalized after every finalized one. -/
theorem Closed.before {id id' : AnnualDistributionId} {schedule : AnnualDistributionSchedule}
    {d : Distribution} {a : AnnualAllocation} (h : p.Closed) (hd : p.Distributes id schedule now d)
    (ha : p.records.annualAllocations.get? id' = some a) : id' < id := by
  have hne : id' ≠ id := fun heq => by
    rw [heq, hd.unfinished] at ha
    cases ha
  refine lt_of_le_of_ne (not_lt.mp fun hlt => ?_) hne
  obtain ⟨b, hb⟩ := SortedMap.contains_eq_true.mp (h.ordered id' a id schedule ha hd.published hlt)
  rw [hd.unfinished] at hb
  cases hb

theorem Closed.distributed {id : AnnualDistributionId} {schedule : AnnualDistributionSchedule}
    {d : Distribution} {view : LedgerView} {revision : U64} (h : p.Closed) (hfiled : p.Filed)
    (hd : p.Distributes id schedule now d) (hlast : p.lastEventAt ≤ now)
    (hfrozen : p.Frozen (p.distributed id schedule now d view)) :
    ((p.distributed id schedule now d view).stamped now revision).Closed := by
  obtain ⟨hid, hcalendar⟩ := hfiled.schedules id schedule hd.published
  have hget : ∀ i, ((p.distributed id schedule now d view).stamped now revision).records.annualAllocations.get? i =
      (p.records.annualAllocations.insert id (p.allocation schedule now d)).get? i := fun _ => rfl
  have hassesses := hfiled.assesses hd
  refine ⟨fun i a ha => ?_, fun i a i' s ha hs hlt => ?_, fun i a i' a' ha ha' hlt => ?_,
    fun i a lot ha hlot => ?_, fun i a ha => ?_⟩
  · rw [hget, SortedMap.get?_insert] at ha
    split_ifs at ha
    · cases ha
      exact ⟨hd.due, le_rfl⟩
    · obtain ⟨hcutoff, htime⟩ := h.finalized i a ha
      exact ⟨hcutoff, htime.trans hlast⟩
  · rw [SortedMap.contains, hget, SortedMap.get?_insert]
    have hs : p.records.schedules.get? i' = some s := hs
    obtain ⟨hid', hcalendar'⟩ := hfiled.schedules i' s hs
    split_ifs with hsame
    · rfl
    · rw [hget, SortedMap.get?_insert] at ha
      split_ifs at ha with heq
      · cases heq
        have hcutoff := (AnnualDistributionSchedule.covers_of_isCalendarYear hcalendar').cutoff_le
          (AnnualDistributionSchedule.covers_of_isCalendarYear hcalendar) (hid'.symm ▸ hid.symm ▸ hlt)
        exact hid' ▸ earlier_finalized hd.ordered hs hcutoff
      · exact h.ordered i a i' s ha hs hlt
  · rw [hget, SortedMap.get?_insert] at ha ha'
    split_ifs at ha ha' with heq heq' heq'
    · exact absurd hlt (by rw [heq, heq']; exact lt_irrefl id)
    · exact absurd (h.before hd ha') (by rw [← heq]; exact not_lt.mpr hlt.le)
    · cases ha'
      exact (h.finalized i a ha).2.trans hlast
    · exact h.successive i a i' a' ha ha' hlt
  · rw [hget, SortedMap.get?_insert] at ha
    split_ifs at ha with heq
    · cases ha
      have hlot : lot ∈ p.eligibleLots schedule := hlot
      obtain ⟨l, clearance, hl, hcleared⟩ := hassesses.cleared lot hlot
      have hfunding := hassesses.marked lot
      rw [if_pos hlot, hl] at hfunding
      refine ⟨_, clearance, hfunding, ?_⟩
      rw [heq, ← hid, ForfeitureLot.assessedIn_lifecycle hcleared]
    · obtain ⟨l, clearance, hl, hassessed⟩ := h.assessed i a lot ha hlot
      exact ⟨l, clearance, hfrozen lot l clearance i hl hassessed, hassessed⟩
  · rw [hget, SortedMap.get?_insert] at ha
    split_ifs at ha
    · cases ha
      exact eligibleLots_nodup hfiled.funding schedule
    · exact h.distinct i a ha

theorem Closed.happens {c : Call × CanonicalTime} (h : p.Closed) (hfiled : p.Filed)
    (hp : p.Happens c p') : p'.Closed := by
  obtain ⟨hlast, next, revision, he, -, rfl⟩ := hp
  obtain ⟨c, now⟩ := c
  have hfrozen := Frozen.event hfiled he
  cases he with
  | forfeited | reviewed | enrolled | changed | prepared | noted | confirmed | corrected =>
    exact h.keep hlast rfl rfl hfrozen
  | @published schedule hpublishes =>
    refine ⟨fun i a ha => ?_, fun i a i' s ha hs hlt => ?_, h.successive, h.assessed, h.distinct⟩
    · obtain ⟨hcutoff, htime⟩ := h.finalized i a ha
      exact ⟨hcutoff, htime.trans hlast⟩
    · have hs : (p.records.schedules.insert schedule.id schedule).get? i' = some s := hs
      rw [SortedMap.get?_insert] at hs
      split_ifs at hs with heq
      · cases hs
        -- a year that is still ahead cannot come before one already over
        obtain ⟨hid, hcalendar⟩ := hfiled.schedules i _ (hfiled.allocations i a ha)
        obtain ⟨hcutoff, htime⟩ := h.finalized i a ha
        have hover := (AnnualDistributionSchedule.covers_of_isCalendarYear hpublishes.calendar).cutoff_le
          (AnnualDistributionSchedule.covers_of_isCalendarYear hcalendar) (heq ▸ hid.symm ▸ hlt)
        have hyear := (AnnualDistributionSchedule.covers_of_isCalendarYear hcalendar).lt_cutoff
        have hahead := (hcutoff.trans htime).trans (LE.le.trans hlast hpublishes.ahead)
        exact absurd hpublishes.ordered (not_lt.mpr ((hover.trans hyear.le).trans hahead))
      · exact h.ordered i a i' s ha hs hlt
  | finalized hd hview => exact h.distributed hfiled hd hlast hfrozen

/-! ### Runs -/

/-- An accepted operation leaves the program as it is, or is an event. -/
theorem step_preserves {P : FinancialProgram → Prop} (h : ∀ p c p', P p → p.Happens c p' → P p')
    (p : FinancialProgram) (c : Call × CanonicalTime) (p' : FinancialProgram) (hp : P p)
    (hcall : p.call c = .ok p') : P p' := by
  rcases call_eq_ok hcall with ⟨rfl, -⟩ | hhappens
  · exact hp
  · exact h p c p' hp hhappens

def calls (p : FinancialProgram) (cs : List (Call × CanonicalTime)) : FinancialProgram :=
  Machine.run call p cs

omit [Crypto] in
/-- A year of the latest finalized distribution is the last of all, and the last closed. -/
theorem Closed.latest (h : p.Closed) {id : AnnualDistributionId} {a : AnnualAllocation}
    (ha : p.records.annualAllocations.get? id = some a) :
    ∃ id' b, p.records.annualAllocations.values.getLast? = some b ∧
      p.records.annualAllocations.get? id' = some b ∧ id ≤ id' ∧ a.finalizedAt ≤ b.finalizedAt := by
  obtain ⟨id', b, hlast, hb, hle⟩ := SortedMap.getLast?_values ha
  refine ⟨id', b, hlast, hb, hle, ?_⟩
  rcases hle.lt_or_eq with hlt | heq
  · exact h.successive id a id' b ha hb hlt
  · rw [heq, hb] at ha
    cases ha
    exact le_rfl

end
end FinancialProgram
end CsMail
