import CsMail.Finance.ProgramLedger

/-! Restoring a stored program.

`restore` checks every record again. A run of forfeitures that hold something leaves
every record as those checks want it (`Storable`), so a program is restored as it was. -/
namespace CsMail
open Library

/-! ### Lots -/

/-- The lot was cleared on evidence, no sooner than it matured. -/
structure MaturityClearance.Covers (c : MaturityClearance) (source : Forfeiture) : Prop where
  evidence : c.evidence.val ≠ 0
  mature : ∃ t, source.forfeitedAt.checkedAdd source.terms.maturityDelay = some t ∧ t ≤ c.time

/-- What a stored lot is checked for. -/
structure ForfeitureLot.Storable (lot : ForfeitureLot) (scope : FinancialScope)
    (unit : SettlementUnit) : Prop where
  unit : lot.source.unit = unit
  scope : lot.source.terms.scope = scope
  positive : lot.source.amount.isZero = false
  rated : lot.source.terms.validate = .ok ⟨⟩
  cleared : ∀ c, lot.lifecycle = .cleared c → c.Covers lot.source
  assessed : ∀ c d, lot.lifecycle = .assessed c d → c.Covers lot.source

theorem ForfeitureLot.Storable.check {lot : ForfeitureLot} {id : PaymentOperationId}
    {metadata : ProgramMetadata} (h : lot.Storable metadata.scope metadata.unit)
    (hid : lot.source.id = id) : checkLot metadata (id, lot) = .ok ⟨⟩ := by
  have hfields : ¬(id ≠ lot.source.id ∨ lot.source.unit ≠ metadata.unit ∨
      lot.source.terms.scope ≠ metadata.scope ∨ lot.source.amount.isZero = true) := by
    simp [hid, h.unit, h.scope, h.positive]
  have hcovers : ∀ c : MaturityClearance, c.Covers lot.source → ¬(c.evidence.val = 0 ∨
      (lot.source.forfeitedAt.checkedAdd lot.source.terms.maturityDelay).all
        (fun t => c.time < t) = true) := by
    rintro c ⟨hevidence, t, ht, hle⟩
    simp [hevidence, ht, hle]
  refine bind_eq_ok.mpr ⟨⟨⟩, refuseIf_eq_ok.mpr hfields, bind_eq_ok.mpr ⟨⟨⟩, h.rated,
    refuseIf_eq_ok.mpr ?_⟩⟩
  cases hlot : lot.lifecycle with
  | pending held => simp
  | cleared c => simpa using hcovers c (h.cleared c hlot)
  | assessed c d => simpa using hcovers c (h.assessed c d hlot)

/-! ### Members -/

/-- What a stored member is checked for, and that its history is not ahead of the program. -/
structure Member.Storable (m : Member) (last : CanonicalTime) : Prop where
  digest : m.identityDigest ≠ zero32
  changed : m.changes ≠ []
  joined : ∀ c ∈ m.changes, m.joinedAt ≤ c.1
  ordered : m.changes.Pairwise fun c c' => c.1 ≤ c'.1
  past : ∀ c ∈ m.changes, c.1 ≤ last

theorem pairwise_zip_tail {α : Type} {R : α → α → Prop} {l : List α} (h : l.Pairwise R) :
    ∀ e ∈ l.zip l.tail, R e.1 e.2 := by
  induction l with
  | nil => simp
  | cons a rest ih =>
    obtain ⟨hhead, hrest⟩ := List.pairwise_cons.mp h
    cases rest with
    | nil => simp
    | cons b more =>
      intro e he
      rcases List.mem_cons.mp he with rfl | he
      · exact hhead b (List.mem_cons_self ..)
      · exact ih hrest e he

/-- Members filed under their own identifiers, with identities of their own, pass. -/
theorem checkMembers_eq_ok {last : CanonicalTime} {l : List (MemberId × Member)}
    {identities : List Bytes32} (hid : ∀ e ∈ l, e.2.id = e.1) (hstorable : ∀ e ∈ l, e.2.Storable last)
    (hnodup : (l.map fun e => e.2.identityDigest).Nodup)
    (hnew : ∀ e ∈ l, e.2.identityDigest ∉ identities) : checkMembers identities l = .ok ⟨⟩ := by
  induction l generalizing identities with
  | nil => rfl
  | cons head rest ih =>
    obtain ⟨id, m⟩ := head
    simp only [List.forall_mem_cons, List.map_cons, List.nodup_cons] at hid hstorable hnodup hnew
    obtain ⟨hm, hrest⟩ := hstorable
    have hjoined : m.changes.any (fun c => c.1 < m.joinedAt) = false := by
      simpa using hm.joined
    have hordered : (m.changes.zip m.changes.tail).any (fun c => c.2.1 < c.1.1) = false := by
      rw [List.any_eq_false]
      intro e he
      simpa using pairwise_zip_tail hm.ordered e he
    have hfields : ¬(id ≠ m.id ∨ m.identityDigest = zero32 ∨ m.identityDigest ∈ identities ∨
        m.changes = [] ∨ m.changes.any (fun c => c.1 < m.joinedAt) = true ∨
        (m.changes.zip m.changes.tail).any (fun c => c.2.1 < c.1.1) = true) := by
      simp only [hid.1, hm.digest, hnew.1, hm.changed, hjoined, hordered]
      simp
    refine bind_eq_ok.mpr ⟨⟨⟩, refuseIf_eq_ok.mpr hfields, ih hid.2 hrest hnodup.2 fun e he hmem => ?_⟩
    rcases List.mem_cons.mp hmem with heq | hmem
    · exact hnodup.1 (heq ▸ List.mem_map_of_mem he)
    · exact hnew.2 e he hmem

/-! ### Allocations -/

/-- What a stored allocation is checked for, apart from its calendar. -/
structure AnnualAllocation.Storable (a : AnnualAllocation) : Prop where
  shared : a.newlyEligible.units = a.corporateShare.units + a.memberContribution.units
  members : a.members.Nodup
  available : a.each.units * a.members.length + a.remainder.units ≤ u64Max
  nobody : a.members.length = 0 → a.each.units = 0
  indivisible : 0 < a.members.length → a.remainder.units < a.members.length

theorem AnnualAllocation.Storable.check {a : AnnualAllocation} {id : AnnualDistributionId}
    (h : a.Storable) (hid : a.schedule.id = id) (hcalendar : a.schedule.isCalendarYear = true)
    (hdue : a.schedule.cutoff ≤ a.finalizedAt) (hfunding : a.funding.Nodup) :
    checkAllocation (id, a) = .ok ⟨⟩ := by
  have hshared : a.corporateShare.checkedAdd a.memberContribution = some a.newlyEligible :=
    Money.checkedAdd_eq_some.mpr h.shared
  have hnobody : a.members.length = 0 → ¬a.each.isZero = false := fun hnone heach => by
    have := Money.isZero_eq_false.mp heach
    have := h.nobody hnone
    omega
  have hfields : ¬(id ≠ a.schedule.id ∨ a.schedule.isCalendarYear = false ∨
      a.finalizedAt < a.schedule.cutoff ∨
      a.corporateShare.checkedAdd a.memberContribution ≠ some a.newlyEligible ∨
      ¬a.members.Nodup ∨ ¬a.funding.Nodup) := by
    simp [hid, hcalendar, hdue, hshared, h.members, hfunding]
  have hshares : ¬(u64Max < a.each.units * a.members.length + a.remainder.units ∨
      (a.members.length = 0 ∧ a.each.isZero = false) ∨
      (0 < a.members.length ∧ a.members.length ≤ a.remainder.units)) := by
    have := h.available
    have := h.indivisible
    rintro (hmore | ⟨hnone, heach⟩ | ⟨hsome, hleft⟩)
    · omega
    · exact hnobody hnone heach
    · omega
  exact bind_eq_ok.mpr ⟨⟨⟩, refuseIf_eq_ok.mpr hfields, refuseIf_eq_ok.mpr hshares⟩

namespace FinancialProgram

/-! ### Programs -/

/-- Every record of the program passes the checks of a restoration. -/
structure Storable (p : FinancialProgram) : Prop where
  complete : p.complete = true
  unit : p.ledger.view.unit = p.unit
  total : p.ledger.view.totalValue = .ok .zero
  lots : ∀ id lot, p.records.funding.get? id = some lot → lot.Storable p.scope p.unit
  members : ∀ id m, p.records.members.get? id = some m → m.Storable p.lastEventAt
  identities : ∀ id id' m m', p.records.members.get? id = some m →
    p.records.members.get? id' = some m' → m.identityDigest = m'.identityDigest → id = id'
  allocations : ∀ id a, p.records.annualAllocations.get? id = some a → a.Storable

theorem storable_new (scope : FinancialScope) (unit : SettlementUnit) : (new scope unit).Storable := by
  constructor <;> simp [new, LedgerState.new, LedgerView.fromBalances]
  rfl

section
variable [Crypto] {p p' next : FinancialProgram} {now : CanonicalTime} {c : Call}

omit [Crypto] in
theorem LotChange.storable {id : PaymentOperationId} {lot lot' : ForfeitureLot}
    (h : LotChange now id lot c lot') (hlot : lot.Storable p.scope p.unit) :
    lot'.Storable p.scope p.unit := by
  cases h with
  | held held hnot =>
    exact ⟨hlot.unit, hlot.scope, hlot.positive, hlot.rated, by simp, by simp⟩
  | reversed hnot =>
    exact ⟨hlot.unit, hlot.scope, hlot.positive, hlot.rated, by simp, by simp⟩
  | cleared evidence mature hheld hnot hevidence hmature hpast =>
    refine ⟨hlot.unit, hlot.scope, hlot.positive, hlot.rated, ?_, by simp⟩
    rintro _ ⟨⟩
    exact ⟨hevidence, mature, hmature, hpast⟩
  | kept => exact hlot

omit [Crypto] in
theorem ForfeitureLot.Storable.assessedIn {lot : ForfeitureLot} (h : lot.Storable p.scope p.unit)
    (distribution : AnnualDistributionId) : (lot.assessedIn distribution).Storable p.scope p.unit := by
  unfold CsMail.ForfeitureLot.assessedIn
  split
  · rename_i clearance hcleared
    refine ⟨h.unit, h.scope, h.positive, h.rated, by simp, ?_⟩
    rintro _ _ ⟨⟩
    exact h.cleared clearance hcleared
  · exact h

omit [Crypto] in
theorem MemberChange.storable {id : MemberId} {m m' : Member} {last : CanonicalTime}
    (h : MemberChange now id m c m') (hm : m.Storable last) (hlast : last ≤ now) : m'.Storable now := by
  cases h with
  | status status =>
    refine ⟨hm.digest, by simp, fun e he => ?_, ?_, fun e he => ?_⟩
    · rcases List.mem_append.mp he with he | he
      · exact hm.joined e he
      · obtain ⟨first, hfirst⟩ := List.exists_mem_of_ne_nil _ hm.changed
        rw [List.mem_singleton.mp he]
        exact (hm.joined first hfirst).trans ((hm.past first hfirst).trans hlast)
    · refine List.pairwise_append.mpr ⟨hm.ordered, by simp, fun e he e' he' => ?_⟩
      rw [List.mem_singleton.mp he']
      exact (hm.past e he).trans hlast
    · rcases List.mem_append.mp he with he | he
      · exact (hm.past e he).trans hlast
      · rw [List.mem_singleton.mp he]
  | activity activity =>
    exact ⟨hm.digest, hm.changed, hm.joined, hm.ordered, fun e he => (hm.past e he).trans hlast⟩

theorem Event.fixed (he : p.Event now c next) :
    next.scope = p.scope ∧ next.unit = p.unit ∧ next.complete = p.complete := by
  cases he <;> exact ⟨rfl, rfl, rfl⟩

/-- The ledger changes only by a batch applied to it. -/
theorem Event.ledger (he : p.Event now c next) : next.ledger = p.ledger ∨
    ∃ batch, p.ledger.view.apply batch = .ok next.ledger.view := by
  cases he with
  | forfeited htakes hview => exact .inr ⟨_, hview⟩
  | finalized hd hview => exact .inr ⟨_, hview⟩
  | confirmed hpayable hrecord hview => exact .inr ⟨_, hview⟩
  | corrected hcorrects hview => exact .inr ⟨_, hview⟩
  | reviewed | enrolled | changed | published | prepared | noted => exact .inl rfl

theorem Storable.lotsEvent (h : p.Storable) (hfiled : p.Filed) (he : p.Event now c next)
    (hfunded : ∀ source, c = .recordForfeiture source → source.amount.isZero = false)
    {id : PaymentOperationId} {lot : ForfeitureLot} (hlot : next.records.funding.get? id = some lot) :
    lot.Storable p.scope p.unit := by
  cases he with
  | @forfeited source view htakes hview =>
    have hlot : (p.records.funding.insert source.id _).get? id = some lot := hlot
    rw [SortedMap.get?_insert] at hlot
    split_ifs at hlot
    · cases hlot
      exact ⟨htakes.unit, htakes.scope, hfunded source rfl, htakes.rated, by simp, by simp⟩
    · exact h.lots id lot hlot
  | @reviewed _ i old lot' hold hchange =>
    have hlot : (p.records.funding.insert i lot').get? id = some lot := hlot
    rw [SortedMap.get?_insert] at hlot
    split_ifs at hlot
    · cases hlot
      exact hchange.storable (h.lots i old hold)
    · exact h.lots id lot hlot
  | @finalized i schedule d view hd hview =>
    have hlot : d.assessed.funding.get? id = some lot := hlot
    rw [(hfiled.assesses hd).marked] at hlot
    split_ifs at hlot
    · obtain ⟨old, hold, rfl⟩ := Option.map_eq_some_iff.mp hlot
      exact ForfeitureLot.Storable.assessedIn (h.lots id old hold) schedule.id
    · exact h.lots id lot hlot
  | enrolled | changed | published | prepared | noted | confirmed | corrected => exact h.lots id lot hlot

theorem Storable.membersEvent {c : Call × CanonicalTime} (h : p.Storable)
    (hlast : p.lastEventAt ≤ p.eventTime c) (he : p.Event c.2 c.1 next) {id : MemberId} {m : Member}
    (hm : next.records.members.get? id = some m) : m.Storable (p.eventTime c) := by
  obtain ⟨c, now⟩ := c
  have hkeep : ∀ i old, p.records.members.get? i = some old → old.Storable (p.eventTime (c, now)) :=
    fun i old hold =>
      have hstored := h.members i old hold
      ⟨hstored.digest, hstored.changed, hstored.joined, hstored.ordered,
        fun e he => (hstored.past e he).trans hlast⟩
  cases he with
  | @enrolled i identityDigest status henrolls =>
    have hm : (p.records.members.insert i _).get? id = some m := hm
    rw [SortedMap.get?_insert] at hm
    split_ifs at hm
    · cases hm
      exact ⟨henrolls.digest, by simp, by simp, by simp, by simp [eventTime]⟩
    · exact hkeep id m hm
  | @changed _ i old m' hold hchange =>
    have hm : (p.records.members.insert i m').get? id = some m := hm
    rw [SortedMap.get?_insert] at hm
    split_ifs at hm
    · cases hm
      have hstored := hchange.storable (h.members i old hold)
      cases hchange <;> exact hstored hlast
    · exact hkeep id m hm
  | forfeited | reviewed | published | finalized | prepared | noted | confirmed | corrected =>
    exact hkeep id m hm

omit [Crypto] in
theorem MemberChange.identityDigest {id : MemberId} {m m' : Member} (h : MemberChange now id m c m') :
    m'.identityDigest = m.identityDigest := by
  cases h <;> rfl

omit [Crypto] in
/-- Filing a member whose identity nobody else has keeps identities apart. -/
theorem Storable.identitiesInsert (h : p.Storable) {i : MemberId} {new : Member}
    (hnew : ∀ id m, p.records.members.get? id = some m → m.identityDigest = new.identityDigest → id = i) :
    ∀ id id' m m', (p.records.members.insert i new).get? id = some m →
      (p.records.members.insert i new).get? id' = some m' →
      m.identityDigest = m'.identityDigest → id = id' := by
  intro id id' m m' hm hm' heq
  rw [SortedMap.get?_insert] at hm hm'
  split_ifs at hm hm' with h₁ h₂ h₂
  · exact h₁.trans h₂.symm
  · cases hm
    exact h₁.trans (hnew id' m' hm' heq.symm).symm
  · cases hm'
    exact (hnew id m hm heq).trans h₂.symm
  · exact h.identities id id' m m' hm hm' heq

theorem Storable.identitiesEvent (h : p.Storable) (he : p.Event now c next) :
    ∀ id id' m m', next.records.members.get? id = some m → next.records.members.get? id' = some m' →
      m.identityDigest = m'.identityDigest → id = id' := by
  cases he with
  | enrolled henrolls =>
    refine h.identitiesInsert fun id m hm heq => ?_
    exact absurd heq (henrolls.unique m (SortedMap.mem_values.mpr ⟨id, hm⟩))
  | changed hold hchange =>
    refine h.identitiesInsert fun id m hm heq => ?_
    exact h.identities id _ m _ hm hold (heq.trans hchange.identityDigest)
  | forfeited | reviewed | published | finalized | prepared | noted | confirmed | corrected =>
    exact h.identities

theorem Storable.allocationsEvent (h : p.Storable) (hfiled : p.Filed) (he : p.Event now c next)
    {id : AnnualDistributionId} {a : AnnualAllocation}
    (ha : next.records.annualAllocations.get? id = some a) : a.Storable := by
  cases he with
  | @finalized i schedule d view hd hview =>
    have ha : (p.records.annualAllocations.insert i (p.allocation schedule now d)).get? id = some a := ha
    rw [SortedMap.get?_insert] at ha
    split_ifs at ha
    · cases ha
      have hshared := available_shared d (p.qualifyingMembers schedule)
      exact ⟨(hfiled.assesses hd).shared, qualifyingMembers_nodup hfiled.members schedule,
        hshared ▸ d.available.units_le, each_nobody d, remainder_lt d⟩
    · exact h.allocations id a ha
  | forfeited | reviewed | enrolled | changed | published | prepared | noted | confirmed | corrected =>
    exact h.allocations id a ha

theorem Storable.happens {c : Call × CanonicalTime} (h : p.Storable) (hfiled : p.Filed)
    (hp : p.Happens c p')
    (hfunded : ∀ source, c.1 = .recordForfeiture source → source.amount.isZero = false) :
    p'.Storable := by
  obtain ⟨hlast, next, revision, he, -, rfl⟩ := hp
  obtain ⟨hscope, hunit, hcomplete⟩ := he.fixed
  have hledger : next.ledger.view.unit = p.ledger.view.unit ∧
      next.ledger.view.totalValue = .ok .zero := by
    rcases he.ledger with hsame | ⟨batch, hview⟩
    · rw [hsame]
      exact ⟨rfl, h.total⟩
    · exact ⟨(LedgerView.apply_spec hview).2.2.1, LedgerView.apply_totalValue hview⟩
  have hidentities := h.identitiesEvent he
  refine ⟨hcomplete.trans h.complete, ?_, hledger.2, fun id lot hlot => ?_, fun id m hm => ?_,
    hidentities, fun id a ha => h.allocationsEvent hfiled he ha⟩
  · exact hledger.1.trans (h.unit.trans hunit.symm)
  · show lot.Storable next.scope next.unit
    rw [hscope, hunit]
    exact h.lotsEvent hfiled he hfunded hlot
  · exact h.membersEvent hlast he hm

/-! ### Restoring -/

theorem Storable.restored (h : p.Storable) (hkept : p.Kept) :
    restore p.metadata p.records p.ledger.view p.journal = .ok p := by
  have hmembers : checkMembers [] p.records.members.entries = .ok ⟨⟩ := by
    refine @checkMembers_eq_ok p.lastEventAt _ _ (fun e he => ?_) (fun e he => ?_) ?_ (by simp)
    · exact hkept.filed.members _ _ (SortedMap.mem_entries.mp he)
    · exact h.members _ _ (SortedMap.mem_entries.mp he)
    · have hnodup := SortedMap.values_nodup h.identities
      rwa [SortedMap.values, List.map_map] at hnodup
  have hlots : p.records.funding.entries.forM (checkLot p.metadata) = .ok ⟨⟩ := by
    refine forM_eq_ok.mpr fun e he => ?_
    have hlot := SortedMap.mem_entries.mp he
    exact (h.lots _ _ hlot).check (hkept.filed.funding _ _ hlot)
  have hpayables : p.records.payables.entries.forM (checkPayable p.metadata p.ledger.view) = .ok ⟨⟩ := by
    refine forM_eq_ok.mpr fun e he => ?_
    have hpayable := SortedMap.mem_entries.mp he
    obtain ⟨hid, hsound, hallocated⟩ := hkept.filed.payables _ _ hpayable
    have hbalance : p.ledger.view.balance (.memberPayable e.1) = e.2.outstanding := by
      have hunits := hkept.reconciled.conserved.units_balance (a := .memberPayable e.1) rfl
      rw [hkept.reconciled.owed, owedOn, hpayable] at hunits
      exact Money.units_inj.mp (Int.ofNat_inj.mp hunits)
    exact bind_eq_ok.mpr ⟨⟨⟩, hsound.validate hallocated, refuseIf_eq_ok.mpr (by simp [hid, hbalance])⟩
  have hschedules : p.records.schedules.entries.forM checkSchedule = .ok ⟨⟩ := by
    refine forM_eq_ok.mpr fun e he => ?_
    obtain ⟨hid, hcalendar⟩ := hkept.filed.schedules _ _ (SortedMap.mem_entries.mp he)
    exact refuseIf_eq_ok.mpr (by simp [hid, hcalendar])
  have hallocations : p.records.annualAllocations.entries.forM checkAllocation = .ok ⟨⟩ := by
    refine forM_eq_ok.mpr fun e he => ?_
    have ha := SortedMap.mem_entries.mp he
    obtain ⟨hid, hcalendar⟩ := hkept.filed.schedules _ _ (hkept.filed.allocations _ _ ha)
    exact (h.allocations _ _ ha).check hid hcalendar (hkept.closed.finalized _ _ ha).1
      (hkept.closed.distinct _ _ ha)
  unfold restore
  refine bind_eq_ok.mpr ⟨⟨⟩, refuseIf_eq_ok.mpr (not_not_intro h.unit), ?_⟩
  rw [h.total]
  refine bind_eq_ok.mpr ⟨.zero, rfl, bind_eq_ok.mpr ⟨⟨⟩, refuseIf_eq_ok.mpr (by simp), ?_⟩⟩
  rw [hmembers, hlots, hpayables, hschedules, hallocations]
  have hcomplete := h.complete
  obtain ⟨scope, unit, revision, complete, ledger, records, journal, lastEventAt⟩ := p
  cases hcomplete
  rfl

/-- **Restore is lossless.** Whatever operations a program went through, as long as its
forfeitures held something, restoring it from what it stores gives it back. -/
theorem restore_calls (scope : FinancialScope) (unit : SettlementUnit)
    (cs : List (Call × CanonicalTime))
    (hfunded : ∀ source now, (.recordForfeiture source, now) ∈ cs → source.amount.isZero = false) :
    restore ((new scope unit).calls cs).metadata ((new scope unit).calls cs).records
      ((new scope unit).calls cs).ledger.view ((new scope unit).calls cs).journal =
      .ok ((new scope unit).calls cs) := by
  have hstorable : ((new scope unit).calls cs).Kept ∧ ((new scope unit).calls cs).Storable :=
    Machine.run_preserves_of (P := fun p : FinancialProgram => p.Kept ∧ p.Storable)
      (C := fun c : Call × CanonicalTime =>
        ∀ source, c.1 = .recordForfeiture source → source.amount.isZero = false)
      (fun p c p' hc hp hcall => by
        rcases call_eq_ok hcall with ⟨rfl, -⟩ | hhappens
        · exact hp
        · exact ⟨hp.1.happens hhappens, hp.2.happens hp.1.filed hhappens hc⟩)
      ⟨kept_new scope unit, storable_new scope unit⟩
      (fun c hc source hsource => hfunded source c.2 (hsource ▸ hc))
  exact hstorable.2.restored hstorable.1

end

/-! ### The year 1970: one forfeiture, one member -/

namespace Example
open RequestBooks

def unit : SettlementUnit := ⟨1⟩

def forfeiture : Forfeiture where
  id := ⟨1⟩
  amount := ⟨1000⟩
  unit := unit
  forfeitedAt := ⟨0⟩
  requiresReview := false
  terms := ⟨exampleScope, ⟨1⟩, 300, ⟨1⟩⟩

def schedule : AnnualDistributionSchedule where
  id := ⟨1970⟩
  start := ⟨0⟩
  cutoff := ⟨31536000000⟩
  eligibility := ⟨⟨1⟩, ⟨0⟩, 1⟩
  payment := PayableBooks.Example.terms

def allocationHash : Bytes32 :=
  #v[148, 0, 176, 244, 195, 208, 14, 205, 11, 47, 195, 145, 239, 182, 91, 243, 179, 174, 114, 9,
     83, 112, 251, 224, 7, 171, 131, 29, 126, 157, 168, 183]

/-- The hash of the member's allocation, and no other. -/
@[reducible] def crypto : Crypto where
  sha256 bytes :=
    if bytes = allocationBytes exampleScope unit ⟨1970⟩ ⟨1⟩ then allocationHash else zero32
  validKey _ := false
  verifyStrict _ _ _ := false

/-- Everything of the year up to its cutoff. -/
def yearCalls : List (Call × CanonicalTime) :=
  [(.apply (.publishAnnualDistribution schedule), ⟨0⟩),
    (.recordForfeiture forfeiture, ⟨1⟩),
    (.apply (.enroll ⟨1⟩ (Vector.replicate 32 5) ⟨true, true, false⟩), ⟨2⟩),
    (.apply (.recordActivity ⟨1⟩ .read), ⟨3⟩),
    (.apply (.clearMaturity ⟨1⟩ ⟨9⟩), ⟨4⟩)]

def finalizeCall : Call × CanonicalTime := (.apply (.finalizeAnnualDistribution ⟨1970⟩), ⟨31536000000⟩)

def year : FinancialProgram := @calls crypto (new exampleScope unit) yearCalls

def finalized : FinancialProgram := @calls crypto (new exampleScope unit) (yearCalls ++ [finalizeCall])

end Example

/-- The year is finalized, its one member is owed the members' share, and the program is
restored as it was. -/
theorem restore_calls_year :
    @restore Example.crypto Example.finalized.metadata Example.finalized.records
      Example.finalized.ledger.view Example.finalized.journal = .ok Example.finalized ∧
    Example.finalized.records.payables.values.map MemberPayable.outstanding = [⟨970⟩] := by
  have hfunded : ∀ source now, (.recordForfeiture source, now) ∈ Example.yearCalls ++ [Example.finalizeCall] →
      source.amount.isZero = false := by
    intro source now h
    simp [Example.yearCalls, Example.finalizeCall] at h
    rw [h.1]
    decide
  refine ⟨?_, by decide +kernel⟩
  unfold Example.finalized
  exact @restore_calls Example.crypto RequestBooks.exampleScope Example.unit _ hfunded

end FinancialProgram
end CsMail
