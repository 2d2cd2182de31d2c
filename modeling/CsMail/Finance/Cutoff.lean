import CsMail.Finance.Finalization

/-! A year after its cutoff.

What a finalization reads of the lots and the members is how they stood at the cutoff.
Operations stamped later leave that alone (`SameYear`), with one exception: a lot cleared
before the cutoff and cleared again after it loses its date, and with it the year. -/
namespace CsMail
open Library

/-! ### Assessing the same lots -/

section
variable {funding funding' : SortedMap PaymentOperationId ForfeitureLot}
  {distribution : AnnualDistributionId} {lots : List PaymentOperationId}

/-- The loop over the lots reads no others. -/
theorem assessLots_congr {start s : Assessment} (h : ∀ id ∈ lots, funding'.get? id = start.funding.get? id)
    (hs : lots.foldlM (assessLot distribution) start = .ok s) :
    ∃ s', lots.foldlM (assessLot distribution) {start with funding := funding'} = .ok s' ∧
      s'.cohorts = s.cohorts ∧ s'.newlyEligible = s.newlyEligible ∧ s'.batch = s.batch := by
  induction lots generalizing start funding' with
  | nil =>
    cases hs
    exact ⟨_, rfl, rfl, rfl, rfl⟩
  | cons id rest ih =>
    obtain ⟨hid, hrest⟩ := List.forall_mem_cons.mp h
    obtain ⟨next, hnext, hfold⟩ := bind_eq_ok.mp hs
    simp only [assessLot, bind_eq_ok, refuseIf_eq_ok, okOr_eq_ok, exists_const,
      Except.ok.injEq] at hnext
    obtain ⟨lot, hlot, hrate, amount, hamount, newly, hnewly, lot', hassess, rfl⟩ := hnext
    have hagree : ∀ i ∈ rest, (funding'.insert id lot').get? i = (start.funding.insert id lot').get? i :=
      fun i hi => by
        rw [SortedMap.get?_insert, SortedMap.get?_insert, hrest i hi]
    obtain ⟨s', hs', hsame⟩ := ih hagree hfold
    refine ⟨s', ?_, hsame⟩
    rw [List.foldlM_cons]
    refine bind_eq_ok.mpr ⟨_, ?_, hs'⟩
    simp only [assessLot, bind_eq_ok, refuseIf_eq_ok, okOr_eq_ok, exists_const, Except.ok.injEq]
    exact ⟨lot, hid.trans hlot, hrate, amount, hamount, newly, hnewly, lot', hassess, rfl⟩

theorem assessFunding_congr {a : Assessed} (h : ∀ id ∈ lots, funding'.get? id = funding.get? id)
    (ha : assessFunding funding lots distribution = .ok a) :
    ∃ a', assessFunding funding' lots distribution = .ok a' ∧ a'.newlyEligible = a.newlyEligible ∧
      a'.corporate = a.corporate ∧ a'.contribution = a.contribution := by
  simp only [assessFunding, bind_eq_ok, okOr_eq_ok, Except.ok.injEq] at ha
  obtain ⟨s, hs, corporate, hcorporate, contribution, hcontribution, rfl⟩ := ha
  obtain ⟨s', hs', hcohorts, hnewly, -⟩ := @assessLots_congr funding' _ _ _ _ h hs
  refine ⟨_, bind_eq_ok.mpr ⟨s', hs', bind_eq_ok.mpr ⟨corporate, hcohorts ▸ hcorporate,
    bind_eq_ok.mpr ⟨contribution, okOr_eq_ok.mpr (hnewly ▸ hcontribution), rfl⟩⟩⟩, hnewly, rfl, rfl⟩

end

namespace FinancialProgram
variable {p p' next : FinancialProgram} {schedule : AnnualDistributionSchedule} {now : CanonicalTime}
  {c : Call}

/-! ### What the cutoff keeps -/

/-- A change of a member stamped at the cutoff or later belongs to another year. -/
theorem MemberChange.qualifies {id : MemberId} {m m' : Member} (h : MemberChange now id m c m')
    (hlater : schedule.cutoff ≤ now) : m'.qualifies schedule = m.qualifies schedule := by
  cases h with
  | status status =>
    have hstatus : ({m with changes := m.changes ++ [(now, status)]} : Member).statusBefore schedule.cutoff =
        m.statusBefore schedule.cutoff := by
      unfold Member.statusBefore
      rw [List.reverse_append]
      simp [not_lt.mpr hlater]
    unfold Member.qualifies
    rw [hstatus]
    rfl
  | activity activity =>
    have hday : schedule.cutoff.millis / dayMillis ≤ now.millis / dayMillis :=
      Nat.div_le_div_right (CanonicalTime.le_iff_millis.mp hlater)
    have hdays : ({m with activityDays := insert (now.millis / dayMillis) m.activityDays} :
        Member).activeDays schedule.start schedule.cutoff =
          m.activeDays schedule.start schedule.cutoff := by
      unfold Member.activeDays
      rw [Finset.filter_insert, if_neg fun hin => absurd hin.2 (not_lt.mpr hday)]
    unfold Member.qualifies
    rw [hdays]
    rfl

/-- A member who joined at the cutoff or later does not qualify. -/
theorem qualifies_new {id : MemberId} {identityDigest : Bytes32} {status : MembershipStatus}
    (hlater : schedule.cutoff ≤ now) :
    (⟨id, identityDigest, now, [(now, status)], ∅⟩ : Member).qualifies schedule = false := by
  have hstatus : (⟨id, identityDigest, now, [(now, status)], ∅⟩ : Member).statusBefore schedule.cutoff =
      none := by
    simp [Member.statusBefore, not_lt.mpr hlater]
  simp [Member.qualifies, hstatus]

/-- The lot under this identifier, if the year may assess it. -/
def eligibleLot (p : FinancialProgram) (schedule : AnnualDistributionSchedule)
    (id : PaymentOperationId) : Option ForfeitureLot :=
  (p.records.funding.get? id).filter fun lot => lot.eligibleAt schedule.cutoff

/-- The operations that may follow a cutoff, the dated ones stamped there or later. -/
def Later (schedule : AnnualDistributionSchedule) (c : Call × CanonicalTime) : Prop :=
  match c.1 with
  | .apply (.enroll _ _ _) | .apply (.setMembership _ _) | .apply (.recordActivity _ _)
  | .apply (.clearMaturity _ _) => schedule.cutoff ≤ c.2
  | .recordForfeiture _ | .apply (.compensateMember _ _ _ _ _) | .prepareMemberPayment _ _
  | .confirmPayout _ _ _ => True
  | .noteReversal _ | .apply (.hold _ _) | .apply (.publishAnnualDistribution _)
  | .apply (.finalizeAnnualDistribution _) => False

/-- Everything a finalization of the year reads, except the lots. -/
structure SameYear (schedule : AnnualDistributionSchedule) (p p' : FinancialProgram) : Prop where
  scope : p'.scope = p.scope
  unit : p'.unit = p.unit
  schedules : p'.records.schedules = p.records.schedules
  allocations : p'.records.annualAllocations = p.records.annualAllocations
  qualifying : ∀ id, (p'.records.members.get? id).any (Member.qualifies · schedule) =
    (p.records.members.get? id).any (Member.qualifies · schedule)
  /-- A lot the year may assess was one before, and the same. -/
  narrows : ∀ id lot, p'.eligibleLot schedule id = some lot → p.eligibleLot schedule id = some lot

theorem SameYear.refl (p : FinancialProgram) : SameYear schedule p p :=
  ⟨rfl, rfl, rfl, rfl, fun _ => rfl, fun _ _ h => h⟩

theorem SameYear.trans {p'' : FinancialProgram} (h : SameYear schedule p p')
    (h' : SameYear schedule p' p'') : SameYear schedule p p'' :=
  ⟨h'.scope.trans h.scope, h'.unit.trans h.unit, h'.schedules.trans h.schedules,
    h'.allocations.trans h.allocations, fun id => (h'.qualifying id).trans (h.qualifying id),
    fun id lot hlot => h.narrows id lot (h'.narrows id lot hlot)⟩

theorem SameYear.putLot {id : PaymentOperationId} {lot : ForfeitureLot}
    (hlot : lot.eligibleAt schedule.cutoff = false) : SameYear schedule p (p.putLot id lot) where
  scope := rfl
  unit := rfl
  schedules := rfl
  allocations := rfl
  qualifying _ := rfl
  narrows i l hl := by
    have hl : ((p.records.funding.insert id lot).get? i).filter
      (fun lot => lot.eligibleAt schedule.cutoff) = some l := hl
    rw [SortedMap.get?_insert] at hl
    split_ifs at hl
    · rw [Option.filter_eq_some_iff] at hl
      cases hl.1
      rw [hlot] at hl
      cases hl.2
    · exact hl

theorem SameYear.putMember {id : MemberId} {m : Member}
    (hm : m.qualifies schedule = (p.records.members.get? id).any (Member.qualifies · schedule)) :
    SameYear schedule p (p.putMember id m) where
  scope := rfl
  unit := rfl
  schedules := rfl
  allocations := rfl
  qualifying i := by
    show ((p.records.members.insert id m).get? i).any (Member.qualifies · schedule) = _
    rw [SortedMap.get?_insert]
    split_ifs with heq
    · rw [heq, Option.any_some, hm]
    · rfl
  narrows _ _ h := h

section
variable [Crypto]

theorem SameYear.event (hlater : Later schedule (c, now)) (he : p.Event now c next) :
    SameYear schedule p next := by
  cases he with
  | @forfeited source view htakes hview =>
    have hput := @SameYear.putLot p schedule source.id ⟨source, .pending source.requiresReview⟩ rfl
    exact ⟨rfl, rfl, rfl, rfl, fun _ => rfl, hput.narrows⟩
  | reviewed hlot hchange =>
    cases hchange with
    | held | reversed | kept => exact hlater.elim
    | cleared evidence mature =>
      refine .putLot (decide_eq_false ?_)
      exact not_lt.mpr hlater
  | enrolled henrolls =>
    refine .putMember ?_
    rw [henrolls.fresh, qualifies_new hlater]
    rfl
  | changed hm hchange =>
    have htime : schedule.cutoff ≤ now := by
      cases hchange <;> exact hlater
    refine .putMember ?_
    rw [hm, Option.any_some, hchange.qualifies htime]
  | published | finalized => exact hlater.elim
  | prepared | noted | confirmed | corrected =>
    exact ⟨rfl, rfl, rfl, rfl, fun _ => rfl, fun _ _ h => h⟩

/-- Without a second clearance the year may assess the same lots. -/
theorem eligibleLot_event (hlater : Later schedule (c, now)) (he : p.Event now c next)
    (hkeep : ∀ id evidence, c = .apply (.clearMaturity id evidence) → p.eligibleLot schedule id = none)
    (id : PaymentOperationId) : next.eligibleLot schedule id = p.eligibleLot schedule id := by
  have hput : ∀ i lot, lot.eligibleAt schedule.cutoff = false → p.eligibleLot schedule i = none →
      (p.putLot i lot).eligibleLot schedule id = p.eligibleLot schedule id := fun i lot hlot hnone => by
    show ((p.records.funding.insert i lot).get? id).filter _ = _
    rw [SortedMap.get?_insert]
    split_ifs with heq
    · rw [heq, hnone, Option.filter_some, hlot]
      rfl
    · rfl
  cases he with
  | @forfeited source view htakes hview =>
    refine hput source.id ⟨source, .pending source.requiresReview⟩ rfl ?_
    rw [eligibleLot, htakes.fresh]
    rfl
  | reviewed hlot hchange =>
    cases hchange with
    | held | reversed | kept => exact hlater.elim
    | cleared evidence mature =>
      exact hput _ _ (decide_eq_false (not_lt.mpr hlater)) (hkeep _ _ rfl)
  | published | finalized => exact hlater.elim
  | enrolled | changed | prepared | noted | confirmed | corrected => rfl

/-- An accepted clearance of a lot the year may already assess. -/
def Reclears (schedule : AnnualDistributionSchedule) (p : FinancialProgram)
    (c : Call × CanonicalTime) : Prop :=
  (∃ p', p.call c = .ok p') ∧ ∃ id evidence lot, c.1 = .apply (.clearMaturity id evidence) ∧
    p.eligibleLot schedule id = some lot

/-- A lot cleared again at the cutoff or later is lost to the year. -/
theorem Reclears.lost {c : Call × CanonicalTime} (hlater : Later schedule c) (h : Reclears schedule p c) :
    ∃ id lot, p.eligibleLot schedule id = some lot ∧
      (Machine.advance call p c).eligibleLot schedule id = none := by
  obtain ⟨c, now⟩ := c
  obtain ⟨⟨p', hok⟩, id, evidence, lot, rfl, hlot⟩ := h
  refine ⟨id, lot, hlot, ?_⟩
  have hadvance : Machine.advance call p (.apply (.clearMaturity id evidence), now) = p' := by
    rw [Machine.advance, hok]
  rw [hadvance]
  rcases call_eq_ok hok with ⟨-, hdone⟩ | ⟨-, next, revision, he, -, rfl⟩
  · cases hdone
  · cases he with
    | @reviewed _ _ old _ hold hchange =>
      cases hchange with
      | cleared evidence mature =>
        show ((p.records.funding.insert id _).get? id).filter _ = none
        rw [SortedMap.get?_insert_self, Option.filter_some, if_neg]
        simp only [ForfeitureLot.eligibleAt, decide_eq_true_eq]
        exact not_lt.mpr hlater
    | changed hm hchange => cases hchange

/-! ### Finalizing before and after -/

/-- What a finalization of the year computes is the same in both programs. -/
structure Stable (p : FinancialProgram) (id : AnnualDistributionId)
    (schedule : AnnualDistributionSchedule) (p' : FinancialProgram) : Prop where
  members : p'.qualifyingMembers schedule = p.qualifyingMembers schedule
  lots : p'.eligibleLots schedule = p.eligibleLots schedule
  results : ∀ {time time' q q' a a'}, p.finalizeAnnualDistribution id time = .ok (q, a) →
    p'.finalizeAnnualDistribution id time' = .ok (q', a') → a' = {a with finalizedAt := a'.finalizedAt}
  /-- A year that could be finalized still can, unless a payable of another origin has taken
  one of its identifiers. -/
  finalizes : ∀ {time time' result}, p.finalizeAnnualDistribution id time = .ok result →
    schedule.cutoff ≤ time' → p'.lastEventAt ≤ time' →
    (∀ member ∈ p.qualifyingMembers schedule,
      p'.records.payables.get? (allocationId p.scope p.unit schedule.id member) = none) →
    p'.Finalizes id time'

section
variable {id : AnnualDistributionId}

omit [Crypto] in
theorem eligibleLots_congr (hfiled : ∀ id lot, p.records.funding.get? id = some lot → lot.source.id = id)
    (hfiled' : ∀ id lot, p'.records.funding.get? id = some lot → lot.source.id = id)
    (h : ∀ id, p'.eligibleLot schedule id = p.eligibleLot schedule id) :
    p'.eligibleLots schedule = p.eligibleLots schedule := by
  refine SortedMap.select_congr hfiled hfiled' fun i => ?_
  rw [← Option.isSome_filter, ← Option.isSome_filter]
  exact congrArg Option.isSome (h i)

omit [Crypto] in
theorem eligibleLot_eq_some (hfiled : ∀ id lot, p.records.funding.get? id = some lot → lot.source.id = id)
    {i : PaymentOperationId} (hi : i ∈ p.eligibleLots schedule) :
    ∃ lot, p.records.funding.get? i = some lot ∧ p.eligibleLot schedule i = some lot := by
  obtain ⟨lot, hlot, -, heligible⟩ := mem_eligibleLots hfiled hi
  exact ⟨lot, hlot, by rw [eligibleLot, hlot, Option.filter_some, if_pos heligible]⟩

omit [Crypto] in
/-- The lots the year may assess are the same in both programs. -/
theorem funding_congr (hfiled : ∀ id lot, p.records.funding.get? id = some lot → lot.source.id = id)
    (h : ∀ id, p'.eligibleLot schedule id = p.eligibleLot schedule id) :
    ∀ i ∈ p.eligibleLots schedule, p'.records.funding.get? i = p.records.funding.get? i := fun i hi => by
  obtain ⟨lot, hlot, heligible⟩ := eligibleLot_eq_some hfiled hi
  rw [← h i, eligibleLot, Option.filter_eq_some_iff] at heligible
  rw [hlot, heligible.1]

variable (hkept : p.Kept) (hkept' : p'.Kept) (h : SameYear schedule p p')
  (hlots : ∀ id, p'.eligibleLot schedule id = p.eligibleLot schedule id)
include hkept hkept' h

theorem SameYear.members : p'.qualifyingMembers schedule = p.qualifyingMembers schedule :=
  SortedMap.select_congr hkept.filed.members hkept'.filed.members h.qualifying

/-- Both programs carry over the same remainder. -/
theorem SameYear.balance : p'.ledger.view.balance .restrictedMemberFunds =
    p.ledger.view.balance .restrictedMemberFunds := by
  have hunits := hkept.reconciled.conserved.units_balance (a := .restrictedMemberFunds) rfl
  have hunits' := hkept'.reconciled.conserved.units_balance (a := .restrictedMemberFunds) rfl
  have hcarried : p'.carriedOver = p.carriedOver := by
    rw [carriedOver, latest, h.allocations]
    rfl
  rw [hkept.reconciled.carried] at hunits
  rw [hkept'.reconciled.carried, hcarried, ← hunits] at hunits'
  exact Money.units_inj.mp (Int.ofNat_inj.mp hunits')

include hlots

/-- Distributions of the year in both programs come to the same. -/
theorem SameYear.allocation {d d' : Distribution} (hd : p.Distributes id schedule now d)
    {now' : CanonicalTime} (hd' : p'.Distributes id schedule now' d') :
    p'.allocation schedule now' d' = {p.allocation schedule now d with finalizedAt := now'} := by
  have hids := eligibleLots_congr hkept.filed.funding hkept'.filed.funding hlots
  have hmembers := h.members hkept hkept'
  obtain ⟨a, ha, hnewly, hcorporate, hcontribution⟩ :=
    assessFunding_congr (funding_congr hkept.filed.funding hlots) hd.assessed
  have hassessed := hd'.assessed
  rw [hids, ha] at hassessed
  cases hassessed
  have havailable := hd'.available
  rw [h.balance hkept hkept', hcontribution, hd.available] at havailable
  have hsame : d'.available = d.available := (Option.some.inj havailable).symm
  unfold FinancialProgram.allocation Distribution.each Distribution.remainder
  rw [hids, hmembers, hnewly, hcorporate, hcontribution, hsame]

theorem SameYear.stable (hadmits : p'.Admits) (hpublished : p.records.schedules.get? id = some schedule)
    (hopen : p.records.annualAllocations.get? id = none) : p.Stable id schedule p' := by
  have hids := eligibleLots_congr hkept.filed.funding hkept'.filed.funding hlots
  have hmembers := h.members hkept hkept'
  have hfirst : ∀ {time q a}, p.finalizeAnnualDistribution id time = .ok (q, a) →
      ∃ d, p.Distributes id schedule time d ∧ a = p.allocation schedule time d := fun {time q a} hok => by
    obtain ⟨-, s, d, -, -, hd, -, -, -, rfl⟩ := finalize_accepted hopen hok
    have hs := hd.published
    rw [hpublished] at hs
    cases hs
    exact ⟨d, hd, rfl⟩
  refine ⟨hmembers, hids, fun {time time' q q' a a'} hok hok' => ?_,
    fun {time time' result} hok hover hpresent hfresh => ?_⟩
  · obtain ⟨d, hd, rfl⟩ := hfirst hok
    obtain ⟨-, s, d', -, -, hd', -, -, -, rfl⟩ :=
      finalize_accepted (by rw [h.allocations]; exact hopen) hok'
    have hs := hd'.published
    rw [h.schedules, hpublished] at hs
    cases hs
    exact h.allocation hkept hkept' hlots hd hd'
  · obtain ⟨q, a⟩ := result
    obtain ⟨d, hd, -⟩ := hfirst hok
    obtain ⟨huniform, hpayable⟩ := Distributes.finalizable hkept.filed hd
    have hdue : p'.Due id schedule time' := by
      refine ⟨by rw [h.schedules]; exact hpublished, hover, fun i s hs hbefore => ?_, hpresent⟩
      rw [h.schedules] at hs
      rw [h.allocations, ← (hkept.filed.schedules i s hs).1]
      exact earlier_finalized hd.ordered hs hbefore
    refine (hkept'.finalize_refuses hadmits hdue ⟨?_, ?_⟩).cases
    · intro lot hlot lot' hlot' heligible heligible'
      have hbefore : ∀ lot ∈ p'.records.funding.values, lot.eligibleAt schedule.cutoff = true →
          lot ∈ p.records.funding.values := fun lot hlot heligible => by
        obtain ⟨i, hi⟩ := SortedMap.mem_values.mp hlot
        have hnarrow := h.narrows i lot (by rw [eligibleLot, hi, Option.filter_some, if_pos heligible])
        exact SortedMap.mem_values.mpr ⟨i, (Option.filter_eq_some_iff.mp hnarrow).1⟩
      exact huniform lot (hbefore lot hlot heligible) lot' (hbefore lot' hlot' heligible') heligible
        heligible'
    · rcases hpayable with hpayable | hnothing
      · refine .inl ?_
        unfold Payable at hpayable ⊢
        rw [h.scope, h.unit, hmembers]
        exact ⟨hpayable.named, hpayable.derived, hfresh, hpayable.distinct⟩
      · refine .inr fun a' ha' => ?_
        rw [hids] at ha'
        obtain ⟨a, ha, -, -, hcontribution⟩ := assessFunding_congr
          (fun i hi => (funding_congr hkept.filed.funding hlots i hi).symm) ha'
        rw [h.balance hkept hkept', hmembers, ← hcontribution]
        exact hnothing a ha

end

/-! ### Runs after the cutoff -/

theorem SameYear.calls (h : p.Kept) {cs : List (Call × CanonicalTime)}
    (hcs : ∀ c ∈ cs, Later schedule c) : SameYear schedule p (p.calls cs) :=
  Machine.run_relates_along (P := Kept) .refl (fun _ _ _ => .trans) (fun p c p' hlater hp hcall => by
    refine ⟨step_preserves (fun _ _ _ hp hhappens => hp.happens hhappens) p c p' hp hcall, ?_⟩
    rcases call_eq_ok hcall with ⟨rfl, -⟩ | ⟨-, next, revision, he, -, rfl⟩
    · exact .refl p'
    · have hnext := SameYear.event hlater he
      exact ⟨hnext.scope, hnext.unit, hnext.schedules, hnext.allocations, hnext.qualifying,
        hnext.narrows⟩) h (Machine.along_of_forall hcs p)

theorem eligibleLot_calls {cs : List (Call × CanonicalTime)} (hlater : ∀ c ∈ cs, Later schedule c)
    (hcs : Machine.Along call (fun p c => ¬Reclears schedule p c) p cs) (id : PaymentOperationId) :
    (p.calls cs).eligibleLot schedule id = p.eligibleLot schedule id :=
  Machine.run_relates_along (P := fun _ => True)
    (R := fun p p' : FinancialProgram => p'.eligibleLot schedule id = p.eligibleLot schedule id)
    (fun _ => rfl) (fun _ _ _ h h' => h'.trans h) (fun p c p' hc _ hcall => by
      refine ⟨trivial, ?_⟩
      rcases call_eq_ok hcall with ⟨rfl, -⟩ | ⟨-, next, revision, he, -, rfl⟩
      · rfl
      · refine eligibleLot_event hc.1 he (fun i evidence heq => ?_) id
        rw [← Option.not_isSome_iff_eq_none, Option.isSome_iff_exists]
        rintro ⟨lot, hlot⟩
        exact hc.2 ⟨⟨_, hcall⟩, i, evidence, lot, heq, hlot⟩)
    trivial ((Machine.along_of_forall hlater p).and hcs)

/-- **The cutoff is stable, except for second clearances.** Whatever follows a year's cutoff, a
finalization then comes to what it would have come to before, if and only if no lot the
year could assess was cleared again. -/
theorem cutoff_stable (scope : FinancialScope) (unit : SettlementUnit)
    (before after : List (Call × CanonicalTime)) {id : AnnualDistributionId}
    (hpublished : ((new scope unit).calls before).records.schedules.get? id = some schedule)
    (hopen : ((new scope unit).calls before).records.annualAllocations.get? id = none)
    (hlater : ∀ c ∈ after, Later schedule c) :
    ((new scope unit).calls before).Stable id schedule ((new scope unit).calls (before ++ after)) ↔
      Machine.Along call (fun p c => ¬Reclears schedule p c) ((new scope unit).calls before) after := by
  have happend : (new scope unit).calls (before ++ after) = ((new scope unit).calls before).calls after :=
    Machine.run_append ..
  have hkept := (kept_new scope unit).calls before
  constructor
  · intro hstable
    by_contra hreclears
    obtain ⟨early, c, late, rfl, hc⟩ := Machine.exists_of_not_along hreclears
    have hearly := SameYear.calls hkept fun c hc => hlater c (List.mem_append_left _ hc)
    obtain ⟨i, lot, hlot, hlost⟩ := (not_not.mp hc).lost
      (hlater c (List.mem_append_right _ (List.mem_cons_self ..)))
    have hkept' := Machine.advance_preserves
      (step_preserves fun _ _ _ hp hhappens => Kept.happens hp hhappens) (hkept.calls early) c
    have hlate := SameYear.calls hkept' fun c hc =>
      hlater c (List.mem_append_right _ (List.mem_cons_of_mem _ hc))
    -- the lot was there at the cutoff, and is gone at the end
    have hthere : i ∈ ((new scope unit).calls before).eligibleLots schedule := by
      rw [eligibleLots, SortedMap.mem_select hkept.filed.funding, ← Option.isSome_filter]
      exact Option.isSome_iff_exists.mpr ⟨lot, hearly.narrows i lot hlot⟩
    rw [← hstable.lots, happend] at hthere
    obtain ⟨lot', -, hlot'⟩ := eligibleLot_eq_some (hkept.calls _).filed.funding hthere
    have hsplit : ((new scope unit).calls before).calls (early ++ c :: late) =
        (Machine.advance call (((new scope unit).calls before).calls early) c).calls late :=
      Machine.run_append ..
    rw [hsplit] at hlot'
    have hgone := hlost.symm.trans (hlate.narrows i lot' hlot')
    cases hgone
  · intro hcs
    rw [happend]
    have hadmits := admits_calls scope unit (before ++ after)
    rw [happend] at hadmits
    exact (SameYear.calls hkept hlater).stable hkept (hkept.calls after) (eligibleLot_calls hlater hcs)
      hadmits hpublished hopen

end
/-! ### After the cutoff of 1970 -/

namespace Example
open RequestBooks

/-- The member leaves, and another forfeiture is recorded and cleared. -/
def lateCalls : List (Call × CanonicalTime) :=
  [(.apply (.setMembership ⟨1⟩ ⟨false, true, false⟩), ⟨31536000000⟩),
    (.recordForfeiture secondForfeiture, ⟨31536000000⟩),
    (.apply (.clearMaturity ⟨2⟩ ⟨9⟩), ⟨31536000000⟩)]

/-- The forfeiture of the year is cleared again. -/
def reclearCalls : List (Call × CanonicalTime) :=
  [(.apply (.clearMaturity ⟨1⟩ ⟨9⟩), ⟨31536000000⟩)]

def recleared : FinancialProgram := @calls crypto (new exampleScope unit) (yearCalls ++ reclearCalls)

end Example

/-- What comes late changes nothing of the year. -/
theorem cutoff_stable_late : @Stable Example.crypto Example.year ⟨1970⟩ Example.schedule
    (@calls Example.crypto (new RequestBooks.exampleScope Example.unit)
      (Example.yearCalls ++ Example.lateCalls)) := by
  refine (@cutoff_stable Example.schedule Example.crypto RequestBooks.exampleScope Example.unit
    Example.yearCalls Example.lateCalls ⟨1970⟩ (by decide +kernel) (by decide +kernel) ?_).mpr
    ⟨?_, ?_, ?_, trivial⟩
  · simp [Example.lateCalls, Later, Example.schedule]
  · rintro ⟨-, id, evidence, lot, heq, -⟩
    cases heq
  · rintro ⟨-, id, evidence, lot, heq, -⟩
    cases heq
  · rintro ⟨-, id, evidence, lot, heq, hlot⟩
    cases heq
    exact absurd (Option.isSome_iff_exists.mpr ⟨lot, hlot⟩) (by decide +kernel)

/-- Cleared again at the cutoff, the forfeiture of the year is left out of it, and its
member's share with it. -/
theorem cutoff_unstable : Example.reclearCalls.foldlM (@call Example.crypto) Example.year =
      .ok Example.recleared ∧ (∀ c ∈ Example.reclearCalls, Later Example.schedule c) ∧
    (@finalizeAnnualDistribution Example.crypto Example.year ⟨1970⟩ ⟨31536000000⟩).map
        (fun result => (result.2.funding, result.2.each)) = .ok ([⟨1⟩], ⟨970⟩) ∧
    (@finalizeAnnualDistribution Example.crypto Example.recleared ⟨1970⟩ ⟨31536000000⟩).map
        (fun result => (result.2.funding, result.2.each)) = .ok ([], ⟨0⟩) ∧
    ¬@Stable Example.crypto Example.year ⟨1970⟩ Example.schedule Example.recleared := by
  refine ⟨by decide +kernel, by simp [Example.reclearCalls, Later, Example.schedule],
    by decide +kernel, by decide +kernel, fun hstable => ?_⟩
  exact absurd (@Stable.lots Example.crypto _ _ _ _ hstable) (by decide +kernel)

end FinancialProgram
end CsMail
