import CsMail.Billing.Service
import CsMail.Finance.ExecutionProofs

/-! What every service contract keeps, and what it has posted.

`Sound` is what a stored contract must satisfy to be read back; retries and evidence keep
it. `told` is the history of a contract's postings, read off its settlement: evidence
extends it by exactly the postings it returns (`record_told`). -/
namespace CsMail
open Library

/-! ### Periods and offers -/

namespace PeriodAnchor

theorem date_eq_ok {a : PeriodAnchor} {year : U16} {t : CanonicalTime} (h : a.date year = .ok t) :
    ∃ month day, calendarDate year month day = some t := by
  rw [date, okOr_eq_ok] at h
  cases hdate : calendarDate year a.month a.day with
  | some t' =>
    rw [hdate] at h
    exact ⟨a.month, a.day, hdate.trans h⟩
  | none =>
    rw [hdate] at h
    change (if _ then _ else _) = _ at h
    split_ifs at h
    cases hrule : a.leapDay with
    | february28 => exact ⟨2, 28, by simpa only [hrule] using h⟩
    | march1 => exact ⟨3, 1, by simpa only [hrule] using h⟩

end PeriodAnchor

namespace ServicePeriod

/-- A period begins in one year and ends in the next. -/
theorem start_lt_ends (p : ServicePeriod) : p.start < p.ends := by
  have hdated := p.dated
  simp only [PeriodAnchor.interval, bind_eq_ok, okOr_eq_ok, Checked.succ_eq_some, Except.ok.injEq,
    Prod.mk.injEq] at hdated
  obtain ⟨start, hstart, next, hnext, ends, hends, rfl, rfl⟩ := hdated
  obtain ⟨month, day, hstart⟩ := PeriodAnchor.date_eq_ok hstart
  obtain ⟨month', day', hends⟩ := PeriodAnchor.date_eq_ok hends
  have hbefore := (calendarDate_bounds hstart).2.2
  have hafter := (calendarDate_bounds hends).2.1
  rw [← hnext] at hbefore
  exact CanonicalTime.lt_iff_millis.mpr (hbefore.trans_le hafter)

theorem ofAnchor_anchor (p : ServicePeriod) : ofAnchor p.anchor = .ok p := by
  unfold ofAnchor
  split
  · rename_i start ends h
    have hdated := h.symm.trans p.dated
    cases hdated
    rfl
  · rename_i e h
    have hdated := h.symm.trans p.dated
    cases hdated

end ServicePeriod

theorem ServiceOffer.tryFrom_toStored (o : ServiceOffer) : tryFrom o.toStored = .ok o := by
  rw [tryFrom, toStored, ServicePeriod.ofAnchor_anchor, ok_bind]
  exact dif_neg o.published

theorem ServiceOffer.price_ne_zero (o : ServiceOffer) : o.price.isZero = false := by
  have := o.published
  simp only [not_or] at this
  exact Bool.eq_false_of_not_eq_true this.2.1

namespace ServiceContract

/-! ### What a contract has posted -/

def receipt (c : ServiceContract) : Transfer :=
  ⟨.processorClearing, .utilityServiceReceipts c.payment, c.offer.price⟩

def loss (c : ServiceContract) : Transfer := ⟨.corporateLossClearing, .processorClearing, c.offer.price⟩

/-- The price is received once if the contract was ever settled, and lost once if it was reversed. -/
def told (c : ServiceContract) : List Transfer :=
  match c.settlement with
  | .unfunded => []
  | .funded _ => [c.receipt]
  | .reversed _ => [c.receipt, c.loss]

/-! ### What every contract keeps -/

section
variable [Crypto] {c c' : ServiceContract} {signed : SignedPaymentEvidence} {time : CanonicalTime}

structure Sound (c : ServiceContract) : Prop where
  collection : c.collection.Valid
  named : c.id.val ≠ 0
  first : c.collection.operation c.payment ≠ none
  processor : c.processorKey ≠ zero32
  kind : c.collection.current.kind = .capture
  amount : c.collection.current.amount = c.offer.price
  unit : c.collection.current.unit = c.offer.unit
  agrees : c.agrees = true

theorem validate_eq_ok : c.validate = .ok () ↔ c.Sound := by
  unfold validate
  simp only [bind_eq_ok, mapError_eq_ok, refuseIf_eq_ok, exists_const, not_or, ne_eq, not_not, Bool.not_eq_false]
  rw [exists_congr fun _ => and_congr_left' PaymentExecution.validate_eq_ok]
  constructor
  · rintro ⟨⟨⟩, hcollection, ⟨hnamed, hfirst, hprocessor, hkind, hamount, hunit⟩, hagrees⟩
    exact ⟨hcollection, hnamed, hfirst, hprocessor, hkind, hamount, hunit, hagrees⟩
  · intro h
    exact ⟨⟨⟩, h.collection, ⟨h.named, h.first, h.processor, h.kind, h.amount, h.unit⟩, h.agrees⟩

theorem Sound.tryFrom (h : c.Sound) : tryFrom c.toStored = .ok c := by
  have hvalidate := validate_eq_ok.mpr h
  unfold ServiceContract.tryFrom
  simp only [toStored, ServiceOffer.tryFrom_toStored, h.collection.tryFrom, ok_bind, Except.mapError,
    hvalidate]

omit [Crypto] in
theorem agrees_eq_true : c.agrees = true ↔
    ((c.collection.state = .pending ∨ c.collection.state.isUnsuccessful = true) ∧ c.settlement = .unfunded) ∨
    (∃ evidence paid, c.collection.state = .settled evidence ∧ c.settlement = .funded paid ∧
      c.offer.collectAt ≤ paid) ∨
    ∃ evidence reversal paid, c.collection.state = .reversed evidence reversal ∧ c.settlement = .reversed paid ∧
      c.offer.collectAt ≤ paid := by
  unfold agrees
  cases c.collection.state <;> cases c.settlement <;> simp [PaymentState.isUnsuccessful]

/-- A contract that covers an instant has been paid for good. -/
theorem Sound.covers (h : c.Sound) (hcovers : c.covers time = true) :
    (∃ evidence, c.collection.state = .settled evidence) ∧ c.offer.period.contains time = true ∧
      ∃ paid, c.settlement = .funded paid ∧ paid ≤ time := by
  rw [ServiceContract.covers, Bool.and_eq_true] at hcovers
  rcases agrees_eq_true.mp h.agrees with ⟨-, hsettlement⟩ | ⟨evidence, paid, hstate, hsettlement, -⟩ |
    ⟨_, _, paid, -, hsettlement, -⟩
  · simp [hsettlement] at hcovers
  · rw [hsettlement] at hcovers
    exact ⟨⟨evidence, hstate⟩, hcovers.2, paid, hsettlement, by simpa using hcovers.1⟩
  · simp [hsettlement] at hcovers

/-! ### Retries -/

/-- The same contract: what it is for, and who pays whom, stays. -/
structure Continues (c c' : ServiceContract) : Prop where
  id : c'.id = c.id
  offer : c'.offer = c.offer
  processorKey : c'.processorKey = c.processorKey
  scope : c'.collection.current.scope = c.collection.current.scope
  unit : c'.collection.current.unit = c.collection.current.unit

theorem retry_spec {operation : PaymentOperation} (hc : c.Sound) (h : c.retry = .ok (c', operation)) :
    c'.Sound ∧ c.Continues c' ∧ c' ≠ c ∧ c'.told = c.told := by
  simp only [retry, bind_eq_ok, mapError_eq_ok, Except.ok.injEq, Prod.mk.injEq] at h
  obtain ⟨⟨collection, _⟩, hretry, rfl, rfl⟩ := h
  obtain ⟨hfailed, -, ho, -, hattempts, -⟩ := PaymentExecution.retry_eq_ok hretry
  obtain ⟨hcurrent, hpending, -⟩ := PaymentExecution.retry_current hretry
  have hunfunded : c.settlement = .unfunded := by
    rcases agrees_eq_true.mp hc.agrees with ⟨-, h⟩ | ⟨_, _, hsettled, -⟩ | ⟨_, _, _, hreversed, -⟩
    · exact h
    · simp [hsettled, PaymentState.isUnsuccessful] at hfailed
    · simp [hreversed, PaymentState.isUnsuccessful] at hfailed
  refine ⟨⟨PaymentExecution.retry_valid hc.collection hretry, hc.named, ?_, hc.processor, ?_, ?_, ?_, ?_⟩,
    ⟨rfl, rfl, rfl, ?_, ?_⟩, fun heq => ?_, rfl⟩
  · have hfirst := hc.first
    rw [PaymentExecution.operation_ne_none] at hfirst ⊢
    rw [hattempts, List.map_append, List.map_append]
    exact List.mem_append_left _ hfirst
  · rw [hcurrent, ho]
    exact hc.kind
  · rw [hcurrent, ho]
    exact hc.amount
  · rw [hcurrent, ho]
    exact hc.unit
  · exact agrees_eq_true.mpr (.inl ⟨.inl hpending, hunfunded⟩)
  · rw [hcurrent, ho]
  · rw [hcurrent, ho]
  · have hlength := congrArg (fun x : ServiceContract => x.collection.attempts.length) heq
    simp [hattempts] at hlength

/-! ### Evidence -/

/-- Evidence extends what the contract has posted by what it returns. -/
theorem record_spec {batch : LedgerBatch} (hc : c.Sound) (h : c.record signed time = .ok (c', batch)) :
    c'.Sound ∧ c.Continues c' ∧ c'.told = c.told ++ batch.transfers := by
  simp only [record, bind_eq_ok, mapError_eq_ok, refuseIf_eq_ok, exists_const, not_lt] at h
  obtain ⟨hdue, ⟨collection, change⟩, hrecord, h⟩ := h
  obtain ⟨hcurrent, hcases⟩ := PaymentExecution.record_last hrecord
  have hvalid := PaymentExecution.record_valid hc.collection hrecord
  have hfirst : collection.operation c.payment ≠ none := by
    have := hc.first
    rw [PaymentExecution.operation_ne_none] at this ⊢
    rw [PaymentExecution.record_operations hrecord]
    exact this
  -- whatever the settlement becomes, only its agreement with the collection is left to show
  have hsound : ∀ settlement, ServiceContract.agrees ⟨c.id, c.offer, c.processorKey, collection, settlement⟩ = true →
      (⟨c.id, c.offer, c.processorKey, collection, settlement⟩ : ServiceContract).Sound ∧
      c.Continues ⟨c.id, c.offer, c.processorKey, collection, settlement⟩ := fun settlement hagrees =>
    ⟨⟨hvalid, hc.named, hfirst, hc.processor, by rw [hcurrent]; exact hc.kind, by rw [hcurrent]; exact hc.amount,
      by rw [hcurrent]; exact hc.unit, hagrees⟩, ⟨rfl, rfl, rfl, by rw [hcurrent], by rw [hcurrent]⟩⟩
  have hprice := c.offer.price_ne_zero
  have hagrees := agrees_eq_true.mp hc.agrees
  cases change with
  | settled =>
    simp only [Except.ok.injEq, Prod.mk.injEq] at h
    obtain ⟨rfl, rfl⟩ := h
    obtain ⟨⟨⟩, -⟩ | hnext := hcases
    obtain ⟨-, hpending, evidence, hsettled⟩ | ⟨⟨⟩, -⟩ | ⟨⟨⟩, -⟩ := nextState_cases hnext
    have hunfunded : c.settlement = .unfunded := by
      simpa [hpending, PaymentState.isUnsuccessful] using hagrees
    obtain ⟨hc', hcontinues⟩ := hsound (.funded time)
      (agrees_eq_true.mpr (.inr (.inl ⟨evidence, time, hsettled, rfl, hdue⟩)))
    refine ⟨hc', hcontinues, ?_⟩
    rw [told, told, hunfunded, LedgerBatch.transfer, if_neg (by rw [hprice]; decide)]
    rfl
  | reversed =>
    obtain ⟨⟨⟩, -⟩ | hnext := hcases
    obtain ⟨⟨⟩, -⟩ | ⟨-, evidence, reversal, hsettled, hreversed⟩ | ⟨⟨⟩, -⟩ := nextState_cases hnext
    obtain ⟨paid, hfunded, hpaid⟩ : ∃ paid, c.settlement = .funded paid ∧ c.offer.collectAt ≤ paid := by
      simpa [hsettled, PaymentState.isUnsuccessful] using hagrees
    simp only [hfunded, Except.ok.injEq, Prod.mk.injEq] at h
    obtain ⟨rfl, rfl⟩ := h
    obtain ⟨hc', hcontinues⟩ := hsound (.reversed paid)
      (agrees_eq_true.mpr (.inr (.inr ⟨evidence, reversal, paid, hreversed, rfl, hpaid⟩)))
    refine ⟨hc', hcontinues, ?_⟩
    rw [told, told, hfunded, LedgerBatch.transfer, if_neg (by rw [hprice]; decide)]
    rfl
  | none =>
    simp only [Except.ok.injEq, Prod.mk.injEq] at h
    obtain ⟨rfl, rfl⟩ := h
    have hkept : ServiceContract.agrees ⟨c.id, c.offer, c.processorKey, collection, c.settlement⟩ = true := by
      refine agrees_eq_true.mpr ?_
      rcases hcases with ⟨-, hstate⟩ | hnext
      · rw [hstate]
        exact hagrees
      · obtain ⟨⟨⟩, -⟩ | ⟨⟨⟩, -⟩ | ⟨-, hstate | ⟨hpending, hfailed⟩⟩ := nextState_cases hnext
        · rw [hstate]
          exact hagrees
        · refine .inl ⟨.inr hfailed, ?_⟩
          simpa [hpending, PaymentState.isUnsuccessful] using hagrees
    obtain ⟨hc', hcontinues⟩ := hsound c.settlement hkept
    exact ⟨hc', hcontinues, (List.append_nil _).symm⟩

end

end ServiceContract

end CsMail
