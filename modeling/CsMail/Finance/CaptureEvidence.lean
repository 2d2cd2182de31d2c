import CsMail.Finance.FundingProofs
import CsMail.Finance.RequestLedger

/-! One capture, two records of it.

Evidence about a capture is committed to its request and to its funding source together:
if either refuses it, neither keeps it. The request follows one automaton
(`CaptureStatus.next`), the source's attempt another (`nextState`); after every commit
they agree (`Agrees`). They do not accept the same evidence: an attempt keeps the end it
was given, while a request lets a late payment replace a failure. -/
namespace CsMail
open Library

/-- What verified evidence makes of a capture, as its request sees it. -/
def CaptureStatus.next : CaptureStatus → PaymentOutcome → Option CaptureStatus
  | status, .pending => some status
  | .fundingFinalized, .reversed | .reversed, .reversed => some .reversed
  | _, .reversed => none
  | .fundingFinalized, _ => some .fundingFinalized
  | .reversed, _ => some .reversed
  | _, .settled => some .fundingFinalized
  | _, .voided | _, .failed => some .voided

/-- The request and its source see the same: nothing yet, a payment, a reversal or none. -/
def CaptureStatus.Agrees : CaptureStatus → PaymentState → Prop
  | .pending, .pending | .cancellationRequested, .pending => True
  | .fundingFinalized, .settled _ => True
  | .voided, .failed _ | .voided, .voided _ => True
  | .reversed, .reversed _ _ => True
  | _, _ => False

/-- Evidence of another end than the one the two records have. -/
def CaptureStatus.Contradicts (status : CaptureStatus) (state : PaymentState) :
    PaymentOutcome → Prop
  | .settled => status = .voided
  | .failed => status = .fundingFinalized ∨ status = .reversed ∨ ∃ e, state = .voided e
  | .voided => status = .fundingFinalized ∨ status = .reversed ∨ ∃ e, state = .failed e
  | .pending | .reversed => False

theorem CaptureStatus.Agrees.next {status status' : CaptureStatus} {state : PaymentState}
    {e : PaymentEvidence} (h : status.Agrees state) (hnext : status.next e.outcome = some status')
    (hplain : ¬status.Contradicts state e.outcome) :
    ∃ state' change, nextState state e = .ok (state', change) ∧ status'.Agrees state' := by
  cases status <;> cases state <;> simp only [Agrees] at h <;> cases houtcome : e.outcome <;>
    simp_all [CaptureStatus.next, Contradicts, nextState] <;> subst hnext <;> simp [Agrees]

theorem CaptureStatus.Agrees.contradicted {status : CaptureStatus} {state : PaymentState}
    {e : PaymentEvidence} (h : status.Agrees state) (hother : status.Contradicts state e.outcome) :
    nextState state e = .error .invalidOperation ∧ ∃ status', status.next e.outcome = some status' := by
  cases status <;> cases state <;> simp only [Agrees] at h <;> cases houtcome : e.outcome <;>
    simp_all [CaptureStatus.next, Contradicts, nextState]

namespace RequestFinancials
variable {f : RequestFinancials} {outcome : PaymentOutcome}

/-- A request's record follows its automaton. -/
theorem recordCapture_next (hf : f.Linked) {status : CaptureStatus}
    (h : f.captureStatus.next outcome = some status) :
    ∃ f' e, f.recordCapture outcome = .ok (f', e) ∧ f'.captureStatus = status ∧
      f'.capture = f.capture ∧ f'.contract = f.contract ∧ f'.events = f.events := by
  cases hfunded : f.fundingFinalized with
  | true =>
    rcases fundingFinalized_iff.mp hfunded with hstatus | hstatus <;> cases outcome <;>
      simp only [hstatus, CaptureStatus.next, Option.some.injEq] at h <;> subst h <;>
      simp [recordCapture, fundingFinalized, captureReversed, hstatus]
  | false =>
    have hrefund : f.refund = .none := hf.unsettled_refund (.inr hfunded)
    cases outcome with
    | pending =>
      cases h
      exact ⟨f, {}, rfl, rfl, rfl, rfl, rfl⟩
    | settled =>
      have hnext : status = .fundingFinalized := by
        cases hstatus : f.captureStatus <;> simp_all [CaptureStatus.next, fundingFinalized]
      subst hnext
      simp only [recordCapture, hfunded, Bool.false_eq_true, if_false]
      split_ifs
      · rw [createRefund_of_none (f := {f with captureStatus := .fundingFinalized}) _
          f.matched.amount hrefund]
        exact ⟨_, _, rfl, rfl, rfl, rfl, rfl⟩
      · exact ⟨_, _, rfl, rfl, rfl, rfl, rfl⟩
    | voided | failed =>
      have hnext : status = .voided := by
        cases hstatus : f.captureStatus <;> simp_all [CaptureStatus.next, fundingFinalized]
      subst hnext
      simp [recordCapture, hfunded]
    | reversed =>
      cases hstatus : f.captureStatus <;> simp_all [CaptureStatus.next, fundingFinalized]

theorem recordCapture_refused (h : f.captureStatus.next outcome = none) :
    f.recordCapture outcome = .error .invalidOperation := by
  cases hstatus : f.captureStatus <;> cases outcome <;>
    simp_all [CaptureStatus.next, recordCapture, fundingFinalized]

/-- A settlement leaves the two records of a capture in agreement. -/
theorem settle_agrees {s : RequestSettlement} {now : CanonicalTime} {f' : RequestFinancials}
    {e : RequestFinancialEffects} {state : PaymentState} (hf : f.Linked)
    (h : f.settle s now = .ok (f', e)) (hagrees : f.captureStatus.Agrees state) :
    f'.captureStatus.Agrees state ∧ f'.events = f.events := by
  cases hsettled : f.settlement with
  | some previous =>
    by_cases hne : previous = s
    · subst hne
      cases (settle_again hsettled).symm.trans h
      exact ⟨hagrees, rfl⟩
    · rw [settle_conflict hsettled hne] at h
      cases h
  | none =>
    cases hfunded : f.fundingFinalized with
    | false =>
      by_cases hs : s = .cancelled
      · subst hs
        cases (settle_cancelled_unfunded hf hsettled hfunded).symm.trans h
        refine ⟨?_, rfl⟩
        -- an unsettled capture that is not funded is still open
        have hstopped := hf.stopped
        cases hstatus : f.captureStatus <;> simp_all [fundingFinalized]
        cases state <;> simp_all [CaptureStatus.Agrees]
      · rw [settle_unfunded hsettled hfunded hs] at h
        cases h
    | true =>
      cases s with
      | accepted =>
        cases (settle_accepted hf hsettled hfunded).symm.trans h
        exact ⟨hagrees, rfl⟩
      | rejected =>
        cases (settle_rejected hsettled hfunded).symm.trans h
        exact ⟨hagrees, rfl⟩
      | expired =>
        cases (settle_expired hf hsettled hfunded).symm.trans h
        exact ⟨hagrees, rfl⟩
      | cancelled =>
        cases (settle_cancelled_funded hf hsettled hfunded).symm.trans h
        exact ⟨hagrees, rfl⟩

theorem recordRefund_frame {f' : RequestFinancials} {e : RequestFinancialEffects}
    (h : f.recordRefund outcome = .ok (f', e)) :
    f'.captureStatus = f.captureStatus ∧ f'.events = f.events := by
  cases outcome with
  | settled =>
    simp only [recordRefund] at h
    cases hrefund : f.refund <;> simp only [hrefund] at h <;> cases h <;> exact ⟨rfl, rfl⟩
  | pending | failed =>
    cases h
    exact ⟨rfl, rfl⟩
  | voided | reversed => cases h

/-- Evidence about the refund leaves the capture as it is. -/
theorem recordPayment_refund [Crypto] {receipt : SignedPaymentEvidence} {f' : RequestFinancials}
    {e : RequestFinancialEffects} (hid : receipt.evidence.operationId ≠ f.capture.id)
    (h : f.recordPayment receipt = .ok (f', e)) :
    f' = f ∨ (f.events.get? receipt.evidence.eventId = none ∧
      f'.captureStatus = f.captureStatus ∧
      f'.events = f.events.insert receipt.evidence.eventId receipt.evidence) := by
  rcases recordPayment_cases h with ⟨rfl, -⟩ | ⟨next, ⟨hsame, -⟩ | ⟨-, hnext⟩, hf'⟩
  · exact .inl rfl
  · exact absurd hsame hid
  obtain ⟨hstatus, hevents⟩ := recordRefund_frame hnext
  cases hknown : f.events.get? receipt.evidence.eventId with
  | none => exact .inr ⟨rfl, by rw [hf', hstatus], by rw [hf', hevents]⟩
  | some previous =>
    simp only [recordPayment, bind_eq_ok, okOr_eq_ok, hknown] at h
    obtain ⟨o, -, ⟨⟩, -, h⟩ := h
    split_ifs at h
    cases h
    exact .inl rfl

end RequestFinancials

/-- The source with the attempt as evidence left it. -/
def FundingSource.recorded (s : FundingSource) (id : PaymentOperationId)
    (payment : PaymentExecution) : FundingSource :=
  {s with
    attempts := s.attempts.insert id payment
    restricted := s.restricted || payment.state.isAdverse}

@[simp] theorem FundingSource.get?_recorded (s : FundingSource) (id : PaymentOperationId)
    (payment : PaymentExecution) : (s.recorded id payment).attempts.get? id = some payment :=
  SortedMap.get?_insert_self _ _ _

/-! ### The two records -/

structure CaptureRecords where
  financials : RequestFinancials
  source : FundingSource

inductive CaptureInput
  | settle (settlement : RequestSettlement) (now : CanonicalTime)
  | evidence (receipt : SignedPaymentEvidence)
  /-- Other traffic at the source. -/
  | source (call : FundingCall)

namespace CaptureRecords
section
variable [Crypto]

/-- Commits evidence to the request and, if it is about the capture, to its source. -/
def commit (c : CaptureRecords) (receipt : SignedPaymentEvidence) :
    Except PaymentError CaptureRecords := do
  let (financials, _) ← c.financials.recordPayment receipt
  if receipt.evidence.operationId = financials.capture.id then
    let source ← c.source.record receipt financials.contract.providerKey
    .ok ⟨financials, source⟩
  else .ok {c with financials}

/-- Evidence about the capture comes through its request only. -/
def elsewhere (id : PaymentOperationId) : FundingCall → Bool
  | .record receipt _ => receipt.evidence.operationId ≠ id
  | _ => true

def step (c : CaptureRecords) : CaptureInput → Except PaymentError CaptureRecords
  | .settle settlement now => do
    let (financials, _) ← c.financials.settle settlement now
    .ok {c with financials}
  | .evidence receipt => c.commit receipt
  | .source call => do
    refuseIf (elsewhere c.financials.capture.id call = false) .operationMismatch
    let source ← c.source.call call
    .ok {c with source}

def run (c : CaptureRecords) (inputs : List CaptureInput) : CaptureRecords :=
  Machine.run step c inputs

/-- Evidence the request accepts is accepted by its source, and the two then agree. -/
def Faithful (c : CaptureRecords) (receipt : SignedPaymentEvidence) : Prop :=
  ∀ financials effects, c.financials.recordPayment receipt = .ok (financials, effects) →
    ∃ source p, c.source.record receipt c.financials.contract.providerKey = .ok source ∧
      source.attempts.get? c.financials.capture.id = some p ∧
      financials.captureStatus.Agrees p.state

/-- New, verified evidence of another end than the one recorded. -/
def Contradicted (c : CaptureRecords) (receipt : SignedPaymentEvidence) : Prop :=
  receipt.verify c.financials.contract.providerKey c.financials.capture = .ok () ∧
    c.financials.events.get? receipt.evidence.eventId = none ∧
    ∃ p, c.source.attempts.get? c.financials.capture.id = some p ∧
      c.financials.captureStatus.Contradicts p.state receipt.evidence.outcome

/-- The two records of one dispatched capture. -/
structure Shared (capture : PaymentOperation) (contract : RequestFinancialContract)
    (c : CaptureRecords) (p : PaymentExecution) : Prop where
  ofCapture : c.financials.capture = capture
  ofContract : c.financials.contract = contract
  linked : c.financials.Linked
  dispatched : capture.id ∈ c.source.dispatched
  attempt : c.source.attempts.get? capture.id = some p
  single : p.attempts = [⟨capture, p.state⟩]
  events : ∀ i e, p.events.get? i = some e ↔
    c.financials.events.get? i = some e ∧ e.operationId = capture.id
  agrees : c.financials.captureStatus.Agrees p.state

variable {capture : PaymentOperation} {contract : RequestFinancialContract}
  {c c' : CaptureRecords} {p : PaymentExecution} {receipt : SignedPaymentEvidence}

theorem Shared.record (h : Shared capture contract c p)
    (hid : receipt.evidence.operationId = capture.id) {key : Bytes32} :
    c.source.record receipt key = (do
      let (payment, _) ← p.record receipt key
      .ok (c.source.recorded capture.id payment)) := by
  simp only [FundingSource.record, hid, h.dispatched, not_true_eq_false, false_and, refuseIf, if_false,
    ok_bind, h.attempt, okOr]
  rfl

/-- Evidence about the capture is weighed the same way by both records, up to what it
says of the capture. -/
theorem Shared.recordPayment (h : Shared capture contract c p)
    (hid : receipt.evidence.operationId = capture.id) :
    c.financials.recordPayment receipt = (do
      receipt.verify contract.providerKey capture
      match c.financials.events.get? receipt.evidence.eventId with
      | some previous =>
        if previous = receipt.evidence then .ok (c.financials, {}) else .error .duplicateConflict
      | none => do
        let (next, effects) ← c.financials.recordCapture receipt.evidence.outcome
        .ok ({next with
          events := next.events.insert receipt.evidence.eventId receipt.evidence}, effects)) := by
  have hoperation : c.financials.operation receipt.evidence.operationId = some capture := by
    simp [RequestFinancials.operation, h.ofCapture, hid]
  simp only [RequestFinancials.recordPayment, hoperation, okOr, ok_bind, h.ofContract, h.ofCapture, if_true] <;>
    rfl

theorem Shared.execution (h : Shared capture contract c p)
    (hid : receipt.evidence.operationId = capture.id) {key : Bytes32} :
    p.record receipt key = (do
      receipt.verify key capture
      match p.events.get? receipt.evidence.eventId with
      | some old => if old = receipt.evidence then .ok (p, .none) else .error .duplicateConflict
      | none => do
        let (state, change) ← nextState p.state receipt.evidence
        .ok (⟨[⟨capture, state⟩], p.events.insert receipt.evidence.eventId receipt.evidence, by simp⟩,
          change)) := by
  unfold PaymentExecution.record
  rw [h.single, List.span_eq_takeWhile_dropWhile]
  simp only [hid, ne_eq, not_true_eq_false, decide_false, Bool.false_eq_true, not_false_eq_true,
    List.takeWhile_cons_of_neg, List.dropWhile_cons_of_neg, List.nil_append, false_and, refuseIf,
    if_false, ok_bind] <;> rfl

/-- The pair after a commit of evidence about the capture: nothing new, or both a state on. -/
theorem Shared.accepted (h : Shared capture contract c p)
    (hid : receipt.evidence.operationId = capture.id) {financials : RequestFinancials}
    {effects : RequestFinancialEffects}
    (hok : c.financials.recordPayment receipt = .ok (financials, effects)) :
    receipt.verify contract.providerKey capture = .ok () ∧
    ((financials = c.financials ∧ p.events.get? receipt.evidence.eventId = some receipt.evidence) ∨
      (c.financials.events.get? receipt.evidence.eventId = none ∧
        p.events.get? receipt.evidence.eventId = none ∧
        c.financials.captureStatus.next receipt.evidence.outcome = some financials.captureStatus ∧
        financials.capture = capture ∧ financials.contract = contract ∧
        financials.events =
          c.financials.events.insert receipt.evidence.eventId receipt.evidence)) := by
  rw [h.recordPayment hid] at hok
  obtain ⟨⟨⟩, hverify, hok⟩ := bind_eq_ok.mp hok
  refine ⟨hverify, ?_⟩
  cases hknown : c.financials.events.get? receipt.evidence.eventId with
  | some previous =>
    simp only [hknown] at hok
    split_ifs at hok with heq
    cases hok
    exact .inl ⟨rfl, (h.events _ _).mpr ⟨heq ▸ hknown, hid⟩⟩
  | none =>
    simp only [hknown] at hok
    obtain ⟨⟨next, e⟩, hnext, hok⟩ := bind_eq_ok.mp hok
    cases hok
    have hunknown : p.events.get? receipt.evidence.eventId = none :=
      Option.eq_none_iff_forall_not_mem.mpr fun e he => by
        simp [((h.events _ _).mp he).1] at hknown
    refine .inr ⟨rfl, hunknown, ?_⟩
    cases hstatus : c.financials.captureStatus.next receipt.evidence.outcome with
    | none =>
      rw [RequestFinancials.recordCapture_refused hstatus] at hnext
      cases hnext
    | some status =>
      obtain ⟨f', e', hrecord, hf', hcapture, hcontract, hevents⟩ :=
        RequestFinancials.recordCapture_next h.linked hstatus
      cases hrecord.symm.trans hnext
      exact ⟨congrArg some hf'.symm, hcapture.trans h.ofCapture, hcontract.trans h.ofContract,
        by rw [← hevents]⟩

/-- **Where the two records part.** Evidence the request accepts is accepted by the source
exactly when it does not contradict what both have recorded. -/
theorem Shared.faithful (h : Shared capture contract c p)
    (hid : receipt.evidence.operationId = capture.id) : c.Faithful receipt ↔ ¬c.Contradicted receipt := by
  constructor
  · rintro hfaithful ⟨hverify, hnew, q, hq, hother⟩
    rw [h.ofCapture] at hq hverify
    rw [h.ofContract] at hverify
    obtain rfl := Option.some.inj (h.attempt.symm.trans hq)
    obtain ⟨hrefused, status, hstatus⟩ := h.agrees.contradicted hother
    obtain ⟨f', e', hrecord, -⟩ := RequestFinancials.recordCapture_next h.linked hstatus
    have hunknown : p.events.get? receipt.evidence.eventId = none :=
      Option.eq_none_iff_forall_not_mem.mpr fun e he => by
        simp [((h.events _ _).mp he).1] at hnew
    obtain ⟨source, q, hsource, -⟩ := hfaithful _ _ (by
      rw [h.recordPayment hid, hverify]
      simp only [ok_bind, hnew, hrecord]
      rfl)
    rw [h.ofContract, h.record hid, h.execution hid, hverify] at hsource
    simp only [ok_bind, hunknown, hrefused, error_bind, reduceCtorEq] at hsource
  · intro hplain financials effects hok
    obtain ⟨hverify, ⟨rfl, hknown⟩ | ⟨hnew, hunknown, hstatus, -⟩⟩ := h.accepted hid hok
    · refine ⟨c.source.recorded capture.id p, p, ?_, by simp [h.ofCapture], h.agrees⟩
      rw [h.ofContract, h.record hid, h.execution hid, hverify]
      simp only [ok_bind, hknown, if_true]
    · obtain ⟨state, change, hnext, hagrees⟩ := h.agrees.next hstatus fun hother => hplain
        ⟨by rw [h.ofContract, h.ofCapture]; exact hverify, hnew, p, by rw [h.ofCapture, h.attempt], hother⟩
      let p' : PaymentExecution := ⟨[⟨capture, state⟩],
        p.events.insert receipt.evidence.eventId receipt.evidence, by simp⟩
      refine ⟨c.source.recorded capture.id p', p', ?_, by simp [h.ofCapture], hagrees⟩
      rw [h.ofContract, h.record hid, h.execution hid, hverify]
      simp only [ok_bind, hunknown, hnext, p']

/-! ### Whole runs -/

theorem Shared.settle (h : Shared capture contract c p) {s : RequestSettlement} {now : CanonicalTime}
    (hstep : c.step (.settle s now) = .ok c') : Shared capture contract c' p := by
  obtain ⟨⟨f', e⟩, hsettle, hstep⟩ := bind_eq_ok.mp hstep
  cases hstep
  obtain ⟨hagrees, hevents⟩ := RequestFinancials.settle_agrees h.linked hsettle h.agrees
  have hf := RequestFinancials.settle_step h.linked hsettle
  exact ⟨hf.capture.trans h.ofCapture, hf.contract.trans h.ofContract, hf.linked, h.dispatched,
    h.attempt, h.single, fun i e => by rw [h.events, hevents], hagrees⟩

theorem Shared.evidence (h : Shared capture contract c p) (hstep : c.step (.evidence receipt) = .ok c') :
    ∃ p', Shared capture contract c' p' := by
  obtain ⟨⟨f', e⟩, hrecord, hstep⟩ := bind_eq_ok.mp hstep
  have hf := RequestFinancials.recordPayment_step h.linked hrecord
  have hcapture : f'.capture = capture := hf.capture.trans h.ofCapture
  have hcontract : f'.contract = contract := hf.contract.trans h.ofContract
  by_cases hid : receipt.evidence.operationId = capture.id
  · simp only [hcapture, hid, if_true, hcontract] at hstep
    obtain ⟨source, hsource, hstep⟩ := bind_eq_ok.mp hstep
    cases hstep
    rw [h.record hid, h.execution hid] at hsource
    obtain ⟨-, ⟨rfl, hknown⟩ | ⟨hnew, hunknown, hstatus, -, -, hevents⟩⟩ := h.accepted hid hrecord
    · simp only [hknown, if_true, bind_eq_ok, Except.ok.injEq] at hsource
      obtain ⟨⟨p', change⟩, ⟨⟨⟩, -, hp'⟩, rfl⟩ := hsource
      cases hp'
      exact ⟨p, hcapture, hcontract, h.linked, h.dispatched, FundingSource.get?_recorded .., h.single,
        h.events, h.agrees⟩
    · simp only [hunknown, bind_eq_ok, Except.ok.injEq] at hsource
      obtain ⟨⟨p', change⟩, ⟨⟨⟩, -, ⟨state, change'⟩, hnext, hp'⟩, rfl⟩ := hsource
      cases hp'
      -- the source accepted it, so it cannot contradict what is recorded
      obtain ⟨state', change', hnext', hagrees⟩ := h.agrees.next hstatus fun hother => by
        have := (h.agrees.contradicted hother).1
        simp [this] at hnext
      cases hnext.symm.trans hnext'
      refine ⟨_, hcapture, hcontract, hf.linked, h.dispatched, FundingSource.get?_recorded .., rfl,
        fun i e => ?_, hagrees⟩
      rw [hevents, SortedMap.get?_insert, SortedMap.get?_insert]
      split_ifs
      · constructor
        · rintro ⟨⟩
          exact ⟨rfl, hid⟩
        · exact fun he => he.1
      · exact h.events i e
  · simp only [hcapture, hid, if_false] at hstep
    cases hstep
    rcases RequestFinancials.recordPayment_refund (h.ofCapture ▸ hid) hrecord with
      rfl | ⟨hnew, hstatus, hevents⟩
    · exact ⟨p, h⟩
    · refine ⟨p, hcapture, hcontract, hf.linked, h.dispatched, h.attempt, h.single, fun i e => ?_,
        hstatus ▸ h.agrees⟩
      rw [h.events, hevents, SortedMap.get?_insert]
      split_ifs with heq
      · simp only [heq, hnew, reduceCtorEq, false_and, Option.some.injEq, false_iff, not_and]
        rintro rfl
        exact hid
      · rfl

omit [Crypto] in
theorem Shared.kept (h : Shared capture contract c p) {source : FundingSource}
    (hdispatched : c.source.dispatched ⊆ source.dispatched)
    (hattempt : source.attempts.get? capture.id = c.source.attempts.get? capture.id) :
    Shared capture contract {c with source} p :=
  ⟨h.ofCapture, h.ofContract, h.linked, hdispatched h.dispatched, hattempt.trans h.attempt, h.single,
    h.events, h.agrees⟩

theorem Shared.other (h : Shared capture contract c p) {call : FundingCall}
    (hstep : c.step (.source call) = .ok c') : Shared capture contract c' p := by
  obtain ⟨⟨⟩, helsewhere, hstep⟩ := bind_eq_ok.mp hstep
  obtain ⟨source, hcall, hstep⟩ := bind_eq_ok.mp hstep
  cases hstep
  refine h.kept (FundingSource.controlled hcall).kept ?_
  rw [h.ofCapture] at helsewhere
  cases call with
  | reserve o =>
    rcases FundingSource.reserve_eq_ok hcall with rfl | ⟨hnew, -, -, -, -, q, -, rfl⟩
    · rfl
    · have hne : capture.id ≠ o.id := fun heq => by
        rw [← heq, h.attempt] at hnew
        cases hnew
      exact SortedMap.get?_insert_ne _ _ hne
  | authorizeDispatch id =>
    rcases FundingSource.authorizeDispatch_eq_ok hcall with ⟨-, rfl⟩ | ⟨-, -, -, rfl⟩ <;> rfl
  | record receipt key =>
    obtain ⟨q, q', change, -, -, rfl⟩ := FundingSource.record_eq_ok hcall
    have hne : capture.id ≠ receipt.evidence.operationId := fun heq => by
      simp [elsewhere, heq] at helsewhere
    exact SortedMap.get?_insert_ne _ _ hne
  | reverify bank =>
    obtain ⟨version, -, -, -, rfl⟩ := FundingSource.reverify_eq_ok hcall
    rfl

/-- The two records of a dispatched capture agree after every run. -/
theorem run_shared (h : ∃ p, Shared capture contract c p) (inputs : List CaptureInput) :
    ∃ p, Shared capture contract (c.run inputs) p :=
  Machine.run_preserves (P := fun c => ∃ p, Shared capture contract c p)
    (fun c i c' ⟨p, hp⟩ hi => by
      cases i with
      | settle s now => exact ⟨p, hp.settle hi⟩
      | evidence receipt => exact hp.evidence hi
      | source call => exact ⟨p, hp.other hi⟩) h inputs

/-- **Capture evidence is kept twice or not at all.** A new request and a source that has
dispatched its capture: after any settlements, evidence and other traffic at the source the
two records agree, and evidence about the capture that the request accepts is accepted by
the source, with agreement afterwards, exactly when it does not contradict them. -/
theorem capture_evidence_accepted {f : RequestFinancials} {s : FundingSource}
    (hf : RequestFinancials.new capture contract = .ok f)
    (hp : PaymentExecution.new capture = .ok p) (hattempt : s.attempts.get? capture.id = some p)
    (hdispatched : capture.id ∈ s.dispatched) (inputs : List CaptureInput) :
    let c := run ⟨f, s⟩ inputs
    (∃ p, c.source.attempts.get? capture.id = some p ∧ c.financials.captureStatus.Agrees p.state) ∧
      ∀ receipt, receipt.evidence.operationId = capture.id →
        (c.Faithful receipt ↔ ¬c.Contradicted receipt) := by
  obtain ⟨hcapture, hcontract, hstatus, hsettlement, hrefund, hevents⟩ :=
    RequestFinancials.new_eq_ok hf
  obtain ⟨-, hattempts, hpevents⟩ := PaymentExecution.new_eq_ok hp
  have hstate : p.state = .pending := by
    rw [PaymentExecution.state, PaymentExecution.current_of_single hattempts]
  have hstart : Shared capture contract ⟨f, s⟩ p :=
    ⟨hcapture, hcontract, .unsettled hstatus hsettlement hrefund, hdispatched, hattempt,
      by rw [hattempts, hstate], by simp [hevents, hpevents], by simp [hstatus, hstate, CaptureStatus.Agrees]⟩
  obtain ⟨q, hq⟩ := run_shared ⟨p, hstart⟩ inputs
  exact ⟨⟨q, hq.attempt, hq.agrees⟩, fun receipt hid => hq.faithful hid⟩

end
/-! ### A payment that settles after it had failed -/

namespace Example
open RequestBooks

def failed : SignedPaymentEvidence where
  evidence := ⟨⟨1⟩, exampleCapture.id, exampleDigest, .failed⟩
  signature :=
    [219, 28, 151, 201, 79, 183, 150, 12, 65, 187, 117, 235, 228, 136, 62, 255, 109, 251, 40, 77,
     34, 82, 36, 225, 224, 133, 17, 29, 204, 13, 116, 243, 87, 191, 219, 43, 128, 54, 1, 4, 60,
     169, 206, 93, 191, 9, 13, 8, 107, 43, 162, 233, 222, 13, 116, 182, 41, 119, 12, 251, 205, 159,
     79, 11]

def settled : SignedPaymentEvidence where
  evidence := ⟨⟨2⟩, exampleCapture.id, exampleDigest, .settled⟩
  signature :=
    [66, 53, 130, 178, 108, 196, 33, 113, 121, 35, 214, 84, 71, 236, 182, 51, 189, 215, 196, 50, 8,
     89, 246, 46, 18, 21, 145, 188, 215, 138, 190, 159, 10, 107, 243, 210, 222, 52, 51, 192, 116,
     97, 56, 148, 125, 42, 92, 171, 124, 159, 135, 30, 47, 104, 239, 97, 19, 228, 67, 126, 218,
     234, 170, 8]

/-- The hash and the two signatures of the example, and no others. -/
@[reducible] def crypto : Crypto where
  sha256 bytes := if bytes = exampleCapture.digestBytes then exampleDigest else zero32
  validKey key := key = exampleKey
  verifyStrict key message signature := key = exampleKey ∧
    ((message = failed.evidence.signingBytes ∧ signature = failed.signature) ∨
      (message = settled.evidence.signingBytes ∧ signature = settled.signature))

def execution : PaymentExecution := ⟨[⟨exampleCapture, .pending⟩], ∅, by simp⟩

/-- The capture reserved and dispatched at a verified bank account. -/
def source : FundingSource where
  token := exampleCapture.destination
  evidence := .bankVerification 1
  restricted := false
  maximumUnresolved := 2
  attempts := (∅ : SortedMap _ _).insert exampleCapture.id execution
  dispatched := {exampleCapture.id}

/-- Both records after the failure. -/
def afterFailure : CaptureRecords := @run crypto ⟨exampleRecord, source⟩ [.evidence failed]

end Example

/-- The source refuses the late payment that the request accepts. -/
theorem capture_evidence_refused : ¬∀ (C : Crypto) (capture : PaymentOperation)
    (contract : RequestFinancialContract) (f : RequestFinancials) (s : FundingSource)
    (p : PaymentExecution), RequestFinancials.new capture contract = .ok f →
    PaymentExecution.new capture = .ok p → s.attempts.get? capture.id = some p →
    capture.id ∈ s.dispatched → ∀ (inputs : List CaptureInput) (receipt : SignedPaymentEvidence),
    receipt.evidence.operationId = capture.id → (@run C ⟨f, s⟩ inputs).Faithful receipt := by
  intro h
  have hfaithful : @Faithful Example.crypto Example.afterFailure Example.settled :=
    h Example.crypto RequestBooks.exampleCapture RequestBooks.exampleContract
      RequestBooks.exampleRecord Example.source Example.execution rfl rfl (by decide) (by decide)
      [.evidence Example.failed] Example.settled rfl
  have haccepted : (@RequestFinancials.recordPayment Example.crypto
      Example.afterFailure.financials Example.settled).isOk = true := by decide +kernel
  have hrefused : (@FundingSource.record Example.crypto Example.afterFailure.source Example.settled
      Example.afterFailure.financials.contract.providerKey).isOk = false := by decide +kernel
  cases hok : @RequestFinancials.recordPayment Example.crypto Example.afterFailure.financials
      Example.settled with
  | error e =>
    rw [hok] at haccepted
    cases haccepted
  | ok result =>
    obtain ⟨source, p, hsource, -⟩ := hfaithful result.1 result.2 hok
    rw [hsource] at hrefused
    cases hrefused

/-- The failure itself is accepted by both, and leaves them in agreement. -/
theorem capture_evidence_accepted_failure :
    @Faithful Example.crypto ⟨RequestBooks.exampleRecord, Example.source⟩ Example.failed := by
  refine ((@capture_evidence_accepted Example.crypto RequestBooks.exampleCapture
    RequestBooks.exampleContract Example.execution RequestBooks.exampleRecord Example.source rfl rfl
    (by decide) (by decide) []).2 Example.failed rfl).mpr ?_
  rintro ⟨-, -, p, hp, hother⟩
  have hstate : (Example.source.attempts.get? RequestBooks.exampleCapture.id).map
      PaymentExecution.state = some .pending := by decide
  rw [show Example.source.attempts.get? RequestBooks.exampleCapture.id = some p from hp] at hstate
  simp only [Option.map_some, Option.some.injEq] at hstate
  rcases hother with h | h | ⟨e, h⟩
  · cases h
  · cases h
  · cases hstate.symm.trans h

end CaptureRecords
end CsMail
