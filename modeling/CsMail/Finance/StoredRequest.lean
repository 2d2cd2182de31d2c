import CsMail.Finance.ExecutionProofs
import CsMail.Finance.RequestLedger

/-! The stored form of a request's money, and reading it back.

A record that was made by its own calls carries the evidence its state rests on
(`Recorded`), and is read back as it was stored. What is read back is checked against the
evidence and against the refund it carries, but not for carrying one: the charge is
conserved exactly if a refund that the settlement owes is there. -/
namespace CsMail
open Library

structure StoredRequestFinancials where
  capture : PaymentOperation
  captureStatus : CaptureStatus
  refund : RefundStatus
  events : SortedMap FinancialEventId PaymentEvidence
  contract : RequestFinancialContract
  settlement : Option RequestSettlement
  deriving DecidableEq

def RefundStatus.isConfirmed : RefundStatus → Bool
  | .confirmed _ => true
  | _ => false

namespace RequestFinancials

def toStored (f : RequestFinancials) : StoredRequestFinancials :=
  ⟨f.capture, f.captureStatus, f.refund, f.events, f.contract, f.settlement⟩

/-- There is evidence of this outcome of the operation. -/
def has (f : RequestFinancials) (id : PaymentOperationId) (outcome : PaymentOutcome) : Bool :=
  f.events.values.any fun e => e.operationId = id ∧ e.outcome = outcome

def checkEvent [Crypto] (f : RequestFinancials) (e : FinancialEventId × PaymentEvidence) :
    Except PaymentError Unit := do
  let operation ← okOr (f.operation e.2.operationId) .operationMismatch
  refuseIf (e.1 ≠ e.2.eventId ∨ operation.digest ≠ e.2.operationDigest) .operationMismatch

def stateValid (f : RequestFinancials) : Bool :=
  match f.captureStatus with
  | .pending => f.settlement.isNone
  | .cancellationRequested => f.settlement = some .cancelled
  | .fundingFinalized => f.has f.capture.id .settled
  | .voided => f.settlement = some .cancelled ∧
      (f.has f.capture.id .voided = true ∨ f.has f.capture.id .failed = true)
  | .reversed => f.has f.capture.id .settled && f.has f.capture.id .reversed

/-- The amount of the refund after this settlement, if there may be one. -/
def expectedRefund (f : RequestFinancials) : Except PaymentError Money :=
  match f.settlement with
  | some .accepted | some .cancelled => .ok f.capture.amount
  | some .expired => .ok f.contract.collateral
  | some .rejected | none => .error .invalidOperation

def checkRefund (f : RequestFinancials) : Except PaymentError Unit :=
  match f.refund.operation with
  | none => .ok ()
  | some refund => do
    let expected ← f.expectedRefund
    refuseIf (f.fundingFinalized = false ∨ refund.id ≠ f.contract.refundId ∨ refund.kind ≠ .refund f.capture.id ∨
      refund.amount ≠ expected ∨ refund.scope ≠ f.capture.scope ∨ refund.unit ≠ f.capture.unit ∨
      refund.destination ≠ f.capture.destination) .invalidOperation
    refuseIf (f.refund.isConfirmed = true ∧ f.has refund.id .settled = false) .invalidOperation

/-- Reads a record back. -/
def tryFrom [Crypto] (v : StoredRequestFinancials) : Except PaymentError RequestFinancials := do
  let fresh ← new v.capture v.contract
  let result := {fresh with
    captureStatus := v.captureStatus, refund := v.refund, events := v.events, settlement := v.settlement}
  result.events.entries.forM result.checkEvent
  refuseIf (result.stateValid = false) .invalidOperation
  result.checkRefund
  .ok result

/-! ### What reading back asks for -/

section
variable [Crypto] {f : RequestFinancials}

omit [Crypto] in
theorem has_iff {id : PaymentOperationId} {outcome : PaymentOutcome} : f.has id outcome = true ↔
    ∃ k e, f.events.get? k = some e ∧ e.operationId = id ∧ e.outcome = outcome := by
  simp only [has, List.any_eq_true, SortedMap.mem_values, decide_eq_true_eq]
  constructor
  · rintro ⟨e, ⟨k, hk⟩, he⟩
    exact ⟨k, e, hk, he⟩
  · rintro ⟨k, e, hk, he⟩
    exact ⟨e, ⟨k, hk⟩, he⟩

omit [Crypto] in
theorem new_self (f : RequestFinancials) : new f.capture f.contract = .ok {f with
    captureStatus := .pending, refund := .none, events := ∅, settlement := none} := by
  have hm := f.matched
  unfold new
  split
  · next e herror => exact absurd (hm.operation.symm.trans herror) (by simp)
  · rw [dif_neg]
    simp only [not_or, ne_eq, not_not, Bool.not_eq_true]
    exact ⟨hm.terms, hm.kind, hm.amount, hm.scope, hm.charge, hm.refundId, hm.providerKey⟩

/-- What is read back is what was stored, checked. -/
theorem tryFrom_eq_ok {v : StoredRequestFinancials} : tryFrom v = .ok f ↔ f.toStored = v ∧
    (∀ id e, f.events.get? id = some e → f.checkEvent (id, e) = .ok ()) ∧ f.stateValid = true ∧
    f.checkRefund = .ok () := by
  simp only [tryFrom, bind_eq_ok, refuseIf_eq_ok, Bool.not_eq_false, Except.ok.injEq, exists_const]
  constructor
  · rintro ⟨fresh, hnew, ⟨⟩, hevents, hstate, ⟨⟩, hrefund, rfl⟩
    obtain ⟨hcapture, hcontract, -⟩ := new_eq_ok hnew
    refine ⟨?_, fun id e he => forM_eq_ok.mp hevents (id, e) (SortedMap.mem_entries.mpr he), hstate, hrefund⟩
    show (⟨fresh.capture, v.captureStatus, v.refund, v.events, fresh.contract, v.settlement⟩ :
      StoredRequestFinancials) = v
    rw [hcapture, hcontract]
  · rintro ⟨rfl, hevents, hstate, hrefund⟩
    refine ⟨_, new_self f, ⟨⟩, forM_eq_ok.mpr fun e he => hevents e.1 e.2 (SortedMap.mem_entries.mp he), hstate,
      ⟨⟩, hrefund, rfl⟩

omit [Crypto] in
theorem checkRefund_eq_ok {refund : PaymentOperation} (h : f.refund.operation = some refund) :
    f.checkRefund = .ok () ↔ ∃ expected, f.expectedRefund = .ok expected ∧ f.fundingFinalized = true ∧
      refund = f.refundOperation expected ∧
      (f.refund.isConfirmed = true → f.has refund.id .settled = true) := by
  simp only [checkRefund, h, bind_eq_ok, refuseIf_eq_ok, exists_const, not_or, not_and, Bool.not_eq_false, ne_eq,
    not_not]
  refine exists_congr fun expected => and_congr_right fun _ => ?_
  constructor
  · rintro ⟨⟨hfunded, hid, hkind, hamount, hscope, hunit, hdestination⟩, hconfirmed⟩
    refine ⟨hfunded, ?_, hconfirmed⟩
    cases refund
    simp only [refundOperation, PaymentOperation.mk.injEq]
    exact ⟨hscope, hid, hkind, hamount, hunit, hdestination⟩
  · rintro ⟨hfunded, rfl, hconfirmed⟩
    exact ⟨⟨hfunded, rfl, rfl, rfl, rfl, rfl, rfl⟩, hconfirmed⟩

/-! ### What calls keep -/

/-- The evidence behind a record. -/
structure Recorded (f : RequestFinancials) : Prop where
  linked : f.Linked
  events : ∀ id e, f.events.get? id = some e →
    id = e.eventId ∧ ∃ o, f.operation e.operationId = some o ∧ o.digest = e.operationDigest
  funded : f.fundingFinalized = true → f.has f.capture.id .settled = true
  voided : f.captureStatus = .voided → f.has f.capture.id .voided = true ∨ f.has f.capture.id .failed = true
  reversed : f.captureStatus = .reversed → f.has f.capture.id .reversed = true
  confirmed : ∀ o, f.refund = .confirmed o → f.has o.id .settled = true

/-- Evidence that supports the record lets it be read back. -/
theorem Recorded.tryFrom (hf : f.Recorded) : tryFrom f.toStored = .ok f := by
  refine tryFrom_eq_ok.mpr ⟨rfl, fun id e he => ?_, ?_, ?_⟩
  · obtain ⟨hid, o, ho, hdigest⟩ := hf.events id e he
    simp only [checkEvent, bind_eq_ok, okOr_eq_ok, refuseIf_eq_ok, not_or, ne_eq, not_not]
    exact ⟨o, ho, hid, hdigest⟩
  · have hpending := hf.linked.pending
    have hstopped := hf.linked.stopped
    have hfunded := hf.funded
    have hvoided := hf.voided
    have hreversed := hf.reversed
    unfold stateValid
    cases hstatus : f.captureStatus <;> simp_all [fundingFinalized]
  · cases hrefund : f.refund.operation with
    | none => rw [checkRefund, hrefund]
    | some refund =>
      have howed := hf.linked.refund
      rw [hrefund, owedRefund] at howed
      refine (checkRefund_eq_ok hrefund).mpr ?_
      have hconfirmed : f.refund.isConfirmed = true → f.has refund.id .settled = true := by
        intro hconfirmed
        cases hcase : f.refund with
        | confirmed o =>
          rw [hcase] at hrefund
          cases hrefund
          exact hf.confirmed _ hcase
        | _ =>
          rw [hcase] at hconfirmed
          cases hconfirmed
      cases hs : f.settlement with
      | none => simp [hs] at howed
      | some s =>
        cases s <;> simp only [hs, reduceCtorEq] at howed
        case accepted | cancelled =>
          split_ifs at howed with hfunded
          exact ⟨f.capture.amount, by rw [expectedRefund, hs], hfunded, Option.some.inj howed, hconfirmed⟩
        case expired =>
          split_ifs at howed
          exact ⟨f.contract.collateral, by rw [expectedRefund, hs], hf.linked.funded hs (by simp),
            Option.some.inj howed, hconfirmed⟩

theorem new_recorded {capture : PaymentOperation} {contract : RequestFinancialContract}
    (h : new capture contract = .ok f) : f.Recorded := by
  obtain ⟨-, -, hstatus, hsettlement, hrefund, hevents⟩ := new_eq_ok h
  refine ⟨.unsettled hstatus hsettlement hrefund, fun id e he => ?_, fun hfunded => ?_, fun hvoided => ?_,
    fun hreversed => ?_, fun o ho => ?_⟩
  · rw [hevents] at he
    cases he
  · rw [fundingFinalized, hstatus] at hfunded
    cases hfunded
  · rw [hstatus] at hvoided
    cases hvoided
  · rw [hstatus] at hreversed
    cases hreversed
  · rw [hrefund] at ho
    cases ho

/-- What a step may do to the fields that evidence supports. -/
structure Follows (f f' : RequestFinancials) : Prop where
  capture : f'.capture = f.capture
  contract : f'.contract = f.contract
  events : f'.events = f.events
  refund : f'.refund = f.refund ∨ (f.refund = .none ∧ f'.refund.isConfirmed = false) ∨
    ∃ o, f.refund = .pending o ∧ f'.refund = .confirmed o

omit [Crypto] in
/-- An operation once known stays known. -/
theorem Follows.operation {f' : RequestFinancials} (h : f.Follows f') {id : PaymentOperationId} {o : PaymentOperation}
    (ho : f.operation id = some o) : f'.operation id = some o := by
  unfold RequestFinancials.operation at ho ⊢
  rw [h.capture]
  split_ifs at ho ⊢ with hid
  · exact ho
  · rcases h.refund with hsame | ⟨hnone, -⟩ | ⟨p, hpending, hconfirmed⟩
    · rw [hsame]
      exact ho
    · rw [hnone] at ho
      cases ho
    · rw [hpending] at ho
      rw [hconfirmed]
      exact ho

omit [Crypto] in
theorem createRefund_follows {f' : RequestFinancials} {amount : Money} {effects e : RequestFinancialEffects}
    (h : f.createRefund amount effects = .ok (f', e)) :
    f.Follows f' ∧ f'.refund.isConfirmed = f.refund.isConfirmed := by
  unfold createRefund at h
  split_ifs at h with hzero
  · cases h
    exact ⟨⟨rfl, rfl, rfl, .inl rfl⟩, rfl⟩
  · dsimp only at h
    cases hrefund : f.refund with
    | none =>
      simp only [hrefund, RefundStatus.operation] at h
      cases h
      exact ⟨⟨rfl, rfl, rfl, .inr (.inl ⟨hrefund, rfl⟩)⟩, rfl⟩
    | _ =>
      simp only [hrefund, RefundStatus.operation] at h
      split_ifs at h
      cases h
      exact ⟨⟨rfl, rfl, rfl, .inl rfl⟩, congrArg RefundStatus.isConfirmed hrefund⟩

omit [Crypto] in
/-- A settlement needs no evidence: it makes no funding and no void of the capture. -/
theorem settle_follows {f' : RequestFinancials} {s : RequestSettlement} {now : CanonicalTime}
    {e : RequestFinancialEffects} (h : f.settle s now = .ok (f', e)) :
    f.Follows f' ∧ f'.refund.isConfirmed = f.refund.isConfirmed ∧
      (f'.captureStatus = f.captureStatus ∨ f'.captureStatus = .cancellationRequested) := by
  have hcreate : ∀ {amount effects}, ({f with settlement := some s} : RequestFinancials).createRefund amount effects =
      .ok (f', e) → f.Follows f' ∧ f'.refund.isConfirmed = f.refund.isConfirmed ∧
        (f'.captureStatus = f.captureStatus ∨ f'.captureStatus = .cancellationRequested) := by
    intro amount effects hcreated
    obtain ⟨⟨hcapture, hcontract, hevents, hrefund⟩, hconfirmed⟩ := createRefund_follows hcreated
    exact ⟨⟨hcapture, hcontract, hevents, hrefund⟩, hconfirmed, .inl (createRefund_frame hcreated).2.1⟩
  cases hsettled : f.settlement with
  | some previous =>
    simp only [settle, hsettled] at h
    split_ifs at h
    cases h
    exact ⟨⟨rfl, rfl, rfl, .inl rfl⟩, rfl, .inl rfl⟩
  | none =>
    cases s <;> simp only [settle, hsettled] at h
    case accepted | expired =>
      split_ifs at h
      exact hcreate h
    case rejected => split_ifs at h <;> cases h <;> exact ⟨⟨rfl, rfl, rfl, .inl rfl⟩, rfl, .inl rfl⟩
    case cancelled =>
      split_ifs at h
      · exact hcreate h
      · cases h
        exact ⟨⟨rfl, rfl, rfl, .inl rfl⟩, rfl, .inl rfl⟩
      · cases h
        exact ⟨⟨rfl, rfl, rfl, .inl rfl⟩, rfl, .inr rfl⟩

omit [Crypto] in
/-- The capture goes where its evidence says, or stays. -/
theorem recordCapture_follows {f' : RequestFinancials} {outcome : PaymentOutcome} {e : RequestFinancialEffects}
    (h : f.recordCapture outcome = .ok (f', e)) :
    f.Follows f' ∧ f'.refund.isConfirmed = f.refund.isConfirmed ∧ (f'.captureStatus = f.captureStatus ∨
      (outcome = .settled ∧ f'.captureStatus = .fundingFinalized) ∨
      ((outcome = .voided ∨ outcome = .failed) ∧ f'.captureStatus = .voided) ∨
      (outcome = .reversed ∧ f.fundingFinalized = true ∧ f'.captureStatus = .reversed)) := by
  cases outcome with
  | pending =>
    cases h
    exact ⟨⟨rfl, rfl, rfl, .inl rfl⟩, rfl, .inl rfl⟩
  | settled =>
    simp only [recordCapture] at h
    split_ifs at h with hfunded hcancelled
    · cases h
      exact ⟨⟨rfl, rfl, rfl, .inl rfl⟩, rfl, .inl rfl⟩
    · obtain ⟨⟨hcapture, hcontract, hevents, hrefund⟩, hconfirmed⟩ := createRefund_follows h
      exact ⟨⟨hcapture, hcontract, hevents, hrefund⟩, hconfirmed, .inr (.inl ⟨rfl, (createRefund_frame h).2.1⟩)⟩
    · cases h
      exact ⟨⟨rfl, rfl, rfl, .inl rfl⟩, rfl, .inr (.inl ⟨rfl, rfl⟩)⟩
  | reversed =>
    simp only [recordCapture] at h
    by_cases hfunded : f.fundingFinalized = false
    · rw [if_pos hfunded] at h
      cases h
    rw [if_neg hfunded] at h
    by_cases hreversed : f.captureReversed = true
    · rw [if_pos hreversed] at h
      cases h
      exact ⟨⟨rfl, rfl, rfl, .inl rfl⟩, rfl, .inl rfl⟩
    · rw [if_neg hreversed] at h
      cases h
      exact ⟨⟨rfl, rfl, rfl, .inl rfl⟩, rfl, .inr (.inr (.inr ⟨rfl, Bool.eq_true_of_not_eq_false hfunded, rfl⟩))⟩
  | voided =>
    simp only [recordCapture] at h
    split_ifs at h
    · cases h
      exact ⟨⟨rfl, rfl, rfl, .inl rfl⟩, rfl, .inl rfl⟩
    · cases h
      exact ⟨⟨rfl, rfl, rfl, .inl rfl⟩, rfl, .inr (.inr (.inl ⟨.inl rfl, rfl⟩))⟩
  | failed =>
    simp only [recordCapture] at h
    split_ifs at h
    · cases h
      exact ⟨⟨rfl, rfl, rfl, .inl rfl⟩, rfl, .inl rfl⟩
    · cases h
      exact ⟨⟨rfl, rfl, rfl, .inl rfl⟩, rfl, .inr (.inr (.inl ⟨.inr rfl, rfl⟩))⟩

omit [Crypto] in
/-- A refund is confirmed on evidence that it settled. -/
theorem recordRefund_follows {f' : RequestFinancials} {outcome : PaymentOutcome} {e : RequestFinancialEffects}
    (h : f.recordRefund outcome = .ok (f', e)) :
    f.Follows f' ∧ f'.captureStatus = f.captureStatus ∧ (f'.refund = f.refund ∨
      outcome = .settled ∧ ∃ o, f.refund = .pending o ∧ f'.refund = .confirmed o) := by
  cases outcome with
  | settled =>
    simp only [recordRefund] at h
    cases hrefund : f.refund with
    | pending o =>
      simp only [hrefund] at h
      cases h
      exact ⟨⟨rfl, rfl, rfl, .inr (.inr ⟨o, hrefund, rfl⟩)⟩, rfl, .inr ⟨rfl, o, rfl, rfl⟩⟩
    | _ =>
      simp only [hrefund] at h
      cases h
      exact ⟨⟨rfl, rfl, rfl, .inl rfl⟩, rfl, .inl hrefund⟩
  | pending | failed =>
    cases h
    exact ⟨⟨rfl, rfl, rfl, .inl rfl⟩, rfl, .inl rfl⟩
  | voided | reversed => cases h

/-- What an accepted payment was checked against. -/
theorem recordPayment_eq_ok {f' : RequestFinancials} {receipt : SignedPaymentEvidence} {e : RequestFinancialEffects}
    (h : f.recordPayment receipt = .ok (f', e)) : f' = f ∨ ∃ o next,
      f.operation receipt.evidence.operationId = some o ∧ o.id = receipt.evidence.operationId ∧
      o.digest = receipt.evidence.operationDigest ∧ f.events.get? receipt.evidence.eventId = none ∧
      ((o.id = f.capture.id ∧ f.recordCapture receipt.evidence.outcome = .ok (next, e)) ∨
        (o.id ≠ f.capture.id ∧ f.recordRefund receipt.evidence.outcome = .ok (next, e))) ∧
      f' = {next with events := next.events.insert receipt.evidence.eventId receipt.evidence} := by
  simp only [recordPayment, bind_eq_ok, okOr_eq_ok] at h
  obtain ⟨o, ho, ⟨⟩, hverify, h⟩ := h
  obtain ⟨hid, hdigest, -⟩ := SignedPaymentEvidence.verify_eq_ok hverify
  cases hevent : f.events.get? receipt.evidence.eventId with
  | some previous =>
    simp only [hevent] at h
    split_ifs at h
    cases h
    exact .inl rfl
  | none =>
    simp only [hevent] at h
    split_ifs at h with hcapture
    · obtain ⟨⟨next, e'⟩, hrecord, h⟩ := bind_eq_ok.mp h
      cases h
      exact .inr ⟨o, next, ho, hid.symm, hdigest.symm, rfl, .inl ⟨hcapture, hrecord⟩, rfl⟩
    · obtain ⟨⟨next, e'⟩, hrecord, h⟩ := bind_eq_ok.mp h
      cases h
      exact .inr ⟨o, next, ho, hid.symm, hdigest.symm, rfl, .inr ⟨hcapture, hrecord⟩, rfl⟩

omit [Crypto] in
theorem has_congr {f' : RequestFinancials} (h : f'.events = f.events) (id : PaymentOperationId)
    (outcome : PaymentOutcome) : f'.has id outcome = f.has id outcome := by
  rw [has, has, h]

omit [Crypto] in
/-- New evidence is there, and so is what was there before. -/
theorem has_insert {f' : RequestFinancials} {e : PaymentEvidence} (hnew : f.events.get? e.eventId = none)
    (h : f'.events = f.events.insert e.eventId e) {id : PaymentOperationId} {outcome : PaymentOutcome} :
    f'.has id outcome = true ↔ f.has id outcome = true ∨ (e.operationId = id ∧ e.outcome = outcome) := by
  simp only [has_iff, h]
  constructor
  · rintro ⟨k, d, hd, hid, houtcome⟩
    rw [SortedMap.get?_insert] at hd
    split_ifs at hd with hk
    · cases hd
      exact .inr ⟨hid, houtcome⟩
    · exact .inl ⟨k, d, hd, hid, houtcome⟩
  · rintro (⟨k, d, hd, hid, houtcome⟩ | ⟨hid, houtcome⟩)
    · refine ⟨k, d, ?_, hid, houtcome⟩
      rw [SortedMap.get?_insert_ne _ _ (fun heq => by rw [heq, hnew] at hd; cases hd)]
      exact hd
    · exact ⟨e.eventId, e, SortedMap.get?_insert_self .., hid, houtcome⟩

theorem settle_recorded {f' : RequestFinancials} {s : RequestSettlement} {now : CanonicalTime}
    {e : RequestFinancialEffects} (hf : f.Recorded) (h : f.settle s now = .ok (f', e)) : f'.Recorded := by
  obtain ⟨hfollows, hconfirmed, hstatus⟩ := settle_follows h
  have hhas := has_congr hfollows.events
  have hkept : ∀ {status}, status ≠ .cancellationRequested → f'.captureStatus = status → f.captureStatus = status := by
    intro status hne hstatus'
    rcases hstatus with hsame | hrequested
    · exact hsame.symm.trans hstatus'
    · exact absurd (hstatus'.symm.trans hrequested) hne
  refine ⟨(settle_step hf.linked h).linked, fun id d hd => ?_, fun hfunded => ?_, fun hvoided => ?_,
    fun hreversed => ?_, fun o ho => ?_⟩
  · rw [hfollows.events] at hd
    obtain ⟨hid, o, ho, hdigest⟩ := hf.events id d hd
    exact ⟨hid, o, hfollows.operation ho, hdigest⟩
  · rw [hhas, hfollows.capture]
    refine hf.funded (fundingFinalized_iff.mpr ?_)
    rcases fundingFinalized_iff.mp hfunded with hstatus' | hstatus'
    · exact .inl (hkept (by decide) hstatus')
    · exact .inr (hkept (by decide) hstatus')
  · rw [hhas, hhas, hfollows.capture]
    exact hf.voided (hkept (by decide) hvoided)
  · rw [hhas, hfollows.capture]
    exact hf.reversed (hkept (by decide) hreversed)
  · rw [hhas]
    rcases hfollows.refund with hsame | ⟨-, hnot⟩ | ⟨p, hpending, -⟩
    · exact hf.confirmed o (hsame.symm.trans ho)
    · rw [ho] at hnot
      cases hnot
    · rw [ho, hpending] at hconfirmed
      cases hconfirmed

omit [Crypto] in
theorem operation_of_ne {id : PaymentOperationId} {o : PaymentOperation}
    (ho : f.operation id = some o) (hne : o.id ≠ f.capture.id) : f.refund.operation = some o := by
  unfold RequestFinancials.operation at ho
  split_ifs at ho
  · cases ho
    exact absurd rfl hne
  · exact (Option.filter_eq_some_iff.mp ho).1

/-- New evidence supports what it changes, and takes no support away. -/
theorem recordPayment_recorded {f' : RequestFinancials} {receipt : SignedPaymentEvidence}
    {e : RequestFinancialEffects} (hf : f.Recorded) (h : f.recordPayment receipt = .ok (f', e)) : f'.Recorded := by
  have hlinked := (recordPayment_step hf.linked h).linked
  rcases recordPayment_eq_ok h with rfl | ⟨o, next, ho, hid, hdigest, hnew, hkind, rfl⟩
  · exact hf
  have hfollows : f.Follows next := by
    rcases hkind with ⟨-, hrecord⟩ | ⟨-, hrecord⟩
    · exact (recordCapture_follows hrecord).1
    · exact (recordRefund_follows hrecord).1
  have hhas : ∀ {id outcome}, ({next with events := next.events.insert receipt.evidence.eventId receipt.evidence} :
      RequestFinancials).has id outcome = true ↔ f.has id outcome = true ∨
        (receipt.evidence.operationId = id ∧ receipt.evidence.outcome = outcome) := by
    intro id outcome
    exact has_insert hnew (by rw [hfollows.events])
  -- evidence of the capture is what its new state rests on
  have hstatus : ∀ status, next.captureStatus = status → f.captureStatus = status ∨
      (receipt.evidence.operationId = f.capture.id ∧
        ((receipt.evidence.outcome = .settled ∧ status = .fundingFinalized) ∨
        ((receipt.evidence.outcome = .voided ∨ receipt.evidence.outcome = .failed) ∧ status = .voided) ∨
        (receipt.evidence.outcome = .reversed ∧ f.fundingFinalized = true ∧ status = .reversed))) := by
    rintro status rfl
    rcases hkind with ⟨hcapture, hrecord⟩ | ⟨-, hrecord⟩
    · rcases (recordCapture_follows hrecord).2.2 with hsame | hmoved
      · exact .inl hsame.symm
      · exact .inr ⟨hid.symm.trans hcapture, hmoved⟩
    · exact .inl (recordRefund_follows hrecord).2.1.symm
  refine ⟨hlinked, fun id d hd => ?_, fun hfunded => ?_, fun hvoided => ?_, fun hreversed => ?_, fun p hp => ?_⟩
  · show id = d.eventId ∧ ∃ o, next.operation d.operationId = some o ∧ o.digest = d.operationDigest
    rw [show ({next with events := next.events.insert receipt.evidence.eventId receipt.evidence} :
      RequestFinancials).events = _ from rfl, hfollows.events, SortedMap.get?_insert] at hd
    split_ifs at hd with hevent
    · cases hd
      exact ⟨hevent, o, hfollows.operation ho, hdigest⟩
    · obtain ⟨hid', o', ho', hdigest'⟩ := hf.events id d hd
      exact ⟨hid', o', hfollows.operation ho', hdigest'⟩
  · rw [hhas]
    show f.has next.capture.id .settled = true ∨ receipt.evidence.operationId = next.capture.id ∧ _
    rw [hfollows.capture]
    have hfunded : next.captureStatus = .fundingFinalized ∨ next.captureStatus = .reversed :=
      fundingFinalized_iff.mp hfunded
    rcases hfunded with hnext | hnext <;> rcases hstatus _ hnext with hsame | ⟨hcapture, hmoved⟩
    · exact .inl (hf.funded (fundingFinalized_iff.mpr (.inl hsame)))
    · simp only [reduceCtorEq, and_true, and_false, or_false] at hmoved
      exact .inr ⟨hcapture, hmoved⟩
    · exact .inl (hf.funded (fundingFinalized_iff.mpr (.inr hsame)))
    · simp only [reduceCtorEq, and_true, and_false, false_or] at hmoved
      exact .inl (hf.funded hmoved.2)
  · rw [hhas, hhas]
    show (f.has next.capture.id .voided = true ∨ receipt.evidence.operationId = next.capture.id ∧ _) ∨
      (f.has next.capture.id .failed = true ∨ receipt.evidence.operationId = next.capture.id ∧ _)
    rw [hfollows.capture]
    rcases hstatus .voided hvoided with hsame | ⟨hcapture, hmoved⟩
    · exact (hf.voided hsame).imp .inl .inl
    · simp only [reduceCtorEq, and_true, and_false, or_false, false_or] at hmoved
      exact hmoved.imp (fun houtcome => .inr ⟨hcapture, houtcome⟩) fun houtcome => .inr ⟨hcapture, houtcome⟩
  · rw [hhas]
    show f.has next.capture.id .reversed = true ∨ receipt.evidence.operationId = next.capture.id ∧ _
    rw [hfollows.capture]
    rcases hstatus .reversed hreversed with hsame | ⟨hcapture, hmoved⟩
    · exact .inl (hf.reversed hsame)
    · simp only [reduceCtorEq, and_true, and_false, false_or] at hmoved
      exact .inr ⟨hcapture, hmoved.1⟩
  · rw [hhas]
    rcases hkind with ⟨-, hrecord⟩ | ⟨hne, hrecord⟩
    · obtain ⟨-, hconfirmed, -⟩ := recordCapture_follows hrecord
      have hp : next.refund = .confirmed p := hp
      rcases hfollows.refund with hsame | ⟨-, hnot⟩ | ⟨q, hpending, -⟩
      · exact .inl (hf.confirmed p (hsame.symm.trans hp))
      · rw [hp] at hnot
        cases hnot
      · rw [hp, hpending] at hconfirmed
        cases hconfirmed
    · have hp : next.refund = .confirmed p := hp
      have hrefund := operation_of_ne ho hne
      rcases (recordRefund_follows hrecord).2.2 with hsame | ⟨hsettled, q, hpending, hconfirmed⟩
      · exact .inl (hf.confirmed p (hsame.symm.trans hp))
      · cases hp.symm.trans hconfirmed
        rw [hpending] at hrefund
        cases hrefund
        exact .inr ⟨hid.symm, hsettled⟩

/-! ### Whether the charge is conserved -/

end

end RequestFinancials

def RequestFinancialView.isFunded (v : RequestFinancialView) : Bool :=
  v.capture = .fundingFinalized ∨ v.capture = .reversed

/-- What is kept, forfeited and refunded is the charge, once it is funded and settled, and
nothing before. -/
def RequestFinancialView.Conserves (v : RequestFinancialView) : Prop :=
  v.processingRetained.units + v.collateralForfeited.units + RequestBooks.refundAmount v.refund =
    if v.isFunded = true ∧ v.settlement ≠ none then v.charge.units else 0

/-- The capture is funded, and its settlement pays some of it back. -/
def StoredRequestFinancials.owesRefund (v : StoredRequestFinancials) : Bool :=
  (v.captureStatus = .fundingFinalized ∨ v.captureStatus = .reversed) ∧
    (v.settlement = some .accepted ∨ v.settlement = some .cancelled ∨
      (v.settlement = some .expired ∧ v.contract.collateral.isZero = false))

namespace RequestFinancials
section
variable [Crypto] {f : RequestFinancials}

omit [Crypto] in
/-- Without a refund, what is read back conserves the charge unless a refund is owed. -/
theorem conserves_of_none (hf : f.stateValid = true) (hrefund : f.refund = .none) :
    f.view.Conserves ↔ f.toStored.owesRefund = false := by
  have hcharge := f.units_charge
  have hamount := f.units_pos
  have hzero := @Money.isZero_iff f.contract.collateral
  unfold stateValid at hf
  simp only [RequestFinancialView.Conserves, RequestFinancialView.isFunded, StoredRequestFinancials.owesRefund,
    toStored, view, hrefund, RequestBooks.refundAmount]
  cases hstatus : f.captureStatus <;> cases hs : f.settlement with
  | none => simp_all
  | some s => cases s <;> simp_all <;> omega

omit [Crypto] in
/-- A refund that passes its check makes up the charge. -/
theorem conserves_of_some {refund : PaymentOperation} (hrefund : f.refund.operation = some refund)
    (hf : f.checkRefund = .ok ()) : f.view.Conserves := by
  have hcharge := f.units_charge
  obtain ⟨expected, hexpected, hfunded, rfl, -⟩ := (checkRefund_eq_ok hrefund).mp hf
  have hview : RequestBooks.refundAmount f.view.refund = expected.units := by
    unfold view
    cases hcase : f.refund <;> rw [hcase] at hrefund <;> cases hrefund <;> rfl
  have hstatus : f.view.isFunded = true := decide_eq_true (fundingFinalized_iff.mp hfunded)
  unfold RequestFinancialView.Conserves
  rw [hview, hstatus]
  unfold expectedRefund at hexpected
  cases hs : f.settlement with
  | none => simp [hs] at hexpected
  | some s =>
    cases s <;> simp only [hs, reduceCtorEq, Except.ok.injEq] at hexpected <;> simp [view, hs, ← hexpected]
    omega

theorem conserves_iff {v : StoredRequestFinancials} (h : tryFrom v = .ok f) :
    f.view.Conserves ↔ (v.owesRefund = true → v.refund ≠ .none) := by
  obtain ⟨rfl, -, hstate, hcheck⟩ := tryFrom_eq_ok.mp h
  cases hrefund : f.refund with
  | none =>
    rw [conserves_of_none hstate hrefund, ← Bool.not_eq_true]
    exact ⟨fun hnot howes => absurd howes hnot, fun himp howes => himp howes hrefund⟩
  | pending o =>
    refine iff_of_true (conserves_of_some (by rw [hrefund]; rfl) hcheck) fun _ hnone => ?_
    exact absurd (hrefund.symm.trans hnone) nofun
  | confirmed o =>
    refine iff_of_true (conserves_of_some (by rw [hrefund]; rfl) hcheck) fun _ hnone => ?_
    exact absurd (hrefund.symm.trans hnone) nofun

omit [Crypto] in
/-- A record that was made by its own calls carries the refund it owes. -/
theorem Linked.refund_ne_none (hf : f.Linked) (h : f.toStored.owesRefund = true) : f.refund ≠ .none := by
  intro hnone
  have howed := hf.refund
  rw [hnone] at howed
  obtain ⟨hstatus, hs⟩ : (f.captureStatus = .fundingFinalized ∨ f.captureStatus = .reversed) ∧
    (f.settlement = some .accepted ∨ f.settlement = some .cancelled ∨
      (f.settlement = some .expired ∧ f.contract.collateral.isZero = false)) := of_decide_eq_true h
  have hfunded := fundingFinalized_iff.mpr hstatus
  rcases hs with hs | hs | ⟨hs, hcollateral⟩ <;> simp_all [owedRefund, RefundStatus.operation]

/-! ### Runs -/

/-- The record after the calls, those that were refused among them. -/
def after (f : RequestFinancials) (calls : List FinancialCall) : RequestFinancials :=
  Machine.run (fun f c => (RequestBooks.perform f c).map Prod.fst) f calls

theorem after_recorded (hf : f.Recorded) (calls : List FinancialCall) : (f.after calls).Recorded := by
  refine Machine.run_preserves (fun g c g' hg h => ?_) hf calls
  obtain ⟨⟨_, e⟩, hperform, rfl⟩ := map_eq_ok.mp h
  cases c with
  | settle s now => exact settle_recorded hg hperform
  | recordPayment receipt => exact recordPayment_recorded hg hperform

/-- **The stored form of a request's money.** Whatever calls made the record, it is read back
as it was stored, and conserves the charge. Of the other stored values, those that are read
back conserve the charge exactly if they carry a refund where one is owed. -/
theorem stored_request {capture : PaymentOperation} {contract : RequestFinancialContract}
    (hnew : new capture contract = .ok f) :
    (∀ calls, tryFrom (f.after calls).toStored = .ok (f.after calls) ∧ (f.after calls).view.Conserves) ∧
    ∀ v g, tryFrom v = .ok g → (g.view.Conserves ↔ (v.owesRefund = true → v.refund ≠ .none)) := by
  refine ⟨fun calls => ?_, fun v g hread => conserves_iff hread⟩
  have hrecorded := after_recorded (new_recorded hnew) calls
  exact ⟨hrecorded.tryFrom, (conserves_iff hrecorded.tryFrom).mpr hrecorded.linked.refund_ne_none⟩

omit [Crypto] in
/-- In the example, captured and rejected. -/
theorem stored_request_rejected :
    let _ := RequestBooks.exampleCrypto
    let f := RequestBooks.exampleRecord.after
      [.recordPayment RequestBooks.exampleReceipt, .settle .rejected ⟨5⟩]
    f.settlement = some .rejected ∧ tryFrom f.toStored = .ok f := by
  have h := (@stored_request RequestBooks.exampleCrypto RequestBooks.exampleRecord RequestBooks.exampleCapture
    RequestBooks.exampleContract rfl).1 [.recordPayment RequestBooks.exampleReceipt, .settle .rejected ⟨5⟩]
  exact ⟨by decide +kernel, h.1⟩

end

/-- The example captured and accepted, without the refund that is owed. -/
def unrefunded : StoredRequestFinancials where
  capture := RequestBooks.exampleCapture
  captureStatus := .fundingFinalized
  refund := .none
  events := (∅ : SortedMap FinancialEventId PaymentEvidence).insert ⟨1⟩ RequestBooks.exampleReceipt.evidence
  contract := RequestBooks.exampleContract
  settlement := some .accepted

/-- It is read back, and loses the charge. -/
theorem unrefunded_accepted : ¬ ∀ v f, @tryFrom RequestBooks.exampleCrypto v = .ok f → f.view.Conserves := by
  intro h
  obtain ⟨f, hf⟩ : ∃ f, @tryFrom RequestBooks.exampleCrypto unrefunded = .ok f :=
    ⟨{RequestBooks.exampleRecord with
      captureStatus := .fundingFinalized, events := unrefunded.events, settlement := some .accepted},
      by decide +kernel⟩
  exact (@conserves_iff RequestBooks.exampleCrypto _ _ hf).mp (h _ _ hf) (by decide) rfl

end RequestFinancials

end CsMail
