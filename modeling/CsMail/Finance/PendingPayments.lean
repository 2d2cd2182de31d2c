import CsMail.Finance.StoredRequest

/-! What is still asked of the processor for one request.

A capture may be waiting to be taken or to be cancelled, and a refund to be paid. A call
that makes one of these wait names its operation (`perform_due`), and an operation once
named is the same operation for good. -/
namespace CsMail
open Library

/-- Only a capture can be cancelled. -/
structure CaptureCancellation where
  operation : PaymentOperation
  valid : operation.validate = .ok ()
  capture : operation.kind = .capture

def CaptureCancellation.new (operation : PaymentOperation) : Except PaymentError CaptureCancellation :=
  match hvalid : operation.validate with
  | .error e => .error e
  | .ok () => if hkind : operation.kind = .capture then .ok ⟨operation, hvalid, hkind⟩ else .error .invalidOperation

inductive ProcessorRequest
  | submit (operation : PaymentOperation)
  | cancelCapture (cancellation : CaptureCancellation)

namespace RequestFinancials

/-- What is asked of the processor about this operation, if anything still is. -/
def pendingPayment (f : RequestFinancials) (id : PaymentOperationId) : Option ProcessorRequest :=
  if id = f.capture.id ∧ (f.captureStatus = .pending ∨ f.captureStatus = .cancellationRequested) then
    if f.captureStatus = .cancellationRequested then
      (CaptureCancellation.new f.capture).toOption.map .cancelCapture
    else some (.submit f.capture)
  else match f.refund with
    | .pending p => if p.id = id then some (.submit p) else none
    | .none | .confirmed _ => none

/-- The three things that can wait for the processor. -/
inductive Due (f : RequestFinancials) : PaymentOperationId → ProcessorRequest → Prop
  | capture (hstatus : f.captureStatus = .pending) : Due f f.capture.id (.submit f.capture)
  | cancellation (hstatus : f.captureStatus = .cancellationRequested) :
    Due f f.capture.id (.cancelCapture ⟨f.capture, f.matched.operation, f.matched.kind⟩)
  | refund {p : PaymentOperation} (hrefund : f.refund = .pending p) : Due f p.id (.submit p)

variable {f f' : RequestFinancials} {e : RequestFinancialEffects} {id : PaymentOperationId} {request : ProcessorRequest}

theorem cancellation_new (f : RequestFinancials) :
    CaptureCancellation.new f.capture = .ok ⟨f.capture, f.matched.operation, f.matched.kind⟩ := by
  unfold CaptureCancellation.new
  split
  · next e herror => exact absurd (f.matched.operation.symm.trans herror) (by simp)
  · rw [dif_pos f.matched.kind]

theorem Linked.pendingPayment_iff (hf : f.Linked) : f.pendingPayment id = some request ↔ f.Due id request := by
  have hother : ∀ p, f.refund = .pending p → p.id ≠ f.capture.id := by
    intro p hp heq
    exact f.matched.refundId (heq ▸ hf.refund_id (by rw [hp]; rfl))
  unfold pendingPayment
  constructor
  · intro h
    split_ifs at h with hcapture hcancelled
    · obtain ⟨rfl, -⟩ := hcapture
      rw [cancellation_new] at h
      cases h
      exact .cancellation hcancelled
    · obtain ⟨rfl, hstatus⟩ := hcapture
      cases h
      exact .capture (hstatus.resolve_right hcancelled)
    · cases hrefund : f.refund with
      | pending p =>
        simp only [hrefund] at h
        split_ifs at h with hid
        cases h
        exact hid ▸ .refund hrefund
      | _ =>
        rw [hrefund] at h
        cases h
  · intro h
    cases h with
    | capture hstatus => rw [if_pos ⟨rfl, .inl hstatus⟩, if_neg (by rw [hstatus]; decide)]
    | cancellation hstatus =>
      rw [if_pos ⟨rfl, .inr hstatus⟩, if_pos hstatus, cancellation_new]
      rfl
    | refund hrefund =>
      rw [if_neg fun h => hother _ hrefund h.1, hrefund]
      exact if_pos rfl

/-! ### What calls ask for -/

theorem createRefund_cases {amount : Money} {effects : RequestFinancialEffects}
    (h : f.createRefund amount effects = .ok (f', e)) : (f' = f ∧ e = effects) ∨
      ∃ p, f' = {f with refund := .pending p} ∧ e.operations = effects.operations ++ [p.id] := by
  unfold createRefund at h
  split_ifs at h with hzero
  · cases h
    exact .inl ⟨rfl, rfl⟩
  · dsimp only at h
    split at h
    · split_ifs at h
      cases h
      exact .inl ⟨rfl, rfl⟩
    · cases h
      exact .inr ⟨_, rfl, rfl⟩

/-- What waits after a step waited before it, or is named by the step; and what is named is
an operation of the record. -/
structure Names (f f' : RequestFinancials) (operations : List PaymentOperationId) : Prop where
  due : ∀ id request, f'.Due id request → f.Due id request ∨ id ∈ operations
  known : ∀ id ∈ operations, ∃ o, f'.operation id = some o

/-- A capture that does not wait, and a refund that waited or is named. -/
theorem Names.of_status {operations : List PaymentOperationId} (hcapture : f'.capture = f.capture)
    (hstatus : f'.captureStatus = f.captureStatus ∨
      (f'.captureStatus ≠ .pending ∧ f'.captureStatus ≠ .cancellationRequested) ∨
      (f'.captureStatus = .cancellationRequested ∧ f.capture.id ∈ operations))
    (hrefund : ∀ p, f'.refund = .pending p → f.refund = .pending p ∨ p.id ∈ operations)
    (hknown : ∀ id ∈ operations, id = f.capture.id ∨ ∃ p, f'.refund = .pending p ∧ p.id = id) :
    f.Names f' operations := by
  constructor
  · intro id request hdue
    have hsame : ∀ {status}, f'.captureStatus = status → (status = .pending ∨ status = .cancellationRequested) →
        f.captureStatus = status ∨ (status = .cancellationRequested ∧ f.capture.id ∈ operations) := by
      rintro status rfl hwaiting
      rcases hstatus with hsame | ⟨hpending, hcancelled⟩ | hnamed
      · exact .inl hsame.symm
      · exact absurd hwaiting (not_or.mpr ⟨hpending, hcancelled⟩)
      · exact .inr hnamed
    cases hdue with
    | capture hpending =>
      rcases hsame hpending (.inl rfl) with hbefore | ⟨hnot, -⟩
      · simp only [hcapture]
        exact .inl (.capture hbefore)
      · cases hnot
    | cancellation hcancelled =>
      simp only [hcapture]
      rcases hsame hcancelled (.inr rfl) with hbefore | ⟨-, hnamed⟩
      · exact .inl (.cancellation hbefore)
      · exact .inr hnamed
    | refund hp => exact (hrefund _ hp).imp .refund id
  · intro id hid
    unfold RequestFinancials.operation
    split_ifs with heq
    · exact ⟨_, rfl⟩
    · rcases hknown id hid with hcaptured | ⟨p, hp, rfl⟩
      · exact absurd (congrArg PaymentOperation.id hcapture |>.trans hcaptured.symm) heq
      · refine ⟨p, ?_⟩
        rw [hp, RefundStatus.operation, Option.filter_some, if_pos (decide_eq_true rfl)]

/-- Nothing that may wait is touched. -/
theorem Names.of_same (hcapture : f'.capture = f.capture) (hstatus : f'.captureStatus = f.captureStatus)
    (hrefund : f'.refund = f.refund) : f.Names f' [] :=
  .of_status hcapture (.inl hstatus) (fun _ hp => .inl (hrefund.symm.trans hp)) fun _ hid =>
    absurd hid List.not_mem_nil

/-- Nothing is left to wait for where the capture has its outcome. -/
theorem Names.of_outcome (hcapture : f'.capture = f.capture) (hpending : f'.captureStatus ≠ .pending)
    (hcancelled : f'.captureStatus ≠ .cancellationRequested) (hrefund : f'.refund = f.refund) : f.Names f' [] :=
  .of_status hcapture (.inr (.inl ⟨hpending, hcancelled⟩)) (fun _ hp => .inl (hrefund.symm.trans hp))
    fun _ hid => absurd hid List.not_mem_nil

theorem createRefund_names {amount : Money} {effects : RequestFinancialEffects}
    (h : f.createRefund amount effects = .ok (f', e)) (heffects : effects.operations = []) :
    f.Names f' e.operations := by
  rcases createRefund_cases h with ⟨rfl, rfl⟩ | ⟨p, rfl, hoperations⟩
  · rw [heffects]
    exact .of_same rfl rfl rfl
  · rw [hoperations, heffects, List.nil_append]
    refine .of_status rfl (.inl rfl) (fun q hq => ?_) fun id hid => .inr ⟨p, rfl, (List.mem_singleton.mp hid).symm⟩
    cases hq
    exact .inr (List.mem_singleton_self _)

/-- The start of a step may differ in what does not wait. -/
theorem Names.congr {g : RequestFinancials} {operations : List PaymentOperationId} (h : g.Names f' operations)
    (hdue : ∀ id request, g.Due id request → f.Due id request) : f.Names f' operations :=
  ⟨fun id request hlater => (h.due id request hlater).imp_left (hdue id request), h.known⟩

theorem Due.congr {g : RequestFinancials} (h : g.Due id request) (hcapture : g.capture = f.capture)
    (hstatus : (g.captureStatus = .pending ∨ g.captureStatus = .cancellationRequested) →
      g.captureStatus = f.captureStatus) (hrefund : g.refund = f.refund) : f.Due id request := by
  cases h with
  | capture hpending =>
    simp only [hcapture]
    exact .capture ((hstatus (.inl hpending)).symm.trans hpending)
  | cancellation hcancelled =>
    simp only [hcapture]
    exact .cancellation ((hstatus (.inr hcancelled)).symm.trans hcancelled)
  | refund hp => exact .refund (hrefund.symm.trans hp)

theorem due_of_remembered {events : SortedMap FinancialEventId PaymentEvidence}
    (h : ({f with events} : RequestFinancials).Due id request) : f.Due id request :=
  h.congr rfl (fun _ => rfl) rfl

theorem settle_names {s : RequestSettlement} {now : CanonicalTime} (h : f.settle s now = .ok (f', e)) :
    f.Names f' e.operations := by
  have hcreate : ∀ {amount effects}, ({f with settlement := some s} : RequestFinancials).createRefund amount effects =
      .ok (f', e) → effects.operations = [] → f.Names f' e.operations := by
    intro amount effects hcreated heffects
    exact (createRefund_names hcreated heffects).congr fun _ _ hdue => hdue.congr rfl (fun _ => rfl) rfl
  cases hsettled : f.settlement with
  | some previous =>
    simp only [settle, hsettled] at h
    split_ifs at h
    cases h
    exact .of_same rfl rfl rfl
  | none =>
    cases s <;> simp only [settle, hsettled] at h
    case accepted | expired =>
      split_ifs at h
      exact hcreate h rfl
    case rejected => split_ifs at h <;> cases h <;> exact .of_same rfl rfl rfl
    case cancelled =>
      split_ifs at h
      · exact hcreate h rfl
      · cases h
        exact .of_same rfl rfl rfl
      · cases h
        refine .of_status rfl (.inr (.inr ⟨rfl, List.mem_singleton_self _⟩)) (fun _ hp => .inl hp) fun id hid => ?_
        exact .inl (List.mem_singleton.mp hid)

/-- Evidence about the capture ends its waiting; money that comes after a cancellation is
named at once as a refund. -/
theorem recordCapture_names {outcome : PaymentOutcome} (h : f.recordCapture outcome = .ok (f', e)) :
    f.Names f' e.operations := by
  cases outcome with
  | pending =>
    cases h
    exact .of_same rfl rfl rfl
  | settled =>
    simp only [recordCapture] at h
    split_ifs at h with hfunded hcancelled
    · cases h
      exact .of_same rfl rfl rfl
    · exact (createRefund_names h rfl).congr fun _ _ hdue => hdue.congr rfl (by simp) rfl
    · cases h
      exact .of_outcome rfl (by simp) (by simp) rfl
  | voided | failed =>
    simp only [recordCapture] at h
    split_ifs at h
    · cases h
      exact .of_same rfl rfl rfl
    · cases h
      exact .of_outcome rfl (by simp) (by simp) rfl
  | reversed =>
    simp only [recordCapture] at h
    by_cases hfunded : f.fundingFinalized = false
    · rw [if_pos hfunded] at h
      cases h
    rw [if_neg hfunded] at h
    by_cases hreversed : f.captureReversed = true
    · rw [if_pos hreversed] at h
      cases h
      exact .of_same rfl rfl rfl
    · rw [if_neg hreversed] at h
      cases h
      exact .of_outcome rfl (by simp) (by simp) rfl

theorem recordRefund_names {outcome : PaymentOutcome} (h : f.recordRefund outcome = .ok (f', e)) :
    f.Names f' e.operations := by
  cases outcome with
  | settled =>
    simp only [recordRefund] at h
    split at h <;> cases h
    · exact .of_status rfl (.inl rfl) (fun _ hp => by cases hp) fun _ hid => absurd hid List.not_mem_nil
    · exact .of_same rfl rfl rfl
  | pending | failed =>
    cases h
    exact .of_same rfl rfl rfl
  | voided | reversed => cases h

theorem recordPayment_names [Crypto] {receipt : SignedPaymentEvidence}
    (h : f.recordPayment receipt = .ok (f', e)) : f.Names f' e.operations := by
  rcases recordPayment_cases h with ⟨rfl, rfl⟩ | ⟨next, hkind, rfl⟩
  · exact .of_same rfl rfl rfl
  · have hnext : f.Names next e.operations := by
      rcases hkind with ⟨-, hrecord⟩ | ⟨-, hrecord⟩
      · exact recordCapture_names hrecord
      · exact recordRefund_names hrecord
    refine ⟨fun id request hdue => hnext.due id request ?_, fun id hid => ?_⟩
    · exact due_of_remembered hdue
    · exact hnext.known id hid

theorem perform_names [Crypto] {call : FinancialCall} (h : RequestBooks.perform f call = .ok (f', e)) :
    f.Names f' e.operations := by
  cases call with
  | settle s now => exact settle_names h
  | recordPayment receipt => exact recordPayment_names h

theorem new_names {capture : PaymentOperation} {contract : RequestFinancialContract}
    (h : new capture contract = .ok f) :
    (∀ id request, f.Due id request → id = capture.id) ∧ f.operation capture.id = some capture := by
  obtain ⟨rfl, -, hstatus, -, hrefund, -⟩ := new_eq_ok h
  refine ⟨fun id request hdue => ?_, if_pos rfl⟩
  cases hdue with
  | capture | cancellation => rfl
  | refund hp =>
    rw [hrefund] at hp
    cases hp

/-- What is known stays known, and goes by its own identifier. -/
theorem operation_id {o : PaymentOperation} (h : f.operation id = some o) : o.id = id := by
  unfold RequestFinancials.operation at h
  split_ifs at h with heq
  · cases h
    exact heq
  · exact of_decide_eq_true (Option.filter_eq_some_iff.mp h).2

theorem perform_operation [Crypto] {call : FinancialCall} (h : RequestBooks.perform f call = .ok (f', e))
    {o : PaymentOperation} (ho : f.operation id = some o) : f'.operation id = some o := by
  cases call with
  | settle s now => exact (settle_follows h).1.operation ho
  | recordPayment receipt =>
    rcases recordPayment_cases h with ⟨rfl, -⟩ | ⟨next, ⟨-, hrecord⟩ | ⟨-, hrecord⟩, rfl⟩
    · exact ho
    · exact (recordCapture_follows hrecord).1.operation ho
    · exact (recordRefund_follows hrecord).1.operation ho

end RequestFinancials
end CsMail
