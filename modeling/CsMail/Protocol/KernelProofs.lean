import CsMail.Protocol.Move

/-! Every handler of the kernel makes a move.

A handler that succeeds leaves the relationship's key and history as they were, and
changes the request book by one `Move`. The chains of checks are inverted here once;
nothing later unfolds a handler that moves a request. -/
namespace CsMail
open Library

/-! ### Reading a validated snapshot -/

/-- Every request is stored under its own identifier. -/
def ProtocolState.Keyed (s : ProtocolState) : Prop :=
  ∀ id r, s.requests.get? id = some r → r.id = id

namespace ProtocolState
variable {s : ProtocolState} {r : RelationshipRequest}

theorem keyed_of_validate (h : s.validate = .ok ()) : s.Keyed := by
  intro id r hr
  simp only [validate, refuseIf_eq_ok, not_or, Bool.not_eq_true, List.any_eq_false] at h
  have := h.2 (id, r) (SortedMap.mem_entries.mpr hr)
  simp only [misfiled, decide_eq_false_iff_not, not_or, ne_eq, Decidable.not_not] at this
  exact this.1.symm

theorem activeRequest_eq_some (hkeyed : s.Keyed) (h : s.activeRequest = some r) :
    s.requests.get? r.id = some r ∧ r.lifecycle.isTerminal = false := by
  have hmem := List.mem_of_find?_eq_some h
  have hopen := List.find?_some h
  obtain ⟨id, hr⟩ := SortedMap.mem_values.mp hmem
  rw [hkeyed id r hr]
  exact ⟨hr, by simpa using hopen⟩

end ProtocolState

namespace RequestLifecycle
variable {l : RequestLifecycle}

theorem isPreparingSubmission_iff :
    l.isPreparingSubmission = true ↔ ∃ p, l = .preparingSubmission p := by
  cases l <;> simp [isPreparingSubmission]

theorem isAwaitingRecipientDecision_iff :
    l.isAwaitingRecipientDecision = true ↔ ∃ a, l = .awaitingRecipientDecision a := by
  cases l <;> simp [isAwaitingRecipientDecision]

end RequestLifecycle

namespace ManifestBuilder
variable {m m' : ManifestBuilder}

/-! ### Changes that leave the request book alone -/

@[simp] theorem pushEvent_book {kind : ProtocolEventKind} (h : kind.submitted? = none) :
    (m.pushEvent kind).book = m.book := by
  simp [pushEvent, book, announced, h]

@[simp] theorem deliver_book (message : MessageId) (content : ContentRef)
    (intent : DeliveryIntentRef) : (m.deliver message content intent).book = m.book := by
  unfold deliver
  cases m.deliveryRoute <;> rfl

theorem pushSchedule_book {change : ScheduleChange} (h : change.task.isRequest = true) :
    (m.pushSchedule change).book = {m.book with timers := m.book.timers ++ [change]} := by
  simp [pushSchedule, book, requestTimers, h]

theorem setRelationshipState_eq_ok {state : RelationshipState}
    (h : m.setRelationshipState state = .ok m') :
    ∃ version, m.next.relationship.version.checkedNext = some version ∧
      m' = {m with next := {m.next with relationship := {m.next.relationship with
        state, version, lastEvent := some m.event, changedAt := m.now}}} := by
  simp only [setRelationshipState, bind_eq_ok, okOr_eq_ok] at h
  obtain ⟨version, hversion, h⟩ := h
  exact ⟨version, hversion, (Except.ok.inj h).symm⟩

/-- What a handler leaves in place while it makes its move. -/
structure Moves [Crypto] (m m' : ManifestBuilder) : Prop where
  move : Move m.now m.event m.next.relationship.key m.book m'.book
  relationship : m'.next.relationship = m.next.relationship
  messages : m'.messages = m.messages
  quiet : m'.book.submissions = m.book.submissions

end ManifestBuilder

open ManifestBuilder

variable [Crypto] {m m' : ManifestBuilder} {id : RequestId}

/-! ### Ending a request -/

omit [Crypto] in
theorem settleFinancials_eq_ok {s : RequestSettlement} (h : settleFinancials m id s = .ok m') :
    ∃ f f' e, m.payments.get? id = some f ∧ f.settle s m.now = .ok (f', e) ∧
      m' = applyFinancialEffects {m with payments := m.payments.insert id f'} id e := by
  simp only [settleFinancials, bind_eq_ok, okOr_eq_ok, mapError_eq_ok] at h
  obtain ⟨f, hf, ⟨f', e⟩, hsettle, h⟩ := h
  exact ⟨f, f', e, hf, hsettle, (Except.ok.inj h).symm⟩

omit [Crypto] in
theorem submitted?_event (id : RequestId) (c : ReservedCancellation) :
    (c.event id).submitted? = none := by
  cases c <;> rfl

theorem cancelSubmission_moves {c : ReservedCancellation} (hkeyed : m.next.Keyed)
    (h : cancelSubmission m id c = .ok m') : m.Moves m' := by
  simp only [cancelSubmission, bind_eq_ok, okOr_eq_ok, refuseIf_eq_ok, exists_const,
    nextRequestVersion, Bool.not_eq_false] at h
  obtain ⟨r, hr, hopen, p, hp, version, -, m₁, hmoney, h⟩ := h
  obtain ⟨p', hopen⟩ := RequestLifecycle.isPreparingSubmission_iff.mp hopen
  obtain ⟨f, f', e, hf, hsettle, rfl⟩ := settleFinancials_eq_ok hmoney
  cases hkeyed id r hr
  cases Except.ok.inj h
  refine ⟨?_, rfl, rfl, ?_⟩ <;> rw [pushEvent_book (submitted?_event _ c), pushSchedule_book rfl]
  swap
  · rfl
  obtain rfl : p' = p := by simpa [hopen, RequestLifecycle.preparation] using hp
  exact .ended hr hf hsettle (.cancelled hopen)

omit [Crypto] in
theorem awaitedRequest_eq_ok {r : RelationshipRequest} {a : RequestSubmission}
    (h : awaitedRequest m id = .ok (r, a)) :
    m.next.requests.get? id = some r ∧ r.lifecycle = .awaitingRecipientDecision a := by
  simp only [awaitedRequest, bind_eq_ok, okOr_eq_ok, refuseIf_eq_ok, exists_const,
    Bool.not_eq_false, Except.ok.injEq, Prod.mk.injEq] at h
  obtain ⟨r', hr, hopen, a', ha, rfl, rfl⟩ := h
  obtain ⟨a'', hopen⟩ := RequestLifecycle.isAwaitingRecipientDecision_iff.mp hopen
  rw [hopen] at ha
  cases ha
  exact ⟨hr, hopen⟩

omit [Crypto] in
theorem closeRequest_eq_ok {r : RelationshipRequest} {l : RequestLifecycle}
    (h : closeRequest m id r l = .ok m') :
    ∃ version, m' = (m.setRequest id {r with lifecycle := l, version}).pushSchedule
      (.cancel (.requestExpiry id)) := by
  simp only [closeRequest, nextRequestVersion, bind_eq_ok, okOr_eq_ok] at h
  obtain ⟨version, -, h⟩ := h
  exact ⟨version, (Except.ok.inj h).symm⟩

omit [Crypto] in
theorem applyCooldown_eq_ok {start : CanonicalTime} {d : Duration}
    (h : applyCooldown m start d = .ok m') :
    ∃ history, m.history.extendCooldown start d m.now m.event = .ok history ∧
      m' = {m with history} := by
  simp only [applyCooldown, bind_eq_ok] at h
  obtain ⟨history, hcooldown, h⟩ := h
  exact ⟨history, hcooldown, (Except.ok.inj h).symm⟩

section Settle
variable {r : RelationshipRequest} {a : RequestSubmission} (hkeyed : m.next.Keyed)
  (hr : m.next.requests.get? id = some r) (hopen : r.lifecycle = .awaitingRecipientDecision a)
include hkeyed hr hopen

theorem settleAccepted_moves {permission : AcceptancePermission}
    (htime : permission = .standing → m.now ≤ a.decisionDeadline)
    (h : settleAccepted m id permission = .ok m') : m.Moves m' := by
  simp only [settleAccepted, bind_eq_ok, Prod.exists] at h
  obtain ⟨r', a', hawaited, m₁, hmoney, h⟩ := h
  obtain ⟨hr', hopen'⟩ := awaitedRequest_eq_ok hawaited
  cases hr.symm.trans hr'
  cases hopen.symm.trans hopen'
  cases hkeyed id r hr
  obtain ⟨f, f', e, hf, hsettle, rfl⟩ := settleFinancials_eq_ok hmoney
  obtain ⟨version, rfl⟩ := closeRequest_eq_ok h
  refine ⟨?_, rfl, rfl, by rw [pushSchedule_book rfl]; rfl⟩
  rw [pushSchedule_book rfl]
  exact .ended hr hf hsettle (.accepted hopen htime)

theorem settleRejected_moves (htime : m.now ≤ a.decisionDeadline)
    (h : settleRejected m id = .ok m') : m.Moves m' := by
  simp only [settleRejected, bind_eq_ok, Prod.exists] at h
  obtain ⟨r', a', hawaited, m₁, hmoney, m₂, hlater, h⟩ := h
  obtain ⟨hr', hopen'⟩ := awaitedRequest_eq_ok hawaited
  cases hr.symm.trans hr'
  cases hopen.symm.trans hopen'
  cases hkeyed id r hr
  obtain ⟨f, f', e, hf, hsettle, rfl⟩ := settleFinancials_eq_ok hmoney
  obtain ⟨history, hcooldown, rfl⟩ := applyCooldown_eq_ok hlater
  obtain ⟨version, rfl⟩ := closeRequest_eq_ok h
  refine ⟨?_, rfl, rfl, by rw [pushSchedule_book rfl]; rfl⟩
  rw [pushSchedule_book rfl]
  exact .ended hr hf hsettle (.rejected hopen htime hcooldown)

theorem settleExpired_moves (htime : a.decisionDeadline < m.now)
    (h : settleExpired m id = .ok m') : m.Moves m' := by
  simp only [settleExpired, bind_eq_ok, Prod.exists] at h
  obtain ⟨r', a', hawaited, m₁, hmoney, m₂, hlater, h⟩ := h
  obtain ⟨hr', hopen'⟩ := awaitedRequest_eq_ok hawaited
  cases hr.symm.trans hr'
  cases hopen.symm.trans hopen'
  cases hkeyed id r hr
  obtain ⟨f, f', e, hf, hsettle, rfl⟩ := settleFinancials_eq_ok hmoney
  obtain ⟨history, hcooldown, rfl⟩ := applyCooldown_eq_ok hlater
  obtain ⟨version, rfl⟩ := closeRequest_eq_ok h
  refine ⟨?_, rfl, rfl, by rw [pushSchedule_book rfl]; rfl⟩
  rw [pushSchedule_book rfl]
  exact .ended hr hf hsettle (.expired hopen htime hcooldown)

end Settle

theorem ManifestBuilder.Moves.refl (m : ManifestBuilder) : m.Moves m := ⟨.kept, rfl, rfl, rfl⟩

theorem ManifestBuilder.Moves.pushEvent (h : m.Moves m') (kind : ProtocolEventKind)
    (hkind : kind.submitted? = none) : m.Moves (m'.pushEvent kind) :=
  ⟨(pushEvent_book hkind).symm ▸ h.move, h.relationship, h.messages,
    (pushEvent_book hkind).symm ▸ h.quiet⟩

theorem decideRequest_moves {d : Decision} (hkeyed : m.next.Keyed)
    (h : decideRequest m d = .ok m') : m.Moves m' := by
  unfold decideRequest at h
  split at h
  · cases h
    exact .refl m
  · rename_i r hactive
    obtain ⟨hr, -⟩ := ProtocolState.activeRequest_eq_some hkeyed hactive
    split at h
    · exact cancelSubmission_moves hkeyed h
    · rename_i a hopen
      split_ifs at h with htime
      · cases d
        case accept => exact settleAccepted_moves hkeyed hr hopen (fun _ => htime) h
        all_goals exact settleRejected_moves hkeyed hr hopen htime h
      · exact settleExpired_moves hkeyed hr hopen (lt_of_not_ge htime) h
    · cases h
      exact .refl m

theorem settleForLane_moves {lane : LaneId} (hkeyed : m.next.Keyed)
    (h : settleForLane m lane = .ok m') : m.Moves m' := by
  unfold settleForLane at h
  split at h
  · cases h
    exact .refl m
  · rename_i r hactive
    obtain ⟨hr, -⟩ := ProtocolState.activeRequest_eq_some hkeyed hactive
    split at h
    · exact cancelSubmission_moves hkeyed h
    · rename_i a hopen
      exact settleAccepted_moves hkeyed hr hopen (fun hs => by cases hs) h
    · cases h
      exact .refl m

theorem cancelRequestSubmission_moves {actor : ActorRef} {v : Version} {reason : CancellationReason}
    (hkeyed : m.next.Keyed) (h : cancelRequestSubmission m actor id v reason = .ok m') :
    m.Moves m' := by
  simp only [cancelRequestSubmission, bind_eq_ok, okOr_eq_ok] at h
  obtain ⟨r, -, h⟩ := h
  split_ifs at h
  · split at h <;> cases h
    exact .refl m
  · simp only [bind_eq_ok, refuseIf_eq_ok, okOr_eq_ok, exists_const] at h
    obtain ⟨-, p, -, -, h⟩ := h
    exact cancelSubmission_moves hkeyed h
  · simp only [bind_eq_ok, refuseIf_eq_ok, exists_const] at h
    exact cancelSubmission_moves hkeyed h.2

theorem expireRequest_moves {v : Version} (hkeyed : m.next.Keyed)
    (h : expireRequest m id v = .ok m') : m.Moves m' := by
  simp only [expireRequest, bind_eq_ok, okOr_eq_ok] at h
  obtain ⟨r, hr, h⟩ := h
  split_ifs at h
  · cases h
    exact .refl m
  · simp only [bind_eq_ok, refuseIf_eq_ok, okOr_eq_ok, exists_const, Bool.not_eq_false] at h
    obtain ⟨-, hopen, a, ha, htime, m₁, hsettle, h⟩ := h
    obtain ⟨a', hopen⟩ := RequestLifecycle.isAwaitingRecipientDecision_iff.mp hopen
    rw [hopen] at ha
    cases ha
    cases h
    exact (settleExpired_moves hkeyed hr hopen (lt_of_not_ge htime) hsettle).pushEvent (.requestExpired id) rfl

/-! ### Payment evidence -/

omit [Crypto] in
theorem voidSubmission_eq_ok (hkeyed : m.next.Keyed) (h : voidSubmission m id = .ok m') :
    (m' = m ∧ ∀ r, m.next.requests.get? id = some r → r.lifecycle.isPreparingSubmission = false) ∨
      ∃ r p version, r.id = id ∧ m.next.requests.get? id = some r ∧
        r.lifecycle = .preparingSubmission p ∧
        m' = ({m with history := m.history.release r.reservation}.setRequest id {r with
          lifecycle := .cancelled p m.event
          version}).pushSchedule (.cancel (.submissionTimeout id)) := by
  unfold voidSubmission at h
  split at h
  · rename_i hnone
    cases h
    exact .inl ⟨rfl, fun r hr => by rw [hnone] at hr; cases hr⟩
  · rename_i r hr
    split at h
    · rename_i p hopen
      simp only [nextRequestVersion, bind_eq_ok, okOr_eq_ok] at h
      obtain ⟨version, -, h⟩ := h
      exact .inr ⟨r, p, version, hkeyed id r hr, hr, hopen, (Except.ok.inj h).symm⟩
    · rename_i hclosed
      cases h
      refine .inl ⟨rfl, fun r' hr' => ?_⟩
      cases hr.symm.trans hr'
      cases hl : r.lifecycle <;> simp_all [RequestLifecycle.isPreparingSubmission]

theorem recordPayment_moves {receipt : SignedPaymentEvidence} (hkeyed : m.next.Keyed)
    (h : recordPayment m id receipt = .ok m') : m.Moves m' := by
  simp only [recordPayment, bind_eq_ok, okOr_eq_ok, mapError_eq_ok] at h
  obtain ⟨f, hf, ⟨f', e⟩, hpaid, h⟩ := h
  dsimp only at h
  split_ifs at h with hvoided
  · obtain ⟨m₁, hvoid, h⟩ := bind_eq_ok.mp h
    cases h
    have hkeyed' : ({m with payments := m.payments.insert id f'} : ManifestBuilder).next.Keyed :=
      hkeyed
    refine Moves.pushEvent ?_ (.paymentRecorded id) rfl
    rcases voidSubmission_eq_ok hkeyed' hvoid with ⟨rfl, hclosed⟩ | ⟨r, p, version, rfl, hr, hopen, rfl⟩
    · exact ⟨.paid hf hpaid fun _ => hclosed, rfl, rfl, rfl⟩
    · have hbook := @pushSchedule_book (applyFinancialEffects
        ({m with
          payments := m.payments.insert r.id f'
          history := m.history.release r.reservation}.setRequest r.id {r with
            lifecycle := .cancelled p m.event
            version}) r.id e) (.cancel (.submissionTimeout r.id)) rfl
      exact ⟨hbook ▸ .voided hr hf hopen hpaid hvoided, rfl, rfl, rfl⟩
  · simp only [ok_bind] at h
    cases h
    refine Moves.pushEvent ?_ (.paymentRecorded id) rfl
    exact ⟨.paid hf hpaid fun hv => absurd hv hvoided, rfl, rfl, rfl⟩

/-! ### Preparing and submitting -/

omit [Crypto] in
theorem validateRequestTerms_eq_ok {context : TransitionContext} {terms : RequestTerms}
    {deadline : CanonicalTime} (h : validateRequestTerms m context terms = .ok deadline) :
    terms.relationship = m.next.relationship.key.reference ∧
      terms.sender = m.next.relationship.key.sender ∧
      terms.recipient = m.next.relationship.key.recipient := by
  simp only [validateRequestTerms, bind_eq_ok, refuseIf_eq_ok, okOr_eq_ok, exists_const, not_or,
    ne_eq, Decidable.not_not] at h
  obtain ⟨-, hmatch, -⟩ := h
  exact ⟨hmatch.2.2.1, hmatch.2.2.2.2.1, hmatch.2.2.2.2.2.1⟩

theorem createRequest_spec {context : TransitionContext} {message : MessageId} {method : Bytes32}
    {terms : RequestTerms} {creationKey : OperationalKeyRef}
    (h : createRequest m context id message method terms creationKey = .ok m') :
    Move m.now m.event m.next.relationship.key m.book m'.book ∧
      m.next.relationship.state ≠ .blocked ∧ m'.messages = m.messages ∧
      m'.book.submissions = m.book.submissions ∧
      ∃ generation, m'.next.relationship = {m.next.relationship with generation} := by
  simp only [createRequest, bind_eq_ok, refuseIf_eq_ok, okOr_eq_ok, mapError_eq_ok, exists_const,
    not_or, Bool.not_eq_true] at h
  obtain ⟨-, hblocked, -, -, deadline, hterms, ⟨hnew, hunpaid⟩, ⟨hclosed, hfree⟩, -, -, -, amount, -,
    -, generation, -, f, hrecord, h⟩ := h
  cases h
  obtain ⟨hhome, hsender, hrecipient⟩ := validateRequestTerms_eq_ok hterms
  refine ⟨?_, hblocked, rfl, by rw [pushEvent_book rfl, pushSchedule_book rfl]; rfl, generation, rfl⟩
  simp only [List.any_eq_false, Bool.not_eq_true, Bool.not_eq_false'] at hclosed
  replace hfree : m.history.pendingSubmission = none := by simpa using hfree
  rw [pushEvent_book rfl, pushSchedule_book rfl]
  have hmove : ∀ r : RelationshipRequest, r.id = id →
      r.lifecycle = .preparingSubmission ⟨deadline⟩ →
      r.funding = (terms.capture id amount method).id → r.terms = terms →
      Move m.now m.event m.next.relationship.key m.book {m.book with
        requests := m.next.requests.insert id r
        payments := m.payments.insert id f
        history := {m.history with pendingSubmission := some r.reservation}
        timers := m.book.timers ++ [.schedule (.submissionTimeout id) deadline]} := by
    rintro r rfl hopen hfunding rfl
    exact .created (SortedMap.contains_eq_false.mp hnew) (SortedMap.contains_eq_false.mp hunpaid)
      hclosed hfree hopen hrecord hfunding.symm hhome hsender hrecipient
  exact hmove _ rfl rfl rfl rfl

omit [Crypto] in
theorem submissionFailure_eq_none {r : RelationshipRequest} {input : RequestSubmissionInput}
    {permission : RequestPermission} (h : submissionFailure m r input permission = .ok none) :
    m.history.earliestNextSubmission ≤ m.now := by
  simp only [submissionFailure, bind_eq_ok, okOr_eq_ok] at h
  obtain ⟨p, -, h⟩ := h
  replace h := Except.ok.inj h
  split_ifs at h with h₁ h₂ h₃ h₄
  exact le_of_not_gt fun hlt => h₄ (.inr hlt)

omit [Crypto] in
theorem submitted_book (kind : RequestId) : (m.pushEvent (.requestSubmitted kind)).book =
    {m.book with submissions := m.book.submissions ++ [kind]} := by
  simp [pushEvent, book, announced, ProtocolEventKind.submitted?]

theorem commitSubmission_move {context : TransitionContext} {input : RequestSubmissionInput}
    {r : RelationshipRequest} (hnow : context.now = m.now) (hid : r.id = input.request)
    (hr : m.next.requests.get? r.id = some r) (hopen : r.lifecycle.isPreparingSubmission = true)
    (hcooled : m.history.earliestNextSubmission ≤ m.now)
    (h : commitSubmission m context input r = .ok m') :
    Move m.now m.event m.next.relationship.key m.book m'.book ∧
      m'.next.relationship = m.next.relationship := by
  obtain ⟨p, hopen⟩ := RequestLifecycle.isPreparingSubmission_iff.mp hopen
  simp only [commitSubmission, validateSubmissionAuthority, nextRequestVersion, bind_eq_ok,
    refuseIf_eq_ok, okOr_eq_ok, exists_const, not_or, Bool.not_eq_false, hnow] at h
  obtain ⟨⟨f, hf, ⟨hfunded, -⟩, -, -⟩, deadline, hdeadline, -, version, -, history, hhistory, h⟩ := h
  simp only [← hid] at h
  cases h
  have hmove : Move m.now m.event m.next.relationship.key m.book _ :=
    .submitted version hr hf hopen hfunded hdeadline hcooled hhistory
  refine ⟨?_, ?_⟩
  · convert hmove using 1
    rw [submitted_book]
    cases m.deliveryRoute <;>
      simp [book, deliver, setRequest, pushSchedule, requestTimers, ScheduleChange.task,
        ScheduleTask.isRequest]
  · cases m.deliveryRoute <;> simp [deliver, pushEvent, setRequest, pushSchedule]

theorem submitRequestToRecipient_spec {context : TransitionContext} {input : RequestSubmissionInput}
    (hnow : context.now = m.now) (hkeyed : m.next.Keyed)
    (h : submitRequestToRecipient m context input = .ok m') :
    Move m.now m.event m.next.relationship.key m.book m'.book ∧
      m.next.relationship.state ≠ .blocked ∧ m'.next.relationship = m.next.relationship := by
  simp only [submitRequestToRecipient, bind_eq_ok, refuseIf_eq_ok, okOr_eq_ok, exists_const] at h
  obtain ⟨hblocked, r, hr, -, h⟩ := h
  split_ifs at h with hopen
  obtain ⟨failure, hfailure, h⟩ := bind_eq_ok.mp h
  cases failure with
  | some reason =>
    obtain ⟨hmove, hrelationship, -, -⟩ := cancelSubmission_moves hkeyed h
    exact ⟨hmove, hblocked, hrelationship⟩
  | none =>
    dsimp only at h
    cases hadmission : context.admission with
    | error e =>
      rw [hadmission] at h
      obtain ⟨hmove, hrelationship, -, -⟩ := cancelSubmission_moves hkeyed h
      exact ⟨hmove, hblocked, hrelationship⟩
    | ok u =>
      rw [hadmission] at h
      have hid := hkeyed _ r hr
      obtain ⟨hmove, hrelationship⟩ := commitSubmission_move hnow hid (hid ▸ hr)
        (Bool.not_eq_false _ ▸ hopen) (submissionFailure_eq_none hfailure) h
      exact ⟨hmove, hblocked, hrelationship⟩

/-! ### The recipient's decisions -/

omit [Crypto] in
theorem terminateLane_spec (h : terminateLane m = .ok m') :
    m'.book = m.book ∧ m'.now = m.now ∧ m'.event = m.event ∧ m'.messages = m.messages ∧
      m'.next.requests = m.next.requests ∧
      ∃ replyEpoch, m'.next.relationship = {m.next.relationship with replyEpoch} := by
  simp only [terminateLane, bind_eq_ok, okOr_eq_ok] at h
  obtain ⟨epoch, -, h⟩ := h
  split at h
  · cases h
    exact ⟨rfl, rfl, rfl, rfl, rfl, _, rfl⟩
  · simp only [bind_eq_ok] at h
    obtain ⟨effect, -, h⟩ := h
    cases effect <;> cases h
    · exact ⟨rfl, rfl, rfl, rfl, rfl, _, rfl⟩
    · refine ⟨?_, rfl, rfl, rfl, rfl, _, rfl⟩
      simp [book, pushSchedule, requestTimers, ScheduleChange.task, ScheduleTask.isRequest]

/-- What a command leaves of the relationship: its key, its history, and a status. -/
structure ManifestBuilder.Leaves (m m' : ManifestBuilder) (state : RelationshipState) : Prop where
  move : Move m.now m.event m.next.relationship.key m.book m'.book
  key : m'.next.relationship.key = m.next.relationship.key
  history : m'.next.relationship.history = m.next.relationship.history
  state : m'.next.relationship.state = state

theorem ManifestBuilder.Moves.leaves (h : m.Moves m') : m.Leaves m' m.next.relationship.state :=
  ⟨h.move, by rw [h.relationship], by rw [h.relationship], by rw [h.relationship]⟩

omit [Crypto] in
/-- The relationship part of a decision: its status, and the lane if contact is blocked. -/
theorem decisionState_spec {d : Decision} {m₁ m₂ : ManifestBuilder}
    (hstate : m.setRelationshipState d.target = .ok m₁)
    (hlane : (if d = .block then terminateLane m₁ else .ok m₁) = .ok m₂) :
    m₂.book = m.book ∧ m₂.now = m.now ∧ m₂.event = m.event ∧ m₂.messages = m.messages ∧
      m₂.next.requests = m.next.requests ∧
      m₂.next.relationship.key = m.next.relationship.key ∧
      m₂.next.relationship.history = m.next.relationship.history ∧
      m₂.next.relationship.state = d.target := by
  obtain ⟨version, -, rfl⟩ := setRelationshipState_eq_ok hstate
  split_ifs at hlane
  · obtain ⟨hbook, hnow, hevent, hmessages, hrequests, epoch, hrelationship⟩ :=
      terminateLane_spec hlane
    exact ⟨hbook, hnow, hevent, hmessages, hrequests, by rw [hrelationship], by rw [hrelationship],
      by rw [hrelationship]⟩
  · cases hlane
    exact ⟨rfl, rfl, rfl, rfl, rfl, rfl, rfl, rfl⟩

omit [Crypto] in
theorem relationshipDecision_eq_ok {v : Version} {d : Decision}
    (h : relationshipDecision m v d = .ok m') :
    (d ≠ .block → m.next.relationship.state ≠ .blocked) ∧ ∃ m₁ m₂ m₃,
      m.setRelationshipState d.target = .ok m₁ ∧
      (if d = .block then terminateLane m₁ else .ok m₁) = .ok m₂ ∧
      decideRequest m₂ d = .ok m₃ ∧ m' = m₃.pushEvent d.event := by
  simp only [relationshipDecision, bind_eq_ok, refuseIf_eq_ok, exists_const, not_and] at h
  obtain ⟨-, -, hblocked, -, m₁, hstate, h⟩ := h
  refine ⟨hblocked, m₁, ?_⟩
  split_ifs at h ⊢ with hd
  all_goals
    obtain ⟨m₂, hlane, h⟩ := bind_eq_ok.mp h
    obtain ⟨m₃, hrequest, h⟩ := bind_eq_ok.mp h
    exact ⟨m₂, m₃, hstate, hlane, hrequest, (Except.ok.inj h).symm⟩

theorem relationshipDecision_leaves {v : Version} {d : Decision} (hkeyed : m.next.Keyed)
    (h : relationshipDecision m v d = .ok m') :
    m.Leaves m' d.target ∧ m'.messages = m.messages ∧
      m'.book.submissions = m.book.submissions ∧
      (d ≠ .block → m.next.relationship.state ≠ .blocked) := by
  obtain ⟨hblocked, m₁, m₂, m₃, hstate, hlane, hrequest, rfl⟩ := relationshipDecision_eq_ok h
  obtain ⟨hbook, hnow, hevent, hmessages, hrequests, hkey, hhistory, htarget⟩ :=
    decisionState_spec hstate hlane
  have hkeyed₂ : m₂.next.Keyed := fun id r hr => hkeyed id r (hrequests ▸ hr)
  have hevent? : d.event.submitted? = none := by cases d <;> rfl
  obtain ⟨hmove, hrelationship, hmessages₃, hquiet⟩ :=
    (decideRequest_moves hkeyed₂ hrequest).pushEvent _ hevent?
  rw [hbook, hnow, hevent, hkey] at hmove
  exact ⟨⟨hmove, hrelationship ▸ hkey, hrelationship ▸ hhistory, hrelationship ▸ htarget⟩,
    hmessages₃.trans hmessages, hquiet.trans (congrArg _ hbook), hblocked⟩

theorem unblock_leaves {v : Version} (h : unblock m v = .ok m') :
    m.Leaves m' .rejected ∧ m'.messages = m.messages ∧
      m'.book.submissions = m.book.submissions := by
  simp only [unblock, bind_eq_ok, refuseIf_eq_ok, exists_const] at h
  obtain ⟨-, -, m₁, hstate, h⟩ := h
  obtain ⟨version, -, rfl⟩ := setRelationshipState_eq_ok hstate
  cases h
  refine ⟨⟨?_, rfl, rfl, rfl⟩, rfl, by rw [pushEvent_book rfl]; rfl⟩
  rw [pushEvent_book rfl]
  exact .kept

theorem revoke_leaves {v : Version} (h : revoke m v = .ok m') :
    m.Leaves m' .revoked ∧ m'.messages = m.messages ∧
      m'.book.submissions = m.book.submissions := by
  simp only [revoke, bind_eq_ok, refuseIf_eq_ok, exists_const] at h
  obtain ⟨-, m₁, hlane, m₂, hstate, h⟩ := h
  obtain ⟨hbook, hnow, hevent, hmessages, hrequests, epoch, hrelationship⟩ :=
    terminateLane_spec hlane
  obtain ⟨version, -, rfl⟩ := setRelationshipState_eq_ok hstate
  cases h
  refine ⟨⟨?_, ?_, ?_, rfl⟩, hmessages, by rw [pushEvent_book rfl, ← hbook]; rfl⟩
  · rw [pushEvent_book rfl, ← hbook]
    exact .kept
  · show m₁.next.relationship.key = _
    rw [hrelationship]
  · show m₁.next.relationship.history = _
    rw [hrelationship]

/-! ### Commands that touch no request -/

theorem setFollowupPolicy_moves {v : Version} {policy : FollowupPolicy}
    (h : setFollowupPolicy m v policy = .ok m') : m.Moves m' := by
  simp only [setFollowupPolicy, bind_eq_ok, refuseIf_eq_ok, okOr_eq_ok, exists_const] at h
  obtain ⟨-, -, version, -, h⟩ := h
  cases h
  refine Moves.pushEvent ?_ .followupPolicyChanged rfl
  exact ⟨.kept, rfl, rfl, rfl⟩

theorem issueTerms_spec {context : TransitionContext} {route : RequestReturnRoute}
    {address : AliasId} {classId : RequestClassId} {quote : QuoteId}
    {digest : Option MessageDeclarationDigest}
    (h : issueTerms m context route address classId quote digest = .ok m') :
    m.Moves m' ∧ m.next.relationship.state ≠ .blocked := by
  unfold issueTerms at h
  split at h
  · simp only [bind_eq_ok, refuseIf_eq_ok, exists_const] at h
    obtain ⟨hblocked, h⟩ := h
    cases h
    refine ⟨Moves.pushEvent ?_ .termsIssued rfl, hblocked⟩
    exact ⟨.kept, rfl, rfl, rfl⟩
  · simp only [bind_eq_ok, refuseIf_eq_ok, exists_const] at h
    obtain ⟨hblocked, h⟩ := h
    split at h
    · cases h
    · cases h
      refine ⟨Moves.pushEvent ?_ .termsIssued rfl, hblocked⟩
      exact ⟨.kept, rfl, rfl, rfl⟩
    · simp only [bind_eq_ok, refuseIf_eq_ok, okOr_eq_ok, exists_const] at h
      obtain ⟨-, -, expiresAt, -, price, -, -, level, -, amount, -, -, h⟩ := h
      cases h
      refine ⟨Moves.pushEvent ?_ .termsIssued rfl, hblocked⟩
      exact ⟨.kept, rfl, rfl, rfl⟩

theorem admitFollowup_spec {message : MessageId} {content : ContentRef} {intent : DeliveryIntentRef}
    {digest : MessageDeclarationDigest} {validUntil : MessageValidityUntil} {v : Version}
    {admission : Except AdmissionFailure Unit}
    (h : admitFollowup m id message content intent digest validUntil v admission = .ok m') :
    Move m.now m.event m.next.relationship.key m.book m'.book ∧
      m.next.relationship.state ≠ .blocked ∧ m'.next.relationship = m.next.relationship ∧
      m'.book.submissions = m.book.submissions := by
  simp only [admitFollowup, bind_eq_ok, refuseIf_eq_ok, okOr_eq_ok, mapError_eq_ok,
    exists_const] at h
  obtain ⟨hblocked, -, r, -, -, -, ⟨⟩, -, -, -, h⟩ := h
  cases h
  refine ⟨?_, hblocked, ?_, by rw [pushEvent_book rfl, deliver_book]; rfl⟩
  · rw [pushEvent_book rfl, deliver_book]
    exact .kept
  · unfold pushEvent deliver
    cases m.deliveryRoute <;> rfl

/-! ### The kernel -/

namespace ProtocolCommand

/-- The status a command leaves the relationship in. -/
def outcome (state : RelationshipState) : ProtocolCommand → RelationshipState
  | acceptRelationship _ => .accepted
  | rejectRelationship _ | unblockRelationship _ => .rejected
  | blockRelationship _ => .blocked
  | revokeRelationship _ => .revoked
  | _ => state

/-- The commands a blocked relationship refuses. -/
def needsContact : ProtocolCommand → Bool
  | admitFollowup .. | issueRequestTerms .. | createRequest .. | submitRequestToRecipient ..
  | acceptRelationship _ | rejectRelationship _ => true
  | _ => false

/-- The commands that may admit a message. -/
def delivers : ProtocolCommand → Bool
  | admitFollowup .. | submitRequestToRecipient .. => true
  | _ => false

end ProtocolCommand

theorem applyCommand_leaves {context : TransitionContext} {actor : ActorRef} {key : OperationalKeyRef}
    {c : ProtocolCommand} (hnow : context.now = m.now) (hkeyed : m.next.Keyed)
    (h : applyCommand m context actor key c = .ok m') :
    m.Leaves m' (c.outcome m.next.relationship.state) ∧
      (c.needsContact = true → m.next.relationship.state ≠ .blocked) ∧
      (c.delivers = false → m'.messages = m.messages) ∧
      (c.submits = false → m'.book.submissions = m.book.submissions) := by
  cases c with
  | recordPayment request receipt =>
    have hmoves := recordPayment_moves hkeyed h
    exact ⟨hmoves.leaves, nofun, fun _ => hmoves.messages, fun _ => hmoves.quiet⟩
  | setFollowupPolicy v policy =>
    have hmoves := setFollowupPolicy_moves h
    exact ⟨hmoves.leaves, nofun, fun _ => hmoves.messages, fun _ => hmoves.quiet⟩
  | admitFollowup =>
    obtain ⟨hmove, hblocked, hrelationship, hquiet⟩ := admitFollowup_spec h
    exact ⟨⟨hmove, by rw [hrelationship], by rw [hrelationship], by rw [hrelationship]; rfl⟩,
      fun _ => hblocked, nofun, fun _ => hquiet⟩
  | issueRequestTerms =>
    obtain ⟨hmoves, hblocked⟩ := issueTerms_spec h
    exact ⟨hmoves.leaves, fun _ => hblocked, fun _ => hmoves.messages, fun _ => hmoves.quiet⟩
  | createRequest =>
    obtain ⟨hmove, hblocked, hmessages, hquiet, generation, hrelationship⟩ := createRequest_spec h
    exact ⟨⟨hmove, by rw [hrelationship], by rw [hrelationship], by rw [hrelationship]; rfl⟩,
      fun _ => hblocked, fun _ => hmessages, fun _ => hquiet⟩
  | submitRequestToRecipient =>
    obtain ⟨hmove, hblocked, hrelationship⟩ := submitRequestToRecipient_spec hnow hkeyed h
    exact ⟨⟨hmove, by rw [hrelationship], by rw [hrelationship], by rw [hrelationship]; rfl⟩,
      fun _ => hblocked, nofun, nofun⟩
  | cancelRequestSubmission request v reason =>
    have hmoves := cancelRequestSubmission_moves hkeyed h
    exact ⟨hmoves.leaves, nofun, fun _ => hmoves.messages, fun _ => hmoves.quiet⟩
  | acceptRelationship v =>
    obtain ⟨hleaves, hmessages, hquiet, hblocked⟩ := relationshipDecision_leaves hkeyed h
    exact ⟨hleaves, fun _ => hblocked nofun, fun _ => hmessages, fun _ => hquiet⟩
  | rejectRelationship v =>
    obtain ⟨hleaves, hmessages, hquiet, hblocked⟩ := relationshipDecision_leaves hkeyed h
    exact ⟨hleaves, fun _ => hblocked nofun, fun _ => hmessages, fun _ => hquiet⟩
  | blockRelationship v =>
    obtain ⟨hleaves, hmessages, hquiet, -⟩ := relationshipDecision_leaves hkeyed h
    exact ⟨hleaves, nofun, fun _ => hmessages, fun _ => hquiet⟩
  | unblockRelationship v =>
    obtain ⟨hleaves, hmessages, hquiet⟩ := unblock_leaves h
    exact ⟨hleaves, nofun, fun _ => hmessages, fun _ => hquiet⟩
  | expireRequest request v =>
    have hmoves := expireRequest_moves hkeyed h
    exact ⟨hmoves.leaves, nofun, fun _ => hmoves.messages, fun _ => hmoves.quiet⟩
  | revokeRelationship v =>
    obtain ⟨hleaves, hmessages, hquiet⟩ := revoke_leaves h
    exact ⟨hleaves, nofun, fun _ => hmessages, fun _ => hquiet⟩

/-- What holds of every manifest the kernel returns. -/
structure Consequence (s : SettlementSnapshot) (context : TransitionContext)
    (state : RelationshipState) (manifest : TransitionManifest) : Prop where
  valid : validateSnapshot s context = .ok ()
  move : Move context.now ⟨context.journalPosition⟩ s.state.relationship.key s.book manifest.book
  key : manifest.nextState.relationship.key = s.state.relationship.key
  history : manifest.nextState.relationship.history = s.state.relationship.history
  state : manifest.nextState.relationship.state = state
  posted : ∃ v, s.ledger.apply manifest.ledgerBatch = .ok v
  revision : manifest.expectedLedgerRevision = s.ledger.revision

variable {s : SettlementSnapshot} {context : TransitionContext} {manifest : TransitionManifest}

omit [Crypto] in
theorem keyed_of_validateSnapshot (h : validateSnapshot s context = .ok ()) : s.state.Keyed := by
  simp only [validateSnapshot, bind_eq_ok] at h
  obtain ⟨-, -, -, -, -, -, ⟨⟩, hvalid, -⟩ := h
  exact ProtocolState.keyed_of_validate hvalid

omit [Crypto] in
theorem finish_next (h : m.finish s = .ok manifest) : manifest.nextState = m.next := by
  simp only [ManifestBuilder.finish, bind_eq_ok] at h
  obtain ⟨v, -, h⟩ := h
  cases h
  rfl

theorem ManifestBuilder.Leaves.finish {state : RelationshipState}
    (hleaves : (ManifestBuilder.new s context).Leaves m state)
    (hvalid : validateSnapshot s context = .ok ()) (h : m.finish s = .ok manifest) :
    Consequence s context state manifest ∧ manifest.nextMessages = m.messages ∧
      manifest.book = m.book := by
  simp only [ManifestBuilder.finish, bind_eq_ok, mapError_eq_ok] at h
  obtain ⟨v, hv, h⟩ := h
  cases h
  exact ⟨⟨hvalid, hleaves.move, hleaves.key, hleaves.history, hleaves.state, ⟨v, hv⟩, rfl⟩, rfl, rfl⟩

/-- **Transitions.** A command that is carried out makes one move, and leaves the
relationship in the status the command gives it. -/
theorem transition_spec {command : KernelCommand ProtocolCommand}
    (h : transition s command context = .ok manifest) :
    Consequence s context (command.command.outcome s.state.relationship.state) manifest ∧
      (command.command.needsContact = true → s.state.relationship.state ≠ .blocked) ∧
      (command.command.delivers = false → manifest.nextMessages = s.messages) ∧
      (command.command.submits = false → manifest.book.submissions = []) := by
  simp only [transition, bind_eq_ok] at h
  obtain ⟨⟨⟩, hvalid, -, -, m, happly, hfinish⟩ := h
  obtain ⟨hleaves, hcontact, hmessages, hquiet⟩ := applyCommand_leaves rfl
    (keyed_of_validateSnapshot hvalid) happly
  obtain ⟨hconsequence, hm, hbook⟩ := hleaves.finish hvalid hfinish
  exact ⟨hconsequence, hcontact, fun hd => hm.trans (hmessages hd), fun hs => hbook ▸ hquiet hs⟩

theorem receiveNativeRequest_spec {incoming : RelationshipRequest}
    (h : receiveNativeRequest s incoming context = .ok (some manifest)) :
    Consequence s context s.state.relationship.state manifest ∧
      s.state.relationship.state ≠ .blocked ∧ manifest.nextMessages = s.messages ∧
      manifest.book.submissions = [] := by
  simp only [receiveNativeRequest, bind_eq_ok, refuseIf_eq_ok, exists_const] at h
  obtain ⟨⟨⟩, hvalid, -, h⟩ := h
  split at h
  · cases h
  · rename_i hrestriction
    split at h
    · cases h
    · simp only [bind_eq_ok, Except.ok.injEq, Option.some.injEq] at h
      obtain ⟨m, hcancel, manifest', hfinish, rfl⟩ := h
      rename_i request _
      have hmoves := (cancelSubmission_moves (m := ManifestBuilder.new s context)
        (keyed_of_validateSnapshot hvalid) hcancel).pushEvent
        (.requestPreparationSuperseded request.id incoming.reservation) rfl
      obtain ⟨hconsequence, hm, hbook⟩ := hmoves.leaves.finish hvalid hfinish
      refine ⟨hconsequence, fun hblocked => ?_, hm.trans hmoves.messages, hbook ▸ hmoves.quiet⟩
      rw [hblocked] at hrestriction
      cases hrestriction

theorem acceptExpressLane_spec {lane : LaneId}
    (h : acceptExpressLane s lane context = .ok manifest) :
    Consequence s context (.expressLane lane) manifest ∧ s.state.relationship.state ≠ .blocked ∧
      manifest.nextMessages = s.messages ∧ manifest.book.submissions = [] := by
  simp only [acceptExpressLane, bind_eq_ok, refuseIf_eq_ok, exists_const] at h
  obtain ⟨⟨⟩, hvalid, hblocked, m₁, hstate, m₂, hsettle, hfinish⟩ := h
  obtain ⟨version, -, rfl⟩ := setRelationshipState_eq_ok hstate
  have hkeyed := keyed_of_validateSnapshot hvalid
  have hmoves := (settleForLane_moves hkeyed hsettle).pushEvent (.relationshipLaneGranted lane) rfl
  have hleaves : (ManifestBuilder.new s context).Leaves _ (.expressLane lane) :=
    ⟨hmoves.move, by rw [hmoves.relationship], by rw [hmoves.relationship],
      by rw [hmoves.relationship]⟩
  obtain ⟨hconsequence, hm, hbook⟩ := hleaves.finish hvalid hfinish
  exact ⟨hconsequence, hblocked, hm.trans hmoves.messages, hbook ▸ hmoves.quiet⟩

end CsMail
