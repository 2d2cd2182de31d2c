import CsMail.Protocol.Kernel

/-! What a command can do to the requests of a relationship.

Handlers touch many fields; what matters to a request's life is its record, its money,
the shared history, the batch to be posted and the timers. These are the request book,
and `Move` lists everything one transition can do to it. Every invariant of the request
lifecycle is checked against this list. -/
namespace CsMail
open Library

def ScheduleTask.isRequest : ScheduleTask → Bool
  | submissionTimeout _ | requestExpiry _ => true
  | laneHorizon _ => false

def ScheduleChange.task : ScheduleChange → ScheduleTask
  | schedule task _ | cancel task => task

def ProtocolEventKind.submitted? : ProtocolEventKind → Option RequestId
  | requestSubmitted id => some id
  | _ => none

structure RequestBook where
  requests : SortedMap RequestId RelationshipRequest
  payments : SortedMap RequestId RequestFinancials
  history : RequestHistory
  batch : LedgerBatch
  /-- The schedule changes about requests. -/
  timers : List ScheduleChange
  /-- The requests whose submission was announced. -/
  submissions : List RequestId

def requestTimers (changes : List ScheduleChange) : List ScheduleChange :=
  changes.filter fun c => c.task.isRequest

def announced (events : List ProtocolEvent) : List RequestId :=
  events.filterMap fun e => e.kind.submitted?

def ManifestBuilder.book (m : ManifestBuilder) : RequestBook where
  requests := m.next.requests
  payments := m.payments
  history := m.history
  batch := m.batch
  timers := requestTimers m.schedules
  submissions := announced m.events

def SettlementSnapshot.book (s : SettlementSnapshot) : RequestBook where
  requests := s.state.requests
  payments := s.payments
  history := s.history
  batch := ∅
  timers := []
  submissions := []

def TransitionManifest.book (m : TransitionManifest) : RequestBook where
  requests := m.nextState.requests
  payments := m.nextPayments
  history := m.nextHistory
  batch := m.ledgerBatch
  timers := requestTimers m.scheduleChanges
  submissions := announced m.protocolEvents

/-! ### How a request ends -/

section
variable (now : CanonicalTime) (event : EventRef)

/-- A request's last lifecycle, the settlement that goes with it, what it does to the
history, and the timer it ends. -/
inductive Ending (h : RequestHistory) (r : RelationshipRequest) :
    RequestLifecycle → RequestSettlement → RequestHistory → ScheduleTask → Prop
  | cancelled {p : SubmissionPreparation} (hopen : r.lifecycle = .preparingSubmission p) :
    Ending h r (.cancelled p event) .cancelled (h.release r.reservation) (.submissionTimeout r.id)
  | accepted {a : RequestSubmission} {permission : AcceptancePermission}
    (hopen : r.lifecycle = .awaitingRecipientDecision a)
    (htime : permission = .standing → now ≤ a.decisionDeadline) :
    Ending h r (.accepted permission a event) .accepted h (.requestExpiry r.id)
  | rejected {a : RequestSubmission} {h' : RequestHistory}
    (hopen : r.lifecycle = .awaitingRecipientDecision a) (htime : now ≤ a.decisionDeadline)
    (hcooldown : h.extendCooldown now r.terms.rejectionCooldown now event = .ok h') :
    Ending h r (.rejected a event) .rejected h' (.requestExpiry r.id)
  | expired {a : RequestSubmission} {h' : RequestHistory}
    (hopen : r.lifecycle = .awaitingRecipientDecision a) (htime : a.decisionDeadline < now)
    (hcooldown : h.extendCooldown a.decisionDeadline r.terms.expiryCooldown now event = .ok h') :
    Ending h r (.expired a event) .expired h' (.requestExpiry r.id)

variable [Crypto] (key : RelationshipKey)

/-- Everything one transition can do to the request book of a relationship. -/
inductive Move (b : RequestBook) : RequestBook → Prop
  | kept : Move b b
  | created {r : RelationshipRequest} {f : RequestFinancials} {capture : PaymentOperation}
    {contract : RequestFinancialContract} {p : SubmissionPreparation}
    (hnew : b.requests.get? r.id = none) (hunpaid : b.payments.get? r.id = none)
    (hclosed : ∀ q ∈ b.requests.values, q.lifecycle.isTerminal = true)
    (hfree : b.history.pendingSubmission = none)
    (hopen : r.lifecycle = .preparingSubmission p)
    (hrecord : RequestFinancials.new capture contract = .ok f) (hfunding : capture.id = r.funding)
    (hhome : r.terms.relationship = key.reference) (hsender : r.terms.sender = key.sender)
    (hrecipient : r.terms.recipient = key.recipient) :
    Move b {b with
      requests := b.requests.insert r.id r
      payments := b.payments.insert r.id f
      history := {b.history with pendingSubmission := some r.reservation}
      timers := b.timers ++ [.schedule (.submissionTimeout r.id) p.deadline]}
  | submitted {r : RelationshipRequest} {f : RequestFinancials} {p : SubmissionPreparation}
    {deadline : CanonicalTime} {h' : RequestHistory} (version : RequestVersion)
    (hr : b.requests.get? r.id = some r) (hf : b.payments.get? r.id = some f)
    (hopen : r.lifecycle = .preparingSubmission p) (hfunded : f.fundingFinalized = true)
    (hdeadline : now.checkedAdd r.terms.decisionWindow = some deadline)
    (hcooled : b.history.earliestNextSubmission ≤ now)
    (hhistory : b.history.recordSubmission r.reservation now r.terms.nextRequestBackoff event =
      .ok h') :
    Move b {b with
      requests := b.requests.insert r.id {r with
        lifecycle := .awaitingRecipientDecision ⟨now, deadline⟩
        version}
      history := h'
      timers := b.timers ++
        [.cancel (.submissionTimeout r.id), .schedule (.requestExpiry r.id) deadline]
      submissions := b.submissions ++ [r.id]}
  | ended {r : RelationshipRequest} {f f' : RequestFinancials} {e : RequestFinancialEffects}
    {l : RequestLifecycle} {s : RequestSettlement} {h' : RequestHistory} {task : ScheduleTask}
    {version : RequestVersion} (hr : b.requests.get? r.id = some r)
    (hf : b.payments.get? r.id = some f) (hsettle : f.settle s now = .ok (f', e))
    (hend : Ending now event b.history r l s h' task) :
    Move b {b with
      requests := b.requests.insert r.id {r with lifecycle := l, version}
      payments := b.payments.insert r.id f'
      history := h'
      batch := b.batch.extend e.postings
      timers := b.timers ++ [.cancel task]}
  | paid {id : RequestId} {f f' : RequestFinancials} {e : RequestFinancialEffects}
    {receipt : SignedPaymentEvidence} (hf : b.payments.get? id = some f)
    (hpaid : f.recordPayment receipt = .ok (f', e))
    (hkept : e.captureVoided = true → ∀ r, b.requests.get? id = some r →
      r.lifecycle.isPreparingSubmission = false) :
    Move b {b with
      payments := b.payments.insert id f'
      batch := b.batch.extend e.postings}
  | voided {r : RelationshipRequest} {f f' : RequestFinancials} {e : RequestFinancialEffects}
    {receipt : SignedPaymentEvidence} {p : SubmissionPreparation} {version : RequestVersion}
    (hr : b.requests.get? r.id = some r) (hf : b.payments.get? r.id = some f)
    (hopen : r.lifecycle = .preparingSubmission p)
    (hpaid : f.recordPayment receipt = .ok (f', e)) (hvoided : e.captureVoided = true) :
    Move b {b with
      requests := b.requests.insert r.id {r with lifecycle := .cancelled p event, version}
      payments := b.payments.insert r.id f'
      history := b.history.release r.reservation
      batch := b.batch.extend e.postings
      timers := b.timers ++ [.cancel (.submissionTimeout r.id)]}

end

end CsMail
