import CsMail.Requests.Agreement

/-! Timers track the lifecycle.

Every handler that opens, submits or ends a request emits its own schedule changes; the
host applies them in order. `Timed` says that the timers about requests are then exactly
those the lifecycles call for. -/
namespace CsMail
open Library

namespace RequestLifecycle

/-- When the preparation of a request in this lifecycle times out. -/
def timeoutAt : RequestLifecycle → Option CanonicalTime
  | preparingSubmission p => some p.deadline
  | _ => none

/-- When the decision about a request in this lifecycle expires. -/
def expiryAt : RequestLifecycle → Option CanonicalTime
  | awaitingRecipientDecision a => some a.decisionDeadline
  | _ => none

theorem timers_of_terminal {l : RequestLifecycle} (h : l.isTerminal = true) :
    l.timeoutAt = none ∧ l.expiryAt = none := by
  cases l <;> simp_all [isTerminal, timeoutAt, expiryAt]

end RequestLifecycle

section
variable {timers timers' : SortedMap ScheduleTask CanonicalTime}
  {requests : SortedMap RequestId RelationshipRequest}

@[simp] theorem get?_schedule (t task : ScheduleTask) (due : CanonicalTime) :
    (applyScheduleChange timers (.schedule t due)).get? task =
      if task = t then some due else timers.get? task := by
  rw [applyScheduleChange, SortedMap.get?_insert]
  congr

@[simp] theorem get?_cancel (t task : ScheduleTask) :
    (applyScheduleChange timers (.cancel t)).get? task =
      if task = t then none else timers.get? task := by
  rw [applyScheduleChange, SortedMap.get?_erase]
  congr

@[simp] theorem applyScheduleChanges_nil : applyScheduleChanges timers [] = timers := rfl

@[simp] theorem applyScheduleChanges_cons (c : ScheduleChange) (rest : List ScheduleChange) :
    applyScheduleChanges timers (c :: rest) = applyScheduleChanges (applyScheduleChange timers c) rest :=
  rfl

/-- A change sees of the timers only the task that is asked for. -/
theorem get?_change_congr {task : ScheduleTask} (c : ScheduleChange)
    (hsame : timers.get? task = timers'.get? task) :
    (applyScheduleChange timers c).get? task = (applyScheduleChange timers' c).get? task := by
  cases c <;> simp [hsame]

theorem get?_change_other {task : ScheduleTask} {c : ScheduleChange} (hne : task ≠ c.task) :
    (applyScheduleChange timers c).get? task = timers.get? task := by
  cases c <;> simp_all [ScheduleChange.task]

/-- The changes about other tasks do not matter to the timers about requests. -/
theorem get?_requestTimers {task : ScheduleTask} (htask : task.isRequest = true)
    (changes : List ScheduleChange) (hsame : timers.get? task = timers'.get? task) :
    (applyScheduleChanges timers changes).get? task =
      (applyScheduleChanges timers' (requestTimers changes)).get? task := by
  induction changes generalizing timers timers' with
  | nil => exact hsame
  | cons c rest ih =>
    by_cases hc : c.task.isRequest = true
    · have hfilter : requestTimers (c :: rest) = c :: requestTimers rest := by
        simp [requestTimers, hc]
      rw [hfilter, applyScheduleChanges_cons, applyScheduleChanges_cons]
      exact ih (get?_change_congr c hsame)
    · have hfilter : requestTimers (c :: rest) = requestTimers rest := by
        simp [requestTimers, hc]
      rw [hfilter, applyScheduleChanges_cons]
      refine ih ((get?_change_other ?_).trans hsame)
      rintro rfl
      exact hc htask

/-- The timers about requests are exactly those the lifecycles call for. -/
structure Timed (timers : SortedMap ScheduleTask CanonicalTime)
    (requests : SortedMap RequestId RelationshipRequest) : Prop where
  timeout : ∀ id, timers.get? (.submissionTimeout id) =
    (requests.get? id).bind fun r => r.lifecycle.timeoutAt
  expiry : ∀ id, timers.get? (.requestExpiry id) =
    (requests.get? id).bind fun r => r.lifecycle.expiryAt

namespace Timed

/-- Changes to one request's timers that leave what its new lifecycle calls for. -/
theorem update (h : Timed timers requests) (changes : List ScheduleChange) {id : RequestId}
    {r : RelationshipRequest}
    (hother : ∀ task, task ≠ .submissionTimeout id → task ≠ .requestExpiry id →
      (applyScheduleChanges timers changes).get? task = timers.get? task)
    (htimeout : (applyScheduleChanges timers changes).get? (.submissionTimeout id) =
      r.lifecycle.timeoutAt)
    (hexpiry : (applyScheduleChanges timers changes).get? (.requestExpiry id) =
      r.lifecycle.expiryAt) :
    Timed (applyScheduleChanges timers changes) (requests.insert id r) := by
  constructor
  · intro id'
    rw [SortedMap.get?_insert]
    by_cases heq : id' = id
    · rw [if_pos heq, heq, htimeout]
      rfl
    · rw [if_neg heq, hother _ (by simpa using heq) (by simp), h.timeout]
  · intro id'
    rw [SortedMap.get?_insert]
    by_cases heq : id' = id
    · rw [if_pos heq, heq, hexpiry]
      rfl
    · rw [if_neg heq, hother _ (by simp) (by simpa using heq), h.expiry]

/-- The end of a preparation. -/
theorem cancel_timeout (h : Timed timers requests) {r r' : RelationshipRequest}
    {p : SubmissionPreparation} (hr : requests.get? r.id = some r)
    (hopen : r.lifecycle = .preparingSubmission p) (hclosed : r'.lifecycle.isTerminal = true) :
    Timed (applyScheduleChanges timers [.cancel (.submissionTimeout r.id)])
      (requests.insert r.id r') := by
  obtain ⟨htimeout, hexpiry⟩ := RequestLifecycle.timers_of_terminal hclosed
  refine h.update _ (fun task hne _ => by simp [hne]) (by simp [htimeout]) ?_
  rw [hexpiry]
  simp [h.expiry, hr, hopen, RequestLifecycle.expiryAt]

/-- The end of an awaited decision. -/
theorem cancel_expiry (h : Timed timers requests) {r r' : RelationshipRequest}
    {a : RequestSubmission} (hr : requests.get? r.id = some r)
    (hopen : r.lifecycle = .awaitingRecipientDecision a) (hclosed : r'.lifecycle.isTerminal = true) :
    Timed (applyScheduleChanges timers [.cancel (.requestExpiry r.id)])
      (requests.insert r.id r') := by
  obtain ⟨htimeout, hexpiry⟩ := RequestLifecycle.timers_of_terminal hclosed
  refine h.update _ (fun task _ hne => by simp [hne]) ?_ (by simp [hexpiry])
  rw [htimeout]
  simp [h.timeout, hr, hopen, RequestLifecycle.timeoutAt]

end Timed
end

section
variable [Crypto] {now : CanonicalTime} {event : EventRef} {key : RelationshipKey} {b b' : RequestBook}
  {timers : SortedMap ScheduleTask CanonicalTime}

/-- **Moves carry their timers.** -/
theorem Move.timed (hbefore : b.timers = []) (ht : Timed timers b.requests)
    (h : Move now event key b b') : Timed (applyScheduleChanges timers b'.timers) b'.requests := by
  cases h with
  | kept | paid =>
    rw [hbefore]
    exact ht
  | @created r f capture contract p hnew hunpaid hclosed hfree hopen =>
    show Timed (applyScheduleChanges timers (b.timers ++ _)) _
    rw [hbefore, List.nil_append]
    refine ht.update _ (fun task hne _ => by simp [hne]) ?_ ?_
    · simp [hopen, RequestLifecycle.timeoutAt]
    · simp [ht.expiry, hnew, hopen, RequestLifecycle.expiryAt]
  | @submitted r f p deadline h' version hr hf hopen =>
    show Timed (applyScheduleChanges timers (b.timers ++ _)) _
    rw [hbefore, List.nil_append]
    exact ht.update _ (fun task hne hne' => by simp [hne, hne'])
      (by simp [RequestLifecycle.timeoutAt]) (by simp [RequestLifecycle.expiryAt])
  | @ended r f f' e l s h' task version hr hf hsettle hend =>
    show Timed (applyScheduleChanges timers (b.timers ++ _)) _
    rw [hbefore, List.nil_append]
    cases hend with
    | cancelled hopen => exact ht.cancel_timeout hr hopen rfl
    | accepted hopen | rejected hopen | expired hopen => exact ht.cancel_expiry hr hopen rfl
  | @voided r f f' e receipt p version hr hf hopen =>
    show Timed (applyScheduleChanges timers (b.timers ++ _)) _
    rw [hbefore, List.nil_append]
    exact ht.cancel_timeout hr hopen rfl

end

/-- Changes about other tasks keep the timers about requests. -/
theorem Timed.apply {timers : SortedMap ScheduleTask CanonicalTime}
    {requests : SortedMap RequestId RelationshipRequest} {changes : List ScheduleChange}
    (h : Timed (applyScheduleChanges timers (requestTimers changes)) requests) :
    Timed (applyScheduleChanges timers changes) requests :=
  ⟨fun id => (get?_requestTimers rfl changes rfl).trans (h.timeout id),
    fun id => (get?_requestTimers rfl changes rfl).trans (h.expiry id)⟩

theorem requestTimers_unrelated {changes : List ScheduleChange} (h : Unrelated changes) :
    requestTimers changes = [] :=
  List.filter_eq_nil_iff.mpr fun c hc => by rw [h c hc]; nofun

/-- **Timers track the lifecycle.** In every state a run reaches, a relationship holds one
submission timeout for each request being prepared, at its submission deadline, one expiry
for each awaited request, at its decision deadline, and no other timer about a request. -/
theorem timers_track [Crypto] (inputs : List StoreInput) (R : RelationshipRef) (e : EngineState)
    (he : (StoreState.run inputs).relationships.get? R = some e) :
    Timed e.schedules e.protocol.requests := by
  refine StoreState.run_invariant (P := fun w => ∀ R e, w.relationships.get? R = some e →
    Timed e.schedules e.protocol.requests) nofun ?_ inputs R e he
  intro now w w' hw hchange
  refine StoreState.change_engine (P := fun _ e => Timed e.schedules e.protocol.requests) ?_ ?_ ?_
    hw hchange
  · exact fun R H sender recipient now unit => ⟨fun _ => rfl, fun _ => rfl⟩
  · intro R e h lane context state m revision ledger extra ht hconsequence hledger hextra
    refine Timed.apply ?_
    rw [requestTimers, List.filter_append, ← requestTimers, ← requestTimers,
      requestTimers_unrelated hextra, List.append_nil]
    exact hconsequence.move.timed rfl ht
  · intro R e revision messages extra ht hextra
    refine Timed.apply ?_
    rw [requestTimers_unrelated hextra]
    exact ht

/-- The submitted request of the example has its expiry and no timeout any more. -/
theorem timers_track_awaited :
    Example.engine.schedules.get? (.requestExpiry Example.request) = some ⟨1104⟩ ∧
      Example.engine.schedules.get? (.submissionTimeout Example.request) = none := by
  obtain ⟨htimeout, hexpiry⟩ := @timers_track Example.crypto Example.run Example.relationship
    Example.engine Example.engine_eq
  constructor
  · rw [hexpiry, Example.awaited_eq, Option.bind_some, Example.awaited_lifecycle]
    rfl
  · rw [htimeout, Example.awaited_eq, Option.bind_some, Example.awaited_lifecycle]
    rfl

end CsMail
