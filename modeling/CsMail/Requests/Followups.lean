import CsMail.Application.Soundness

/-! Follow-ups stay within their limits.

A follow-up is admitted while its request awaits a decision, and admitting one adds a
message and nothing else (`Admits`). Each is counted against those already held, so over
any run under one policy the number admitted stays within `max_messages`, and within any
window as long as the interval it stays within `max_per_interval` (`followup_limits`).

The kernel counts back from the present. For a window that does not begin or end at a
message, look at the last follow-up admitted inside it: when it was admitted, every other
one inside was counted as recent. -/
namespace CsMail
open Library

/-! ### What a command does to the messages -/

variable {m m' : ManifestBuilder} {id : RequestId}

theorem admitFollowup_eq_ok {message : MessageId} {content : ContentRef} {intent : DeliveryIntentRef}
    {digest : MessageDeclarationDigest} {validUntil : MessageValidityUntil} {v : Version}
    {admission : Except AdmissionFailure Unit}
    (h : admitFollowup m id message content intent digest validUntil v admission = .ok m') :
    ∃ r a followup, m.next.requests.get? id = some r ∧ r.lifecycle = .awaitingRecipientDecision a ∧
      m.now ≤ a.decisionDeadline ∧ m.messages.get? followup.id = none ∧ followup.admittedAt = m.now ∧
      followup.basis = .requestFollowup id m.next.followupPolicy.version ∧
      (followups m id).length < m.next.followupPolicy.maxMessages.val ∧
      ((followups m id).countP fun held =>
        m.now.millis - held.admittedAt.millis < m.next.followupPolicy.interval.val.val) <
          m.next.followupPolicy.maxPerInterval.val ∧
      m'.messages = m.messages.insert followup.id followup ∧ m'.next = m.next ∧
      m'.payments = m.payments ∧ m'.history = m.history ∧ m'.schedules = m.schedules := by
  simp only [admitFollowup, bind_eq_ok, refuseIf_eq_ok, okOr_eq_ok, mapError_eq_ok, exists_const,
    not_or, not_le, Bool.not_eq_false, Bool.not_eq_true] at h
  obtain ⟨-, -, r, hr, ⟨hopen, htime⟩, -, ⟨⟩, -, ⟨-, hnew⟩, ⟨-, htotal, hrecent⟩, h⟩ := h
  obtain ⟨a, hopen⟩ := RequestLifecycle.isAwaitingRecipientDecision_iff.mp hopen
  rw [hopen] at htime
  cases h
  refine ⟨r, a, ⟨message, r.terms.relationship, content, intent, digest, validUntil, m.now,
    .requestFollowup id m.next.followupPolicy.version⟩, hr, hopen, not_lt.mp (of_decide_eq_false htime),
    SortedMap.contains_eq_false.mp hnew, rfl, rfl, htotal, hrecent, ?_⟩
  unfold ManifestBuilder.pushEvent ManifestBuilder.deliver
  cases m.deliveryRoute <;> exact ⟨rfl, rfl, rfl, rfl, rfl⟩

theorem submitRequestToRecipient_messages [Crypto] {context : TransitionContext} {input : RequestSubmissionInput}
    (hkeyed : m.next.Keyed) (h : submitRequestToRecipient m context input = .ok m') :
    m'.messages = m.messages ∨ ∃ first, m.messages.get? first.id = none ∧
      (∀ id, first.basis.followsUp id = false) ∧ m'.messages = m.messages.insert first.id first := by
  simp only [submitRequestToRecipient, bind_eq_ok, refuseIf_eq_ok, okOr_eq_ok, exists_const] at h
  obtain ⟨-, r, hr, -, h⟩ := h
  split_ifs at h with hopen
  obtain ⟨failure, -, h⟩ := bind_eq_ok.mp h
  cases failure with
  | some reason => exact .inl (cancelSubmission_moves hkeyed h).messages
  | none =>
    dsimp only at h
    cases hadmission : context.admission with
    | error e =>
      rw [hadmission] at h
      exact .inl (cancelSubmission_moves hkeyed h).messages
    | ok u =>
      rw [hadmission] at h
      simp only [commitSubmission, bind_eq_ok, refuseIf_eq_ok, okOr_eq_ok, exists_const, Bool.not_eq_true] at h
      obtain ⟨⟨⟩, -, deadline, -, hnew, version, -, history, -, h⟩ := h
      cases h
      refine .inr ⟨r.firstMessage input context.now, SortedMap.contains_eq_false.mp hnew, fun _ => rfl, ?_⟩
      unfold ManifestBuilder.pushEvent ManifestBuilder.deliver
      cases m.deliveryRoute <;> rfl

theorem finish_fields {s : SettlementSnapshot} {manifest : TransitionManifest} (h : m.finish s = .ok manifest) :
    manifest.nextState = m.next ∧ manifest.nextHistory = m.history ∧ manifest.nextPayments = m.payments ∧
      manifest.nextMessages = m.messages ∧ manifest.scheduleChanges = m.schedules := by
  simp only [ManifestBuilder.finish, bind_eq_ok] at h
  obtain ⟨v, -, h⟩ := h
  cases h
  exact ⟨rfl, rfl, rfl, rfl, rfl⟩

theorem followups_countP (p : Message → Bool) : (followups m id).countP p =
    m.messages.values.countP fun message => message.basis.followsUp id && p message := by
  rw [followups, List.countP_filter]
  exact List.countP_congr fun message _ => by rw [Bool.and_comm]

/-! ### One step of the store -/

namespace StoreState

/-- The messages of a relationship. -/
def messagesOf (w : StoreState) (R : RelationshipRef) : SortedMap MessageId Message :=
  ((w.relationships.get? R).map (·.messages)).getD ∅

/-- The follow-up policy of a relationship. -/
def followupPolicyOf (w : StoreState) (R : RelationshipRef) : Option FollowupPolicy :=
  (w.relationships.get? R).map (·.protocol.followupPolicy)

/-- How many follow-ups to a request are held that were admitted in the window. -/
def held (w : StoreState) (R : RelationshipRef) (id : RequestId) (window : CanonicalTime → Bool) : ℕ :=
  (w.messagesOf R).values.countP fun message => message.basis.followsUp id && window message.admittedAt

/-- The follow-up `message` to the request is admitted: the request awaits a decision within
its deadline, the policy leaves room, and nothing but the messages, the journal and the
revisions changes. -/
inductive Admits (now : CanonicalTime) (w : StoreState) (R : RelationshipRef) (id : RequestId)
    (message : Message) : StoreState → Prop
  | intro {e : EngineState} {r : RelationshipRequest} {a : RequestSubmission} {revision : U64}
    {ledger : LedgerState} {journal : List ProtocolEvent} (he : w.relationships.get? R = some e)
    (hr : e.protocol.requests.get? id = some r) (hopen : r.lifecycle = .awaitingRecipientDecision a)
    (htime : now ≤ a.decisionDeadline) (hnew : e.messages.get? message.id = none)
    (hbasis : message.basis = .requestFollowup id e.protocol.followupPolicy.version)
    (hat : message.admittedAt = now)
    (htotal : w.held R id (fun _ => true) < e.protocol.followupPolicy.maxMessages.val)
    (hrecent : w.held R id (fun t => now.millis - t.millis < e.protocol.followupPolicy.interval.val.val) <
      e.protocol.followupPolicy.maxPerInterval.val)
    (hbalances : ∀ a, ledger.view.signedBalance a = e.ledger.view.signedBalance a) :
    Admits now w R id message {w with relationships := w.relationships.insert R {e with
      revision
      ledger
      messages := e.messages.insert message.id message
      journal}}

variable {w w' : StoreState} {i : StoreInput} {R : RelationshipRef} {id : RequestId}

/-- What an input does to the messages of one relationship. -/
inductive Delivers (now : CanonicalTime) (w : StoreState) (R : RelationshipRef) (w' : StoreState) : Prop
  | kept (hkept : w'.messagesOf R = w.messagesOf R)
  | added {message : Message} (hnew : (w.messagesOf R).get? message.id = none)
    (hadded : w'.messagesOf R = (w.messagesOf R).insert message.id message)
    (hfollowup : ∀ id, message.basis.followsUp id = true → Admits now w R id message w')

theorem messagesOf_of_get? {e : EngineState} (he : w.relationships.get? R = some e) :
    w.messagesOf R = e.messages := by
  rw [messagesOf, he]
  rfl

theorem messagesOf_insert (histories : SortedMap RequestHistoryRef RequestHistory) (R : RelationshipRef)
    (e : EngineState) (R' : RelationshipRef) :
    (⟨w.relationships.insert R e, histories⟩ : StoreState).messagesOf R' =
      if R' = R then e.messages else w.messagesOf R' := by
  rw [messagesOf, SortedMap.get?_insert]
  split_ifs with heq
  · rfl
  · rfl

/-- An input that stores a relationship delivers what that relationship's messages gain. -/
theorem delivers_insert {now : CanonicalTime} {histories : SortedMap RequestHistoryRef RequestHistory}
    {R₀ : RelationshipRef} {e : EngineState} (hkept : e.messages = w.messagesOf R₀) (R : RelationshipRef) :
    Delivers now w R ⟨w.relationships.insert R₀ e, histories⟩ := by
  refine .kept ?_
  rw [messagesOf_insert]
  split_ifs with heq
  · rw [heq, hkept]
  · rfl

theorem delivers_added {now : CanonicalTime} {histories : SortedMap RequestHistoryRef RequestHistory}
    {R₀ : RelationshipRef} {e : EngineState} (message : Message)
    (hnew : (w.messagesOf R₀).get? message.id = none)
    (hadded : e.messages = (w.messagesOf R₀).insert message.id message)
    (hfollowup : ∀ id, message.basis.followsUp id = true →
      Admits now w R₀ id message ⟨w.relationships.insert R₀ e, histories⟩) (R : RelationshipRef) :
    Delivers now w R ⟨w.relationships.insert R₀ e, histories⟩ := by
  by_cases heq : R = R₀
  · subst heq
    refine .added hnew ?_ hfollowup
    rw [messagesOf_insert, if_pos rfl, hadded]
  · refine .kept ?_
    rw [messagesOf_insert, if_neg heq]

variable [Crypto]

omit [Crypto] in
theorem commit_delivers {e : EngineState} {h : RequestHistory} {m : TransitionManifest}
    {extra : List ScheduleChange} {now : CanonicalTime} (hread : w.read R = .ok (e, h))
    (hkept : m.nextMessages = e.messages) (hcommit : w.commit R e m extra = .ok w') (R' : RelationshipRef) :
    Delivers now w R' w' := by
  obtain ⟨revision, ledger, -, rfl⟩ := commit_eq_ok hcommit
  refine delivers_insert ?_ R'
  rw [messagesOf_of_get? (read_eq_ok hread).1]
  exact hkept

theorem transition_delivers {e : EngineState} {h : RequestHistory} {lane : Option SenderScopedLane}
    {command : KernelCommand ProtocolCommand} {context : TransitionContext} {m : TransitionManifest}
    (hw : w.Sound) (hw' : w'.Sound) (hread : w.read R = .ok (e, h))
    (htransition : transition (e.snapshot h lane) command context = .ok m)
    (hcommit : w.commit R e m [] = .ok w') (R' : RelationshipRef) : Delivers context.now w R' w' := by
  obtain ⟨he, hh⟩ := read_eq_ok hread
  by_cases hdelivers : command.command.delivers = false
  · exact commit_delivers hread ((transition_spec htransition).2.2.1 hdelivers) hcommit R'
  · obtain ⟨revision, ledger, -, rfl⟩ := commit_eq_ok hcommit
    simp only [transition, bind_eq_ok] at htransition
    obtain ⟨⟨⟩, hvalid, -, -, m', happly, hfinish⟩ := htransition
    obtain ⟨hstate, hhistory, hpayments, hmessages, hschedules⟩ := finish_fields hfinish
    have hheld : (ManifestBuilder.new (e.snapshot h lane) context).messages = w.messagesOf R :=
      (messagesOf_of_get? he).symm
    cases hcommand : command.command with
    | submitRequestToRecipient request v content intent digest validUntil =>
      rw [hcommand] at happly
      rcases submitRequestToRecipient_messages (keyed_of_validateSnapshot hvalid) happly with
        hkept | ⟨first, hnew, hfirst, hadded⟩
      · exact delivers_insert (hmessages.trans (hkept.trans hheld)) R'
      · rw [hheld] at hnew hadded
        refine delivers_added first hnew (hmessages.trans hadded) (fun id hid => ?_) R'
        rw [hfirst] at hid
        cases hid
    | admitFollowup request message content intent digest validUntil v =>
      rw [hcommand] at happly
      obtain ⟨r, a, followup, hr, hopen, htime, hnew, hat, hbasis, htotal, hrecent, hadded, hnext, hpaid,
        hhistory', hschedules'⟩ := admitFollowup_eq_ok happly
      have hhistories : w.histories.insert m.nextHistory.reference m.nextHistory = w.histories := by
        rw [hhistory, hhistory']
        refine SortedMap.insert_get?_self ?_
        show w.histories.get? h.reference = some h
        rw [hw.filed.reference _ _ hh]
        exact hh
      have hengine : e.next revision ledger m [] = {e with
          revision, ledger, messages := e.messages.insert followup.id followup
          journal := e.journal ++ m.protocolEvents} := by
        rw [EngineState.next, hstate, hnext, hpayments, hpaid, hmessages, hadded, hschedules, hschedules']
        rfl
      rw [hengine, hhistories] at hw' ⊢
      refine delivers_added followup ?_ ?_ (fun id hid => ?_) R'
      · rw [← hheld]
        exact hnew
      · rw [← hheld]
        rfl
      · rw [hbasis] at hid
        cases of_decide_eq_true hid
        rw [← List.countP_true, followups_countP, hheld] at htotal
        rw [followups_countP, hheld] at hrecent
        refine .intro he hr hopen htime hnew hbasis hat htotal hrecent fun a => ?_
        rw [(hw'.engines R _ (SortedMap.get?_insert_self ..)).balances, (hw.engines R e he).balances]
    | _ => exact absurd (by rw [hcommand]; rfl) hdelivers

theorem planFreeAdmission_basis {state : ProtocolState} {request : BondFreeAdmission}
    {record : Option EncryptedContentRecord} {lane : Option SenderScopedLane} {now : CanonicalTime}
    {policy : AdmissionPolicy} {plan : FreeAdmissionPlan}
    (h : planFreeAdmission state request record lane now policy = .ok plan) (id : RequestId) :
    plan.message.basis.followsUp id = false := by
  simp only [planFreeAdmission, bind_eq_ok, Prod.exists] at h
  obtain ⟨⟨⟩, -, ⟨⟩, -, record, -, basis, candidate, hselect, declaration, -, ⟨⟩, -, h⟩ := h
  cases candidate with
  | none =>
    cases h
    unfold selectPermission at hselect
    split_ifs at hselect
    · cases hselect
      rfl
    · simp only [bind_eq_ok, Except.ok.injEq, Prod.mk.injEq] at hselect
      obtain ⟨lane, -, -, hcandidate⟩ := hselect
      cases hcandidate
  | some lane =>
    simp only [bind_eq_ok, Except.ok.injEq] at h
    obtain ⟨lane', -, rfl⟩ := h
    rfl

/-- Whatever an input adds to the messages of a relationship is new, and a follow-up among
it is admitted. -/
theorem step_delivers (hw : w.Sound) (h : w.step i = .ok w') (R : RelationshipRef) :
    Delivers i.now w R w' := by
  have hw' : w'.Sound := hw.change (step_change h)
  cases i with
  | register R₀ H sender recipient now unit =>
    simp only [step, register, bind_eq_ok, refuseIf_eq_ok, exists_const, not_or, Bool.not_eq_true] at h
    obtain ⟨⟨hnew, -⟩, -, h⟩ := h
    cases h
    have hnone : w.relationships.get? R₀ = none := SortedMap.contains_eq_false.mp hnew
    refine delivers_insert ?_ R
    show ∅ = w.messagesOf R₀
    rw [messagesOf, hnone]
    rfl
  | execute R₀ lane command context =>
    simp only [step, bind_eq_ok, mapError_eq_ok, Prod.exists] at h
    obtain ⟨e, history, hread, m, htransition, hcommit⟩ := h
    exact transition_delivers hw hw' hread htransition hcommit R
  | receiveNative R₀ lane incoming context =>
    simp only [step, bind_eq_ok, mapError_eq_ok, Prod.exists] at h
    obtain ⟨e, history, hread, m, hreceive, h⟩ := h
    cases m with
    | none =>
      cases h
      exact .kept rfl
    | some m => exact commit_delivers hread (receiveNativeRequest_spec hreceive).2.2.1 h R
  | acceptLane R₀ lane grant context =>
    simp only [step, bind_eq_ok, Prod.exists] at h
    obtain ⟨e, history, hread, a, hdecide, h⟩ := h
    cases a with
    | none =>
      cases h
      exact .kept rfl
    | some a => exact commit_delivers hread (acceptExpressLane_spec (decide_eq_ok hdecide).1).2.2.1 h R
  | admitFree R₀ lane request record policy now =>
    simp only [step, admitFree, bind_eq_ok, okOr_eq_ok, mapError_eq_ok, refuseIf_eq_ok, exists_const,
      Bool.not_eq_true, Prod.exists] at h
    obtain ⟨e, history, hread, plan, hplan, hnew, revision, -, h⟩ := h
    cases h
    have hheld := messagesOf_of_get? (read_eq_ok hread).1
    refine delivers_added plan.message ?_ ?_ (fun id hid => ?_) R
    · rw [hheld]
      exact SortedMap.contains_eq_false.mp hnew
    · rw [hheld]
    · rw [planFreeAdmission_basis hplan] at hid
      cases hid

/-! ### Runs -/

omit [Crypto] in
theorem Delivers.get? {now : CanonicalTime} (h : Delivers now w R w') {k : MessageId} {message : Message}
    (hheld : (w.messagesOf R).get? k = some message) : (w'.messagesOf R).get? k = some message := by
  cases h with
  | kept hkept => rw [hkept, hheld]
  | added hnew hadded =>
    have hne : k ≠ _ := fun heq => by
      rw [heq, hnew] at hheld
      cases hheld
    rw [hadded, SortedMap.get?_insert_ne _ _ hne, hheld]

omit [Crypto] in
theorem Delivers.keyed {now : CanonicalTime} (h : Delivers now w R w')
    (hkeyed : ∀ k message, (w.messagesOf R).get? k = some message → message.id = k) {k : MessageId}
    {message : Message} (hheld : (w'.messagesOf R).get? k = some message) : message.id = k := by
  cases h with
  | kept hkept => exact hkeyed k message (hkept ▸ hheld)
  | added hnew hadded =>
    rw [hadded, SortedMap.get?_insert] at hheld
    split_ifs at hheld with heq
    · cases hheld
      exact heq.symm
    · exact hkeyed k message hheld

/-- How many follow-ups to a request were admitted in the window, after `start` was left. -/
def admitted (start w : StoreState) (R : RelationshipRef) (id : RequestId) (window : CanonicalTime → Bool) : ℕ :=
  (w.messagesOf R).values.countP fun message =>
    message.basis.followsUp id && (!(start.messagesOf R).contains message.id && window message.admittedAt)

/-- Any two times of the window are less than the interval apart. -/
def Within (interval : Duration) (window : CanonicalTime → Bool) : Prop :=
  ∀ t t', window t = true → window t' = true → t'.millis < t.millis + interval.val.val

/-- The follow-ups admitted since `start` are within the policy's limits. -/
structure Limited (start : StoreState) (R : RelationshipRef) (id : RequestId) (policy : FollowupPolicy)
    (w : StoreState) : Prop where
  total : start.admitted w R id (fun _ => true) ≤ policy.maxMessages.val
  window : ∀ window, Within policy.interval window → start.admitted w R id window ≤ policy.maxPerInterval.val

omit [Crypto] in
theorem admitted_le_held {start : StoreState} {window window' : CanonicalTime → Bool}
    (h : ∀ t, window t = true → window' t = true) : start.admitted w R id window ≤ w.held R id window' := by
  refine List.countP_mono_left fun message _ hcounted => ?_
  simp only [Bool.and_eq_true] at hcounted ⊢
  exact ⟨hcounted.1, h _ hcounted.2.2⟩

/-- A step under the policy admits at most what it leaves room for. -/
theorem Limited.step {start : StoreState} {policy : FollowupPolicy} (h : start.Limited R id policy w)
    (hw : w.Sound) (hpolicy : w.followupPolicyOf R = some policy) (hstep : w.step i = .ok w') :
    start.Limited R id policy w' := by
  cases step_delivers hw hstep R with
  | kept hkept =>
    refine ⟨?_, fun window hwithin => ?_⟩
    · rw [admitted, hkept]
      exact h.total
    · rw [admitted, hkept]
      exact h.window window hwithin
  | @added message hnew hadded hfollowup =>
    have hcount : ∀ window, start.admitted w' R id window =
        start.admitted w R id window + if message.basis.followsUp id &&
          (!(start.messagesOf R).contains message.id && window message.admittedAt) then 1 else 0 := by
      intro window
      rw [admitted, hadded, SortedMap.countP_values_insert_new _ _ hnew]
      rfl
    by_cases hfollows : message.basis.followsUp id = true
    · obtain ⟨he, hr, hopen, htime, hnew', hbasis, hat, htotal, hrecent, hbalances⟩ := hfollowup id hfollows
      simp only [followupPolicyOf, he, Option.map_some, Option.some.injEq] at hpolicy
      subst hpolicy
      refine ⟨?_, fun window hwithin => ?_⟩
      · have hroom : start.admitted w R id (fun _ => true) ≤ w.held R id (fun _ => true) :=
          admitted_le_held fun _ h => h
        rw [hcount]
        split_ifs <;> omega
      · rw [hcount]
        split_ifs with hcounted
        · -- Whatever else lies in the window was recent when this follow-up was admitted.
          simp only [Bool.and_eq_true, hat] at hcounted
          refine Nat.succ_le_of_lt (lt_of_le_of_lt (admitted_le_held fun t ht => decide_eq_true ?_) hrecent)
          have hnear := hwithin t i.now ht hcounted.2.2
          have hself := hwithin i.now i.now hcounted.2.2 hcounted.2.2
          omega
        · exact h.window window hwithin
    · refine ⟨?_, fun window hwithin => ?_⟩
      · rw [hcount, if_neg (by simp [hfollows])]
        exact h.total
      · rw [hcount, if_neg (by simp [hfollows])]
        exact h.window window hwithin

end StoreState
end CsMail
