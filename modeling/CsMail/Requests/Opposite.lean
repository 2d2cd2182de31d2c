import CsMail.Application.IngressProofs
import CsMail.Requests.Lifecycle

/-! Requests in opposite directions.

A request from one member to another and one back never both await a decision: a
submission checks the other direction's open window and ends its preparation. The windows
of any two that were ever submitted are disjoint (`Apart`), whatever the order of the
inputs; what is left for the times is that no window opens before its submission. -/
namespace CsMail
open Library

namespace StoreState

/-- The relationship joins the pair in this direction. -/
def Joins (w : StoreState) (R : RelationshipRef) (sender recipient : ProtocolIdentity) : Prop :=
  ∃ e, w.relationships.get? R = some e ∧ e.protocol.relationship.key.sender = sender ∧
    e.protocol.relationship.key.recipient = recipient

/-- A stored request awaits its decision. -/
def Awaiting (w : StoreState) (R : RelationshipRef) (id : RequestId) (a : RequestSubmission) : Prop :=
  ∃ e r, w.relationships.get? R = some e ∧ e.protocol.requests.get? id = some r ∧
    r.lifecycle = .awaitingRecipientDecision a

/-- The windows of opposite requests between members are disjoint. -/
def Apart (guest : ProtocolIdentity → Bool) (w : StoreState) : Prop :=
  ∀ A B, guest A = false → guest B = false → ∀ R R', R ≠ R' → w.Joins R A B → w.Joins R' B A →
    ∀ id id' a a', w.Awaiting R id a → w.Awaiting R' id' a' →
      a.decisionDeadline < a'.submittedAt ∨ a'.decisionDeadline < a.submittedAt

end StoreState

variable [Crypto]

/-! ### What a step submits -/

section
variable {now : CanonicalTime} {event : EventRef} {key : RelationshipKey} {b b' : RequestBook}

/-- An awaited request was awaited before the move, or the move has submitted it. -/
theorem Move.awaiting (h : Move now event key b b') {id : RequestId} {r : RelationshipRequest}
    {a : RequestSubmission} (hr : b'.requests.get? id = some r)
    (hawaiting : r.lifecycle = .awaitingRecipientDecision a) :
    b.requests.get? id = some r ∨ a.submittedAt = now ∧ b'.submissions = b.submissions ++ [id] := by
  obtain ⟨q, hq⟩ := h.known hr (by rw [hawaiting]; rfl)
  rcases h.requests_cases with ⟨hkept, -⟩ | ⟨q', l, version, hq', hadvance, hrequests, hannounced⟩
  · left
    rw [← hr, hkept id q hq, hq]
  · rw [hrequests, SortedMap.get?_insert] at hr
    split_ifs at hr with hid
    · cases hr
      simp only at hawaiting
      subst hawaiting
      right
      cases hadvance with
      | submitted => exact ⟨rfl, by rw [hannounced, hid]; rfl⟩
      | ended hend => cases hend
    · exact .inl hr

end

namespace StoreState
variable {w w' : StoreState} {now : CanonicalTime} {R R' : RelationshipRef} {id : RequestId}
  {a : RequestSubmission} {A B : ProtocolIdentity}

/-- Relationships keep their pairs. -/
theorem Change.pair (h : Change now w w') {e : EngineState} (he : w.relationships.get? R = some e) :
    ∃ e', w'.relationships.get? R = some e' ∧
      e'.protocol.relationship.key = e.protocol.relationship.key := by
  have hinsert : ∀ (R' : RelationshipRef) (e' : EngineState),
      (R = R' → e'.protocol.relationship.key = e.protocol.relationship.key) →
      ∃ e₁, (w.relationships.insert R' e').get? R = some e₁ ∧
        e₁.protocol.relationship.key = e.protocol.relationship.key := by
    intro R' e' hkey
    rw [SortedMap.get?_insert]
    split_ifs with hR
    · exact ⟨e', rfl, hkey hR⟩
    · exact ⟨e, he, rfl⟩
  cases h with
  | kept => exact ⟨e, he, rfl⟩
  | registered hnew =>
    refine hinsert _ _ fun hR => ?_
    rw [← hR, he] at hnew
    cases hnew
  | committed he' hh hnow hconsequence =>
    refine hinsert _ _ fun hR => ?_
    rw [← hR, he] at he'
    cases he'
    exact hconsequence.key
  | delivered he' =>
    refine hinsert _ _ fun hR => ?_
    rw [← hR, he] at he'
    cases he'
    rfl

theorem Joins.back (hchange : Change now w w') {e : EngineState}
    (he : w.relationships.get? R = some e) (h : w'.Joins R A B) : w.Joins R A B := by
  obtain ⟨e', he', hkey⟩ := Change.pair hchange he
  obtain ⟨e₁, he₁, hsender, hrecipient⟩ := h
  cases he'.symm.trans he₁
  rw [hkey] at hsender hrecipient
  exact ⟨e, he, hsender, hrecipient⟩

variable {context : TransitionContext} {e : EngineState} {h : RequestHistory} {m : TransitionManifest}

/-- What awaits after a commit awaited before it, or is what the commit submitted. -/
theorem Commits.awaiting (hcommits : Commits context w R e h m w') (hawaiting : w'.Awaiting R' id a) :
    w.Awaiting R' id a ∨ R' = R ∧ a.submittedAt = context.now ∧ m.book.submissions = [id] ∧
      ∃ r, m.nextState.requests.get? id = some r := by
  obtain ⟨he, -, ⟨lane, state, hconsequence⟩, revision, ledger, extra, -, -, rfl⟩ := hcommits
  obtain ⟨e', r, he', hr, hopen⟩ := hawaiting
  rw [SortedMap.get?_insert] at he'
  split_ifs at he' with hR
  · cases he'
    rcases hconsequence.move.awaiting hr hopen with hbefore | ⟨htime, hsubmitted⟩
    · exact .inl ⟨e, r, hR ▸ he, hbefore, hopen⟩
    · exact .inr ⟨hR, htime, hsubmitted, r, hr⟩
  · exact .inl ⟨e', r, he', hr, hopen⟩

variable [Documents] {guest : ProtocolIdentity → Bool} {d : RequestDecision}

/-- Of a decision over both directions, only the forward one submits. -/
theorem Coordinated.awaiting (hcoordinated : Coordinated context w R e h d w')
    (hawaiting : w'.Awaiting R' id a) : w.Awaiting R' id a ∨
      R' = R ∧ a.submittedAt = context.now ∧ d.forward.book.submissions = [id] ∧
        ∃ r, d.forward.nextState.requests.get? id = some r := by
  cases hcoordinated with
  | alone hforward => exact hforward.awaiting hawaiting
  | both hforward hsome hne he' hrelationship hreverse hquiet =>
    rcases hreverse.awaiting hawaiting with hbefore | ⟨-, -, hsubmitted, -⟩
    · exact hforward.awaiting hbefore
    · rw [hquiet] at hsubmitted
      cases hsubmitted

/-- **Every submission is a decision over both directions.** -/
theorem ingress_submission (hw : w.Sound) (hpaired : w.Paired) {i : IngressInput}
    (hstep : w.ingress guest i = .ok w') (hawaiting : w'.Awaiting R id a)
    (hnew : ¬w.Awaiting R id a) :
    ∃ records command context document, i = .protocol R records command context document ∧
      ∃ e h counterparty context' d,
        Protocol guest w R records command context.now e h counterparty context' d w' ∧
        a.submittedAt = context.now ∧ command.command.submits = true ∧
        d.forward.book.submissions = [id] ∧ ∃ r, d.forward.nextState.requests.get? id = some r := by
  cases i with
  | register R' H sender recipient now unit =>
    simp only [ingress, register, bind_eq_ok, refuseIf_eq_ok, exists_const] at hstep
    obtain ⟨-, -, hstep⟩ := hstep
    cases hstep
    refine absurd ?_ hnew
    obtain ⟨e', r, he', hr, hopen⟩ := hawaiting
    rw [SortedMap.get?_insert] at he'
    split_ifs at he' with hR
    · cases he'
      simp [EngineState.new, ProtocolState.initialScoped] at hr
    · exact ⟨e', r, he', hr, hopen⟩
  | protocol R' records command context document =>
    obtain ⟨e, h, counterparty, context', d, hprotocol⟩ := applyProtocol_eq_ok hw hpaired hstep
    rcases hprotocol.coordinated.awaiting hawaiting with hbefore | ⟨rfl, htime, hsubmitted, hr⟩
    · exact absurd hbefore hnew
    refine ⟨records, command, context, document, rfl, e, h, counterparty, context', d, hprotocol,
      htime.trans hprotocol.time, ?_, hsubmitted, hr⟩
    by_contra hsubmits
    have hquiet := (transition_spec hprotocol.transition).2.2.2 (Bool.not_eq_true _ ▸ hsubmits)
    rw [hsubmitted] at hquiet
    cases hquiet
  | grant R' records grant context =>
    rcases applyGrant_eq_ok hw hpaired hstep with rfl | ⟨e, h, d, hquiet, hcoordinated⟩
    · exact absurd hawaiting hnew
    · rcases hcoordinated.awaiting hawaiting with hbefore | ⟨-, -, hsubmitted, -⟩
      · exact absurd hbefore hnew
      · rw [hquiet] at hsubmitted
        cases hsubmitted
  | admitFree R' lane request record policy now =>
    simp only [ingress, admitFree, bind_eq_ok, mapError_eq_ok, okOr_eq_ok, refuseIf_eq_ok,
      exists_const, Prod.exists] at hstep
    obtain ⟨e, h, hread, plan, -, -, revision, -, hstep⟩ := hstep
    cases hstep
    refine absurd ?_ hnew
    obtain ⟨e', r, he', hr, hopen⟩ := hawaiting
    rw [SortedMap.get?_insert] at he'
    split_ifs at he' with hR
    · cases he'
      exact ⟨e, r, hR ▸ (read_eq_ok hread).1, hr, hopen⟩
    · exact ⟨e', r, he', hr, hopen⟩

variable {records : HostRecords} {command : KernelCommand ProtocolCommand}
  {counterparty : CounterpartyContext}

theorem Coordinated.engine (h : Coordinated context w R e h d w') : w.relationships.get? R = some e := by
  cases h with
  | alone hforward => exact hforward.engine
  | both hforward => exact hforward.engine

/-- A command reads the other direction when both are members. -/
theorem Protocol.opposite (hpaired : w.Paired)
    (hprotocol : Protocol guest w R records command now e h counterparty context d w')
    (hmember : guest A = false) (hjoins : w.Joins R A B) {e' : EngineState}
    (he' : w.relationships.get? R' = some e')
    (hsender : e'.protocol.relationship.key.sender = B)
    (hrecipient : e'.protocol.relationship.key.recipient = A) :
    ∃ h', counterparty = .member (some ⟨records.replyOffers, e'.snapshot h' records.oppositeLane⟩) := by
  obtain ⟨e₁, he₁, rfl, rfl⟩ := hjoins
  cases hprotocol.coordinated.engine.symm.trans he₁
  obtain ⟨h', -, hcounterparty⟩ := hpaired.loadCounterparty hprotocol.loaded hmember he' hsender hrecipient
  exact ⟨h', hcounterparty⟩

/-- A submission finds no open window in the other direction. -/
theorem Protocol.closed (hw : w.Sound) (hpaired : w.Paired)
    (hprotocol : Protocol guest w R records command now e h counterparty context d w')
    (hsubmits : command.command.submits = true) (hmember : guest A = false)
    (hjoins : w.Joins R A B) (hjoins' : w.Joins R' B A) (hawaiting : w.Awaiting R' id a) :
    a.decisionDeadline < now := by
  obtain ⟨e', he', hsender, hrecipient⟩ := hjoins'
  obtain ⟨e₁, r, he₁, hr, hopen⟩ := hawaiting
  cases he'.symm.trans he₁
  obtain ⟨h', rfl⟩ := hprotocol.opposite hpaired hmember hjoins he' hsender hrecipient
  have hs := hw.engines R' e' he'
  have hchecked := hprotocol.checked _ rfl
  have hsolicits : command.command.solicits = true := by
    cases hcommand : command.command <;> simp_all [ProtocolCommand.submits, ProtocolCommand.solicits]
  rw [← hs.keyed id r hr] at hr
  have hactive := hs.activeRequest hr (by rw [hopen]; rfl)
  have := checkOpposite_eq_ok hchecked hsolicits hactive
  rw [hopen] at this
  exact lt_of_not_ge (of_decide_eq_false this)

/-! ### Disjoint windows -/

theorem ingress_pair (hw : w.Sound) (hpaired : w.Paired) {i : IngressInput}
    (hstep : w.ingress guest i = .ok w') (he : w.relationships.get? R = some e)
    (hjoins : w'.Joins R A B) : w.Joins R A B := by
  obtain ⟨w₁, hfirst, hsecond⟩ := ingress_changes hw hpaired hstep
  obtain ⟨e₁, he₁, -⟩ := Change.pair hfirst he
  exact (hjoins.back hsecond he₁).back hfirst he

/-- **A submission keeps the windows apart.** -/
theorem Apart.ingress (hw : w.Sound) (hpaired : w.Paired) (hapart : w.Apart guest) {i : IngressInput}
    (hstep : w.ingress guest i = .ok w') : w'.Apart guest := by
  -- a new window opens after every open one of the other direction has closed
  have hnew : ∀ A B, guest A = false → ∀ R R', R ≠ R' → w'.Joins R A B → w'.Joins R' B A →
      ∀ id id' a a', w'.Awaiting R id a → ¬w.Awaiting R id a → w'.Awaiting R' id' a' →
        a'.decisionDeadline < a.submittedAt := by
    intro A B hmember R R' hne hjoins hjoins' id id' a a' hawaiting hnew hawaiting'
    obtain ⟨records, command, context, document, rfl, e, h, counterparty, context', d, hprotocol,
      htime, hsubmits, -⟩ := ingress_submission hw hpaired hstep hawaiting hnew
    have hbefore : w.Awaiting R' id' a' := by
      by_contra hnew'
      obtain ⟨_, _, _, _, hi, -⟩ := ingress_submission hw hpaired hstep hawaiting' hnew'
      cases hi
      exact hne rfl
    have ⟨e', _, he', _⟩ := hbefore
    rw [htime]
    exact hprotocol.closed hw hpaired hsubmits hmember
      (ingress_pair hw hpaired hstep hprotocol.coordinated.engine hjoins)
      (ingress_pair hw hpaired hstep he' hjoins') hbefore
  intro A B hA hB R R' hne hjoins hjoins' id id' a a' hawaiting hawaiting'
  by_cases hold : w.Awaiting R id a
  · by_cases hold' : w.Awaiting R' id' a'
    · have ⟨e, _, he, _⟩ := hold
      have ⟨e', _, he', _⟩ := hold'
      exact hapart A B hA hB R R' hne (ingress_pair hw hpaired hstep he hjoins)
        (ingress_pair hw hpaired hstep he' hjoins') id id' a a' hold hold'
    · exact .inl (hnew B A hB R' R hne.symm hjoins' hjoins id' id a' a hawaiting' hold' hawaiting)
  · exact .inr (hnew A B hA R R' hne hjoins hjoins' id id' a a' hawaiting hold hawaiting')

theorem ingressRun_apart (guest : ProtocolIdentity → Bool) (inputs : List IngressInput) :
    (ingressRun guest inputs).Apart guest := by
  suffices ((ingressRun guest inputs).Sound ∧ (ingressRun guest inputs).Paired) ∧
      (ingressRun guest inputs).Apart guest from this.2
  refine Machine.run_preserves (P := fun w : StoreState => (w.Sound ∧ w.Paired) ∧ w.Apart guest)
    ?_ ?_ inputs
  · rintro w i w' ⟨⟨hw, hpaired⟩, hapart⟩ hstep
    obtain ⟨w₁, hfirst, hsecond⟩ := ingress_changes hw hpaired hstep
    exact ⟨⟨(hw.change hfirst).change hsecond, (hpaired.change hfirst).change hsecond⟩,
      hapart.ingress hw hpaired hstep⟩
  · refine ⟨⟨.empty, .empty⟩, fun A B hA hB R R' hne hjoins => ?_⟩
    obtain ⟨e, he, -⟩ := hjoins
    simp [StoreState.empty] at he

/-- Every window opened at the time of an input. -/
theorem ingressRun_submitted (guest : ProtocolIdentity → Bool) (inputs : List IngressInput)
    {R : RelationshipRef} {id : RequestId} {a : RequestSubmission}
    (h : (ingressRun guest inputs).Awaiting R id a) : ∃ i ∈ inputs, i.now = a.submittedAt := by
  induction inputs using List.reverseRecOn with
  | nil =>
    obtain ⟨e, r, he, -⟩ := h
    simp [ingressRun, StoreState.empty] at he
  | append_singleton inputs i ih =>
    by_cases hold : (ingressRun guest inputs).Awaiting R id a
    · obtain ⟨j, hj, htime⟩ := ih hold
      exact ⟨j, List.mem_append_left _ hj, htime⟩
    · obtain ⟨hw, hpaired⟩ := ingressRun_sound guest inputs
      rw [ingressRun_concat] at h
      rcases Machine.advance_cases (fun w i => ingress guest w i) (ingressRun guest inputs) i with
        hsame | hstep
      · rw [hsame] at h
        exact absurd h hold
      · obtain ⟨records, command, context, document, rfl, -, -, -, -, -, -, htime, -⟩ :=
          ingress_submission hw hpaired hstep h hold
        exact ⟨_, List.mem_append_right _ (List.mem_singleton_self _), htime.symm⟩

end StoreState

/-! ### The preparation a submission ends -/

/-- What a cancellation does to a request's money: a captured charge goes back in full, a
capture still to come is called off. -/
inductive Undone (id : RequestId) (m : TransitionManifest) (f : RequestFinancials) :
    RequestFinancials → Prop
  | refunded (hfunded : f.fundingFinalized = true)
    (hposted : m.ledgerBatch = (∅ : LedgerBatch).transfer (.requestEscrow f.capture.id)
      (.refundPayable f.contract.refundId) f.capture.amount)
    (hexecuted : m.outboxIntents = [.executePayment id f.contract.refundId]) :
    Undone id m f {f with
      settlement := some .cancelled
      refund := .pending (f.refundOperation f.capture.amount)}
  | voided (hunfunded : f.fundingFinalized = false) (hposted : m.ledgerBatch = ∅)
    (hexecuted : m.outboxIntents = [.executePayment id f.capture.id]) :
    Undone id m f {f with
      settlement := some .cancelled
      captureStatus := .cancellationRequested}

/-- A preparation the other direction's submission has ended. -/
structure Superseded (e : EngineState) (r : RelationshipRequest) (m : TransitionManifest) : Prop where
  cancelled : ∃ p event version, r.lifecycle = .preparingSubmission p ∧
    m.nextState.requests.get? r.id = some {r with lifecycle := .cancelled p event, version}
  undone : ∃ f f', e.payments.get? r.id = some f ∧ m.nextPayments.get? r.id = some f' ∧
    Undone r.id m f f'

section
variable {R : RelationshipRef} {e : EngineState} {h : RequestHistory} {lane : Option SenderScopedLane}
  {incoming r : RelationshipRequest} {context : TransitionContext}

omit [Crypto] in
theorem incoming_of_announced {m : TransitionManifest} {id : RequestId}
    (hannounced : announced m.protocolEvents = [id]) (hr : m.nextState.requests.get? id = some r) :
    m.incoming = some r := by
  unfold TransitionManifest.incoming
  revert hannounced
  induction m.protocolEvents with
  | nil => nofun
  | cons event events ih =>
    intro hannounced
    rw [List.findSome?_cons]
    cases hkind : event.kind with
    | requestSubmitted submitted =>
      simp only [announced, List.filterMap_cons, hkind, ProtocolEventKind.submitted?,
        List.cons.injEq] at hannounced
      rw [hannounced.1]
      simp only [hr]
    | _ =>
      simp only [announced, List.filterMap_cons, hkind, ProtocolEventKind.submitted?] at hannounced
      exact ih hannounced

omit [Crypto] in
/-- **A received submission ends the preparation it meets.** -/
theorem receiveNativeRequest_supersedes (hs : e.Sound R) {result : Option TransitionManifest}
    (hr : e.protocol.requests.get? r.id = some r) {p : SubmissionPreparation}
    (hopen : r.lifecycle = .preparingSubmission p)
    (hreceive : receiveNativeRequest (e.snapshot h lane) incoming context = .ok result) :
    ∃ m, result = some m ∧ Superseded e r m := by
  simp only [receiveNativeRequest, bind_eq_ok, refuseIf_eq_ok, exists_const] at hreceive
  obtain ⟨⟨⟩, hvalid, -, hreceive⟩ := hreceive
  split at hreceive
  · cases hreceive
  have hactive : (e.snapshot h lane).state.activeRequest = some r :=
    hs.activeRequest hr (by rw [hopen]; rfl)
  have hpreparing : r.lifecycle.isPreparingSubmission = true := by rw [hopen]; rfl
  simp only [hactive, Option.filter_some, hpreparing, if_true, bind_eq_ok, Except.ok.injEq] at hreceive
  obtain ⟨m₁, hcancel, m, hfinish, rfl⟩ := hreceive
  refine ⟨m, rfl, ?_⟩
  obtain ⟨f, hf, -, hlinked, hsettled⟩ := hs.agreement.paid r.id r hr
  rw [hopen] at hsettled
  simp only [cancelSubmission, bind_eq_ok, okOr_eq_ok, refuseIf_eq_ok, exists_const,
    nextRequestVersion, Bool.not_eq_false] at hcancel
  obtain ⟨r', hr', -, p', hp', version, -, m₀, hmoney, hcancel⟩ := hcancel
  cases hr.symm.trans hr'
  obtain ⟨f₀, f', effects, hf₀, hsettle, rfl⟩ := settleFinancials_eq_ok hmoney
  cases hf.symm.trans hf₀
  cases hcancel
  simp only [ManifestBuilder.finish, bind_eq_ok, mapError_eq_ok] at hfinish
  obtain ⟨view, -, hfinish⟩ := hfinish
  cases hfinish
  rw [hopen] at hp'
  cases hp'
  refine ⟨⟨p, _, version, hopen, SortedMap.get?_insert_self ..⟩,
    f, f', hf, SortedMap.get?_insert_self .., ?_⟩
  by_cases hfunded : f.fundingFinalized = true
  · rw [RequestFinancials.settle_cancelled_funded hlinked hsettled hfunded] at hsettle
    cases hsettle
    have hsent : ∀ t ∈ ((∅ : LedgerBatch).transfer (.requestEscrow f.capture.id)
        (.refundPayable f.contract.refundId) f.capture.amount).transfers, t.amount.isZero = false := by
      intro t ht
      have hamount := f.matched.amount
      simp only [LedgerBatch.transfer, hamount, Bool.false_eq_true, if_false] at ht
      rw [List.mem_singleton.mp ht]
      exact hamount
    exact .refunded hfunded (LedgerBatch.extend_empty hsent) rfl
  · rw [Bool.not_eq_true] at hfunded
    rw [RequestFinancials.settle_cancelled_unfunded hlinked hsettled hfunded] at hsettle
    cases hsettle
    exact .voided hfunded rfl rfl

end

namespace StoreState
variable [Documents] {guest : ProtocolIdentity → Bool} {w w' : StoreState} {R R' : RelationshipRef}
  {id : RequestId} {a : RequestSubmission} {A B : ProtocolIdentity}

/-- **A submission supersedes.** The decision that commits a submission cancels the other
direction's preparation and undoes its money. -/
theorem ingress_supersedes (hw : w.Sound) (hpaired : w.Paired) {i : IngressInput}
    (hstep : w.ingress guest i = .ok w') (hawaiting : w'.Awaiting R id a)
    (hnew : ¬w.Awaiting R id a) (hmember : guest A = false) (hjoins : w'.Joins R A B)
    {e : EngineState} {r : RelationshipRequest} {p : SubmissionPreparation}
    (he : w.relationships.get? R' = some e) (hsender : e.protocol.relationship.key.sender = B)
    (hrecipient : e.protocol.relationship.key.recipient = A)
    (hr : e.protocol.requests.get? r.id = some r) (hopen : r.lifecycle = .preparingSubmission p) :
    ∃ e' m revision ledger extra, w'.relationships.get? R' = some e' ∧
      e.ledger.apply m.expectedLedgerRevision m.ledgerBatch = .ok ledger ∧
      e' = e.next revision ledger m extra ∧ Superseded e r m := by
  obtain ⟨records, command, context, document, rfl, e₁, h, counterparty, context', d, hprotocol,
    htime, hsubmits, hsubmitted, r₁, hr₁⟩ := ingress_submission hw hpaired hstep hawaiting hnew
  have hjoins₀ := ingress_pair hw hpaired hstep hprotocol.coordinated.engine hjoins
  obtain ⟨h', rfl⟩ := hprotocol.opposite hpaired hmember hjoins₀ he hsender hrecipient
  have hincoming := incoming_of_announced hsubmitted hr₁
  obtain ⟨direction, result, hdirection, hreceive, heffect⟩ := hprotocol.received _ _ rfl hincoming
  cases hdirection
  have hs := hw.engines R' e he
  obtain ⟨m, rfl, hsuperseded⟩ := receiveNativeRequest_supersedes hs hr hopen hreceive
  obtain ⟨effect, hsome, rfl, hrelationship⟩ := heffect m rfl
  replace hrelationship : effect.relationship = R' := hrelationship.trans hs.reference
  cases hprotocol.coordinated with
  | alone hforward hnone =>
    rw [hsome] at hnone
    cases hnone
  | both hforward hsome' hne he' hrelationship' hreverse =>
    cases hsome.symm.trans hsome'
    cases hrelationship.symm.trans hrelationship'
    cases he.symm.trans he'
    obtain ⟨-, -, -, revision, ledger, extra, -, hledger, rfl⟩ := hreverse
    exact ⟨_, _, revision, ledger, extra, SortedMap.get?_insert_self .., hledger, rfl, hsuperseded⟩

/-- **Opposite requests never both stand.** In every state a run of the host reaches, and
at every time no earlier than its inputs, at most one of two requests between the same
members in opposite directions awaits a decision within its deadline. And an input that
submits a request while the other direction is preparing one cancels that preparation,
with its charge refunded or its capture called off in full. -/
theorem opposite_requests (guest : ProtocolIdentity → Bool) (inputs : List IngressInput) :
    (∀ now, (∀ i ∈ inputs, i.now ≤ now) →
      ∀ A B, guest A = false → guest B = false → ∀ R R', R ≠ R' →
        (ingressRun guest inputs).Joins R A B → (ingressRun guest inputs).Joins R' B A →
        ∀ e e' id id' r r', (ingressRun guest inputs).relationships.get? R = some e →
          (ingressRun guest inputs).relationships.get? R' = some e' →
          e.protocol.requests.get? id = some r → e'.protocol.requests.get? id' = some r' →
          ¬(r.lifecycle.awaitsDecisionAt now = true ∧ r'.lifecycle.awaitsDecisionAt now = true)) ∧
    ∀ i w', (ingressRun guest inputs).ingress guest i = .ok w' →
      ∀ A B, guest A = false → guest B = false → ∀ R R' id a, w'.Joins R A B →
        w'.Awaiting R id a → ¬(ingressRun guest inputs).Awaiting R id a →
        ∀ e r p, (ingressRun guest inputs).relationships.get? R' = some e →
          e.protocol.relationship.key.sender = B → e.protocol.relationship.key.recipient = A →
          e.protocol.requests.get? r.id = some r → r.lifecycle = .preparingSubmission p →
          ∃ e' m revision ledger extra, w'.relationships.get? R' = some e' ∧
            e.ledger.apply m.expectedLedgerRevision m.ledgerBatch = .ok ledger ∧
            e' = e.next revision ledger m extra ∧ Superseded e r m := by
  constructor
  · rintro now hnow A B hA hB R R' hne hjoins hjoins' e e' id id' r r' he he' hr hr' ⟨hawaits, hawaits'⟩
    have hwindow : ∀ l : RequestLifecycle, l.awaitsDecisionAt now = true →
        ∃ a, l = .awaitingRecipientDecision a ∧ now ≤ a.decisionDeadline := by
      intro l hl
      cases l with
      | awaitingRecipientDecision a => exact ⟨a, rfl, of_decide_eq_true hl⟩
      | _ => cases hl
    obtain ⟨a, hopen, hwithin⟩ := hwindow _ hawaits
    obtain ⟨a', hopen', hwithin'⟩ := hwindow _ hawaits'
    have hawaiting : (ingressRun guest inputs).Awaiting R id a := ⟨e, r, he, hr, hopen⟩
    have hawaiting' : (ingressRun guest inputs).Awaiting R' id' a' := ⟨e', r', he', hr', hopen'⟩
    obtain ⟨i, hi, htime⟩ := ingressRun_submitted guest inputs hawaiting
    obtain ⟨i', hi', htime'⟩ := ingressRun_submitted guest inputs hawaiting'
    rcases ingressRun_apart guest inputs A B hA hB R R' hne hjoins hjoins' id id' a a' hawaiting
      hawaiting' with hbefore | hbefore
    · exact absurd (hbefore.trans_le (htime' ▸ hnow i' hi')) (not_lt_of_ge hwithin)
    · exact absurd (hbefore.trans_le (htime ▸ hnow i hi)) (not_lt_of_ge hwithin')
  · intro i w' hstep A B hA hB R R' id a hjoins hawaiting hnew e r p he hsender hrecipient hr hopen
    obtain ⟨hw, hpaired⟩ := ingressRun_sound guest inputs
    exact ingress_supersedes hw hpaired hstep hawaiting hnew hA hjoins he hsender hrecipient hr hopen

end StoreState
end CsMail
