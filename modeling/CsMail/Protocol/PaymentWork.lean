import CsMail.Finance.PendingPayments
import CsMail.Protocol.KernelProofs

/-! The payment work a transition emits.

Every handler changes at most one payment record, by one financial call, and emits the
operations that call names (`PaymentStep`). So what waits for the processor after a
transition waited before it, or is emitted by it. -/
namespace CsMail
open Library

def EffectIntent.payment? : EffectIntent → Option (RequestId × PaymentOperationId)
  | executePayment request operation => some (request, operation)
  | deliverMessage .. | establishRequestSolicitation .. | reviewLane .. => none

/-- The payments among the effects. -/
def paymentsIn (effects : List EffectIntent) : List (RequestId × PaymentOperationId) :=
  effects.filterMap EffectIntent.payment?

theorem mem_paymentsIn {effects : List EffectIntent} {request : RequestId} {operation : PaymentOperationId} :
    (request, operation) ∈ paymentsIn effects ↔ .executePayment request operation ∈ effects := by
  simp only [paymentsIn, List.mem_filterMap]
  constructor
  · rintro ⟨effect, heffect, h⟩
    cases effect <;> cases h
    exact heffect
  · exact fun h => ⟨_, h, rfl⟩

theorem paymentsIn_executePayment (request : RequestId) (operations : List PaymentOperationId) :
    paymentsIn (operations.map (EffectIntent.executePayment request)) = operations.map (request, ·) := by
  induction operations with
  | nil => rfl
  | cons operation rest ih => exact congrArg (_ :: ·) ih

theorem paymentsIn_append (effects more : List EffectIntent) :
    paymentsIn (effects ++ more) = paymentsIn effects ++ paymentsIn more := List.filterMap_append ..

variable [Crypto]

/-- What a transition does to the payment records, with the payments it emits. -/
inductive PaymentStep (payments : SortedMap RequestId RequestFinancials) :
    SortedMap RequestId RequestFinancials → List (RequestId × PaymentOperationId) → Prop
  | kept : PaymentStep payments payments []
  | created {id : RequestId} {f : RequestFinancials} {capture : PaymentOperation}
    {contract : RequestFinancialContract} (hnew : payments.get? id = none)
    (hrecord : RequestFinancials.new capture contract = .ok f) :
    PaymentStep payments (payments.insert id f) [(id, capture.id)]
  | moved {id : RequestId} {f f' : RequestFinancials} {e : RequestFinancialEffects} {call : FinancialCall}
    (hf : payments.get? id = some f) (hcall : RequestBooks.perform f call = .ok (f', e)) :
    PaymentStep payments (payments.insert id f') (e.operations.map (id, ·))

namespace ManifestBuilder
variable {m m' : ManifestBuilder}

/-- The handler's effects begin with those of the builder it was given. -/
def Pays (m m' : ManifestBuilder) : Prop :=
  ∃ emitted, PaymentStep m.payments m'.payments emitted ∧ paymentsIn m'.effects = paymentsIn m.effects ++ emitted

theorem Pays.refl (m : ManifestBuilder) : m.Pays m := ⟨[], .kept, (List.append_nil _).symm⟩

/-- What a handler does besides concerns no payment. -/
structure SamePayments (m m' : ManifestBuilder) : Prop where
  payments : m'.payments = m.payments
  effects : paymentsIn m'.effects = paymentsIn m.effects

theorem Pays.congr {n n' : ManifestBuilder} (h : m.Pays m') (hbefore : n.SamePayments m)
    (hafter : m'.SamePayments n') : n.Pays n' := by
  obtain ⟨emitted, hstep, heffects⟩ := h
  refine ⟨emitted, ?_, ?_⟩
  · rw [hafter.payments, ← hbefore.payments]
    exact hstep
  · rw [hafter.effects, heffects, hbefore.effects]

omit [Crypto] in
theorem SamePayments.refl (m : ManifestBuilder) : m.SamePayments m := ⟨rfl, rfl⟩

theorem SamePayments.pays (h : m.SamePayments m') : m.Pays m' := (Pays.refl m).congr (.refl m) h

omit [Crypto] in
theorem samePayments_pushEvent (m : ManifestBuilder) (kind : ProtocolEventKind) : m.SamePayments (m.pushEvent kind) :=
  ⟨rfl, rfl⟩

omit [Crypto] in
theorem samePayments_deliver (message : MessageId) (content : ContentRef) (intent : DeliveryIntentRef) :
    m.SamePayments (m.deliver message content intent) := by
  unfold deliver
  cases m.deliveryRoute with
  | nativeMailboxes => exact ⟨rfl, rfl⟩
  | guestRelay => exact ⟨rfl, (paymentsIn_append ..).trans (List.append_nil _)⟩

end ManifestBuilder

open ManifestBuilder
variable {m m' : ManifestBuilder} {id : RequestId}

/-! ### The handlers that pay -/

theorem applyFinancialEffects_pays {f f' : RequestFinancials} {e : RequestFinancialEffects} (call : FinancialCall)
    (hf : m.payments.get? id = some f) (hcall : RequestBooks.perform f call = .ok (f', e)) :
    m.Pays (applyFinancialEffects {m with payments := m.payments.insert id f'} id e) := by
  refine ⟨_, .moved hf hcall, ?_⟩
  show paymentsIn (m.effects ++ _) = _
  rw [paymentsIn_append, paymentsIn_executePayment]

theorem settleFinancials_pays {s : RequestSettlement} (h : settleFinancials m id s = .ok m') : m.Pays m' := by
  obtain ⟨f, f', e, hf, hsettle, rfl⟩ := settleFinancials_eq_ok h
  exact applyFinancialEffects_pays (.settle s m.now) hf hsettle

theorem cancelSubmission_pays {c : ReservedCancellation} (h : cancelSubmission m id c = .ok m') : m.Pays m' := by
  simp only [cancelSubmission, bind_eq_ok] at h
  obtain ⟨r, -, -, -, p, -, version, -, m₁, hmoney, h⟩ := h
  cases Except.ok.inj h
  exact (settleFinancials_pays hmoney).congr ⟨rfl, rfl⟩ ⟨rfl, rfl⟩

theorem settleAccepted_pays {permission : AcceptancePermission} (h : settleAccepted m id permission = .ok m') :
    m.Pays m' := by
  simp only [settleAccepted, bind_eq_ok, Prod.exists] at h
  obtain ⟨r, a, -, m₁, hmoney, h⟩ := h
  obtain ⟨version, rfl⟩ := closeRequest_eq_ok h
  exact (settleFinancials_pays hmoney).congr (.refl m) ⟨rfl, rfl⟩

theorem settleRejected_pays (h : settleRejected m id = .ok m') : m.Pays m' := by
  simp only [settleRejected, bind_eq_ok, Prod.exists] at h
  obtain ⟨r, a, -, m₁, hmoney, m₂, hlater, h⟩ := h
  obtain ⟨history, -, rfl⟩ := applyCooldown_eq_ok hlater
  obtain ⟨version, rfl⟩ := closeRequest_eq_ok h
  exact (settleFinancials_pays hmoney).congr (.refl m) ⟨rfl, rfl⟩

theorem settleExpired_pays (h : settleExpired m id = .ok m') : m.Pays m' := by
  simp only [settleExpired, bind_eq_ok, Prod.exists] at h
  obtain ⟨r, a, -, m₁, hmoney, m₂, hlater, h⟩ := h
  obtain ⟨history, -, rfl⟩ := applyCooldown_eq_ok hlater
  obtain ⟨version, rfl⟩ := closeRequest_eq_ok h
  exact (settleFinancials_pays hmoney).congr (.refl m) ⟨rfl, rfl⟩

theorem decideRequest_pays {d : Decision} (h : decideRequest m d = .ok m') : m.Pays m' := by
  unfold decideRequest at h
  split at h
  · cases h
    exact .refl m
  · split at h
    · exact cancelSubmission_pays h
    · split_ifs at h
      · cases d
        case accept => exact settleAccepted_pays h
        all_goals exact settleRejected_pays h
      · exact settleExpired_pays h
    · cases h
      exact .refl m

theorem settleForLane_pays {lane : LaneId} (h : settleForLane m lane = .ok m') : m.Pays m' := by
  unfold settleForLane at h
  split at h
  · cases h
    exact .refl m
  · split at h
    · exact cancelSubmission_pays h
    · exact settleAccepted_pays h
    · cases h
      exact .refl m

theorem cancelRequestSubmission_pays {actor : ActorRef} {v : Version} {reason : CancellationReason}
    (h : cancelRequestSubmission m actor id v reason = .ok m') : m.Pays m' := by
  simp only [cancelRequestSubmission, bind_eq_ok, okOr_eq_ok] at h
  obtain ⟨r, -, h⟩ := h
  split_ifs at h
  · split at h <;> cases h
    exact .refl m
  · simp only [bind_eq_ok] at h
    obtain ⟨-, -, p, -, -, -, h⟩ := h
    exact cancelSubmission_pays h
  · simp only [bind_eq_ok] at h
    obtain ⟨-, -, h⟩ := h
    exact cancelSubmission_pays h

theorem expireRequest_pays {v : Version} (h : expireRequest m id v = .ok m') : m.Pays m' := by
  simp only [expireRequest, bind_eq_ok, okOr_eq_ok] at h
  obtain ⟨r, -, h⟩ := h
  split_ifs at h
  · cases h
    exact .refl m
  · simp only [bind_eq_ok] at h
    obtain ⟨-, -, -, -, a, -, -, -, m₁, hsettle, h⟩ := h
    cases h
    exact (settleExpired_pays hsettle).congr (.refl m) ⟨rfl, rfl⟩

omit [Crypto] in
theorem samePayments_voidSubmission (h : voidSubmission m id = .ok m') : m.SamePayments m' := by
  unfold voidSubmission at h
  split at h
  · cases h
    exact .refl m
  · split at h
    · simp only [bind_eq_ok] at h
      obtain ⟨version, -, h⟩ := h
      cases h
      exact ⟨rfl, rfl⟩
    · cases h
      exact .refl m

theorem recordPayment_pays {receipt : SignedPaymentEvidence} (h : recordPayment m id receipt = .ok m') : m.Pays m' := by
  simp only [recordPayment, bind_eq_ok, okOr_eq_ok, mapError_eq_ok] at h
  obtain ⟨f, hf, ⟨f', e⟩, hpaid, h⟩ := h
  dsimp only at h
  have hpays := applyFinancialEffects_pays (.recordPayment receipt) hf hpaid
  have hvoid : ∀ m₁, ({m with payments := m.payments.insert id f'} : ManifestBuilder).SamePayments m₁ →
      (applyFinancialEffects {m with payments := m.payments.insert id f'} id e).SamePayments
        ((applyFinancialEffects m₁ id e).pushEvent (.paymentRecorded id)) := by
    intro m₁ hsame
    refine ⟨hsame.payments, ?_⟩
    show paymentsIn (m₁.effects ++ _) = paymentsIn (m.effects ++ _)
    rw [paymentsIn_append, paymentsIn_append]
    exact congrArg (· ++ _) hsame.effects
  split_ifs at h
  · obtain ⟨m₁, hsubmission, h⟩ := bind_eq_ok.mp h
    cases h
    exact hpays.congr (.refl m) (hvoid m₁ (samePayments_voidSubmission hsubmission))
  · simp only [ok_bind] at h
    cases h
    exact hpays.congr (.refl m) (hvoid _ (.refl _))

theorem createRequest_pays {context : TransitionContext} {message : MessageId} {method : Bytes32}
    {terms : RequestTerms} {creationKey : OperationalKeyRef}
    (h : createRequest m context id message method terms creationKey = .ok m') : m.Pays m' := by
  simp only [createRequest, bind_eq_ok, refuseIf_eq_ok, okOr_eq_ok, mapError_eq_ok, exists_const, not_or,
    Bool.not_eq_true] at h
  obtain ⟨-, -, -, -, deadline, -, ⟨-, hunpaid⟩, -, -, -, -, amount, -, -, generation, -, f, hrecord, h⟩ := h
  cases h
  refine ⟨_, .created (SortedMap.contains_eq_false.mp hunpaid) hrecord, ?_⟩
  exact paymentsIn_append ..

/-! ### Submissions and decisions -/

omit [Crypto] in
theorem samePayments_commitSubmission {context : TransitionContext} {input : RequestSubmissionInput}
    {r : RelationshipRequest} (h : commitSubmission m context input r = .ok m') : m.SamePayments m' := by
  simp only [commitSubmission, bind_eq_ok] at h
  obtain ⟨-, -, deadline, -, -, -, version, -, history, -, h⟩ := h
  cases h
  refine ⟨?_, ?_⟩
  · exact (samePayments_deliver ..).payments
  · refine (paymentsIn_append ..).trans ((List.append_nil _).trans ?_)
    exact (samePayments_deliver ..).effects

theorem submitRequestToRecipient_pays {context : TransitionContext} {input : RequestSubmissionInput}
    (h : submitRequestToRecipient m context input = .ok m') : m.Pays m' := by
  simp only [submitRequestToRecipient, bind_eq_ok, okOr_eq_ok] at h
  obtain ⟨-, -, r, -, -, -, h⟩ := h
  split_ifs at h
  obtain ⟨failure, -, h⟩ := bind_eq_ok.mp h
  cases failure with
  | some reason => exact cancelSubmission_pays h
  | none =>
    dsimp only at h
    cases hadmission : context.admission with
    | error e =>
      rw [hadmission] at h
      exact cancelSubmission_pays h
    | ok u =>
      rw [hadmission] at h
      exact (samePayments_commitSubmission h).pays

omit [Crypto] in
theorem samePayments_terminateLane (h : terminateLane m = .ok m') : m.SamePayments m' := by
  simp only [terminateLane, bind_eq_ok] at h
  obtain ⟨epoch, -, h⟩ := h
  split at h
  · cases h
    exact ⟨rfl, rfl⟩
  · obtain ⟨effect, -, h⟩ := bind_eq_ok.mp h
    cases effect <;> cases h <;> exact ⟨rfl, rfl⟩

omit [Crypto] in
theorem samePayments_setRelationshipState {state : RelationshipState}
    (h : m.setRelationshipState state = .ok m') : m.SamePayments m' := by
  obtain ⟨version, -, rfl⟩ := setRelationshipState_eq_ok h
  exact ⟨rfl, rfl⟩

theorem relationshipDecision_pays {v : Version} {d : Decision} (h : relationshipDecision m v d = .ok m') :
    m.Pays m' := by
  obtain ⟨-, m₁, m₂, m₃, hstate, hlane, hrequest, rfl⟩ := relationshipDecision_eq_ok h
  have hbefore : m.SamePayments m₂ := by
    have hsame := samePayments_setRelationshipState hstate
    split_ifs at hlane
    · have hlater := samePayments_terminateLane hlane
      exact ⟨hlater.payments.trans hsame.payments, hlater.effects.trans hsame.effects⟩
    · cases hlane
      exact hsame
  exact (decideRequest_pays hrequest).congr hbefore ⟨rfl, rfl⟩

theorem unblock_pays {v : Version} (h : unblock m v = .ok m') : m.Pays m' := by
  simp only [unblock, bind_eq_ok] at h
  obtain ⟨-, -, -, -, m₁, hstate, h⟩ := h
  cases h
  exact (Pays.refl m₁).congr (samePayments_setRelationshipState hstate) ⟨rfl, rfl⟩

theorem revoke_pays {v : Version} (h : revoke m v = .ok m') : m.Pays m' := by
  simp only [revoke, bind_eq_ok] at h
  obtain ⟨-, -, m₁, hlane, m₂, hstate, h⟩ := h
  cases h
  have hsame := samePayments_setRelationshipState hstate
  exact (Pays.refl m₁).congr (samePayments_terminateLane hlane) ⟨hsame.payments, hsame.effects⟩

/-! ### Commands that pay nothing -/

omit [Crypto] in
theorem samePayments_setFollowupPolicy {v : Version} {policy : FollowupPolicy}
    (h : setFollowupPolicy m v policy = .ok m') : m.SamePayments m' := by
  simp only [setFollowupPolicy, bind_eq_ok] at h
  obtain ⟨-, -, -, -, version, -, h⟩ := h
  cases h
  exact ⟨rfl, rfl⟩

omit [Crypto] in
theorem samePayments_issueTerms {context : TransitionContext} {route : RequestReturnRoute} {address : AliasId}
    {classId : RequestClassId} {quote : QuoteId} {digest : Option MessageDeclarationDigest}
    (h : issueTerms m context route address classId quote digest = .ok m') : m.SamePayments m' := by
  unfold issueTerms at h
  split at h
  · simp only [bind_eq_ok] at h
    obtain ⟨-, -, h⟩ := h
    cases h
    exact ⟨rfl, rfl⟩
  · simp only [bind_eq_ok] at h
    obtain ⟨-, -, h⟩ := h
    split at h
    · cases h
    · cases h
      exact ⟨rfl, rfl⟩
    · simp only [bind_eq_ok] at h
      obtain ⟨-, -, -, -, expiresAt, -, price, -, -, -, level, -, amount, -, -, -, h⟩ := h
      cases h
      exact ⟨rfl, rfl⟩

omit [Crypto] in
theorem samePayments_admitFollowup {message : MessageId} {content : ContentRef} {intent : DeliveryIntentRef}
    {digest : MessageDeclarationDigest} {validUntil : MessageValidityUntil} {v : Version}
    {admission : Except AdmissionFailure Unit}
    (h : admitFollowup m id message content intent digest validUntil v admission = .ok m') : m.SamePayments m' := by
  simp only [admitFollowup, bind_eq_ok] at h
  obtain ⟨-, -, -, -, r, -, -, -, -, -, -, -, -, -, -, -, h⟩ := h
  cases h
  exact ⟨(samePayments_deliver ..).payments, (samePayments_deliver ..).effects⟩

/-! ### The kernel -/

theorem applyCommand_pays {context : TransitionContext} {actor : ActorRef} {key : OperationalKeyRef}
    {c : ProtocolCommand} (h : applyCommand m context actor key c = .ok m') : m.Pays m' := by
  cases c with
  | recordPayment => exact recordPayment_pays h
  | setFollowupPolicy => exact (samePayments_setFollowupPolicy h).pays
  | admitFollowup => exact (samePayments_admitFollowup h).pays
  | issueRequestTerms => exact (samePayments_issueTerms h).pays
  | createRequest => exact createRequest_pays h
  | submitRequestToRecipient => exact submitRequestToRecipient_pays h
  | cancelRequestSubmission => exact cancelRequestSubmission_pays h
  | acceptRelationship | rejectRelationship | blockRelationship => exact relationshipDecision_pays h
  | unblockRelationship => exact unblock_pays h
  | expireRequest => exact expireRequest_pays h
  | revokeRelationship => exact revoke_pays h

variable {s : SettlementSnapshot} {context : TransitionContext} {manifest : TransitionManifest}

/-- The records before and after a manifest, with the payments it emits. -/
def TransitionManifest.PaysFrom (s : SettlementSnapshot) (manifest : TransitionManifest) : Prop :=
  PaymentStep s.payments manifest.nextPayments (paymentsIn manifest.outboxIntents)

theorem ManifestBuilder.Pays.finish (hpays : (ManifestBuilder.new s context).Pays m)
    (h : m.finish s = .ok manifest) : manifest.PaysFrom s := by
  simp only [ManifestBuilder.finish, bind_eq_ok] at h
  obtain ⟨v, -, h⟩ := h
  cases h
  obtain ⟨emitted, hstep, heffects⟩ := hpays
  have hemitted : paymentsIn m.effects = emitted := heffects
  show PaymentStep s.payments m.payments (paymentsIn m.effects)
  rw [hemitted]
  exact hstep

theorem transition_pays {command : KernelCommand ProtocolCommand}
    (h : transition s command context = .ok manifest) : manifest.PaysFrom s := by
  simp only [transition, bind_eq_ok] at h
  obtain ⟨-, -, -, -, m, happly, hfinish⟩ := h
  exact (applyCommand_pays happly).finish hfinish

theorem receiveNativeRequest_pays {incoming : RelationshipRequest}
    (h : receiveNativeRequest s incoming context = .ok (some manifest)) : manifest.PaysFrom s := by
  simp only [receiveNativeRequest, bind_eq_ok] at h
  obtain ⟨-, -, -, -, h⟩ := h
  split at h
  · cases h
  · split at h
    · cases h
    · simp only [bind_eq_ok, Except.ok.injEq, Option.some.injEq] at h
      obtain ⟨m, hcancel, manifest', hfinish, rfl⟩ := h
      exact ((cancelSubmission_pays hcancel).congr (.refl _) (samePayments_pushEvent ..)).finish hfinish

theorem acceptExpressLane_pays {lane : LaneId} (h : acceptExpressLane s lane context = .ok manifest) :
    manifest.PaysFrom s := by
  simp only [acceptExpressLane, bind_eq_ok] at h
  obtain ⟨-, -, -, -, m₁, hstate, m₂, hsettle, hfinish⟩ := h
  have hpays := (settleForLane_pays hsettle).congr (samePayments_setRelationshipState hstate)
    (samePayments_pushEvent m₂ (.relationshipLaneGranted lane))
  exact hpays.finish hfinish

end CsMail
