import CsMail.Application.Soundness

/-! A quote is consumed by at most one request.

Terms are issued under a fresh quote and kept as issued. A request is created with the
terms of an unused quote and marks it used; nothing else touches a quote, or the terms of
a request once it is stored. -/
namespace CsMail
open Library

namespace ProtocolState

/-- The terms each stored request was created under. -/
def terms (s : ProtocolState) (id : RequestId) : Option RequestTerms :=
  (s.requests.get? id).map RelationshipRequest.terms

/-- Nothing about quotes changes. -/
structure KeepsQuotes (s s' : ProtocolState) : Prop where
  quotes : s'.quotes = s.quotes
  used : s'.usedQuotes = s.usedQuotes
  terms : s'.terms = s.terms

namespace KeepsQuotes
variable {s s' s'' : ProtocolState}

theorem refl (s : ProtocolState) : s.KeepsQuotes s := ⟨rfl, rfl, rfl⟩

theorem trans (h : s.KeepsQuotes s') (h' : s'.KeepsQuotes s'') : s.KeepsQuotes s'' :=
  ⟨h'.quotes.trans h.quotes, h'.used.trans h.used, h'.terms.trans h.terms⟩

/-- A stored request may change in everything but its terms. -/
theorem setRequest {id : RequestId} {r r' : RelationshipRequest} (hr : s.requests.get? id = some r)
    (hterms : r'.terms = r.terms) : s.KeepsQuotes {s with requests := s.requests.insert id r'} := by
  refine ⟨rfl, rfl, ?_⟩
  funext k
  show ((s.requests.insert id r').get? k).map _ = (s.requests.get? k).map _
  rw [SortedMap.get?_insert]
  split_ifs with hk
  · rw [hk, hr]
    exact congrArg some hterms
  · rfl

end KeepsQuotes

/-- Everything one transition can do to the quotes of a relationship. -/
inductive QuoteStep (s s' : ProtocolState) : Prop
  | kept (h : s.KeepsQuotes s')
  | issued (quote : QuoteId) (issuedTerms : RequestTerms) (hfresh : s.quotes.get? quote = none)
    (hquotes : s'.quotes = s.quotes.insert quote issuedTerms)
    (hused : s'.usedQuotes = s.usedQuotes) (hterms : s'.terms = s.terms)
  | consumed (id : RequestId) (agreed : RequestTerms) (hnew : s.terms id = none)
    (hissued : s.quotes.get? agreed.quoteId = some agreed)
    (hunused : s.usedQuotes.contains agreed.quoteId = false) (hquotes : s'.quotes = s.quotes)
    (hused : s'.usedQuotes = s.usedQuotes.insert agreed.quoteId ())
    (hterms : s'.terms = fun k => if k = id then some agreed else s.terms k)

/-- Every request consumed its own quote, and a quote is used exactly when one did. -/
structure QuotesOnce (s : ProtocolState) : Prop where
  issued : ∀ id t, s.terms id = some t → s.quotes.get? t.quoteId = some t
  used : ∀ quote, s.usedQuotes.contains quote = true ↔ ∃ id t, s.terms id = some t ∧ t.quoteId = quote
  once : ∀ id id' t t', s.terms id = some t → s.terms id' = some t' → t.quoteId = t'.quoteId → id = id'

theorem QuotesOnce.initial (relationship : RelationshipRef) (history : RequestHistoryRef)
    (sender recipient : ProtocolIdentity) (now : CanonicalTime) :
    (initialScoped relationship history sender recipient now).QuotesOnce where
  issued id t h := by cases h
  used quote := by
    constructor
    · intro h
      cases h
    · rintro ⟨id, t, h, -⟩
      cases h
  once id id' t t' h := by cases h

theorem QuotesOnce.step {s s' : ProtocolState} (hs : s.QuotesOnce) (h : s.QuoteStep s') :
    s'.QuotesOnce := by
  cases h with
  | kept h =>
    refine ⟨?_, ?_, ?_⟩
    · rw [h.terms, h.quotes]
      exact hs.issued
    · rw [h.terms, h.used]
      exact hs.used
    · rw [h.terms]
      exact hs.once
  | issued quote issuedTerms hfresh hquotes hused hterms =>
    refine ⟨?_, ?_, ?_⟩
    · rw [hterms, hquotes]
      intro id t ht
      have hold := hs.issued id t ht
      rw [SortedMap.get?_insert_ne _ _ fun heq => by rw [heq, hfresh] at hold; cases hold]
      exact hold
    · rw [hterms, hused]
      exact hs.used
    · rw [hterms]
      exact hs.once
  | consumed id agreed hnew hissued hunused hquotes hused hterms =>
    -- A request that was there holds another quote: the new request's was unused.
    have hother : ∀ k t, s.terms k = some t → t.quoteId ≠ agreed.quoteId := by
      intro k t ht heq
      have := (hs.used agreed.quoteId).mpr ⟨k, t, ht, heq⟩
      rw [hunused] at this
      cases this
    refine ⟨?_, ?_, ?_⟩
    · rw [hterms, hquotes]
      intro k t ht
      dsimp only at ht
      split_ifs at ht
      · cases ht
        exact hissued
      · exact hs.issued k t ht
    · intro quote
      rw [hterms, hused, SortedMap.contains_eq_true, SortedMap.get?_insert]
      constructor
      · intro h
        split_ifs at h with hq
        · exact ⟨id, agreed, if_pos rfl, hq.symm⟩
        · obtain ⟨k, t, ht, htq⟩ := (hs.used quote).mp (SortedMap.contains_eq_true.mpr h)
          have hk : k ≠ id := fun hk => by rw [hk, hnew] at ht; cases ht
          exact ⟨k, t, (if_neg hk).trans ht, htq⟩
      · rintro ⟨k, t, ht, rfl⟩
        dsimp only at ht
        split_ifs at ht with hk
        · cases ht
          exact ⟨(), if_pos rfl⟩
        · rw [if_neg (hother k t ht)]
          exact SortedMap.contains_eq_true.mp ((hs.used t.quoteId).mpr ⟨k, t, ht, rfl⟩)
    · rw [hterms]
      intro k k' t t' ht ht' heq
      dsimp only at ht ht'
      split_ifs at ht ht' with hk hk' hk'
      · rw [hk, hk']
      · cases ht
        exact absurd heq.symm (hother k' t' ht')
      · cases ht'
        exact absurd heq (hother k t ht)
      · exact hs.once k k' t t' ht ht' heq

end ProtocolState

/-! ### The handlers -/

section
variable {m m' : ManifestBuilder} {id : RequestId}

/-- What a handler leaves of the quotes. -/
abbrev ManifestBuilder.Keeps (m m' : ManifestBuilder) : Prop := m.next.KeepsQuotes m'.next

theorem ManifestBuilder.Keeps.pushEvent (h : m.Keeps m') (kind : ProtocolEventKind) :
    m.Keeps (m'.pushEvent kind) := h

open ProtocolState

theorem settleFinancials_next {s : RequestSettlement} (h : settleFinancials m id s = .ok m') :
    m'.next = m.next := by
  obtain ⟨f, f', e, -, -, rfl⟩ := settleFinancials_eq_ok h
  rfl

theorem cancelSubmission_keeps {c : ReservedCancellation} (hkeyed : m.next.Keyed)
    (h : cancelSubmission m id c = .ok m') : m.Keeps m' := by
  simp only [cancelSubmission, bind_eq_ok, okOr_eq_ok, refuseIf_eq_ok, exists_const] at h
  obtain ⟨r, hr, -, p, -, version, -, m₁, hmoney, h⟩ := h
  cases hkeyed id r hr
  cases h
  have hnext := settleFinancials_next hmoney
  have hkept : m.next.KeepsQuotes {m.next with requests := m.next.requests.insert r.id {r with
      lifecycle := .cancelled p m.event
      version}} := .setRequest hr rfl
  show m.next.KeepsQuotes {m₁.next with requests := m₁.next.requests.insert r.id _}
  rw [hnext]
  exact hkept

theorem closeRequest_keeps {r : RelationshipRequest} {l : RequestLifecycle}
    (hr : m.next.requests.get? id = some r) (h : closeRequest m id r l = .ok m') : m.Keeps m' := by
  obtain ⟨version, rfl⟩ := closeRequest_eq_ok h
  exact .setRequest hr rfl

theorem settleAccepted_keeps {permission : AcceptancePermission}
    (h : settleAccepted m id permission = .ok m') : m.Keeps m' := by
  simp only [settleAccepted, bind_eq_ok, Prod.exists] at h
  obtain ⟨r, a, hawaited, m₁, hmoney, h⟩ := h
  have hnext := settleFinancials_next hmoney
  have hr := (awaitedRequest_eq_ok hawaited).1
  rw [← hnext] at hr
  have hkept := closeRequest_keeps hr h
  rwa [ManifestBuilder.Keeps, hnext] at hkept

theorem applyCooldown_next {start : CanonicalTime} {d : Duration}
    (h : applyCooldown m start d = .ok m') : m'.next = m.next := by
  obtain ⟨history, -, rfl⟩ := applyCooldown_eq_ok h
  rfl

theorem settleRejected_keeps (h : settleRejected m id = .ok m') : m.Keeps m' := by
  simp only [settleRejected, bind_eq_ok, Prod.exists] at h
  obtain ⟨r, a, hawaited, m₁, hmoney, m₂, hlater, h⟩ := h
  have hnext := (applyCooldown_next hlater).trans (settleFinancials_next hmoney)
  have hr := (awaitedRequest_eq_ok hawaited).1
  rw [← hnext] at hr
  have hkept := closeRequest_keeps hr h
  rwa [ManifestBuilder.Keeps, hnext] at hkept

theorem settleExpired_keeps (h : settleExpired m id = .ok m') : m.Keeps m' := by
  simp only [settleExpired, bind_eq_ok, Prod.exists] at h
  obtain ⟨r, a, hawaited, m₁, hmoney, m₂, hlater, h⟩ := h
  have hnext := (applyCooldown_next hlater).trans (settleFinancials_next hmoney)
  have hr := (awaitedRequest_eq_ok hawaited).1
  rw [← hnext] at hr
  have hkept := closeRequest_keeps hr h
  rwa [ManifestBuilder.Keeps, hnext] at hkept

theorem decideRequest_keeps {d : Decision} (hkeyed : m.next.Keyed)
    (h : decideRequest m d = .ok m') : m.Keeps m' := by
  unfold decideRequest at h
  split at h
  · cases h
    exact .refl _
  · split at h
    · exact cancelSubmission_keeps hkeyed h
    · split_ifs at h
      · cases d
        case accept => exact settleAccepted_keeps h
        all_goals exact settleRejected_keeps h
      · exact settleExpired_keeps h
    · cases h
      exact .refl _

theorem settleForLane_keeps {lane : LaneId} (hkeyed : m.next.Keyed)
    (h : settleForLane m lane = .ok m') : m.Keeps m' := by
  unfold settleForLane at h
  split at h
  · cases h
    exact .refl _
  · split at h
    · exact cancelSubmission_keeps hkeyed h
    · exact settleAccepted_keeps h
    · cases h
      exact .refl _

theorem cancelRequestSubmission_keeps {actor : ActorRef} {v : Version} {reason : CancellationReason}
    (hkeyed : m.next.Keyed) (h : cancelRequestSubmission m actor id v reason = .ok m') :
    m.Keeps m' := by
  simp only [cancelRequestSubmission, bind_eq_ok, okOr_eq_ok] at h
  obtain ⟨r, -, h⟩ := h
  split_ifs at h
  · split at h <;> cases h
    exact .refl _
  · simp only [bind_eq_ok, refuseIf_eq_ok, okOr_eq_ok, exists_const] at h
    obtain ⟨-, p, -, -, h⟩ := h
    exact cancelSubmission_keeps hkeyed h
  · simp only [bind_eq_ok, refuseIf_eq_ok, exists_const] at h
    exact cancelSubmission_keeps hkeyed h.2

theorem expireRequest_keeps {v : Version} (h : expireRequest m id v = .ok m') : m.Keeps m' := by
  simp only [expireRequest, bind_eq_ok, okOr_eq_ok] at h
  obtain ⟨r, -, h⟩ := h
  split_ifs at h
  · cases h
    exact .refl _
  · simp only [bind_eq_ok, refuseIf_eq_ok, okOr_eq_ok, exists_const] at h
    obtain ⟨-, -, a, -, -, m₁, hsettle, h⟩ := h
    cases h
    exact (settleExpired_keeps hsettle).pushEvent _

theorem recordPayment_keeps [Crypto] {receipt : SignedPaymentEvidence} (hkeyed : m.next.Keyed)
    (h : recordPayment m id receipt = .ok m') : m.Keeps m' := by
  simp only [recordPayment, bind_eq_ok, okOr_eq_ok, mapError_eq_ok] at h
  obtain ⟨f, -, ⟨f', e⟩, -, h⟩ := h
  dsimp only at h
  split_ifs at h
  · obtain ⟨m₁, hvoid, h⟩ := bind_eq_ok.mp h
    cases h
    rcases voidSubmission_eq_ok (m := {m with payments := m.payments.insert id f'}) hkeyed hvoid with
      ⟨rfl, -⟩ | ⟨r, p, version, -, hr, -, rfl⟩
    · exact .refl _
    · exact .setRequest hr rfl
  · simp only [ok_bind] at h
    cases h
    exact .refl _

theorem commitSubmission_keeps {context : TransitionContext} {input : RequestSubmissionInput}
    {r : RelationshipRequest} (hr : m.next.requests.get? input.request = some r)
    (h : commitSubmission m context input r = .ok m') : m.Keeps m' := by
  simp only [commitSubmission, nextRequestVersion, bind_eq_ok, refuseIf_eq_ok, okOr_eq_ok,
    exists_const] at h
  obtain ⟨-, -, deadline, -, -, version, -, history, -, h⟩ := h
  cases h
  have hkept : m.next.KeepsQuotes {m.next with requests := m.next.requests.insert input.request {r with
      lifecycle := .awaitingRecipientDecision ⟨context.now, deadline⟩
      version}} := .setRequest hr rfl
  unfold ManifestBuilder.Keeps ManifestBuilder.deliver
  cases m.deliveryRoute <;> exact hkept

theorem submitRequestToRecipient_keeps {context : TransitionContext} {input : RequestSubmissionInput}
    (hkeyed : m.next.Keyed) (h : submitRequestToRecipient m context input = .ok m') : m.Keeps m' := by
  simp only [submitRequestToRecipient, bind_eq_ok, refuseIf_eq_ok, okOr_eq_ok, exists_const] at h
  obtain ⟨-, r, hr, -, h⟩ := h
  split_ifs at h
  obtain ⟨failure, -, h⟩ := bind_eq_ok.mp h
  cases failure with
  | some reason => exact cancelSubmission_keeps hkeyed h
  | none =>
    dsimp only at h
    split at h
    · exact cancelSubmission_keeps hkeyed h
    · exact commitSubmission_keeps hr h

theorem terminateLane_keeps (h : terminateLane m = .ok m') : m.Keeps m' := by
  simp only [terminateLane, bind_eq_ok, okOr_eq_ok] at h
  obtain ⟨epoch, -, h⟩ := h
  split at h
  · cases h
    exact ⟨rfl, rfl, rfl⟩
  · simp only [bind_eq_ok] at h
    obtain ⟨effect, -, h⟩ := h
    cases effect <;> cases h <;> exact ⟨rfl, rfl, rfl⟩

theorem setRelationshipState_keeps {state : RelationshipState}
    (h : m.setRelationshipState state = .ok m') : m.Keeps m' := by
  obtain ⟨version, -, rfl⟩ := ManifestBuilder.setRelationshipState_eq_ok h
  exact ⟨rfl, rfl, rfl⟩

theorem relationshipDecision_keeps [Crypto] {v : Version} {d : Decision} (hkeyed : m.next.Keyed)
    (h : relationshipDecision m v d = .ok m') : m.Keeps m' := by
  obtain ⟨-, m₁, m₂, m₃, hstate, hlane, hrequest, rfl⟩ := relationshipDecision_eq_ok h
  have hrequests := (decisionState_spec hstate hlane).2.2.2.2.1
  have hkeyed₂ : m₂.next.Keyed := fun id r hr => hkeyed id r (hrequests ▸ hr)
  have hlane' : m₁.Keeps m₂ := by
    split_ifs at hlane
    · exact terminateLane_keeps hlane
    · cases hlane
      exact .refl _
  have hrequest' := (decideRequest_keeps hkeyed₂ hrequest).pushEvent d.event
  exact ((setRelationshipState_keeps hstate).trans hlane').trans hrequest'

theorem issueTerms_quotes {context : TransitionContext} {route : RequestReturnRoute}
    {address : AliasId} {classId : RequestClassId} {quote : QuoteId}
    {digest : Option MessageDeclarationDigest}
    (h : issueTerms m context route address classId quote digest = .ok m') :
    m.next.QuoteStep m'.next := by
  unfold issueTerms at h
  split at h
  · simp only [bind_eq_ok, refuseIf_eq_ok, exists_const] at h
    obtain ⟨-, h⟩ := h
    cases h
    exact .kept (.refl _)
  · simp only [bind_eq_ok, refuseIf_eq_ok, exists_const] at h
    obtain ⟨-, h⟩ := h
    split at h
    · cases h
    · cases h
      exact .kept (.refl _)
    · simp only [bind_eq_ok, refuseIf_eq_ok, okOr_eq_ok, exists_const, not_or,
        Bool.not_eq_true] at h
      obtain ⟨-, -, expiresAt, -, price, -, -, level, -, amount, -, ⟨hfresh, -⟩, h⟩ := h
      cases h
      exact .issued quote _ (SortedMap.contains_eq_false.mp hfresh) rfl rfl rfl

theorem createRequest_quotes [Crypto] {context : TransitionContext} {message : MessageId}
    {method : Bytes32} {terms : RequestTerms} {creationKey : OperationalKeyRef}
    (h : createRequest m context id message method terms creationKey = .ok m') :
    m.next.QuoteStep m'.next := by
  simp only [createRequest, bind_eq_ok, refuseIf_eq_ok, okOr_eq_ok, mapError_eq_ok, exists_const,
    not_or, Bool.not_eq_true, ne_eq, Decidable.not_not] at h
  obtain ⟨-, -, -, -, deadline, -, ⟨hnew, -⟩, -, ⟨hunused, hissued⟩, -, -, amount, -,
    -, generation, -, f, -, h⟩ := h
  cases h
  refine .consumed id terms ?_ hissued hunused rfl rfl ?_
  · rw [ProtocolState.terms, SortedMap.contains_eq_false.mp hnew]
    rfl
  · funext k
    show ((m.next.requests.insert id _).get? k).map _ = _
    rw [SortedMap.get?_insert]
    split_ifs <;> rfl

/-- The commands that may touch a quote. -/
def ProtocolCommand.quotes : ProtocolCommand → Bool
  | .issueRequestTerms .. | .createRequest .. => true
  | _ => false

theorem applyCommand_keeps [Crypto] {context : TransitionContext} {actor : ActorRef}
    {key : OperationalKeyRef} {c : ProtocolCommand} (hkeyed : m.next.Keyed) (hc : c.quotes = false)
    (h : applyCommand m context actor key c = .ok m') : m.Keeps m' := by
  cases c with
  | recordPayment => exact recordPayment_keeps hkeyed h
  | setFollowupPolicy v policy =>
    simp only [applyCommand, setFollowupPolicy, bind_eq_ok, refuseIf_eq_ok, okOr_eq_ok,
      exists_const] at h
    obtain ⟨-, -, version, -, h⟩ := h
    cases h
    exact ⟨rfl, rfl, rfl⟩
  | admitFollowup =>
    simp only [applyCommand, admitFollowup, bind_eq_ok, refuseIf_eq_ok, okOr_eq_ok, mapError_eq_ok,
      exists_const] at h
    obtain ⟨-, -, r, -, -, -, ⟨⟩, -, -, -, h⟩ := h
    cases h
    unfold ManifestBuilder.Keeps ManifestBuilder.deliver
    cases m.deliveryRoute <;> exact ⟨rfl, rfl, rfl⟩
  | issueRequestTerms => cases hc
  | createRequest => cases hc
  | submitRequestToRecipient => exact submitRequestToRecipient_keeps hkeyed h
  | cancelRequestSubmission => exact cancelRequestSubmission_keeps hkeyed h
  | acceptRelationship => exact relationshipDecision_keeps hkeyed h
  | rejectRelationship => exact relationshipDecision_keeps hkeyed h
  | blockRelationship => exact relationshipDecision_keeps hkeyed h
  | unblockRelationship v =>
    simp only [applyCommand, unblock, bind_eq_ok, refuseIf_eq_ok, exists_const] at h
    obtain ⟨-, -, m₁, hstate, h⟩ := h
    cases h
    exact (setRelationshipState_keeps hstate).pushEvent _
  | expireRequest => exact expireRequest_keeps h
  | revokeRelationship v =>
    simp only [applyCommand, revoke, bind_eq_ok, refuseIf_eq_ok, exists_const] at h
    obtain ⟨-, m₁, hlane, m₂, hstate, h⟩ := h
    cases h
    have hstate' := (setRelationshipState_keeps hstate).pushEvent .relationshipRevoked
    exact (terminateLane_keeps hlane).trans hstate'

/-- **One command.** -/
theorem applyCommand_quotes [Crypto] {context : TransitionContext} {actor : ActorRef}
    {key : OperationalKeyRef} {c : ProtocolCommand} (hkeyed : m.next.Keyed)
    (h : applyCommand m context actor key c = .ok m') : m.next.QuoteStep m'.next := by
  cases c with
  | issueRequestTerms => exact issueTerms_quotes h
  | createRequest => exact createRequest_quotes h
  | _ => exact .kept (applyCommand_keeps hkeyed rfl h)

end

/-! ### The kernel and the store -/

section
variable {s : SettlementSnapshot} {context : TransitionContext} {m : ManifestBuilder}
  {manifest : TransitionManifest}

variable [Crypto]

theorem transition_quotes {command : KernelCommand ProtocolCommand}
    (h : transition s command context = .ok manifest) : s.state.QuoteStep manifest.nextState := by
  simp only [transition, bind_eq_ok] at h
  obtain ⟨⟨⟩, hvalid, -, -, m, happly, hfinish⟩ := h
  rw [finish_next hfinish]
  exact applyCommand_quotes (keyed_of_validateSnapshot hvalid) happly

omit [Crypto] in
theorem receiveNativeRequest_keeps {incoming : RelationshipRequest}
    (h : receiveNativeRequest s incoming context = .ok (some manifest)) :
    s.state.KeepsQuotes manifest.nextState := by
  simp only [receiveNativeRequest, bind_eq_ok, refuseIf_eq_ok, exists_const] at h
  obtain ⟨⟨⟩, hvalid, -, h⟩ := h
  split at h
  · cases h
  · split at h
    · cases h
    · simp only [bind_eq_ok, Except.ok.injEq, Option.some.injEq] at h
      obtain ⟨m, hcancel, manifest', hfinish, rfl⟩ := h
      rw [finish_next hfinish]
      have hkeyed : (ManifestBuilder.new s context).next.Keyed := keyed_of_validateSnapshot hvalid
      exact (cancelSubmission_keeps hkeyed hcancel).pushEvent _

omit [Crypto] in
theorem acceptExpressLane_keeps {lane : LaneId}
    (h : acceptExpressLane s lane context = .ok manifest) : s.state.KeepsQuotes manifest.nextState := by
  simp only [acceptExpressLane, bind_eq_ok, refuseIf_eq_ok, exists_const] at h
  obtain ⟨⟨⟩, hvalid, -, m₁, hstate, m₂, hsettle, hfinish⟩ := h
  rw [finish_next hfinish]
  have hkeyed : m₁.next.Keyed := by
    obtain ⟨version, -, rfl⟩ := ManifestBuilder.setRelationshipState_eq_ok hstate
    exact keyed_of_validateSnapshot hvalid
  have hsettle' := (settleForLane_keeps hkeyed hsettle).pushEvent (.relationshipLaneGranted lane)
  exact (setRelationshipState_keeps hstate).trans hsettle'

end

namespace StoreState

/-- Every relationship's quotes are used once. -/
def QuotesOnce (w : StoreState) : Prop :=
  ∀ R e, w.relationships.get? R = some e → e.protocol.QuotesOnce

theorem QuotesOnce.insert {relationships : SortedMap RelationshipRef EngineState}
    {histories histories' : SortedMap RequestHistoryRef RequestHistory} {R : RelationshipRef}
    {e : EngineState} (hw : QuotesOnce ⟨relationships, histories⟩) (he : e.protocol.QuotesOnce) :
    QuotesOnce ⟨relationships.insert R e, histories'⟩ := by
  intro R' e' he'
  have hget : (relationships.insert R e).get? R' = some e' := he'
  rw [SortedMap.get?_insert] at hget
  split_ifs at hget
  · cases hget
    exact he
  · exact hw R' e' hget

theorem QuotesOnce.commit {w w' : StoreState} (hw : w.QuotesOnce) {R : RelationshipRef}
    {e : EngineState} {m : TransitionManifest} {extra : List ScheduleChange}
    (he : w.relationships.get? R = some e) (hm : e.protocol.QuoteStep m.nextState)
    (h : w.commit R e m extra = .ok w') : w'.QuotesOnce := by
  obtain ⟨revision, ledger, -, rfl⟩ := commit_eq_ok h
  exact hw.insert ((hw R e he).step hm)

theorem QuotesOnce.next [Crypto] {w w' : StoreState} {i : StoreInput} (hw : w.QuotesOnce)
    (h : w.step i = .ok w') : w'.QuotesOnce := by
  cases i with
  | register R H sender recipient now unit =>
    simp only [step, register, bind_eq_ok, refuseIf_eq_ok, exists_const] at h
    obtain ⟨-, -, h⟩ := h
    cases h
    exact hw.insert (.initial R H sender recipient now)
  | execute R lane command context =>
    simp only [step, bind_eq_ok, mapError_eq_ok, Prod.exists] at h
    obtain ⟨e, history, hread, m, htransition, hcommit⟩ := h
    exact hw.commit (read_eq_ok hread).1 (transition_quotes htransition) hcommit
  | receiveNative R lane incoming context =>
    simp only [step, bind_eq_ok, mapError_eq_ok, Prod.exists] at h
    obtain ⟨e, history, hread, m, hreceive, h⟩ := h
    cases m with
    | none =>
      cases h
      exact hw
    | some m => exact hw.commit (read_eq_ok hread).1 (.kept (receiveNativeRequest_keeps hreceive)) h
  | acceptLane R lane grant context =>
    simp only [step, bind_eq_ok, Prod.exists] at h
    obtain ⟨e, history, hread, a, hdecide, h⟩ := h
    cases a with
    | none =>
      cases h
      exact hw
    | some a =>
      exact hw.commit (read_eq_ok hread).1 (.kept (acceptExpressLane_keeps (decide_eq_ok hdecide).1)) h
  | admitFree R lane request record policy now =>
    simp only [step, admitFree, bind_eq_ok, mapError_eq_ok, okOr_eq_ok, refuseIf_eq_ok,
      exists_const, Prod.exists] at h
    obtain ⟨e, history, hread, plan, -, -, revision, -, h⟩ := h
    cases h
    exact hw.insert (hw R e (read_eq_ok hread).1)

/-- **Quotes.** In every state a run reaches, each request consumed the quote it was issued,
and no two requests of a relationship consumed the same one. -/
theorem run_quotesOnce [Crypto] (inputs : List StoreInput) : (run inputs).QuotesOnce :=
  Machine.run_preserves (fun _ _ _ hw h => hw.next h) (fun R e he => by cases he) inputs

end StoreState
end CsMail
