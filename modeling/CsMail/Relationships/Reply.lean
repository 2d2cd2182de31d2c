import CsMail.Application.IngressProofs
import CsMail.Requests.Quotes

/-! An agreed reply lane never weakens permission.

Accepting a request may grant its sender's correspondent a lane back. What is granted is
an addition: nothing is granted over standing permission, over a current lane the recipient
granted outright, or against a block, a revocation or a withdrawn offer (`ReplyLane.Grants`),
and a decision writes no lane but this one (`RequestDecision.Permits`). The entrance the
lane leads to is the one the request named; a request that names none is a guest's, and a
guest has no other direction (`run_routed`). -/
namespace CsMail
open Library

/-! ### The lane -/

namespace SettlementSnapshot

/-- The direction's sender may write without a reply lane. -/
def Standing (s : SettlementSnapshot) (now : CanonicalTime) : Prop :=
  s.state.relationship.state = .accepted ∨
    ∃ lane, s.lane = some lane ∧ lane.providesRelationshipAccess now = true ∧ lane.authority = .recipientGrant

/-- The direction's recipient has refused the sender, or withdrawn what was offered. -/
def Withdrawn (s : SettlementSnapshot) (offered : Option ReplyEpoch) : Prop :=
  s.state.relationship.state = .blocked ∨ s.state.relationship.state = .revoked ∨
    offered ≠ some s.state.relationship.replyEpoch

end SettlementSnapshot

/-- What a granted reply lane is. -/
structure ReplyLane.Grants (s : SettlementSnapshot) (request : RelationshipRequest) (context : TransitionContext)
    (offered : Option ReplyEpoch) (plan : ReplyLane) : Prop where
  agreed : request.terms.replyLane.agreed? ≠ none
  accepted : request.lifecycle.isAccepted = true
  sender : s.state.relationship.key.sender = request.terms.recipient
  recipient : s.state.relationship.key.recipient = request.terms.sender
  standing : ¬s.Standing context.now
  withdrawn : ¬s.Withdrawn offered
  pair : plan.lane.grant.sender = s.state.relationship.key.sender ∧
    plan.lane.grant.recipient = s.state.relationship.key.recipient
  version : (s.lane.elim (some ⟨1⟩) fun lane => lane.grant.version.checkedNext) = some plan.lane.grant.version
  accepts : acceptExpressLane s plan.lane.grant.id context = .ok plan.manifest
  status : plan.manifest.nextState.relationship.state = .expressLane plan.lane.grant.id
  spares : plan.manifest.laneRevocation = none

section
variable [Crypto] {m m' : ManifestBuilder} {id : RequestId}

omit [Crypto] in
theorem settleFinancials_laneRevocation {settlement : RequestSettlement}
    (h : settleFinancials m id settlement = .ok m') : m'.laneRevocation = m.laneRevocation := by
  obtain ⟨f, f', e, -, -, rfl⟩ := settleFinancials_eq_ok h
  rfl

omit [Crypto] in
theorem settleForLane_laneRevocation {lane : LaneId} (h : settleForLane m lane = .ok m') :
    m'.laneRevocation = m.laneRevocation := by
  unfold settleForLane at h
  split at h
  · cases h
    rfl
  · split at h
    · simp only [cancelSubmission, bind_eq_ok] at h
      obtain ⟨r, -, ⟨⟩, -, p, -, version, -, m₁, hmoney, h⟩ := h
      cases h
      have hkept := settleFinancials_laneRevocation hmoney
      exact hkept
    · simp only [settleAccepted, bind_eq_ok, Prod.exists] at h
      obtain ⟨r, a, -, m₁, hmoney, h⟩ := h
      obtain ⟨version, rfl⟩ := closeRequest_eq_ok h
      have hkept := settleFinancials_laneRevocation hmoney
      exact hkept
    · cases h
      rfl

omit [Crypto] in
/-- Accepting a lane ends none. -/
theorem acceptExpressLane_laneRevocation {s : SettlementSnapshot} {lane : LaneId} {context : TransitionContext}
    {manifest : TransitionManifest} (h : acceptExpressLane s lane context = .ok manifest) :
    manifest.laneRevocation = none := by
  simp only [acceptExpressLane, bind_eq_ok] at h
  obtain ⟨⟨⟩, -, ⟨⟩, -, m₁, hstate, m₂, hsettle, hfinish⟩ := h
  obtain ⟨version, -, rfl⟩ := ManifestBuilder.setRelationshipState_eq_ok hstate
  simp only [ManifestBuilder.finish, bind_eq_ok] at hfinish
  obtain ⟨v, -, hfinish⟩ := hfinish
  cases hfinish
  exact settleForLane_laneRevocation hsettle

theorem acceptedLane_grant {t : ReplyLaneTerms} {a : ReplyAcceptance} {l : SenderScopedLane}
    (h : t.acceptedLane a = .ok l) :
    l.grant.sender = a.recipient ∧ l.grant.recipient = a.sender ∧ l.grant.version = a.version := by
  simp only [ReplyLaneTerms.acceptedLane, SenderScopedLane.fromGrant, bind_eq_ok] at h
  obtain ⟨⟨⟩, -, notAfter, -, lane, ⟨⟨⟩, -, horizon, -, window, -, hlane⟩, h⟩ := h
  cases hlane
  cases h
  exact ⟨rfl, rfl, rfl⟩

/-- **What a reply lane may be granted over.** -/
theorem ReplyLane.decide_grants {s : SettlementSnapshot} {request : RelationshipRequest}
    {context : TransitionContext} {offered : Option ReplyEpoch} {plan : ReplyLane}
    (h : ReplyLane.decide s request context offered = .ok (some plan)) : plan.Grants s request context offered := by
  have haccept := ReplyLane.decide_eq_ok h
  unfold decide at h
  split at h
  · cases h
  · rename_i agreed hagreed
    simp only [bind_eq_ok, refuseIf_eq_ok, not_or, ne_eq, Decidable.not_not, exists_const,
      Bool.not_eq_false] at h
    obtain ⟨⟨hsender, hrecipient, haccepted⟩, h⟩ := h
    split_ifs at h with hwithdrawn hstanding
    · cases h
    · cases h
    · simp only [bind_eq_ok, mapError_eq_ok, okOr_eq_ok, Except.ok.injEq, Option.some.injEq] at h
      obtain ⟨version, hversion, lane, hlane, manifest, -, rfl⟩ := h
      obtain ⟨hfrom, hto, hgranted⟩ := acceptedLane_grant hlane
      refine ⟨by rw [hagreed]; exact Option.some_ne_none _, haccepted, hsender, hrecipient, ?_, ?_, ⟨?_, ?_⟩, ?_, haccept, ?_, ?_⟩
      · rintro (hstate | ⟨held, hheld, haccess, hauthority⟩)
        · exact hstanding (.inl hstate)
        · refine hstanding (.inr ?_)
          rw [hheld]
          exact decide_eq_true ⟨haccess, hauthority⟩
      · rintro (hstate | hstate | hepoch)
        · exact hwithdrawn (.inl (by rw [hstate]; rfl))
        · exact hwithdrawn (.inl (by rw [hstate]; rfl))
        · exact hwithdrawn (.inr hepoch)
      · exact hfrom.trans hsender.symm
      · exact hto.trans hrecipient.symm
      · rw [hgranted]
        cases hheld : s.lane with
        | none =>
          rw [hheld] at hversion
          exact hversion
        | some held =>
          rw [hheld] at hversion
          exact hversion
      · exact (acceptExpressLane_spec haccept).1.state
      · exact acceptExpressLane_laneRevocation haccept

end

/-! ### The decision -/

/-- The scope is the sender's next: one revision on from the stored one, for the same pair. -/
structure SenderScopeRecord.Raises (key : RelationshipKey) (previous : Option SenderRouteScope)
    (scope : SenderScopeRecord) : Prop where
  sender : scope.sender = key.sender
  recipient : scope.recipient = key.recipient
  same : ∀ p, previous = some p → p.record.sender = key.sender ∧ p.record.recipient = key.recipient
  revision : scope.revision.val = (previous.elim 0 fun p => p.record.revision.val) + 1

theorem defaultScope_eq_ok {r : Relationship} {entrances : ReceivingScope} {now : CanonicalTime}
    {lane : Option (LaneId × Version)} {previous : Option SenderRouteScope} {scope : SenderScopeRecord}
    (h : defaultScope r entrances now lane previous = .ok scope) :
    scope.Raises r.key previous ∧ scope.lane = lane ∧ scope.receiving = entrances := by
  simp only [defaultScope, bind_eq_ok, refuseIf_eq_ok, okOr_eq_ok, exists_const, Bool.not_eq_true] at h
  obtain ⟨hsame, revision, hrevision, h⟩ := h
  cases h
  cases previous with
  | none =>
    cases hrevision
    refine ⟨⟨rfl, rfl, fun q hq => ?_, rfl⟩, rfl, rfl⟩
    cases hq
  | some p =>
    have hpair := of_decide_eq_false hsame
    simp only [not_or, ne_eq, Decidable.not_not] at hpair
    refine ⟨⟨rfl, rfl, fun q hq => ?_, ?_⟩, rfl, rfl⟩
    · cases hq
      exact hpair
    · exact Checked.succ_eq_some.mp hrevision

theorem forwardScopes_raise {before : SettlementSnapshot} {forward : TransitionManifest} {now : CanonicalTime}
    {lane : Option (LaneId × Version)} {previous : Option SenderRouteScope} {scopes : List SenderScopeRecord}
    (h : forwardScopes before forward now lane previous = .ok scopes) :
    scopes = [] ∨ ∃ scope, scopes = [scope] ∧
      scope.Raises forward.nextState.relationship.key previous ∧ scope.lane = lane := by
  unfold forwardScopes at h
  split at h
  · obtain ⟨scope, hscope, h⟩ := bind_eq_ok.mp h
    cases h
    obtain ⟨hraises, hlane, -⟩ := defaultScope_eq_ok hscope
    exact .inr ⟨scope, rfl, hraises, hlane⟩
  · split_ifs at h
    · obtain ⟨scope, hscope, h⟩ := bind_eq_ok.mp h
      cases h
      obtain ⟨hraises, hlane, -⟩ := defaultScope_eq_ok hscope
      exact .inr ⟨scope, rfl, hraises, hlane⟩
    · cases h
      exact .inl rfl
  · cases h
    exact .inl rfl

/-- What a decision may do to the permission of the other direction. -/
inductive RequestDecision.Permits [Crypto] [Documents] (before : SettlementSnapshot)
    (counterparty : CounterpartyContext) (forward : TransitionManifest) (opposite : Option DirectionEffect)
    (context : TransitionContext) (receiving : ReceivingScopes) (d : RequestDecision)
    (scopes : List SenderScopeRecord) : Prop
  | kept (hopposite : d.opposite = opposite) (hscopes : d.scopes = scopes)
  | granted {direction : DirectionSnapshot} {request : RelationshipRequest} {plan : ReplyLane}
    {more : List SenderScopeRecord} (hmember : counterparty = .member (some direction))
    (haccepted : forward.accepted before = some request)
    (hgrants : plan.Grants direction.snapshot request context (direction.replyOffers.get? request.id).join)
    (hopposite : d.opposite = some {
      relationship := direction.snapshot.state.relationship.key.reference
      manifest := plan.manifest
      journalPosition := context.journalPosition
      lane := some plan.lane
      schedules := [plan.lane.scheduleChange]})
    (hscopes : d.scopes = scopes ++ more)
    (hentrance : ∀ address, request.terms.returnRoute = .native address → ∃ scope, more = [scope] ∧
      scope.Raises direction.snapshot.state.relationship.key receiving.opposite ∧
      scope.lane = some (plan.lane.grant.id, plan.lane.grant.version) ∧ scope.receiving = .one address)
    (hguest : request.terms.returnRoute = .guestMailbox → more = [])

variable [Crypto]

omit [Crypto] in
theorem replyScopes_eq_ok {request : RelationshipRequest} {plan : ReplyLane} {now : CanonicalTime}
    {previous : Option SenderRouteScope} {more : List SenderScopeRecord}
    (h : replyScopes request plan now previous = .ok more) :
    (∀ address, request.terms.returnRoute = .native address → ∃ scope, more = [scope] ∧
      scope.Raises plan.manifest.nextState.relationship.key previous ∧
      scope.lane = some (plan.lane.grant.id, plan.lane.grant.version) ∧ scope.receiving = .one address) ∧
    (request.terms.returnRoute = .guestMailbox → more = []) := by
  unfold replyScopes at h
  split at h
  · rename_i address hroute
    obtain ⟨scope, hscope, h⟩ := bind_eq_ok.mp h
    cases h
    obtain ⟨hraises, hlane, hreceiving⟩ := defaultScope_eq_ok hscope
    refine ⟨fun address' hroute' => ?_, fun hguest => ?_⟩
    · cases hroute.symm.trans hroute'
      exact ⟨scope, rfl, hraises, hlane, hreceiving⟩
    · cases hroute.symm.trans hguest
  · rename_i hroute
    cases h
    refine ⟨fun address' hroute' => ?_, fun _ => rfl⟩
    cases hroute.symm.trans hroute'

variable [Documents]

theorem coordinateAcceptance_permits {before : SettlementSnapshot} {counterparty : CounterpartyContext}
    {forward : TransitionManifest} {opposite : Option DirectionEffect} {context : TransitionContext}
    {lane : Option (LaneId × Version)} {receiving : ReceivingScopes} {d : RequestDecision}
    (h : RequestDecision.coordinateAcceptance before counterparty forward opposite context lane receiving = .ok d) :
    d.forward = forward ∧ ∃ scopes, (scopes = [] ∨ ∃ scope, scopes = [scope] ∧
      scope.Raises forward.nextState.relationship.key receiving.forward ∧ scope.lane = lane) ∧
      d.Permits before counterparty forward opposite context receiving scopes := by
  simp only [RequestDecision.coordinateAcceptance, bind_eq_ok] at h
  obtain ⟨scopes, hforward, h⟩ := h
  have hscopes := forwardScopes_raise hforward
  split at h
  · rename_i request haccepted
    simp only [bind_eq_ok, okOr_eq_ok, refuseIf_eq_ok, exists_const, Except.ok.injEq, Bool.not_eq_true] at h
    obtain ⟨direction, rfl, hnone, ⟨reply, more⟩, hreply, rfl⟩ := h
    refine ⟨rfl, scopes, hscopes, ?_⟩
    simp only [coordinateReply, bind_eq_ok, mapError_eq_ok] at hreply
    obtain ⟨plan, hplan, hreply⟩ := hreply
    cases plan with
    | none =>
      cases hreply
      refine .kept ?_ (List.append_nil _)
      exact (Option.not_isSome_iff_eq_none.mp (Bool.eq_false_iff.mp hnone)).symm
    | some plan =>
      simp only [bind_eq_ok, Except.ok.injEq, Prod.mk.injEq] at hreply
      obtain ⟨more', hmore, rfl, rfl⟩ := hreply
      obtain ⟨hentrance, hguest⟩ := replyScopes_eq_ok hmore
      have hkey := (acceptExpressLane_spec (ReplyLane.decide_eq_ok hplan)).1.key
      rw [hkey] at hentrance
      exact .granted rfl haccepted (ReplyLane.decide_grants hplan) rfl rfl hentrance hguest
  · cases h
    exact ⟨rfl, scopes, hscopes, .kept rfl rfl⟩

/-! ### A member names an entrance -/

/-- Only a guest asks for answers to a mailbox. -/
def RequestTerms.Routed (guest : ProtocolIdentity → Bool) (t : RequestTerms) : Prop :=
  t.returnRoute = .guestMailbox → guest t.sender = true

structure ProtocolState.Routed (guest : ProtocolIdentity → Bool) (s : ProtocolState) : Prop where
  quotes : ∀ quote t, s.quotes.get? quote = some t → t.Routed guest
  terms : ∀ id t, s.terms id = some t → t.Routed guest

/-- What the host checks of the terms it issues: a mailbox is named only by a guest. -/
def ProtocolCommand.Routed (guest : ProtocolIdentity → Bool) (sender : ProtocolIdentity) : ProtocolCommand → Prop
  | .issueRequestTerms route .. => route = .guestMailbox → guest sender = true
  | _ => True

namespace ProtocolState
variable {guest : ProtocolIdentity → Bool} {s s' : ProtocolState}

omit [Crypto] [Documents] in
theorem Routed.initial {relationship : RelationshipRef} {history : RequestHistoryRef}
    {sender recipient : ProtocolIdentity} {now : CanonicalTime} :
    (initialScoped relationship history sender recipient now).Routed guest where
  quotes quote t ht := by cases ht
  terms id t ht := by cases ht

omit [Crypto] [Documents] in
theorem Routed.keeps (hs : s.Routed guest) (h : s.KeepsQuotes s') : s'.Routed guest := by
  refine ⟨?_, ?_⟩
  · rw [h.quotes]
    exact hs.quotes
  · rw [h.terms]
    exact hs.terms

end ProtocolState

section
variable {guest : ProtocolIdentity → Bool} {s : SettlementSnapshot} {context : TransitionContext}
  {manifest : TransitionManifest}

omit [Crypto] [Documents] in
theorem issueTerms_routed {m m' : ManifestBuilder} {route : RequestReturnRoute} {address : AliasId}
    {classId : RequestClassId} {quote : QuoteId} {digest : Option MessageDeclarationDigest}
    (hm : m.next.Routed guest) (hroute : route = .guestMailbox → guest m.next.relationship.key.sender = true)
    (h : issueTerms m context route address classId quote digest = .ok m') : m'.next.Routed guest := by
  unfold issueTerms at h
  split at h
  · simp only [bind_eq_ok, refuseIf_eq_ok, exists_const] at h
    obtain ⟨-, h⟩ := h
    cases h
    exact hm
  · simp only [bind_eq_ok, refuseIf_eq_ok, exists_const] at h
    obtain ⟨-, h⟩ := h
    split at h
    · cases h
    · cases h
      exact hm
    · simp only [bind_eq_ok, refuseIf_eq_ok, okOr_eq_ok, exists_const] at h
      obtain ⟨-, -, expiresAt, -, price, -, -, level, -, amount, -, -, h⟩ := h
      cases h
      refine ⟨fun quote' t ht => ?_, hm.terms⟩
      rcases SortedMap.get?_insert_eq_some.mp ht with ⟨-, rfl⟩ | ⟨-, hold⟩
      · exact hroute
      · exact hm.quotes quote' t hold

omit [Documents] in
/-- A request is created under terms that were issued. -/
theorem createRequest_routed {m m' : ManifestBuilder} {id : RequestId} {message : MessageId} {method : Bytes32}
    {terms : RequestTerms} {creationKey : OperationalKeyRef} (hm : m.next.Routed guest)
    (h : createRequest m context id message method terms creationKey = .ok m') : m'.next.Routed guest := by
  simp only [createRequest, bind_eq_ok, refuseIf_eq_ok, okOr_eq_ok, mapError_eq_ok, exists_const, not_or,
    ne_eq, Decidable.not_not] at h
  obtain ⟨-, -, -, -, deadline, -, -, -, ⟨-, hissued⟩, -, -, amount, -, -, generation, -, f, -, h⟩ := h
  cases h
  refine ⟨hm.quotes, fun k t ht => ?_⟩
  obtain ⟨r, hr, rfl⟩ := Option.map_eq_some_iff.mp ht
  rcases SortedMap.get?_insert_eq_some.mp hr with ⟨-, rfl⟩ | ⟨-, hold⟩
  · exact hm.quotes _ _ hissued
  · exact hm.terms k r.terms (Option.map_eq_some_iff.mpr ⟨r, hold, rfl⟩)

omit [Documents] in
theorem transition_routed {command : KernelCommand ProtocolCommand} (hs : s.state.Routed guest)
    (hroute : command.command.Routed guest s.state.relationship.key.sender)
    (h : transition s command context = .ok manifest) : manifest.nextState.Routed guest := by
  simp only [transition, bind_eq_ok] at h
  obtain ⟨⟨⟩, hvalid, -, -, m, happly, hfinish⟩ := h
  have hnew : (ManifestBuilder.new s context).next.Routed guest := hs
  rw [finish_next hfinish]
  cases hcommand : command.command with
  | issueRequestTerms route address classId quote digest =>
    rw [hcommand] at happly hroute
    exact issueTerms_routed hnew (fun hguest => hroute hguest) happly
  | createRequest paymentMethod request message terms =>
    rw [hcommand] at happly
    exact createRequest_routed hnew happly
  | _ => exact hnew.keeps (applyCommand_keeps (keyed_of_validateSnapshot hvalid) (by rw [hcommand]; rfl) happly)

end

namespace StoreState
variable {guest : ProtocolIdentity → Bool} {w w' : StoreState}

/-- Every relationship's terms name an entrance, or are a guest's. -/
def Routed (guest : ProtocolIdentity → Bool) (w : StoreState) : Prop :=
  ∀ R e, w.relationships.get? R = some e → e.protocol.Routed guest

/-- The host issues the terms its input asks for only as it may. -/
def IssuesRouted (guest : ProtocolIdentity → Bool) (w : StoreState) : IngressInput → Prop
  | .protocol R _ command _ _ => ∀ e, w.relationships.get? R = some e →
      command.command.Routed guest e.protocol.relationship.key.sender
  | _ => True

omit [Crypto] [Documents] in
theorem Routed.insert (hw : w.Routed guest) {R : RelationshipRef} {e : EngineState}
    (he : e.protocol.Routed guest) (histories : SortedMap RequestHistoryRef RequestHistory) :
    Routed guest ⟨w.relationships.insert R e, histories⟩ := by
  intro R' e' he'
  rcases SortedMap.get?_insert_eq_some.mp he' with ⟨-, rfl⟩ | ⟨-, hold⟩
  · exact he
  · exact hw R' e' hold

omit [Crypto] [Documents] in
theorem Routed.commit (hw : w.Routed guest) {R : RelationshipRef} {e : EngineState} {m : TransitionManifest}
    {extra : List ScheduleChange} (hm : m.nextState.Routed guest) (h : w.commit R e m extra = .ok w') :
    w'.Routed guest := by
  obtain ⟨revision, ledger, -, rfl⟩ := commit_eq_ok h
  exact hw.insert hm _

omit [Crypto] in
/-- Both directions are committed with the terms they were decided on. -/
theorem Routed.persist (hw : w.Routed guest) {R : RelationshipRef} {e : EngineState} {d : RequestDecision}
    {extra : List ScheduleChange} (hforward : d.forward.nextState.Routed guest)
    (hopposite : ∀ effect, d.opposite = some effect → effect.manifest.nextState.Routed guest)
    (h : w.persistDecision R e d extra = .ok w') : w'.Routed guest := by
  obtain ⟨w₁, hcommit, h⟩ := bind_eq_ok.mp h
  have hw₁ := hw.commit hforward hcommit
  cases hd : d.opposite with
  | none =>
    rw [hd] at h
    cases h
    exact hw₁
  | some effect =>
    rw [hd] at h
    simp only [persistOpposite, bind_eq_ok, Prod.exists] at h
    obtain ⟨e', h', -, ⟨⟩, -, hcommit'⟩ := h
    exact hw₁.commit (hopposite effect hd) hcommit'

theorem coordinateAcceptance_routed {before : SettlementSnapshot} {counterparty : CounterpartyContext}
    {forward : TransitionManifest} {opposite : Option DirectionEffect} {context : TransitionContext}
    {lane : Option (LaneId × Version)} {receiving : ReceivingScopes} {d : RequestDecision}
    (hdirection : ∀ direction, counterparty.opposite = some direction → direction.snapshot.state.Routed guest)
    (hopposite : ∀ effect, opposite = some effect → effect.manifest.nextState.Routed guest)
    (h : RequestDecision.coordinateAcceptance before counterparty forward opposite context lane receiving = .ok d)
    {effect : DirectionEffect} (heffect : d.opposite = some effect) : effect.manifest.nextState.Routed guest := by
  obtain ⟨-, scopes, -, hpermits⟩ := coordinateAcceptance_permits h
  cases hpermits with
  | kept hkept => exact hopposite effect (hkept ▸ heffect)
  | @granted direction request plan more hmember _ hgrants hgranted =>
    cases hgranted.symm.trans heffect
    exact (hdirection direction (by rw [hmember]; rfl)).keeps (acceptExpressLane_keeps hgrants.accepts)

theorem decide_routed {s : SettlementSnapshot} {counterparty : CounterpartyContext}
    {command : KernelCommand ProtocolCommand} {context : TransitionContext}
    {document : Option Documents.Document} {receiving : ReceivingScopes} {d : RequestDecision}
    (hs : s.state.Routed guest) (hroute : command.command.Routed guest s.state.relationship.key.sender)
    (hdirection : ∀ direction, counterparty.opposite = some direction → direction.snapshot.state.Routed guest)
    (h : RequestDecision.decide s counterparty command context document receiving = .ok d) :
    d.forward.nextState.Routed guest ∧
      ∀ effect, d.opposite = some effect → effect.manifest.nextState.Routed guest := by
  simp only [RequestDecision.decide, bind_eq_ok] at h
  obtain ⟨⟨⟩, -, forward, htransition, delivery, -, opposite, hreceive, result, haccept, h⟩ := h
  cases h
  refine ⟨?_, fun effect => coordinateAcceptance_routed hdirection (fun effect heffect => ?_) haccept⟩
  · show result.forward.nextState.Routed guest
    rw [(coordinateAcceptance_permits haccept).1]
    exact transition_routed hs hroute htransition
  · obtain ⟨direction, incoming, hopposite, hmanifest, -⟩ := (receiveIncoming_eq_ok hreceive).1 effect heffect
    exact (hdirection direction hopposite).keeps (receiveNativeRequest_keeps hmanifest)

theorem Routed.ingress (hw : w.Routed guest) {i : IngressInput} (hissues : w.IssuesRouted guest i)
    (h : w.ingress guest i = .ok w') : w'.Routed guest := by
  cases i with
  | register R H sender recipient now unit =>
    simp only [StoreState.ingress, register, bind_eq_ok] at h
    obtain ⟨⟨⟩, -, ⟨⟩, -, h⟩ := h
    cases h
    exact hw.insert .initial _
  | protocol R records command context document =>
    simp only [StoreState.ingress, applyProtocol, bind_eq_ok, mapError_eq_ok, Prod.exists] at h
    obtain ⟨e, history, hread, counterparty, hloaded, d, hdecide, hpersist⟩ := h
    have he := (read_eq_ok hread).1
    obtain ⟨hforward, hopposite⟩ := decide_routed (hw R e he) (hissues e he) (fun direction hdirection => by
      obtain ⟨R', e', history', he', -, -, -, hsnapshot⟩ := loadCounterparty_eq_ok hloaded hdirection
      rw [hsnapshot]
      exact hw R' e' he') hdecide
    exact hw.persist hforward hopposite hpersist
  | grant R records grant context =>
    simp only [StoreState.ingress, applyGrant, bind_eq_ok, Prod.exists] at h
    obtain ⟨e, history, hread, acceptance, hdecide, h⟩ := h
    cases acceptance with
    | none =>
      cases h
      exact hw
    | some acceptance =>
      simp only [bind_eq_ok, mapError_eq_ok] at h
      obtain ⟨counterparty, hloaded, d, hcoordinate, hpersist⟩ := h
      have he := (read_eq_ok hread).1
      refine hw.persist ?_ (fun effect => coordinateAcceptance_routed (fun direction hdirection => ?_)
        (fun effect hnone => by cases hnone) hcoordinate) hpersist
      · rw [(coordinateAcceptance_permits hcoordinate).1]
        have hstored : (e.snapshot history records.lane).state.Routed guest := hw R e he
        exact hstored.keeps (acceptExpressLane_keeps (decide_eq_ok hdecide).1)
      · obtain ⟨R', e', history', he', -, -, -, hsnapshot⟩ := loadCounterparty_eq_ok hloaded hdirection
        rw [hsnapshot]
        exact hw R' e' he'
  | admitFree R lane request record policy now =>
    simp only [StoreState.ingress, admitFree, bind_eq_ok, okOr_eq_ok, Prod.exists] at h
    obtain ⟨e, history, hread, plan, -, ⟨⟩, -, revision, -, h⟩ := h
    cases h
    refine hw.insert ?_ w.histories
    exact hw R e (read_eq_ok hread).1

/-- Every run of the host that issues terms as it may keeps them routed. -/
theorem run_routed (guest : ProtocolIdentity → Bool) {inputs : List IngressInput}
    (hissues : Machine.Along (fun w i => StoreState.ingress guest w i) (fun w i => w.IssuesRouted guest i)
      empty inputs) : (ingressRun guest inputs).Routed guest :=
  Machine.run_preserves_along (fun _ _ _ hi hw h => hw.ingress hi h) (fun R e he => by cases he) hissues

end StoreState

/-- **Replies never weaken permission.** Whatever the states, lanes and scopes of a pair,
`ReplyLane.decide` grants nothing over standing permission, over a current lane the
recipient granted, or where the recipient blocked, revoked or withdrew; and a decision
leaves the forward consequence as it was, writes to the other direction no lane but the one
granted, ends none, and raises the scope of a sender it writes by one. A lane is granted
without an entrance only where the request names none, which a member's request never does. -/
theorem reply_permission :
    (∀ s request context offered plan, ReplyLane.decide s request context offered = .ok (some plan) →
      plan.Grants s request context offered) ∧
    (∀ before counterparty forward opposite context lane receiving (d : RequestDecision),
      RequestDecision.coordinateAcceptance before counterparty forward opposite context lane receiving = .ok d →
        d.forward = forward ∧ ∃ scopes, (scopes = [] ∨ ∃ scope, scopes = [scope] ∧
          scope.Raises forward.nextState.relationship.key receiving.forward ∧ scope.lane = lane) ∧
          d.Permits before counterparty forward opposite context receiving scopes) ∧
    ∀ guest inputs, Machine.Along (fun w i => StoreState.ingress guest w i)
      (fun w i => w.IssuesRouted guest i) .empty inputs →
        ∀ R e id r, (StoreState.ingressRun guest inputs).relationships.get? R = some e →
          e.protocol.requests.get? id = some r → guest r.terms.sender = false →
            ∃ address, r.terms.returnRoute = .native address := by
  refine ⟨fun s request context offered plan => ReplyLane.decide_grants,
    fun before counterparty forward opposite context lane receiving d => coordinateAcceptance_permits,
    fun guest inputs hissues R e id r he hr hmember => ?_⟩
  have hrouted := (StoreState.run_routed guest hissues R e he).terms id r.terms
    (Option.map_eq_some_iff.mpr ⟨r, hr, rfl⟩)
  cases hroute : r.terms.returnRoute with
  | native address => exact ⟨address, rfl⟩
  | guestMailbox =>
    rw [hrouted hroute] at hmember
    cases hmember

end CsMail
