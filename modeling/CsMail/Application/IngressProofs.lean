import CsMail.Application.Requests
import CsMail.Application.Soundness

/-! The host commits both directions, and each as the store would.

A decision's two consequences are computed from one state and committed one after the
other. The other direction is a relationship of its own, with a history of its own
(`StoreState.Paired`), so the second commit finds what the decision read; every input of
the host is then a change or two of the store (`Coordinated`), and its runs are sound. -/
namespace CsMail
open Library

variable [Crypto]

/-! ### What a decision says of the other direction -/

/-- What a decision may do to the other direction: nothing it submits. -/
structure Reverse (direction : SettlementSnapshot) (context : TransitionContext)
    (effect : DirectionEffect) : Prop where
  relationship : effect.relationship = direction.state.relationship.key.reference
  consequence : ∃ state, Consequence direction context state effect.manifest
  quiet : effect.manifest.book.submissions = []
  schedules : Unrelated effect.schedules

omit [Crypto] in
theorem checkOpposite_eq_ok {forward : RelationshipKey} {opposite : ProtocolState}
    {command : ProtocolCommand} {now : CanonicalTime}
    (h : checkOpposite forward opposite command now = .ok ()) (hsolicits : command.solicits = true)
    {r : RelationshipRequest} (hr : opposite.activeRequest = some r) :
    r.lifecycle.awaitsDecisionAt now = false := by
  simp only [checkOpposite, bind_eq_ok, hsolicits, if_true] at h
  obtain ⟨-, -, -, -, ⟨⟩, hpending, -⟩ := h
  by_contra hawaits
  rw [Bool.not_eq_false] at hawaits
  simp [refusePending, hr, Option.filter, hawaits] at hpending

section
variable {s : SettlementSnapshot} {request : RelationshipRequest} {context : TransitionContext}

theorem ReplyLane.decide_eq_ok {epoch : Option ReplyEpoch} {plan : ReplyLane}
    (h : ReplyLane.decide s request context epoch = .ok (some plan)) :
    acceptExpressLane s plan.lane.grant.id context = .ok plan.manifest := by
  unfold decide at h
  split at h
  · cases h
  · simp only [bind_eq_ok] at h
    obtain ⟨-, -, h⟩ := h
    split_ifs at h
    · cases h
    · cases h
    · simp only [bind_eq_ok, mapError_eq_ok, Except.ok.injEq, Option.some.injEq] at h
      obtain ⟨version, -, lane, -, manifest, haccept, rfl⟩ := h
      exact haccept

theorem coordinateReply_reverse {direction : DirectionSnapshot} {previous : Option SenderRouteScope}
    {effect : DirectionEffect} {scopes : List SenderScopeRecord}
    (h : coordinateReply direction request context previous = .ok (some effect, scopes)) :
    Reverse direction.snapshot context effect := by
  simp only [coordinateReply, bind_eq_ok, mapError_eq_ok] at h
  obtain ⟨plan, hplan, h⟩ := h
  cases plan with
  | none => cases h
  | some plan =>
    simp only [bind_eq_ok, Except.ok.injEq, Prod.mk.injEq, Option.some.injEq] at h
    obtain ⟨-, -, rfl, -⟩ := h
    obtain ⟨hconsequence, -, -, hquiet⟩ := acceptExpressLane_spec (ReplyLane.decide_eq_ok hplan)
    refine ⟨rfl, ⟨_, hconsequence⟩, hquiet, fun c hc => ?_⟩
    rw [List.mem_singleton.mp hc]
    rfl

end

section
variable [Documents] {s : SettlementSnapshot} {counterparty : CounterpartyContext}
  {forward : TransitionManifest} {context : TransitionContext} {receiving : ReceivingScopes}

omit [Crypto] [Documents] in
theorem receiveIncoming_eq_ok {effect : Option DirectionEffect}
    (h : receiveIncoming counterparty forward context = .ok effect) :
    (∀ e, effect = some e → ∃ direction incoming, counterparty.opposite = some direction ∧
      receiveNativeRequest direction.snapshot incoming context = .ok (some e.manifest) ∧
      e.relationship = direction.snapshot.state.relationship.key.reference ∧ e.schedules = []) ∧
    ∀ opposite incoming, counterparty = .member opposite → forward.incoming = some incoming →
      ∃ direction, opposite = some direction ∧
        receiveNativeRequest direction.snapshot incoming context =
          .ok (effect.map DirectionEffect.manifest) := by
  unfold receiveIncoming at h
  split at h
  · rename_i opposite incoming hincoming
    simp only [bind_eq_ok, okOr_eq_ok, Except.ok.injEq] at h
    obtain ⟨direction, rfl, manifest, hreceive, rfl⟩ := h
    constructor
    · intro e he
      cases manifest with
      | none => cases he
      | some manifest =>
        cases he
        exact ⟨direction, incoming, rfl, hreceive, rfl, rfl⟩
    · rintro _ incoming' ⟨⟩ hincoming'
      obtain rfl := Option.some.inj (hincoming.symm.trans hincoming')
      refine ⟨direction, rfl, ?_⟩
      rw [hreceive]
      cases manifest <;> rfl
  · rename_i hnone
    cases h
    refine ⟨by simp, fun opposite incoming hmember hincoming => ?_⟩
    exact (hnone opposite incoming hmember hincoming).elim

theorem coordinateAcceptance_eq_ok {opposite : Option DirectionEffect}
    {lane : Option (LaneId × Version)} {d : RequestDecision}
    (h : RequestDecision.coordinateAcceptance s counterparty forward opposite context lane receiving =
      .ok d) : d.forward = forward ∧ (d.opposite = opposite ∨ opposite = none ∧
        ∀ effect, d.opposite = some effect → ∃ direction, counterparty.opposite = some direction ∧
          Reverse direction.snapshot context effect) := by
  simp only [RequestDecision.coordinateAcceptance, bind_eq_ok] at h
  obtain ⟨scopes, -, h⟩ := h
  split at h
  · simp only [bind_eq_ok, okOr_eq_ok, refuseIf_eq_ok, exists_const, Except.ok.injEq] at h
    obtain ⟨direction, rfl, hnone, ⟨reply, more⟩, hreply, rfl⟩ := h
    refine ⟨rfl, .inr ⟨by simpa using hnone, fun effect he => ?_⟩⟩
    cases he
    exact ⟨direction, rfl, coordinateReply_reverse hreply⟩
  · cases h
    exact ⟨rfl, .inl rfl⟩

/-- **Decisions over a pair.** The forward consequence is the kernel's own, the other
direction submits nothing, and what is submitted is received there. -/
theorem RequestDecision.decide_eq_ok {command : KernelCommand ProtocolCommand}
    {document : Option Documents.Document} {d : RequestDecision}
    (h : RequestDecision.decide s counterparty command context document receiving = .ok d) :
    ∃ context' : TransitionContext, context'.now = context.now ∧
      context'.journalPosition = context.journalPosition ∧
      transition s command context' = .ok d.forward ∧
      (∀ direction, counterparty.opposite = some direction →
        checkOpposite s.state.relationship.key direction.snapshot.state command.command context.now =
          .ok ()) ∧
      (∀ effect, d.opposite = some effect → ∃ direction, counterparty.opposite = some direction ∧
        Reverse direction.snapshot context' effect) ∧
      ∀ opposite incoming, counterparty = .member opposite → d.forward.incoming = some incoming →
        ∃ direction result, opposite = some direction ∧
          receiveNativeRequest direction.snapshot incoming context' = .ok result ∧
          ∀ manifest, result = some manifest → ∃ effect, d.opposite = some effect ∧
            effect.manifest = manifest ∧
            effect.relationship = direction.snapshot.state.relationship.key.reference := by
  simp only [RequestDecision.decide, bind_eq_ok] at h
  obtain ⟨⟨⟩, hcheck, forward, htransition, delivery, -, opposite, hreceive, result, haccept, h⟩ := h
  obtain ⟨context', hcontext⟩ :
      ∃ c, c = {context with requestDelivery := counterparty.requestDelivery} := ⟨_, rfl⟩
  rw [← hcontext] at htransition hreceive haccept
  cases h
  obtain ⟨hforward, hopposite⟩ := coordinateAcceptance_eq_ok haccept
  obtain ⟨hreceived, hmember⟩ := receiveIncoming_eq_ok hreceive
  have hreverse : ∀ effect, opposite = some effect → ∃ direction,
      counterparty.opposite = some direction ∧ Reverse direction.snapshot context' effect := by
    intro effect he
    obtain ⟨direction, incoming, hdirection, hmanifest, hrelationship, hschedules⟩ :=
      hreceived effect he
    obtain ⟨hconsequence, -, -, hquiet⟩ := receiveNativeRequest_spec hmanifest
    exact ⟨direction, hdirection, hrelationship, ⟨_, hconsequence⟩, hquiet, hschedules ▸ .nil⟩
  refine ⟨context', by rw [hcontext], by rw [hcontext], ?_, fun direction hdirection => ?_,
    fun effect he => ?_, ?_⟩
  · show transition s command context' = .ok result.forward
    rw [hforward]
    exact htransition
  · simp only [checkCounterparty, hdirection] at hcheck
    exact hcheck
  · rcases hopposite with hsame | ⟨-, hreply⟩
    · exact hreverse effect (hsame ▸ he)
    · exact hreply effect he
  · intro opposite' incoming hmember' hincoming
    rw [show result.forward = forward from hforward] at hincoming
    obtain ⟨direction, hdirection, hresult⟩ := hmember opposite' incoming hmember' hincoming
    refine ⟨direction, _, hdirection, hresult, fun manifest hmanifest => ?_⟩
    cases opposite with
    | none => cases hmanifest
    | some effect =>
      rcases hopposite with hsame | ⟨hnone, -⟩
      · obtain ⟨direction', -, hdirection', -, hrelationship, -⟩ := hreceived effect rfl
        rw [hmember', CounterpartyContext.opposite, hdirection] at hdirection'
        cases hdirection'
        exact ⟨effect, hsame, Option.some.inj hmanifest, hrelationship⟩
      · cases hnone

end

/-! ### Pairs -/

namespace StoreState

/-- No two relationships join the same pair in the same direction. -/
def Paired (w : StoreState) : Prop :=
  ∀ R R' e e', w.relationships.get? R = some e → w.relationships.get? R' = some e' →
    e.protocol.relationship.key.sender = e'.protocol.relationship.key.sender →
    e.protocol.relationship.key.recipient = e'.protocol.relationship.key.recipient → R = R'

variable {w w' : StoreState} {now : CanonicalTime}

omit [Crypto] in
theorem Paired.empty : empty.Paired := fun R R' e e' he => by simp [StoreState.empty] at he

omit [Crypto] in
theorem Paired.update (hw : w.Paired) {R : RelationshipRef} {e e' : EngineState}
    (he : w.relationships.get? R = some e)
    (hkey : e'.protocol.relationship.key = e.protocol.relationship.key)
    {histories : SortedMap RequestHistoryRef RequestHistory} :
    Paired ⟨w.relationships.insert R e', histories⟩ := by
  have hold : ∀ R₁ e₁, (w.relationships.insert R e').get? R₁ = some e₁ → ∃ e₀,
      w.relationships.get? R₁ = some e₀ ∧
        e₁.protocol.relationship.key = e₀.protocol.relationship.key := by
    intro R₁ e₁ he₁
    rw [SortedMap.get?_insert] at he₁
    split_ifs at he₁ with hR
    · cases he₁
      exact ⟨e, hR ▸ he, hkey⟩
    · exact ⟨e₁, he₁, rfl⟩
  intro R₁ R₂ e₁ e₂ he₁ he₂ hsender hrecipient
  obtain ⟨e₃, he₃, hkey₁⟩ := hold R₁ e₁ he₁
  obtain ⟨e₄, he₄, hkey₂⟩ := hold R₂ e₂ he₂
  rw [hkey₁, hkey₂] at hsender hrecipient
  exact hw R₁ R₂ e₃ e₄ he₃ he₄ hsender hrecipient

theorem Paired.change (hw : w.Paired) (hchange : Change now w w') : w'.Paired := by
  cases hchange with
  | kept => exact hw
  | @registered R H sender recipient unit h hnew hpair =>
    intro R₁ R₂ e₁ e₂ he₁ he₂ hsender hrecipient
    rw [SortedMap.get?_insert] at he₁ he₂
    split_ifs at he₁ he₂ with h₁ h₂ h₂
    · rw [h₁, h₂]
    · cases he₁
      exact absurd ⟨hsender.symm, hrecipient.symm⟩ (hpair R₂ e₂ he₂)
    · cases he₂
      exact absurd ⟨hsender, hrecipient⟩ (hpair R₁ e₁ he₁)
    · exact hw R₁ R₂ e₁ e₂ he₁ he₂ hsender hrecipient
  | committed he hh hnow hconsequence => exact hw.update he hconsequence.key
  | delivered he =>
    refine hw.update he ?_
    rfl

omit [Crypto] in
theorem opposite_eq_some {key : RelationshipKey} {e : EngineState} (h : w.opposite key = some e) :
    (∃ R, w.relationships.get? R = some e) ∧ e.protocol.relationship.key.sender = key.recipient ∧
      e.protocol.relationship.key.recipient = key.sender := by
  refine ⟨SortedMap.mem_values.mp (List.mem_of_find?_eq_some h), ?_⟩
  have := List.find?_some h
  exact of_decide_eq_true this

omit [Crypto] in
/-- The host finds the relationship of the other direction. -/
theorem Paired.opposite (hw : w.Paired) {key : RelationshipKey} {R : RelationshipRef}
    {e : EngineState} (he : w.relationships.get? R = some e)
    (hsender : e.protocol.relationship.key.sender = key.recipient)
    (hrecipient : e.protocol.relationship.key.recipient = key.sender) : w.opposite key = some e := by
  cases hfound : w.opposite key with
  | none =>
    have := List.find?_eq_none.mp hfound e (SortedMap.mem_values.mpr ⟨R, he⟩)
    exact absurd (decide_eq_true ⟨hsender, hrecipient⟩) this
  | some e' =>
    obtain ⟨⟨R', he'⟩, hsender', hrecipient'⟩ := opposite_eq_some hfound
    rw [hw R' R e' e he' he (hsender'.trans hsender.symm) (hrecipient'.trans hrecipient.symm)] at he'
    exact he'.symm.trans he

variable {guest : ProtocolIdentity → Bool} {key : RelationshipKey} {records : HostRecords}
  {counterparty : CounterpartyContext}

omit [Crypto] in
theorem loadCounterparty_eq_ok (h : w.loadCounterparty guest key records = .ok counterparty)
    {direction : DirectionSnapshot} (hdirection : counterparty.opposite = some direction) :
    ∃ R e history, w.relationships.get? R = some e ∧
      e.protocol.relationship.key.sender = key.recipient ∧
      e.protocol.relationship.key.recipient = key.sender ∧
      w.histories.get? e.protocol.relationship.history = some history ∧
      direction.snapshot = e.snapshot history records.oppositeLane := by
  unfold loadCounterparty at h
  split at h
  · cases h
    cases hdirection
  · split at h
    · cases h
      cases hdirection
    · rename_i e hfound
      simp only [bind_eq_ok, okOr_eq_ok, Except.ok.injEq] at h
      obtain ⟨history, hh, rfl⟩ := h
      cases hdirection
      obtain ⟨⟨R, he⟩, hsender, hrecipient⟩ := opposite_eq_some hfound
      exact ⟨R, e, history, he, hsender, hrecipient, hh, rfl⟩

omit [Crypto] in
/-- Between members, the host reads the other direction with the decision. -/
theorem Paired.loadCounterparty (hw : w.Paired)
    (h : w.loadCounterparty guest key records = .ok counterparty) (hmember : guest key.sender = false)
    {R : RelationshipRef} {e : EngineState} (he : w.relationships.get? R = some e)
    (hsender : e.protocol.relationship.key.sender = key.recipient)
    (hrecipient : e.protocol.relationship.key.recipient = key.sender) :
    ∃ history, w.histories.get? e.protocol.relationship.history = some history ∧
      counterparty = .member (some ⟨records.replyOffers, e.snapshot history records.oppositeLane⟩) := by
  simp only [StoreState.loadCounterparty, hmember, Bool.false_eq_true, if_false,
    hw.opposite he hsender hrecipient, bind_eq_ok, okOr_eq_ok, Except.ok.injEq] at h
  obtain ⟨history, hh, rfl⟩ := h
  exact ⟨history, hh, rfl⟩

/-! ### Committing both directions -/

/-- A committed consequence: what it was computed from and what it left. -/
structure Commits (context : TransitionContext) (w : StoreState) (R : RelationshipRef)
    (e : EngineState) (h : RequestHistory) (m : TransitionManifest) (w' : StoreState) : Prop where
  engine : w.relationships.get? R = some e
  history : w.histories.get? e.protocol.relationship.history = some h
  consequence : ∃ lane state, Consequence (e.snapshot h lane) context state m
  result : ∃ revision ledger extra, Unrelated extra ∧
    e.ledger.apply m.expectedLedgerRevision m.ledgerBatch = .ok ledger ∧
    w' = {
      relationships := w.relationships.insert R (e.next revision ledger m extra)
      histories := w.histories.insert m.nextHistory.reference m.nextHistory}

variable {context : TransitionContext} {R : RelationshipRef} {e : EngineState} {h : RequestHistory}
  {m : TransitionManifest}

theorem Commits.change (hcommits : Commits context w R e h m w') : Change context.now w w' := by
  obtain ⟨he, hh, ⟨lane, state, hconsequence⟩, revision, ledger, extra, hextra, hledger, rfl⟩ := hcommits
  exact .committed he hh rfl hconsequence hledger hextra

theorem commit_commits {lane : Option SenderScopedLane} {state : RelationshipState}
    {extra : List ScheduleChange} (he : w.relationships.get? R = some e)
    (hh : w.histories.get? e.protocol.relationship.history = some h)
    (hconsequence : Consequence (e.snapshot h lane) context state m) (hextra : Unrelated extra)
    (hcommit : w.commit R e m extra = .ok w') : Commits context w R e h m w' := by
  obtain ⟨revision, ledger, hledger, rfl⟩ := commit_eq_ok hcommit
  exact ⟨he, hh, ⟨lane, state, hconsequence⟩, revision, ledger, extra, hextra, hledger, rfl⟩

/-- A decision over both directions, committed. -/
inductive Coordinated [Documents] (context : TransitionContext) (w : StoreState)
    (R : RelationshipRef) (e : EngineState) (h : RequestHistory) (d : RequestDecision) :
    StoreState → Prop
  | alone {w₁ : StoreState} (hforward : Commits context w R e h d.forward w₁)
    (hnone : d.opposite = none) : Coordinated context w R e h d w₁
  | both {w₁ w₂ : StoreState} {R' : RelationshipRef} {e' : EngineState} {h' : RequestHistory}
    {effect : DirectionEffect} (hforward : Commits context w R e h d.forward w₁)
    (hsome : d.opposite = some effect) (hne : R' ≠ R) (he' : w.relationships.get? R' = some e')
    (hrelationship : effect.relationship = R')
    (hreverse : Commits context w₁ R' e' h' effect.manifest w₂)
    (hquiet : effect.manifest.book.submissions = []) : Coordinated context w R e h d w₂

/-- **Both directions commit.** The other direction's consequence is committed to the
relationship it was computed from, which the forward commit has not touched. -/
theorem persistDecision_coordinated [Documents] (hw : w.Sound) (hpaired : w.Paired)
    {lane : Option SenderScopedLane} {state : RelationshipState} {d : RequestDecision}
    {extra : List ScheduleChange} (hread : w.read R = .ok (e, h))
    (hforward : Consequence (e.snapshot h lane) context state d.forward)
    (hreverse : ∀ effect, d.opposite = some effect → ∃ R' e' h' lane',
      w.relationships.get? R' = some e' ∧
      e'.protocol.relationship.key.sender = e.protocol.relationship.key.recipient ∧
      e'.protocol.relationship.key.recipient = e.protocol.relationship.key.sender ∧
      w.histories.get? e'.protocol.relationship.history = some h' ∧
      Reverse (e'.snapshot h' lane') context effect) (hextra : Unrelated extra)
    (hpersist : w.persistDecision R e d extra = .ok w') : Coordinated context w R e h d w' := by
  obtain ⟨he, hh⟩ := read_eq_ok hread
  simp only [persistDecision, bind_eq_ok] at hpersist
  obtain ⟨w₁, hcommit, hpersist⟩ := hpersist
  have hcommits := commit_commits he hh hforward hextra hcommit
  cases hopposite : d.opposite with
  | none =>
    rw [hopposite] at hpersist
    cases hpersist
    exact .alone hcommits hopposite
  | some effect =>
    rw [hopposite] at hpersist
    obtain ⟨R', e', h', lane', he', hsender, hrecipient, hh', hrel, ⟨state', hconsequence⟩, hquiet,
      hschedules⟩ := hreverse effect hopposite
    simp only [persistOpposite, bind_eq_ok, refuseIf_eq_ok, exists_const, Prod.exists] at hpersist
    obtain ⟨e₁, h₁, hread₁, -, hcommit₁⟩ := hpersist
    replace hrel : effect.relationship = R' := hrel.trans (hw.engines R' e' he').reference
    rw [hrel] at hread₁ hcommit₁
    obtain ⟨he₁, hh₁⟩ := read_eq_ok hread₁
    obtain ⟨revision, ledger, hledger, rfl⟩ := commit_eq_ok hcommit
    have hne : R' ≠ R := by
      -- the forward commit has raised the ledger's revision past the one decided on
      rintro rfl
      cases he'.symm.trans he
      rw [SortedMap.get?_insert_self] at he₁
      cases he₁
      obtain ⟨-, ledger₁, hledger₁, -⟩ := commit_eq_ok hcommit₁
      simp only [LedgerState.apply, bind_eq_ok, refuseIf_eq_ok, exists_const, Except.ok.injEq,
        ne_eq, Decidable.not_not] at hledger hledger₁
      obtain ⟨-, v, hv, rfl⟩ := hledger
      have hrevision := (LedgerView.apply_spec hv).2.2.2.1
      have hsame : effect.manifest.expectedLedgerRevision = e.ledger.view.revision :=
        hconsequence.revision
      have hraised : effect.manifest.expectedLedgerRevision = v.revision := hledger₁.1.symm
      rw [← hraised, hsame] at hrevision
      omega
    rw [SortedMap.get?_insert_ne _ _ hne] at he₁
    cases he₁.symm.trans he'
    have hreference : d.forward.nextHistory.reference = e.protocol.relationship.history := by
      have : h.SameOwner d.forward.nextHistory := hforward.move.sameOwner
      rw [this.1, hw.filed.reference _ h hh]
    have hother : e'.protocol.relationship.history ≠ d.forward.nextHistory.reference := by
      -- a shared history has one recipient, so its pair would be a relationship with itself
      intro hsame
      rw [hreference] at hsame
      obtain ⟨h₂, hh₂, howner⟩ := hw.filed.shared R e he
      obtain ⟨h₃, hh₃, howner'⟩ := hw.filed.shared R' e' he'
      rw [hsame] at hh₃
      cases hh₂.symm.trans hh₃
      have hself : e'.protocol.relationship.key.recipient = e.protocol.relationship.key.recipient :=
        howner'.symm.trans howner
      refine hne (hpaired R' R e' e he' he ?_ hself)
      rw [hsender, ← hself, hrecipient]
    rw [SortedMap.get?_insert_ne _ _ hother] at hh₁
    cases hh₁.symm.trans hh'
    refine .both hcommits hopposite hne he' hrel (commit_commits ?_ ?_ hconsequence hschedules hcommit₁)
      hquiet
    · exact (SortedMap.get?_insert_ne _ _ hne).trans he'
    · exact (SortedMap.get?_insert_ne _ _ hother).trans hh'

/-! ### Every input of the host -/

section
variable [Documents] {d : RequestDecision} {counterparty : CounterpartyContext}

/-- A committed command: its transition, what it checked in the other direction, and
what the other direction received of it. -/
structure Protocol (guest : ProtocolIdentity → Bool) (w : StoreState) (R : RelationshipRef)
    (records : HostRecords) (command : KernelCommand ProtocolCommand) (now : CanonicalTime)
    (e : EngineState) (h : RequestHistory) (counterparty : CounterpartyContext)
    (context : TransitionContext) (d : RequestDecision) (w' : StoreState) : Prop where
  loaded : w.loadCounterparty guest e.protocol.relationship.key records = .ok counterparty
  time : context.now = now
  transition : transition (e.snapshot h records.lane) command context = .ok d.forward
  checked : ∀ direction, counterparty.opposite = some direction →
    checkOpposite e.protocol.relationship.key direction.snapshot.state command.command now = .ok ()
  received : ∀ opposite incoming, counterparty = .member opposite →
    d.forward.incoming = some incoming →
      ∃ direction result, opposite = some direction ∧
        receiveNativeRequest direction.snapshot incoming context = .ok result ∧
        ∀ manifest, result = some manifest → ∃ effect, d.opposite = some effect ∧
          effect.manifest = manifest ∧
          effect.relationship = direction.snapshot.state.relationship.key.reference
  coordinated : Coordinated context w R e h d w'

theorem applyProtocol_eq_ok (hw : w.Sound) (hpaired : w.Paired)
    {command : KernelCommand ProtocolCommand} {document : Option Documents.Document}
    (h : w.applyProtocol guest R records command context document = .ok w') :
    ∃ e history counterparty context' d,
      Protocol guest w R records command context.now e history counterparty context' d w' := by
  simp only [applyProtocol, bind_eq_ok, mapError_eq_ok, Prod.exists] at h
  obtain ⟨e, history, hread, counterparty, hloaded, d, hdecide, hpersist⟩ := h
  obtain ⟨context', htime, -, htransition, hchecked, hreverse, hreceived⟩ :=
    RequestDecision.decide_eq_ok hdecide
  refine ⟨e, history, counterparty, context', d, hloaded, htime, htransition, hchecked, hreceived, ?_⟩
  refine persistDecision_coordinated hw hpaired hread (transition_spec htransition).1
    (fun effect heffect => ?_) .nil hpersist
  obtain ⟨direction, hdirection, hreverse⟩ := hreverse effect heffect
  obtain ⟨R', e', h', he', hsender, hrecipient, hh', hsnapshot⟩ :=
    loadCounterparty_eq_ok hloaded hdirection
  exact ⟨R', e', h', _, he', hsender, hrecipient, hh', hsnapshot ▸ hreverse⟩

theorem applyGrant_eq_ok (hw : w.Sound) (hpaired : w.Paired) {grant : SenderScopedGrant}
    (h : w.applyGrant guest R records grant context = .ok w') :
    w' = w ∨ ∃ e history d, d.forward.book.submissions = [] ∧
      Coordinated context w R e history d w' := by
  simp only [applyGrant, bind_eq_ok, Prod.exists] at h
  obtain ⟨e, history, hread, acceptance, hdecide, h⟩ := h
  cases acceptance with
  | none =>
    cases h
    exact .inl rfl
  | some acceptance =>
    simp only [bind_eq_ok, mapError_eq_ok] at h
    obtain ⟨counterparty, hloaded, d, hcoordinate, hpersist⟩ := h
    obtain ⟨haccept, hextra⟩ := decide_eq_ok hdecide
    obtain ⟨hconsequence, -, -, hquiet⟩ := acceptExpressLane_spec haccept
    obtain ⟨hforward, hopposite⟩ := coordinateAcceptance_eq_ok hcoordinate
    rw [← hforward] at hconsequence hquiet
    refine .inr ⟨e, history, d, hquiet, ?_⟩
    refine persistDecision_coordinated hw hpaired hread hconsequence
      (fun effect heffect => ?_) hextra hpersist
    rcases hopposite with hnone | ⟨-, hreverse⟩
    · rw [hnone] at heffect
      cases heffect
    · obtain ⟨direction, hdirection, hreverse⟩ := hreverse effect heffect
      obtain ⟨R', e', h', he', hsender, hrecipient, hh', hsnapshot⟩ :=
        loadCounterparty_eq_ok hloaded hdirection
      exact ⟨R', e', h', _, he', hsender, hrecipient, hh', hsnapshot ▸ hreverse⟩

theorem Coordinated.changes (h : Coordinated context w R e h d w') :
    ∃ w₁, Change context.now w w₁ ∧ Change context.now w₁ w' := by
  cases h with
  | alone hforward => exact ⟨_, hforward.change, .kept⟩
  | both hforward hsome hne he' hrelationship hreverse =>
    exact ⟨_, hforward.change, hreverse.change⟩

/-- **An input of the host is at most two changes of the store.** -/
theorem ingress_changes (hw : w.Sound) (hpaired : w.Paired) {i : IngressInput}
    (h : w.ingress guest i = .ok w') : ∃ w₁, Change i.now w w₁ ∧ Change i.now w₁ w' := by
  cases i with
  | register => exact ⟨w', register_change h, .kept⟩
  | protocol R records command context document =>
    obtain ⟨e, history, counterparty, context', d, hprotocol⟩ := applyProtocol_eq_ok hw hpaired h
    have := hprotocol.coordinated.changes
    rwa [hprotocol.time] at this
  | grant R records grant context =>
    rcases applyGrant_eq_ok hw hpaired h with rfl | ⟨e, history, d, -, hcoordinated⟩
    · exact ⟨_, .kept, .kept⟩
    · exact hcoordinated.changes
  | admitFree R lane request record policy now =>
    exact ⟨w', step_change (i := .admitFree R lane request record policy now) h, .kept⟩

/-- Every state a run of the host reaches is sound, with its pairs apart. -/
theorem ingressRun_sound (guest : ProtocolIdentity → Bool) (inputs : List IngressInput) :
    (ingressRun guest inputs).Sound ∧ (ingressRun guest inputs).Paired := by
  refine Machine.run_preserves (P := fun w : StoreState => w.Sound ∧ w.Paired) ?_
    ⟨.empty, .empty⟩ inputs
  rintro w i w' ⟨hw, hpaired⟩ hstep
  obtain ⟨w₁, hfirst, hsecond⟩ := ingress_changes hw hpaired hstep
  exact ⟨(hw.change hfirst).change hsecond, (hpaired.change hfirst).change hsecond⟩

theorem ingressRun_concat (guest : ProtocolIdentity → Bool) (inputs : List IngressInput)
    (i : IngressInput) : ingressRun guest (inputs ++ [i]) =
      Machine.advance (fun w i => w.ingress guest i) (ingressRun guest inputs) i := by
  rw [ingressRun, Machine.run_append]
  rfl

end
end StoreState
end CsMail
