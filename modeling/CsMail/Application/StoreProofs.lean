import CsMail.Application.Store
import CsMail.Protocol.KernelProofs

/-! Every input changes the store in one of four ways.

A relationship is registered, a kernel consequence is committed, a free message is
delivered, or nothing changes. An invariant of the store is checked against these four
(`run_invariant`); one that concerns each relationship alone is checked against a fresh
relationship and one committed consequence (`change_engine`). -/
namespace CsMail
open Library

/-- Schedule changes that are not about requests. -/
def Unrelated (changes : List ScheduleChange) : Prop := ∀ c ∈ changes, c.task.isRequest = false

theorem Unrelated.nil : Unrelated [] := fun c hc => absurd hc List.not_mem_nil

variable [Crypto]

inductive Change (now : CanonicalTime) (w : StoreState) : StoreState → Prop
  | kept : Change now w w
  | registered {relationship : RelationshipRef} {history : RequestHistoryRef}
    {sender recipient : ProtocolIdentity} {unit : SettlementUnit}
    {h : RequestHistory} (hnew : w.relationships.get? relationship = none)
    (hpair : ∀ R e, w.relationships.get? R = some e →
      ¬(e.protocol.relationship.key.sender = sender ∧
        e.protocol.relationship.key.recipient = recipient))
    (hhistory : w.histories.get? history = some h ∨
      w.histories.get? history = none ∧ h = .new history recipient now)
    (hrecipient : h.recipient = recipient) :
    Change now w {
      relationships := w.relationships.insert relationship
        (.new (.initialScoped relationship history sender recipient now) unit)
      histories := w.histories.insert history h}
  | committed {relationship : RelationshipRef} {e : EngineState} {h : RequestHistory}
    {lane : Option SenderScopedLane} {context : TransitionContext} {state : RelationshipState}
    {m : TransitionManifest} {revision : U64} {ledger : LedgerState} {extra : List ScheduleChange}
    (he : w.relationships.get? relationship = some e)
    (hh : w.histories.get? e.protocol.relationship.history = some h) (hnow : context.now = now)
    (hconsequence : Consequence (e.snapshot h lane) context state m)
    (hledger : e.ledger.apply m.expectedLedgerRevision m.ledgerBatch = .ok ledger)
    (hextra : Unrelated extra) :
    Change now w {
      relationships := w.relationships.insert relationship (e.next revision ledger m extra)
      histories := w.histories.insert m.nextHistory.reference m.nextHistory}
  | delivered {relationship : RelationshipRef} {e : EngineState} {revision : U64}
    {messages : SortedMap MessageId Message} {extra : List ScheduleChange}
    (he : w.relationships.get? relationship = some e) (hextra : Unrelated extra) :
    Change now w {w with relationships := w.relationships.insert relationship {e with
      revision
      messages
      schedules := applyScheduleChanges e.schedules extra}}

namespace StoreState
variable {w w' : StoreState} {now : CanonicalTime}

omit [Crypto] in
theorem read_eq_ok {R : RelationshipRef} {e : EngineState} {h : RequestHistory}
    (hread : w.read R = .ok (e, h)) : w.relationships.get? R = some e ∧
      w.histories.get? e.protocol.relationship.history = some h := by
  simp only [read, bind_eq_ok, okOr_eq_ok, Except.ok.injEq, Prod.mk.injEq] at hread
  obtain ⟨e', he, h', hh, rfl, rfl⟩ := hread
  exact ⟨he, hh⟩

omit [Crypto] in
theorem commit_eq_ok {R : RelationshipRef} {e : EngineState} {m : TransitionManifest}
    {extra : List ScheduleChange} (h : w.commit R e m extra = .ok w') : ∃ revision ledger,
      e.ledger.apply m.expectedLedgerRevision m.ledgerBatch = .ok ledger ∧
      w' = {
        relationships := w.relationships.insert R (e.next revision ledger m extra)
        histories := w.histories.insert m.nextHistory.reference m.nextHistory} := by
  simp only [commit, bind_eq_ok, refuseIf_eq_ok, okOr_eq_ok, mapError_eq_ok, exists_const] at h
  obtain ⟨-, revision, -, ledger, hledger, h⟩ := h
  exact ⟨revision, ledger, hledger, (Except.ok.inj h).symm⟩

theorem commit_change {R : RelationshipRef} {e : EngineState} {h : RequestHistory}
    {lane : Option SenderScopedLane} {context : TransitionContext} {state : RelationshipState}
    {m : TransitionManifest} {extra : List ScheduleChange} (hread : w.read R = .ok (e, h))
    (hconsequence : Consequence (e.snapshot h lane) context state m) (hextra : Unrelated extra)
    (hcommit : w.commit R e m extra = .ok w') : Change context.now w w' := by
  obtain ⟨revision, ledger, hledger, rfl⟩ := commit_eq_ok hcommit
  obtain ⟨he, hh⟩ := read_eq_ok hread
  exact .committed he hh rfl hconsequence hledger hextra

omit [Crypto] in
theorem historyFor_cases (w : StoreState) (p : ProtocolState) :
    w.histories.get? p.relationship.history = some (w.historyFor p) ∨
      w.histories.get? p.relationship.history = none ∧ w.historyFor p =
        .new p.relationship.history p.relationship.key.recipient p.relationship.changedAt := by
  unfold historyFor
  cases w.histories.get? p.relationship.history with
  | none => exact .inr ⟨rfl, rfl⟩
  | some h => exact .inl rfl

theorem register_change {R : RelationshipRef} {H : RequestHistoryRef}
    {sender recipient : ProtocolIdentity} {unit : SettlementUnit}
    (h : w.register (.initialScoped R H sender recipient now) unit = .ok w') : Change now w w' := by
  simp only [register, bind_eq_ok, refuseIf_eq_ok, exists_const, not_or, ne_eq, Decidable.not_not,
    Bool.not_eq_true] at h
  obtain ⟨⟨hnew, hpair⟩, hrecipient, h⟩ := h
  cases h
  refine .registered (SortedMap.contains_eq_false.mp hnew) (fun R' e he => ?_)
    (historyFor_cases w (.initialScoped R H sender recipient now)) hrecipient
  have := List.any_eq_false.mp hpair e (SortedMap.mem_values.mpr ⟨R', he⟩)
  exact of_decide_eq_false (Bool.eq_false_iff.mpr this)

omit [Crypto] in
/-- No lane is accepted for a blocked relationship. -/
theorem decide_unblocked {s : SettlementSnapshot} {granted : SenderScopedGrant}
    {context : TransitionContext} {a : Option LaneAcceptance}
    (h : LaneAcceptance.decide s granted context = .ok a) : s.state.relationship.state ≠ .blocked := by
  simp only [LaneAcceptance.decide, bind_eq_ok, refuseIf_eq_ok, exists_const] at h
  obtain ⟨grant, -, hblocked, -⟩ := h
  exact hblocked

omit [Crypto] in
theorem decide_eq_ok {s : SettlementSnapshot} {granted : SenderScopedGrant}
    {context : TransitionContext} {a : LaneAcceptance}
    (h : LaneAcceptance.decide s granted context = .ok (some a)) :
    acceptExpressLane s a.lane.grant.id context = .ok a.settlement ∧ Unrelated a.schedules := by
  simp only [LaneAcceptance.decide, bind_eq_ok, mapError_eq_ok, refuseIf_eq_ok, exists_const] at h
  obtain ⟨grant, -, -, -, h⟩ := h
  split_ifs at h
  · cases h
  · simp only [bind_eq_ok, mapError_eq_ok, refuseIf_eq_ok, exists_const, Except.ok.injEq,
      Option.some.injEq] at h
    obtain ⟨-, -, settlement, haccept, rfl⟩ := h
    refine ⟨haccept, fun c hc => ?_⟩
    rw [List.mem_singleton.mp hc]
    rfl

theorem step_change {i : StoreInput} (h : w.step i = .ok w') : Change i.now w w' := by
  cases i with
  | register => exact register_change h
  | execute R lane command context =>
    simp only [step, bind_eq_ok, mapError_eq_ok, Prod.exists] at h
    obtain ⟨e, history, hread, m, htransition, hcommit⟩ := h
    exact commit_change hread (transition_spec htransition).1 .nil hcommit
  | receiveNative R lane incoming context =>
    simp only [step, bind_eq_ok, mapError_eq_ok, Prod.exists] at h
    obtain ⟨e, history, hread, m, hreceive, h⟩ := h
    cases m with
    | none =>
      cases h
      exact .kept
    | some m => exact commit_change hread (receiveNativeRequest_spec hreceive).1 .nil h
  | acceptLane R lane grant context =>
    simp only [step, bind_eq_ok, Prod.exists] at h
    obtain ⟨e, history, hread, a, hdecide, h⟩ := h
    cases a with
    | none =>
      cases h
      exact .kept
    | some a =>
      obtain ⟨haccept, hextra⟩ := decide_eq_ok hdecide
      exact commit_change hread (acceptExpressLane_spec haccept).1 hextra h
  | admitFree R lane request record policy now =>
    simp only [step, admitFree, bind_eq_ok, mapError_eq_ok, okOr_eq_ok, refuseIf_eq_ok,
      exists_const, Prod.exists] at h
    obtain ⟨e, history, hread, plan, -, -, revision, -, h⟩ := h
    cases h
    refine .delivered (read_eq_ok hread).1 fun c hc => ?_
    obtain ⟨l, -, rfl⟩ := List.mem_map.mp hc
    rfl

/-! ### Invariants of every run -/

theorem run_invariant {P : StoreState → Prop} (hempty : P empty)
    (hchange : ∀ now w w', P w → Change now w w' → P w') (inputs : List StoreInput) : P (run inputs) :=
  Machine.run_preserves (fun w i w' hw hstep => hchange i.now w w' hw (step_change hstep)) hempty inputs

theorem run_concat (inputs : List StoreInput) (i : StoreInput) :
    run (inputs ++ [i]) = Machine.advance step (run inputs) i := by
  rw [run, Machine.run_append]
  rfl

/-- One change of the store, seen by each relationship. -/
theorem change_engine {P : RelationshipRef → EngineState → Prop}
    (hnew : ∀ R H sender recipient now unit,
      P R (.new (.initialScoped R H sender recipient now) unit))
    (hcommitted : ∀ R e h lane context state m revision ledger extra, P R e →
      Consequence (e.snapshot h lane) context state m →
      e.ledger.apply m.expectedLedgerRevision m.ledgerBatch = .ok ledger → Unrelated extra →
      P R (e.next revision ledger m extra))
    (hdelivered : ∀ R e revision messages extra, P R e → Unrelated extra →
      P R {e with revision, messages, schedules := applyScheduleChanges e.schedules extra})
    (hw : ∀ R e, w.relationships.get? R = some e → P R e) (hchange : Change now w w') :
    ∀ R e, w'.relationships.get? R = some e → P R e := by
  have hinsert : ∀ (R' : RelationshipRef) (e' : EngineState), P R' e' →
      ∀ R e, (w.relationships.insert R' e').get? R = some e → P R e := by
    intro R' e' hP R e he
    rw [SortedMap.get?_insert] at he
    split_ifs at he with hR
    · cases he
      exact hR ▸ hP
    · exact hw R e he
  cases hchange with
  | kept => exact hw
  | registered => exact hinsert _ _ (hnew ..)
  | committed he hh _ hconsequence hledger hextra =>
    exact hinsert _ _ (hcommitted _ _ _ _ _ _ _ _ _ _ (hw _ _ he) hconsequence hledger hextra)
  | delivered he hextra => exact hinsert _ _ (hdelivered _ _ _ _ _ (hw _ _ he) hextra)

end StoreState
end CsMail
