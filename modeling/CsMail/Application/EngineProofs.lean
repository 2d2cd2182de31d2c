import CsMail.Application.Engine
import CsMail.Application.StoreProofs

/-! One call on an engine: atomic, answered from its receipt or carried out.

A call assigns only after its last check, so a refused one changes nothing. An accepted
execution leaves a receipt, and a command with a receipt is answered from it. What the
engine does to relationships and histories is a step of the store. -/
namespace CsMail
open Library

variable [Crypto] [EngineEncoding]

namespace InMemoryEngine

/-! ### Atomicity -/

omit [Crypto] [EngineEncoding] in
theorem commit_atomic {relationship : RelationshipRef} {inner : HostedRelationship}
    {key : IdempotencyKey} {digest : Bytes32} {p : ExecutionPlan} :
    (commit relationship inner key digest p).Atomic := by
  refine .get fun w => .check fun host _ => InPlace.Assigns.atomic ?_
  exact .assign _ (.assign _ (.assign _ (.pure _)))

theorem execute_atomic {relationship : RelationshipRef} {authorized : KernelCommand ProtocolCommand}
    {now : CanonicalTime} {policy : PolicySnapshot} :
    (execute relationship authorized now policy).Atomic := by
  refine .get fun w => .check fun inner _ => .check fun _ _ => .check fun digest _ => ?_
  split
  · exact .ite (fun _ => (InPlace.Assigns.pure _).atomic) fun _ => .throw _
  · exact .check fun p _ => commit_atomic

theorem executeFinancialCommand_atomic {relationship : RelationshipRef}
    {signed : SignedProgramCommand} {key : Bytes32} {now : CanonicalTime} :
    (executeFinancialCommand relationship signed key now).Atomic := by
  refine .check fun _ _ => .get fun w => .check fun inner _ => .check fun host _ => ?_
  split
  · exact .ite (fun _ => (InPlace.Assigns.pure _).atomic) fun _ => .throw _
  · refine .check fun _ _ => .check fun applied _ => InPlace.Assigns.atomic ?_
    exact .assign _ (.pure _)

omit [Crypto] [EngineEncoding] in
theorem register_atomic {protocol : ProtocolState} {unit : SettlementUnit} :
    (register protocol unit).Atomic := by
  refine .get fun w => .check fun _ _ => .check fun _ _ => InPlace.Assigns.atomic ?_
  exact .assign _ (.assign _ (.assign_last _))

omit [Crypto] [EngineEncoding] in
theorem configureRequestClasses_atomic {classes : RecipientRequestClasses} :
    (configureRequestClasses classes).Atomic :=
  .get fun _ => .check fun _ _ => .check fun _ _ => (InPlace.Assigns.assign_last _).atomic

end InMemoryEngine

open InMemoryEngine

theorem EngineCall.method_atomic (c : EngineCall) : c.method.Atomic := by
  cases c with
  | register => exact register_atomic
  | configureRequestPricing => exact (InPlace.Assigns.assign_last _).atomic
  | configureRequestClasses => exact configureRequestClasses_atomic
  | execute => exact execute_atomic.bind fun _ => .pure _
  | executeFinancialCommand => exact executeFinancialCommand_atomic.bind fun _ => .pure _

/-! ### What an accepted call did -/

variable {w w' : InMemoryStore} {R : RelationshipRef} {a : KernelCommand ProtocolCommand}
  {now : CanonicalTime} {policy : PolicySnapshot}

/-- The store after a plan is written. -/
def InMemoryStore.written (w : InMemoryStore) (R : RelationshipRef) (inner : HostedRelationship)
    (key : IdempotencyKey) (digest : Bytes32) (p : ExecutionPlan) (host : ProgramState) :
    InMemoryStore := {w with
  programs := w.programs.insert p.unit {host with program := p.program}
  histories := w.histories.insert p.manifest.nextHistory.reference p.manifest.nextHistory
  relationships := w.relationships.insert R (inner.next p key ⟨digest, p.outcome⟩)}

namespace InMemoryEngine

/-- **An accepted execution** answers from a receipt and changes nothing, or carries a new
command out and leaves its receipt. -/
theorem execute_eq_ok {o : ExecutionOutcome}
    (h : (execute R a now policy).on w = (.ok o, w')) :
    ∃ inner digest, w.relationships.get? R = some inner ∧ policy.financial.scope = w.scope ∧
      fingerprint a = .ok digest ∧
      ((w' = w ∧ ∃ record, inner.idempotency.get? a.idempotencyKey = some record ∧
          record.fingerprint = digest ∧ o = ⟨record.transition, true⟩) ∨
        (inner.idempotency.get? a.idempotencyKey = none ∧ ∃ p host,
          w.plan inner a now policy = .ok p ∧ o = ⟨p.outcome, false⟩ ∧
          w.programs.get? p.unit = some host ∧
          w' = w.written R inner a.idempotencyKey digest p host)) := by
  simp only [execute, InPlace.on_bind, InPlace.on_read, InPlace.on_lift, okOr_eq_ok, refuseIf_eq_ok,
    ne_eq, Decidable.not_not, exists_const] at h
  obtain ⟨_, _, ⟨rfl, rfl⟩, inner, _, ⟨hinner, rfl⟩, _, ⟨hscope, rfl⟩, digest, _, ⟨hdigest, rfl⟩, h⟩ := h
  refine ⟨inner, digest, hinner, hscope, hdigest, ?_⟩
  split at h
  · rename_i record hrecord
    split_ifs at h with hsame
    · obtain ⟨rfl, rfl⟩ := InPlace.on_pure.mp h
      exact .inl ⟨rfl, record, hrecord, hsame, rfl⟩
    · exact (InPlace.on_throw.mp h).elim
  · rename_i hnew
    simp only [commit, InPlace.on_bind, InPlace.on_read, InPlace.on_lift, InPlace.on_modify,
      InPlace.on_pure, okOr_eq_ok] at h
    obtain ⟨p, _, ⟨hplan, rfl⟩, _, _, ⟨rfl, rfl⟩, host, _, ⟨hhost, rfl⟩, _, _, rfl, _, _, rfl, _, _, rfl,
      rfl, rfl⟩ := h
    exact .inr ⟨hnew, p, host, hplan, rfl, hhost, rfl⟩

section Receipt
variable {inner : HostedRelationship} (hinner : w.relationships.get? R = some inner)
include hinner

/-- A policy of another scope is refused before anything is looked up. -/
theorem execute_foreign (hscope : policy.financial.scope ≠ w.scope) :
    (execute R a now policy).on w = (.error (.engine .versionConflict), w) := by
  rw [execute, InPlace.on_get, InPlace.on_pass (okOr_eq_ok.mpr hinner),
    InPlace.on_refuse (refuseIf_eq_error.mpr ⟨hscope, rfl⟩)]

variable {digest : Bytes32} {record : ExecutionRecord} (hscope : policy.financial.scope = w.scope)
  (hrecord : inner.idempotency.get? a.idempotencyKey = some record)
include hscope hrecord

theorem execute_known (hdigest : fingerprint a = .ok digest) :
    (execute R a now policy).on w =
      if record.fingerprint = digest then (.ok ⟨record.transition, true⟩, w)
      else (.error (.engine .duplicateConflict), w) := by
  rw [execute, InPlace.on_get, InPlace.on_pass (okOr_eq_ok.mpr hinner),
    InPlace.on_pass (b := ⟨⟩) (refuseIf_eq_ok.mpr (not_not.mpr hscope)), InPlace.on_pass hdigest]
  simp only [hrecord]
  split_ifs <;> rfl

omit hrecord in
theorem execute_new (hdigest : fingerprint a = .ok digest)
    (hnew : inner.idempotency.get? a.idempotencyKey = none) :
    (execute R a now policy).on w = match w.plan inner a now policy with
      | .ok p => (commit R inner a.idempotencyKey digest p).on w
      | .error e => (.error e, w) := by
  rw [execute, InPlace.on_get, InPlace.on_pass (okOr_eq_ok.mpr hinner),
    InPlace.on_pass (b := ⟨⟩) (refuseIf_eq_ok.mpr (not_not.mpr hscope)), InPlace.on_pass hdigest]
  simp only [hnew]
  cases w.plan inner a now policy <;> rfl

omit hrecord in
theorem execute_unencodable {e : ExecutionError} (hdigest : fingerprint a = .error e) :
    (execute R a now policy).on w = (.error e, w) := by
  rw [execute, InPlace.on_get, InPlace.on_pass (okOr_eq_ok.mpr hinner),
    InPlace.on_pass (b := ⟨⟩) (refuseIf_eq_ok.mpr (not_not.mpr hscope)), InPlace.on_refuse hdigest]

end Receipt

end InMemoryEngine

/-! ### Receipts -/

namespace InMemoryStore

/-- The engine of a relationship holds the receipt of a command. -/
def Receipt (w : InMemoryStore) (R : RelationshipRef) (key : IdempotencyKey)
    (record : ExecutionRecord) : Prop :=
  ∃ inner, w.relationships.get? R = some inner ∧ inner.idempotency.get? key = some record

omit [Crypto] [EngineEncoding] in
/-- A plan's receipt is there once it is written. -/
theorem receipt_written {inner : HostedRelationship} {key : IdempotencyKey} {digest : Bytes32}
    {p : ExecutionPlan} {host : ProgramState} :
    (w.written R inner key digest p host).Receipt R key ⟨digest, p.outcome⟩ :=
  ⟨_, SortedMap.get?_insert_self .., SortedMap.get?_insert_self ..⟩

omit [Crypto] [EngineEncoding] in
/-- Another engine's receipts, and this one's of other commands, are kept. -/
theorem Receipt.written {inner : HostedRelationship} {key key' : IdempotencyKey} {digest : Bytes32}
    {p : ExecutionPlan} {host : ProgramState} {R' : RelationshipRef} {record : ExecutionRecord}
    (h : w.Receipt R' key' record) (hinner : w.relationships.get? R = some inner)
    (hnew : inner.idempotency.get? key = none) :
    (w.written R inner key digest p host).Receipt R' key' record := by
  obtain ⟨inner', hinner', hrecord⟩ := h
  by_cases hR : R' = R
  · subst hR
    cases hinner.symm.trans hinner'
    refine ⟨_, SortedMap.get?_insert_self .., ?_⟩
    have hkey : key' ≠ key := fun hkey => by rw [hkey, hnew] at hrecord; cases hrecord
    exact (SortedMap.get?_insert_ne _ _ hkey).trans hrecord
  · exact ⟨inner', (SortedMap.get?_insert_ne _ _ hR).trans hinner', hrecord⟩

end InMemoryStore

/-! ### What an accepted call changes -/

/-- A relationship as it is registered. -/
def HostedRelationship.new (protocol : ProtocolState) (unit : SettlementUnit) :
    HostedRelationship where
  toEngineState := .new protocol unit
  outbox := []
  idempotency := ∅
  nextJournalPosition := 1

/-- The five ways an accepted call changes the store. -/
inductive EngineCall.Effect (w : InMemoryStore) : InMemoryStore → Prop
  | kept : Effect w w
  | configured (requestPricing : Option RequestPricingPolicy)
    (requestClasses : SortedMap AliasId RecipientRequestClasses) :
    Effect w {w with requestPricing, requestClasses}
  | administered (unit : SettlementUnit) (host : ProgramState) :
    Effect w {w with programs := w.programs.insert unit host}
  | registered {relationship : RelationshipRef} {history : RequestHistoryRef}
    {sender recipient : ProtocolIdentity} {now : CanonicalTime} {unit : SettlementUnit}
    {h : RequestHistory} (host : ProgramState) (hnew : w.relationships.get? relationship = none)
    (hpair : ∀ R e, w.relationships.get? R = some e →
      ¬(e.protocol.relationship.key.sender = sender ∧
        e.protocol.relationship.key.recipient = recipient))
    (hhistory : h = (w.histories.get? history).getD (.new history recipient now))
    (hrecipient : h.recipient = recipient) :
    Effect w {w with
      histories := w.histories.insert history h
      programs := w.programs.insert unit host
      relationships := w.relationships.insert relationship
        (.new (.initialScoped relationship history sender recipient now) unit)}
  | executed {R : RelationshipRef} {inner : HostedRelationship}
    {a : KernelCommand ProtocolCommand} {now : CanonicalTime} {policy : PolicySnapshot}
    {p : ExecutionPlan} {host : ProgramState} (digest : Bytes32)
    (hinner : w.relationships.get? R = some inner)
    (hnew : inner.idempotency.get? a.idempotencyKey = none)
    (hplan : w.plan inner a now policy = .ok p) (hhost : w.programs.get? p.unit = some host) :
    Effect w (w.written R inner a.idempotencyKey digest p host)

namespace EngineCall

omit [EngineEncoding] in
theorem register_effect {relationship : RelationshipRef} {history : RequestHistoryRef}
    {sender recipient : ProtocolIdentity} {unit : SettlementUnit} {u : Unit}
    (h : (InMemoryEngine.register (.initialScoped relationship history sender recipient now)
      unit).on w = (.ok u, w')) : Effect w w' := by
  simp only [InMemoryEngine.register, InPlace.on_bind, InPlace.on_read, InPlace.on_lift, InPlace.on_modify,
    refuseIf_eq_ok, not_or, Bool.not_eq_true, ne_eq, Decidable.not_not, exists_const] at h
  obtain ⟨_, _, ⟨rfl, rfl⟩, _, ⟨⟨hnew, hpair⟩, rfl⟩, _, ⟨hrecipient, rfl⟩, _, rfl, _, rfl, rfl⟩ := h
  refine .registered _ (SortedMap.contains_eq_false.mp hnew) (fun R e he => ?_) rfl hrecipient
  have hno := List.any_eq_false.mp hpair e (SortedMap.mem_values.mpr ⟨R, he⟩)
  exact of_decide_eq_false (Bool.eq_false_iff.mpr hno)

/-- **An accepted call** changes the store in one of five ways. -/
theorem method_effect {c : EngineCall} (h : c.method.accepted w = .ok w') : Effect w w' := by
  rw [InPlace.accepted_eq_ok] at h
  obtain ⟨u, h⟩ := h
  cases c with
  | register => exact register_effect h
  | configureRequestPricing requestPricing =>
    simp only [method, InMemoryEngine.configureRequestPricing, InPlace.on_modify] at h
    subst h
    exact .configured ..
  | configureRequestClasses classes =>
    simp only [method, InMemoryEngine.configureRequestClasses, InPlace.on_bind, InPlace.on_read,
      InPlace.on_lift, InPlace.on_modify] at h
    obtain ⟨_, _, ⟨rfl, rfl⟩, requestPricing, _, ⟨-, rfl⟩, _, _, ⟨-, rfl⟩, rfl⟩ := h
    exact .configured ..
  | execute R a now policy =>
    simp only [method, InPlace.on_bind, InPlace.on_pure] at h
    obtain ⟨o, _, h, -, rfl⟩ := h
    obtain ⟨inner, digest, hinner, -, -, ⟨rfl, -⟩ | ⟨hnew, p, host, hplan, -, hhost, rfl⟩⟩ :=
      execute_eq_ok h
    · exact .kept
    · exact .executed digest hinner hnew hplan hhost
  | executeFinancialCommand R signed key now =>
    simp only [method, InMemoryEngine.executeFinancialCommand, InPlace.on_bind, InPlace.on_read,
      InPlace.on_lift, InPlace.on_pure] at h
    obtain ⟨o, _, ⟨_, _, ⟨-, rfl⟩, _, _, ⟨rfl, rfl⟩, inner, _, ⟨-, rfl⟩, host, _, ⟨-, rfl⟩, h⟩, -, rfl⟩ := h
    split at h
    · split_ifs at h
      · obtain ⟨-, rfl⟩ := InPlace.on_pure.mp h
        exact .kept
      · exact (InPlace.on_throw.mp h).elim
    · simp only [InPlace.on_bind, InPlace.on_lift, InPlace.on_modify, InPlace.on_pure] at h
      obtain ⟨_, _, ⟨-, rfl⟩, _, _, ⟨-, rfl⟩, _, _, rfl, -, rfl⟩ := h
      exact .administered ..

end EngineCall

/-! ### The store an engine refines -/

omit [EngineEncoding] in
theorem InMemoryStore.plan_eq_ok {inner : HostedRelationship} {p : ExecutionPlan}
    (h : w.plan inner a now policy = .ok p) : ∃ history,
      w.histories.get? inner.protocol.relationship.history = some history ∧
      transition (inner.snapshot history none) a (w.context inner a now policy) = .ok p.manifest ∧
      p.manifest.expectedSnapshotRevision = inner.revision ∧
      Checked.succ inner.revision = some p.nextRevision ∧
      inner.ledger.apply p.manifest.expectedLedgerRevision p.manifest.ledgerBatch = .ok p.ledger ∧
      p.unit = inner.ledger.view.unit := by
  simp only [plan, bind_eq_ok, okOr_eq_ok, mapError_eq_ok, refuseIf_eq_ok, exists_const, ne_eq,
    Decidable.not_not] at h
  obtain ⟨history, hhistory, manifest, htransition, hcurrent, nextRevision, hrevision, nextPosition, -,
    ledger, hledger, host, -, program, -, h⟩ := h
  cases h
  exact ⟨history, hhistory, htransition, hcurrent, hrevision, hledger, rfl⟩

/-- The relationships and histories of the engine's store, without what the host keeps. -/
structure InMemoryStore.Refines (w : InMemoryStore) (s : StoreState) : Prop where
  histories : s.histories = w.histories
  relationships : ∀ R, s.relationships.get? R =
    (w.relationships.get? R).map HostedRelationship.toEngineState

omit [Crypto] [EngineEncoding] in
/-- A relationship is registered unless it, its pair or its history is someone else's. -/
theorem StoreState.register_accepts {s : StoreState} {p : ProtocolState} (unit : SettlementUnit)
    (hnew : s.relationships.get? p.relationship.key.reference = none)
    (hpair : ∀ R e, s.relationships.get? R = some e →
      ¬(e.protocol.relationship.key.sender = p.relationship.key.sender ∧
        e.protocol.relationship.key.recipient = p.relationship.key.recipient))
    (hrecipient : (s.historyFor p).recipient = p.relationship.key.recipient) :
    s.register p unit = .ok {
      relationships := s.relationships.insert p.relationship.key.reference (.new p unit)
      histories := s.histories.insert p.relationship.history (s.historyFor p)} := by
  have hfresh : ¬(s.relationships.contains p.relationship.key.reference = true ∨
      s.relationships.values.any (fun e =>
        e.protocol.relationship.key.sender = p.relationship.key.sender ∧
          e.protocol.relationship.key.recipient = p.relationship.key.recipient) = true) := by
    rw [not_or, Bool.not_eq_true, Bool.not_eq_true, SortedMap.contains_eq_false, List.any_eq_false]
    refine ⟨hnew, fun e he => ?_⟩
    obtain ⟨R, he⟩ := SortedMap.mem_values.mp he
    simpa using hpair R e he
  have hown : ¬(s.historyFor p).recipient ≠ p.relationship.key.recipient := not_not.mpr hrecipient
  simp only [register, refuseIf, if_neg hfresh, if_neg hown, ok_bind]

namespace InMemoryStore.Refines
variable {s : StoreState}

omit [Crypto] [EngineEncoding] in
theorem get? (h : w.Refines s) {inner : HostedRelationship} (hinner : w.relationships.get? R = some inner) :
    s.relationships.get? R = some inner.toEngineState := by
  rw [h.relationships, hinner]
  rfl

omit [Crypto] [EngineEncoding] in
theorem insert (h : w.Refines s) (R : RelationshipRef) (inner : HostedRelationship)
    (H : RequestHistoryRef) (history : RequestHistory) (programs : SortedMap SettlementUnit ProgramState) :
    Refines {w with
      programs
      histories := w.histories.insert H history
      relationships := w.relationships.insert R inner}
      ⟨s.relationships.insert R inner.toEngineState, s.histories.insert H history⟩ where
  histories := by rw [h.histories]
  relationships R' := by
    simp only [SortedMap.get?_insert]
    split_ifs
    · rfl
    · exact h.relationships R'

omit [EngineEncoding] in
theorem executed (h : w.Refines s) {inner : HostedRelationship} {p : ExecutionPlan}
    {host : ProgramState} {digest : Bytes32} (hinner : w.relationships.get? R = some inner)
    (hplan : w.plan inner a now policy = .ok p) :
    ∃ s', s.step (.execute R none a (w.context inner a now policy)) = .ok s' ∧
      (w.written R inner a.idempotencyKey digest p host).Refines s' := by
  obtain ⟨history, hhistory, htransition, hcurrent, hrevision, hledger, -⟩ := plan_eq_ok hplan
  have hread : s.read R = .ok (inner.toEngineState, history) := by
    simp only [StoreState.read, h.get? hinner, h.histories, okOr, hhistory, ok_bind]
  refine ⟨_, ?_, h.insert R (inner.next p a.idempotencyKey ⟨digest, p.outcome⟩) _ _ _⟩
  have hcurrent' : ¬p.manifest.expectedSnapshotRevision ≠ inner.revision := not_not.mpr hcurrent
  simp only [StoreState.step, hread, ok_bind, htransition, Except.mapError, StoreState.commit, refuseIf,
    if_neg hcurrent', hrevision, okOr, hledger]
  rfl

omit [EngineEncoding] in
theorem registered (h : w.Refines s) {H : RequestHistoryRef} {sender recipient : ProtocolIdentity}
    {unit : SettlementUnit} {host : ProgramState} {history : RequestHistory}
    (hnew : w.relationships.get? R = none)
    (hpair : ∀ R e, w.relationships.get? R = some e →
      ¬(e.protocol.relationship.key.sender = sender ∧
        e.protocol.relationship.key.recipient = recipient))
    (hhistory : history = (w.histories.get? H).getD (.new H recipient now))
    (hrecipient : history.recipient = recipient) :
    ∃ s', s.step (.register R H sender recipient now unit) = .ok s' ∧
      Refines {w with
        histories := w.histories.insert H history
        programs := w.programs.insert unit host
        relationships := w.relationships.insert R
          (.new (.initialScoped R H sender recipient now) unit)} s' := by
  refine ⟨_, ?_, h.insert R (.new (.initialScoped R H sender recipient now) unit) H history _⟩
  have hstored : s.historyFor (.initialScoped R H sender recipient now) = history := by
    rw [StoreState.historyFor, h.histories, hhistory]
    rfl
  have hregister := StoreState.register_accepts (p := .initialScoped R H sender recipient now) unit
    (by rw [h.relationships]; exact congrArg _ hnew) (fun R' e he => ?_) (hstored ▸ hrecipient)
  · rw [hstored] at hregister
    exact hregister
  · rw [h.relationships] at he
    obtain ⟨inner, hinner, rfl⟩ := Option.map_eq_some_iff.mp he
    exact hpair R' inner hinner

omit [EngineEncoding] in
/-- **Refinement.** An accepted call is a step of the store, or leaves its part alone. -/
theorem effect (h : w.Refines s) (heffect : EngineCall.Effect w w') :
    w'.Refines s ∨ ∃ i s', s.step i = .ok s' ∧ w'.Refines s' := by
  cases heffect with
  | kept => exact .inl h
  | configured => exact .inl ⟨h.histories, h.relationships⟩
  | administered => exact .inl ⟨h.histories, h.relationships⟩
  | registered host hnew hpair hhistory hrecipient =>
    exact .inr ⟨_, h.registered hnew hpair hhistory hrecipient⟩
  | executed digest hinner hnew hplan hhost => exact .inr ⟨_, h.executed hinner hplan⟩

end InMemoryStore.Refines

end CsMail
