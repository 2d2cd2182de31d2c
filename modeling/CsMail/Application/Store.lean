import CsMail.Library.Machine
import CsMail.Protocol.Admission
import CsMail.Protocol.Kernel

/-! The store: every relationship of a deployment, and the histories they share.

The host reads a relationship and its shared history into a complete snapshot, asks the
kernel for the consequence of one input, and commits all of it or nothing. What the
deployment decides per input (the lane it attaches, the policy, the time, the price, the
journal position) comes with the input. -/
namespace CsMail
open Library

structure EngineState where
  revision : U64
  protocol : ProtocolState
  ledger : LedgerState
  payments : SortedMap RequestId RequestFinancials
  messages : SortedMap MessageId Message
  journal : List ProtocolEvent
  schedules : SortedMap ScheduleTask CanonicalTime
  deriving DecidableEq

structure StoreState where
  relationships : SortedMap RelationshipRef EngineState
  histories : SortedMap RequestHistoryRef RequestHistory
  deriving DecidableEq

inductive EngineError
  | protocol (error : ProtocolError)
  | ledger (error : LedgerError)
  | capability (error : CapabilityError)
  | admission (error : AdmissionPlanError)
  | versionConflict
  | duplicateConflict
  | arithmeticOverflow
  | unknownRelationship
  deriving DecidableEq

def applyScheduleChange (schedules : SortedMap ScheduleTask CanonicalTime) :
    ScheduleChange → SortedMap ScheduleTask CanonicalTime
  | .schedule task due => schedules.insert task due
  | .cancel task => schedules.erase task

def applyScheduleChanges (schedules : SortedMap ScheduleTask CanonicalTime)
    (changes : List ScheduleChange) : SortedMap ScheduleTask CanonicalTime :=
  changes.foldl applyScheduleChange schedules

namespace EngineState

def new (protocol : ProtocolState) (unit : SettlementUnit) : EngineState where
  revision := 0
  protocol := protocol
  ledger := .new unit
  payments := ∅
  messages := ∅
  journal := []
  schedules := ∅

/-- `SettlementSnapshot::complete`, with the lane the host attaches. -/
def snapshot (e : EngineState) (history : RequestHistory) (lane : Option SenderScopedLane) :
    SettlementSnapshot where
  lane := lane
  revision := e.revision
  state := e.protocol
  history := history
  payments := e.payments
  messages := e.messages
  ledger := e.ledger.view
  complete := true

/-- The relationship after a manifest and the host's own schedule changes. -/
def next (e : EngineState) (revision : U64) (ledger : LedgerState) (m : TransitionManifest)
    (extra : List ScheduleChange) : EngineState where
  revision := revision
  protocol := m.nextState
  ledger := ledger
  payments := m.nextPayments
  messages := m.nextMessages
  journal := e.journal ++ m.protocolEvents
  schedules := applyScheduleChanges e.schedules (m.scheduleChanges ++ extra)

end EngineState

/-! ### Accepting a lane -/

structure LaneAcceptance where
  lane : SenderScopedLane
  schedules : List ScheduleChange
  settlement : TransitionManifest
  deriving DecidableEq

/-- Exact stored grants replay without a second settlement; changed grants need a new
version. The recipient's signature on the grant is checked before it is activated. -/
def LaneAcceptance.decide (s : SettlementSnapshot) (granted : SenderScopedGrant)
    (context : TransitionContext) : Except EngineError (Option LaneAcceptance) := do
  let grant ← (SenderScopedLane.fromGrant granted).mapError .capability
  refuseIf (s.state.relationship.state = .blocked) (.protocol .contactBlocked)
  refuseIf (grant.grant.sender ≠ s.state.relationship.key.sender ∨
    grant.grant.recipient ≠ s.state.relationship.key.recipient) (.capability .notAuthorized)
  if s.lane = some grant then .ok none
  else do
    refuseIf (s.lane.any (fun existing => existing.grant.id ≠ grant.grant.id ∨
      grant.grant.version ≤ existing.grant.version) = true) (.protocol .duplicateConflict)
    refuseIf (grant.providesRelationshipAccess context.now = false) (.capability .notAuthorized)
    let settlement ← (acceptExpressLane s grant.grant.id context).mapError .protocol
    .ok (some ⟨grant, [grant.scheduleChange], settlement⟩)

namespace StoreState

/-- The record of a registered relationship and the history it shares. -/
def read (w : StoreState) (relationship : RelationshipRef) :
    Except EngineError (EngineState × RequestHistory) := do
  let engine ← okOr (w.relationships.get? relationship) .unknownRelationship
  let history ← okOr (w.histories.get? engine.protocol.relationship.history) .unknownRelationship
  .ok (engine, history)

/-- Commits a manifest against the revision it was computed from. -/
def commit (w : StoreState) (relationship : RelationshipRef) (engine : EngineState)
    (m : TransitionManifest) (extra : List ScheduleChange) : Except EngineError StoreState := do
  refuseIf (m.expectedSnapshotRevision ≠ engine.revision) .versionConflict
  let revision ← okOr (Checked.succ engine.revision) .arithmeticOverflow
  let ledger ← (engine.ledger.apply m.expectedLedgerRevision m.ledgerBatch).mapError .ledger
  .ok {
    relationships := w.relationships.insert relationship (engine.next revision ledger m extra)
    histories := w.histories.insert m.nextHistory.reference m.nextHistory}

/-- The shared history of a new relationship: the stored one, or a fresh one. -/
def historyFor (w : StoreState) (protocol : ProtocolState) : RequestHistory :=
  (w.histories.get? protocol.relationship.history).getD
    (.new protocol.relationship.history protocol.relationship.key.recipient
      protocol.relationship.changedAt)

/-- Registers a fresh relationship without replacing existing history. -/
def register (w : StoreState) (protocol : ProtocolState) (unit : SettlementUnit) :
    Except EngineError StoreState := do
  let key := protocol.relationship.key
  refuseIf (w.relationships.contains key.reference = true ∨
    w.relationships.values.any (fun e => e.protocol.relationship.key.sender = key.sender ∧
      e.protocol.relationship.key.recipient = key.recipient) = true) .duplicateConflict
  let history := w.historyFor protocol
  refuseIf (history.recipient ≠ key.recipient) .duplicateConflict
  .ok {
    relationships := w.relationships.insert key.reference (.new protocol unit)
    histories := w.histories.insert protocol.relationship.history history}

/-- Admits a message a standing permission covers. -/
def admitFree [Crypto] (w : StoreState) (relationship : RelationshipRef)
    (lane : Option SenderScopedLane) (request : BondFreeAdmission)
    (record : Option EncryptedContentRecord) (policy : AdmissionPolicy) (now : CanonicalTime) :
    Except EngineError StoreState := do
  let (engine, _) ← w.read relationship
  let plan ← (planFreeAdmission engine.protocol request record lane now policy).mapError .admission
  refuseIf (engine.messages.contains plan.message.id = true) .duplicateConflict
  let revision ← okOr (Checked.succ engine.revision) .arithmeticOverflow
  .ok {w with relationships := w.relationships.insert relationship {engine with
    revision
    messages := engine.messages.insert plan.message.id plan.message
    schedules := applyScheduleChanges engine.schedules
      (plan.nextLane.toList.map SenderScopedLane.scheduleChange)}}

end StoreState

/-! ### Runs -/

inductive StoreInput
  | register (relationship : RelationshipRef) (history : RequestHistoryRef)
      (sender recipient : ProtocolIdentity) (now : CanonicalTime) (unit : SettlementUnit)
  | execute (relationship : RelationshipRef) (lane : Option SenderScopedLane)
      (command : KernelCommand ProtocolCommand) (context : TransitionContext)
  | receiveNative (relationship : RelationshipRef) (lane : Option SenderScopedLane)
      (incoming : RelationshipRequest) (context : TransitionContext)
  | acceptLane (relationship : RelationshipRef) (lane : Option SenderScopedLane)
      (grant : SenderScopedGrant) (context : TransitionContext)
  | admitFree (relationship : RelationshipRef) (lane : Option SenderScopedLane)
      (request : BondFreeAdmission) (record : Option EncryptedContentRecord)
      (policy : AdmissionPolicy) (now : CanonicalTime)

/-- The canonical time an input is received at. -/
def StoreInput.now : StoreInput → CanonicalTime
  | register _ _ _ _ now _ => now
  | execute _ _ _ context | receiveNative _ _ _ context | acceptLane _ _ _ context => context.now
  | admitFree _ _ _ _ _ now => now

namespace StoreState

def empty : StoreState := ⟨∅, ∅⟩

def step [Crypto] (w : StoreState) : StoreInput → Except EngineError StoreState
  | .register relationship history sender recipient now unit =>
    w.register (.initialScoped relationship history sender recipient now) unit
  | .execute relationship lane command context => do
    let (engine, history) ← w.read relationship
    let m ← (transition (engine.snapshot history lane) command context).mapError .protocol
    w.commit relationship engine m []
  | .receiveNative relationship lane incoming context => do
    let (engine, history) ← w.read relationship
    match ← (receiveNativeRequest (engine.snapshot history lane) incoming context).mapError
      .protocol with
    | none => .ok w
    | some m => w.commit relationship engine m []
  | .acceptLane relationship lane grant context => do
    let (engine, history) ← w.read relationship
    match ← LaneAcceptance.decide (engine.snapshot history lane) grant context with
    | none => .ok w
    | some acceptance => w.commit relationship engine acceptance.settlement acceptance.schedules
  | .admitFree relationship lane request record policy now =>
    w.admitFree relationship lane request record policy now

/-- A run of the store: a refused input leaves it as it was. -/
def run [Crypto] (inputs : List StoreInput) : StoreState := Machine.run step empty inputs

end StoreState
end CsMail
