import CsMail.Application.Store
import CsMail.Finance.Program
import CsMail.Library.InPlace
import CsMail.Protocol.Pricing

/-! The in-memory engine: one store behind a lock, and the methods that change it.

Every method holds the lock, checks what it is given against the store, and only then
assigns. The engine keeps what the store of `Application.Store` leaves to its host: the
receipts of the commands it carried out, the effects to be executed, the position in the
journal, the member programs, and the prices it resolves classes against. -/
namespace CsMail
open Library

/-- `serde_json::to_vec`, for what the engine digests and for what an administrator signs. -/
class EngineEncoding where
  command : KernelCommand ProtocolCommand → Option Bytes
  financial : FinancialScope → SettlementUnit → IdempotencyKey → U64 → ProgramCommand → Option Bytes

/-- Minimal replay evidence. -/
structure CommittedTransition where
  journalPosition : JournalPosition
  protocolEvents : List ProtocolEvent
  termsOutcome : Option TermsOutcome
  delivered : Bool
  deriving DecidableEq

def EffectIntent.isDelivery : EffectIntent → Bool
  | deliverMessage .. => true
  | _ => false

def TransitionManifest.committed (m : TransitionManifest) (position : JournalPosition) :
    CommittedTransition where
  journalPosition := position
  protocolEvents := m.protocolEvents
  termsOutcome := m.termsOutcome
  delivered := !m.mailboxDeliveries.isEmpty || m.outboxIntents.any EffectIntent.isDelivery

structure ExecutionOutcome where
  transition : CommittedTransition
  replayed : Bool
  deriving DecidableEq

structure ExecutionRecord where
  fingerprint : Bytes32
  transition : CommittedTransition
  deriving DecidableEq

inductive ExecutionError
  | engine (error : EngineError)
  | finance (error : ProgramError)
  | commandEncoding
  deriving DecidableEq

/-- A relationship as the engine keeps it. -/
structure HostedRelationship extends EngineState where
  outbox : List EffectIntent
  idempotency : SortedMap IdempotencyKey ExecutionRecord
  nextJournalPosition : U64

structure SignedProgramCommand where
  scope : FinancialScope
  unit : SettlementUnit
  idempotencyKey : IdempotencyKey
  expectedRevision : U64
  command : ProgramCommand
  signature : Bytes
  deriving DecidableEq

/-- Rejects invalid administration signatures. -/
def SignedProgramCommand.verify [Crypto] [EngineEncoding] (c : SignedProgramCommand)
    (key : Bytes32) : Except ProgramError Unit := do
  refuseIf (Crypto.validKey key = false ∨ c.signature.length ≠ 64) .invalidPayment
  let bytes ← okOr (EngineEncoding.financial c.scope c.unit c.idempotencyKey c.expectedRevision
    c.command) .invalidPolicy
  refuseIf (Crypto.verifyStrict key bytes c.signature = false) .invalidPayment

structure ProgramState where
  program : FinancialProgram
  financialCommands : SortedMap IdempotencyKey (SignedProgramCommand × ProgramOutcome)

/-- All handles from a store share its histories and its per-unit programs. -/
structure InMemoryStore where
  scope : FinancialScope
  relationships : SortedMap RelationshipRef HostedRelationship
  histories : SortedMap RequestHistoryRef RequestHistory
  programs : SortedMap SettlementUnit ProgramState
  requestPricing : Option RequestPricingPolicy
  requestClasses : SortedMap AliasId RecipientRequestClasses

/-! ### Preparing one execution -/

/-- Resolves a requested class against the current policy and publication. -/
def harnessPrice (w : InMemoryStore) (relationship : RelationshipKey) :
    ProtocolCommand → QuotePricing
  | .issueRequestTerms _ address classId _ _ =>
    .resolve w.requestPricing
      ((w.requestClasses.get? address).filter fun c => c.recipient = relationship.recipient) classId
  | _ => .notRequested

namespace InMemoryStore

def new (scope : FinancialScope) : InMemoryStore where
  scope := scope
  relationships := ∅
  histories := ∅
  programs := ∅
  requestPricing := none
  requestClasses := ∅

/-- One explicitly shared receiving scope, and no ciphertext or provider policy to check. -/
def context (w : InMemoryStore) (inner : HostedRelationship)
    (authorized : KernelCommand ProtocolCommand) (now : CanonicalTime) (policy : PolicySnapshot) :
    TransitionContext where
  requestPermission :=
    if inner.protocol.relationship.state = .accepted then .directContact else .bondedRequest
  requestDelivery := .guestRelay
  admission := .ok ()
  now := now
  journalPosition := ⟨inner.nextJournalPosition⟩
  protocolVersion := policy.protocolVersion
  policy := policy
  pricing := harnessPrice w inner.protocol.relationship.key authorized.command

end InMemoryStore

/-- The digest a replay is recognized by. -/
def fingerprint [Crypto] [EngineEncoding] (authorized : KernelCommand ProtocolCommand) :
    Except ExecutionError Bytes32 := do
  let bytes ← okOr (EngineEncoding.command authorized) .commandEncoding
  .ok (Crypto.sha256 bytes)

/-- What an execution is about to write. -/
structure ExecutionPlan where
  manifest : TransitionManifest
  nextRevision : U64
  nextPosition : U64
  ledger : LedgerState
  unit : SettlementUnit
  program : FinancialProgram
  outcome : CommittedTransition

/-- The program after the forfeitures a transition exports and the holds it reports. -/
def settleProgram (p : FinancialProgram) (m : TransitionManifest) (now : CanonicalTime) :
    Except ProgramError FinancialProgram := do
  let p ← m.forfeitures.foldlM (fun p source => p.recordForfeiture source now) p
  m.forfeitureHolds.foldlM (fun p id => p.noteReversal id now) p

namespace InMemoryStore

/-- Everything that can be refused is computed before the store is touched. The histories
and programs of a registered relationship are always present (`InMemoryStore.Hosted`). -/
def plan [Crypto] (w : InMemoryStore) (inner : HostedRelationship)
    (authorized : KernelCommand ProtocolCommand) (now : CanonicalTime) (policy : PolicySnapshot) :
    Except ExecutionError ExecutionPlan := do
  let history ← okOr (w.histories.get? inner.protocol.relationship.history)
    (.engine .unknownRelationship)
  let context := w.context inner authorized now policy
  let manifest ← (transition (inner.snapshot history none) authorized context).mapError
    fun e => .engine (.protocol e)
  refuseIf (manifest.expectedSnapshotRevision ≠ inner.revision) (.engine .versionConflict)
  let nextRevision ← okOr (Checked.succ inner.revision) (.engine .arithmeticOverflow)
  let nextPosition ← okOr (Checked.succ inner.nextJournalPosition) (.engine .arithmeticOverflow)
  -- The ledger and the program change on copies.
  let ledger ← (inner.ledger.apply manifest.expectedLedgerRevision manifest.ledgerBatch).mapError
    fun e => .engine (.ledger e)
  let unit := inner.ledger.view.unit
  let host ← okOr (w.programs.get? unit) (.engine .unknownRelationship)
  let program ← (settleProgram host.program manifest now).mapError .finance
  .ok {
    manifest, nextRevision, nextPosition, ledger, unit, program
    outcome := manifest.committed context.journalPosition}

end InMemoryStore

/-- The relationship after a plan, with the receipt of the command. -/
def HostedRelationship.next (inner : HostedRelationship) (p : ExecutionPlan) (key : IdempotencyKey)
    (record : ExecutionRecord) : HostedRelationship where
  toEngineState := inner.toEngineState.next p.nextRevision p.ledger p.manifest []
  outbox := inner.outbox ++ p.manifest.outboxIntents
  idempotency := inner.idempotency.insert key record
  nextJournalPosition := p.nextPosition

/-! ### The methods -/

namespace InMemoryEngine

abbrev Method := InPlace InMemoryStore ExecutionError

/-- Writes a plan. -/
def commit (relationship : RelationshipRef) (inner : HostedRelationship) (key : IdempotencyKey)
    (digest : Bytes32) (p : ExecutionPlan) : Method ExecutionOutcome := do
  let w ← get
  let host ← okOr (w.programs.get? p.unit) (ExecutionError.engine .versionConflict)
  modify fun w => {w with
    programs := w.programs.insert p.unit {host with program := p.program}}
  modify fun w => {w with
    histories := w.histories.insert p.manifest.nextHistory.reference p.manifest.nextHistory}
  modify fun w => {w with
    relationships := w.relationships.insert relationship (inner.next p key ⟨digest, p.outcome⟩)}
  pure ⟨p.outcome, false⟩

/-- A command is answered from its receipt, or carried out. -/
def execute [Crypto] [EngineEncoding] (relationship : RelationshipRef)
    (authorized : KernelCommand ProtocolCommand) (now : CanonicalTime) (policy : PolicySnapshot) :
    Method ExecutionOutcome := do
  let w ← get
  let inner ← okOr (w.relationships.get? relationship) (ExecutionError.engine .unknownRelationship)
  let _ ← refuseIf (policy.financial.scope ≠ w.scope) (ExecutionError.engine .versionConflict)
  let digest ← fingerprint authorized
  match inner.idempotency.get? authorized.idempotencyKey with
  | some record =>
    if record.fingerprint = digest then pure ⟨record.transition, true⟩
    else throw (.engine .duplicateConflict)
  | none => do
    let p ← w.plan inner authorized now policy
    commit relationship inner authorized.idempotencyKey digest p

/-- Executes a signed command using authority supplied by the trusted host. -/
def executeFinancialCommand [Crypto] [EngineEncoding] (relationship : RelationshipRef)
    (signed : SignedProgramCommand) (key : Bytes32) (now : CanonicalTime) :
    Method ProgramOutcome := do
  let _ ← (signed.verify key).mapError ExecutionError.finance
  let w ← get
  let inner ← okOr (w.relationships.get? relationship) (ExecutionError.engine .unknownRelationship)
  let unit := inner.ledger.view.unit
  let host ← okOr (w.programs.get? unit) (ExecutionError.engine .versionConflict)
  match host.financialCommands.get? signed.idempotencyKey with
  | some (previous, outcome) =>
    if previous = signed then pure outcome else throw (.engine .duplicateConflict)
  | none => do
    let _ ← refuseIf (signed.scope ≠ host.program.scope ∨ signed.unit ≠ host.program.unit ∨
      signed.expectedRevision ≠ host.program.revision) (ExecutionError.engine .versionConflict)
    let (program, outcome) ← (host.program.apply signed.command now).mapError ExecutionError.finance
    modify fun w => {w with programs := w.programs.insert unit {
      program
      financialCommands := host.financialCommands.insert signed.idempotencyKey (signed, outcome)}}
    pure outcome

/-- Registers a relationship without replacing existing history or program data. -/
def register (protocol : ProtocolState) (unit : SettlementUnit) : Method Unit := do
  let w ← get
  let key := protocol.relationship.key
  let _ ← refuseIf (w.relationships.contains key.reference = true ∨
    w.relationships.values.any (fun e => e.protocol.relationship.key.sender = key.sender ∧
      e.protocol.relationship.key.recipient = key.recipient) = true)
    (ExecutionError.engine .duplicateConflict)
  let history := (w.histories.get? protocol.relationship.history).getD
    (.new protocol.relationship.history key.recipient protocol.relationship.changedAt)
  -- An entry that was just made is the recipient's own: only a stored one is refused.
  let _ ← refuseIf (history.recipient ≠ key.recipient) (ExecutionError.engine .duplicateConflict)
  modify fun w => {w with histories := w.histories.insert protocol.relationship.history history}
  let host := (w.programs.get? unit).getD ⟨.new w.scope unit, ∅⟩
  modify fun w => {w with programs := w.programs.insert unit host}
  modify fun w => {w with relationships := w.relationships.insert key.reference {
    toEngineState := .new protocol unit
    outbox := []
    idempotency := ∅
    nextJournalPosition := 1}}

def configureRequestPricing (policy : RequestPricingPolicy) : Method Unit :=
  modify fun w => {w with requestPricing := some policy}

def configureRequestClasses (classes : RecipientRequestClasses) : Method Unit := do
  let w ← get
  let policy ← okOr w.requestPricing (ExecutionError.engine (.protocol .policyInvalid))
  let _ ← refuseIf (policy.permits classes = false)
    (ExecutionError.engine (.protocol .requestClassOutsidePolicy))
  modify fun w => {w with requestClasses := w.requestClasses.insert classes.address classes}

end InMemoryEngine

/-! ### Sequences of calls -/

inductive EngineCall
  | register (relationship : RelationshipRef) (history : RequestHistoryRef)
      (sender recipient : ProtocolIdentity) (now : CanonicalTime) (unit : SettlementUnit)
  | configureRequestPricing (policy : RequestPricingPolicy)
  | configureRequestClasses (classes : RecipientRequestClasses)
  | execute (relationship : RelationshipRef) (authorized : KernelCommand ProtocolCommand)
      (now : CanonicalTime) (policy : PolicySnapshot)
  | executeFinancialCommand (relationship : RelationshipRef) (signed : SignedProgramCommand)
      (key : Bytes32) (now : CanonicalTime)

namespace EngineCall
variable [Crypto] [EngineEncoding]

/-- The call, without what it returns. -/
def method : EngineCall → InMemoryEngine.Method Unit
  | register relationship history sender recipient now unit =>
    InMemoryEngine.register (.initialScoped relationship history sender recipient now) unit
  | configureRequestPricing policy => InMemoryEngine.configureRequestPricing policy
  | configureRequestClasses classes => InMemoryEngine.configureRequestClasses classes
  | execute relationship authorized now policy => do
    let _ ← InMemoryEngine.execute relationship authorized now policy
    pure ()
  | executeFinancialCommand relationship signed key now => do
    let _ ← InMemoryEngine.executeFinancialCommand relationship signed key now
    pure ()

end EngineCall

/-- A store after a sequence of calls on its engines, refused ones included. -/
def InMemoryStore.calls [Crypto] [EngineEncoding] (scope : FinancialScope) (cs : List EngineCall) :
    InMemoryStore :=
  InPlace.calls EngineCall.method (.new scope) cs

end CsMail
