import CsMail.Ingress.Model
import CsMail.Library.Machine
import Mathlib.Data.Char
import Mathlib.Data.List.Lex

/-! The inbox of received commands, the transactions on it, and the inbox as a machine.

A command is verified, recorded with the owners it waits behind, and applied when nothing of theirs is
pending before it. Receipts are signed outside of any transaction, from what a first one read. Changes
elsewhere may be held back by a gate: until no pending command is of the owners concerned. -/
namespace CsMail.Ingress
open Library

structure QuoteSignature where
  quote : QuoteId
  providerOperationalKey : OperationalKeyRef
  signature : Signature
  verifyingKey : Bytes32

/-- The rest of the database, as the inbox uses it. -/
structure Handlers (W : Type) where
  /-- `load_locked_aggregate`, of which the key is read. -/
  relationship : W → Text → Except StorageError RelationshipKey
  registryLocked : W → Text → Except StorageError AuthoritySnapshot
  /-- The personas of the relationship, with the accounts they belong to. -/
  participants : W → Text → Except StorageError (List ParticipantOwner)
  personaAccount : W → ProtocolIdentity → Option AccountId
  contentStored : W → Text → ContentRef → Bool
  /-- `VerifyingKey::verify`. -/
  verifies : Bytes32 → Bytes → Signature → Bool
  isGuest : W → ProtocolIdentity → Except StorageError Bool
  registerLegacyDomain : W → ProtocolIdentity → DomainIdentity → CanonicalTime → Except StorageError W
  /-- With the admission policy of the relationship. -/
  applyProtocol : W → Option AdmissionPolicy → Text → KernelCommand ProtocolCommand → CanonicalTime →
    PolicySnapshot → JournalPosition → Bool → Except StorageError (W × DurableExecutionOutcome)
  applyFree : W → Option AdmissionPolicy → Text → BondFreeAdmission → CanonicalTime → JournalPosition →
    Bool → Except StorageError (W × BondFreeAdmissionOutcome)
  applyGrant : W → Text → VerifiedLaneGrant → CanonicalTime → JournalPosition → PolicySnapshot →
    Except StorageError (W × LaneOperationOutcome)
  applyControl : W → Text → LaneControl → CanonicalTime → JournalPosition →
    Except StorageError (W × LaneOperationOutcome)
  /-- `serde_json::to_vec` of an outcome. -/
  outcomeBytes : ReceivedOutcome → Option Bytes
  enqueueArtifacts : W → Text → JournalPosition → CanonicalTime → Except StorageError W
  registerRecords : W → Text → Except StorageError W
  /-- The first signature of a quote is kept. -/
  recordQuote : W → Text → QuoteSignature → W
  /-- Work of the receipt that is not complete. -/
  workOpen : W → Text → BigInt → Bool
  /-- The completed work and the events of a retired command are deleted. -/
  forget : W → Text → BigInt → W

/-- A receipt that was read and signed, not yet stored: no lock is held meanwhile. -/
structure Artifact where
  aggregate : Text
  position : BigInt
  receipt : SignedReceipt
  quote : Option QuoteSignature

/-- What commands are applied to. The inbox itself installs the admission policies. -/
structure Database (W : Type) where
  admissionPolicies : SortedMap Text AdmissionPolicy
  rest : W

structure Log (W : Type) where
  rows : SortedMap BigInt Received
  /-- The journal sequence, which others draw from as well. -/
  nextPosition : ℕ
  ingressScopes : SortedMap Text IngressScope
  /-- `cs_provider_receipts`: a position belongs to one relationship. -/
  providerReceipts : SortedMap BigInt (Text × SignedReceipt)
  artifacts : List Artifact
  database : Database W

/-- What of the database is not the inbox's own. -/
def Log.world (l : Log W) : W := l.database.rest

def Log.withWorld (l : Log W) (world : W) : Log W := {l with database.rest := world}

def journalPosition (p : BigInt) : JournalPosition := ⟨p.castLE bigInt_le⟩
def canonicalTime (t : BigInt) : CanonicalTime := ⟨t.castLE bigInt_le⟩

def toI64 (value : U64) : Except StorageError BigInt := okOr (Checked.ofNat (2 ^ 63) value.val) .numericRange

variable {W : Type} (H : Handlers W) [Crypto]

/-! ### Signatures and scopes -/

def checkKey (key : Bytes32) (bytes : Bytes) (signature : Signature) : Except CapabilityError Unit := do
  refuseIf (Crypto.validKey key = false) .invalidPublicKey
  refuseIf (H.verifies key bytes signature = false) .invalidSignature

def VerifiedLaneGrant.verify (signed : SignedLaneGrant) (key : Bytes32) :
    Except CapabilityError VerifiedLaneGrant := do
  refuseIf (Crypto.validKey key = false) .invalidPublicKey
  let bytes ← signed.grant.signingBytes
  refuseIf (H.verifies key bytes signed.signature = false) .invalidSignature
  .ok ⟨signed.grant⟩

def SignedLaneControl.verify (signed : SignedLaneControl) (key : Bytes32) : Except CapabilityError Unit :=
  checkKey H key signed.control.signingBytes signed.signature

def checkScope (domain : Bytes32) (provider : ProviderRef) (version : ProtocolVersion) (expected : Bytes32)
    (policy : PolicySnapshot) : Except StorageError Unit :=
  refuseIf (domain ≠ expected ∨ provider ≠ policy.recipientProvider ∨ version ≠ policy.protocolVersion)
    (.security .signingScopeMismatch)

/-- The scopes of a relationship's owners. -/
def orderingScopes (world : W) (key : Text) : Except StorageError (List Text) := do
  let participants ← H.participants world key
  let owners ← (orderingOwners participants).mapError .operations
  .ok (owners.map ProcessingOwner.scope)

/-- The scopes of some personas and of their accounts. -/
def personaScopes (world : W) (personas : List ProtocolIdentity) : List Text :=
  personas.flatMap fun persona => (ProcessingOwner.persona persona).scope ::
    ((H.personaAccount world persona).map fun id => (ProcessingOwner.account id).scope).toList

/-! ### Authenticated ingress -/

/-- What verification makes of a command: its identity, its digest, the operation to apply. -/
abbrev Verify (W : Type) := W → Text → CanonicalTime → PolicySnapshot →
  Except StorageError (W × IdempotencyKey × Bytes32 × Operation)

def verifySigned [Cbor] [Json] (signed : SignedCommandBytes) (deployment : Bytes32) : Verify W :=
  fun world key now policy => do
    let relationship ← H.relationship world key
    let registry ← H.registryLocked world key
    let verified ← (registry.verify signed now policy.protocolVersion {
      deploymentDomain := deployment
      intendedProvider := policy.recipientProvider
      relationship := relationship.reference}).mapError .security
    .ok (world, verified.authorized.idempotencyKey, verified.digest, .protocol verified.authorized)

/-- A synthetic identity of a legacy domain belongs to that domain alone; a guest mailbox must be one. -/
def checkSubject (world : W) (g : SenderScopedGrant) (now : CanonicalTime) : Except StorageError W :=
  match g.subject with
  | .legacyDomain domain => H.registerLegacyDomain world g.sender domain now
  | .guestMailbox identity => do
    let isGuest ← if identity = g.sender then H.isGuest world identity else .ok false
    refuseIf (isGuest = false) .bondFreeNotAuthorized
    .ok world
  | .native _ => .ok world

def verifyGrant (signed : SignedLaneGrant) (idempotency : IdempotencyKey) (deployment : Bytes32) : Verify W :=
  fun world key now policy => do
    let g := signed.grant
    checkScope g.deploymentDomain g.intendedProvider g.protocolVersion deployment policy
    let registry ← H.registryLocked world key
    let verifyingKey ← (registry.activeVerifyingKey g.recipientOperationalKey (.recipient g.recipient)
      now).mapError .security
    let _ ← (VerifiedLaneGrant.verify H signed verifyingKey).mapError .capability
    let world ← checkSubject H world g now
    let bytes ← g.signingBytes.mapError .capability
    .ok (world, idempotency, Crypto.sha256 bytes, .grant signed)

def verifyControl (signed : SignedLaneControl) (deployment : Bytes32) : Verify W :=
  fun world key now policy => do
    let c := signed.control
    checkScope c.deploymentDomain c.intendedProvider c.protocolVersion deployment policy
    let registry ← H.registryLocked world key
    let verifyingKey ← (registry.activeVerifyingKey c.recipientOperationalKey (.recipient c.recipient)
      now).mapError .security
    (signed.verify H verifyingKey).mapError .capability
    .ok (world, c.idempotencyKey, Crypto.sha256 c.signingBytes, .control c)

/-- Gateway-issued evidence needs no further proof. -/
def verifyLegacy (a : BondFreeAdmission) (deployment : Bytes32) : Verify W :=
  fun world _ _ policy => do
    checkScope a.deploymentDomain a.intendedProvider a.protocolVersion deployment policy
    let bytes ← a.signingBytes.mapError .capability
    .ok (world, a.idempotencyKey, Crypto.sha256 bytes, .message a)

structure ReceivedCommand where
  position : BigInt
  aggregate : Text
  replayed : Bool
  deriving DecidableEq

/-- A submission to the inbox. -/
structure Submission (W : Type) where
  aggregate : Text
  deployment : Bytes32
  /-- What the clock says once the locks are held. -/
  now : CanonicalTime
  policy : PolicySnapshot
  replay : ReplayIdentity
  verify : Verify W

namespace Log
variable {H}

def validateIngressScope (l : Log W) (key : Text) (deployment : Bytes32) (policy : PolicySnapshot) :
    Except StorageError Unit := do
  let stored ← okOr (l.ingressScopes.get? key) .registryMissing
  refuseIf (stored.admits deployment policy = false) (.security .signingScopeMismatch)

/-- The row of a relationship's command with this identity. -/
def find (l : Log W) (aggregate : Text) (id : IdempotencyKey) : Option (BigInt × Received) :=
  l.rows.entries.find? fun e => e.2.aggregate = aggregate ∧ e.2.idempotencyKey = id

def lastReceivedAfter (l : Log W) (at' : BigInt) : Bool := l.rows.values.any fun r => at' < r.receivedAt

end Log

/-- `record_received`. The position is drawn by the insertion, which a second command of one identity
would fail. -/
def Log.record (l : Log W) (s : Submission W) (world : W) (authority : AuthoritySnapshot)
    (id : IdempotencyKey) (digest : Bytes32) (operation : Operation) :
    Except StorageError (Log W × BigInt) := do
  let receivedAt ← toI64 s.now.val
  refuseIf (l.lastReceivedAfter receivedAt = true) .versionConflict
  let scopes ← orderingScopes H world s.aggregate
  let position ← okOr (Checked.ofNat (2 ^ 63) l.nextPosition) .database
  refuseIf ((l.find s.aggregate id).isSome = true) .database
  .ok ({l.withWorld world with
    rows := l.rows.insert position {
      aggregate := s.aggregate
      idempotencyKey := id
      digest
      deployment := s.deployment
      receivedAt
      evidence := some ⟨operation, s.policy, authority⟩
      fingerprint := s.replay.fingerprint
      contentAvailable := operation.contentRef.all (H.contentStored world s.aggregate)
      scopes
      outcome := none
      receipt := none
      failure := none
      failedAttempts := 0}
    nextPosition := l.nextPosition + 1}, position)

def Log.receive (l : Log W) (s : Submission W) : Except StorageError (Log W × ReceivedCommand) := do
  l.validateIngressScope s.aggregate s.deployment s.policy
  match l.find s.aggregate s.replay.id with
  | some (position, r) =>
    refuseIf (r.fingerprint ≠ s.replay.fingerprint) .duplicateConflict
    .ok (l, ⟨position, s.aggregate, true⟩)
  | none =>
    let authority ← H.registryLocked l.world s.aggregate
    let _ ← H.relationship l.world s.aggregate
    let (world, id, digest, operation) ← s.verify l.world s.aggregate s.now s.policy
    let (l, position) ← l.record H s world authority id digest operation
    .ok (l, ⟨position, s.aggregate, false⟩)

/-- The ways into the inbox. -/
inductive Entry
  | signed (signed : SignedCommandBytes)
  | grant (signed : SignedLaneGrant) (idempotency : IdempotencyKey)
  | control (signed : SignedLaneControl)
  | legacy (admission : BondFreeAdmission)

namespace Entry

def replay [Cbor] [Json] : Entry → Except StorageError ReplayIdentity
  | signed s => do
    let envelope ← (decodeCommandEnvelope s.payload).mapError fun e => .security (.wire e)
    .ok (.signed envelope.idempotencyKey s.payload s.signature)
  | grant s idempotency => do
    let bytes ← s.grant.signingBytes.mapError .capability
    .ok (.signed idempotency bytes s.signature)
  | control s => .ok (.signed s.control.idempotencyKey s.control.signingBytes s.signature)
  | legacy a => do
    let bytes ← a.signingBytes.mapError .capability
    .ok (.trusted a.idempotencyKey bytes)

def verify [Cbor] [Json] (deployment : Bytes32) : Entry → Verify W
  | signed s => verifySigned H s deployment
  | grant s idempotency => verifyGrant H s idempotency deployment
  | control s => verifyControl H s deployment
  | legacy a => verifyLegacy a deployment

/-- `receive_signed`, `receive_grant`, `receive_control` and `receive_legacy`, up to the transaction. -/
def submission [Cbor] [Json] (entry : Entry) (aggregate : Text) (deployment : Bytes32) (now : CanonicalTime)
    (policy : PolicySnapshot) : Except StorageError (Submission W) := do
  let replay ← entry.replay
  .ok {aggregate, deployment, now, policy, replay, verify := entry.verify H deployment}

end Entry

/-! ### Processing -/

/-- Restores the original signature against receipt-time authority. -/
def restoreGrantProof (r : Received) (e : Evidence) : Except StorageError (Option VerifiedLaneGrant) :=
  match e.operation with
  | .grant signed => do
    checkScope signed.grant.deploymentDomain signed.grant.intendedProvider signed.grant.protocolVersion
      r.deployment e.policy
    let verifyingKey ← (e.authority.activeVerifyingKey signed.grant.recipientOperationalKey
      (.recipient signed.grant.recipient) (canonicalTime r.receivedAt)).mapError .security
    let verified ← (VerifiedLaneGrant.verify H signed verifyingKey).mapError .capability
    .ok (some verified)
  | _ => .ok none

def applyOperation (d : Database W) (position : BigInt) (r : Received) (e : Evidence)
    (verified : Option VerifiedLaneGrant) : Except StorageError (W × ReceivedOutcome) :=
  let policy := d.admissionPolicies.get? r.aggregate
  match e.operation with
  | .protocol c => do
    let (world, o) ← H.applyProtocol d.rest policy r.aggregate c (canonicalTime r.receivedAt) e.policy (journalPosition position)
      r.contentAvailable
    .ok (world, .protocol o)
  | .message a => do
    let (world, o) ← H.applyFree d.rest policy r.aggregate a (canonicalTime r.receivedAt) (journalPosition position) r.contentAvailable
    .ok (world, .message o)
  | .grant _ => do
    let verified ← okOr verified .versionConflict
    let (world, o) ← H.applyGrant d.rest r.aggregate verified (canonicalTime r.receivedAt) (journalPosition position) e.policy
    .ok (world, .lane o)
  | .control c => do
    let (world, o) ← H.applyControl d.rest r.aggregate c (canonicalTime r.receivedAt) (journalPosition position)
    .ok (world, .lane o)

/-- The application under its savepoint: a refusal is an outcome that leaves nothing else behind. -/
def decideOutcome (d : Database W) (position : BigInt) (r : Received) (e : Evidence)
    (verified : Option VerifiedLaneGrant) : Except StorageError (W × ReceivedOutcome) :=
  match applyOperation H d position r e verified with
  | .ok (world, outcome) => .ok (world, outcome)
  | .error error => do
    let refusal ← classifyRefusal error
    .ok (d.rest, .refused refusal)

/-- `process_received_row`: the database after it, and what it writes to the row. -/
def processRow (d : Database W) (position : BigInt) (r : Received) :
    Except StorageError (Database W × Received) := do
  let e ← okOr r.evidence .database
  let verified ← restoreGrantProof H r e
  let (world, outcome) ← decideOutcome H d position r e verified
  let relationship ← H.relationship world r.aggregate
  let bytes ← okOr (H.outcomeBytes outcome) .serialization
  let receipt := {
    deploymentDomain := r.deployment
    receiptId := position.castLE (by decide)
    kind := receiptKind e.operation outcome
    relationship := relationship.reference
    commandDigest := r.digest
    journalPosition := journalPosition position
    receivedAt := canonicalTime r.receivedAt
    outcomeDigest := Crypto.sha256 bytes
    provider := e.policy.recipientProvider
    protocolVersion := e.policy.protocolVersion}
  let world ← H.enqueueArtifacts world r.aggregate (journalPosition position) (canonicalTime r.receivedAt)
  let world ← H.registerRecords world r.aggregate
  .ok ({d with rest := world}, {r with outcome := some outcome, receipt := some receipt, failure := none})

namespace Log
variable {H}

/-- A pending command that another of one of its owners, received before it, does not hold up. -/
def head (l : Log W) (e : BigInt × Received) : Bool :=
  e.2.pending ∧ l.rows.entries.all fun prior => !(prior.2.pending && prior.1 < e.1 && prior.2.shares e.2.scopes)

def eligible (l : Log W) (e : BigInt × Received) : Bool := l.head e && !e.2.blocked

/-- `ORDER BY (processing_failure IS NOT NULL), position LIMIT 1`. -/
def nextEligible (l : Log W) : Option (BigInt × Received) :=
  let ready := l.rows.entries.filter l.eligible
  (ready.find? fun e => e.2.failure.isNone).or ready.head?

end Log

/-- The fault is recorded, after everything else was rolled back. -/
def Log.recordFault (l : Log W) (position : BigInt) (r : Received) (error : StorageError) :
    Log W × Except StorageError Bool :=
  match Checked.succ r.failedAttempts with
  | some failedAttempts => ({l with
      rows := l.rows.insert position {r with failure := some (observedFailure error), failedAttempts}},
    .error error)
  | none => (l, .error .database)

/-- Processes an eligible owner head. An error is returned with the record of it committed. -/
def Log.processNext (l : Log W) : Log W × Except StorageError Bool :=
  match l.nextEligible with
  | none => (l, .ok false)
  | some (position, r) =>
    match processRow H l.database position r with
    | .ok (database, r) => ({l with rows := l.rows.insert position r, database}, .ok true)
    | .error error => l.recordFault position r error

/-! ### Artifacts -/

/-- The provider's key, and what signing with it gives. -/
structure ProviderSigner where
  provider : ProviderRef
  reference : OperationalKeyRef
  verifyingKey : Bytes32
  signReceipt : ReceiptPayload → Except SecurityError Signature
  signContactTerms : RequestTerms → Except SecurityError Signature

/-- The terms a command's outcome commits the provider to. -/
def ReceivedOutcome.terms : ReceivedOutcome → Option RequestTerms
  | protocol o =>
    match o.transition.termsOutcome with
    | some (.chargeRequired terms) => some terms
    | _ => none
  | _ => none

/-- What the provider signs besides the receipt. -/
def quoteSignature (outcome : ReceivedOutcome) (signer : ProviderSigner) :
    Except SecurityError (Option QuoteSignature) :=
  match outcome.terms with
  | some terms => do
    let signature ← signer.signContactTerms terms
    .ok (some ⟨terms.quoteId, signer.reference, signature, signer.verifyingKey⟩)
  | none => .ok none

namespace Log
variable {H}

/-- The provider's receipt for a position of the relationship. -/
def providerReceipt (l : Log W) (aggregate : Text) (position : BigInt) : Option SignedReceipt :=
  ((l.providerReceipts.get? position).filter fun r => r.1 = aggregate).map Prod.snd

/-- The row of a position of the relationship. -/
def row (l : Log W) (aggregate : Text) (position : BigInt) : Option Received :=
  (l.rows.get? position).filter fun r => r.aggregate = aggregate

/-- The first half of `materialize_artifacts`: reads and signs. -/
def sign (l : Log W) (aggregate : Text) (position : BigInt) (signer : ProviderSigner) :
    Except StorageError (Log W) :=
  if (l.providerReceipt aggregate position).isSome = true then .ok l
  else do
    let r ← okOr (l.row aggregate position) .database
    let payload ← okOr r.receipt .database
    let e ← okOr r.evidence .database
    let outcome ← okOr r.outcome .database
    refuseIf (payload.provider ≠ signer.provider) (.security .signingScopeMismatch)
    let key ← (e.authority.activeVerifyingKey signer.reference (.provider signer.provider)
      payload.receivedAt).mapError .security
    refuseIf (key ≠ signer.verifyingKey) (.security .signingScopeMismatch)
    let quote ← (quoteSignature outcome signer).mapError .security
    let signature ← (signer.signReceipt payload).mapError .security
    .ok {l with artifacts := l.artifacts ++ [{
      aggregate
      position
      receipt := ⟨payload, signer.reference, signature⟩
      quote}]}

/-- The second half: `INSERT … ON CONFLICT DO NOTHING`. A worker may stop before it comes to this. -/
def store (l : Log W) (index : ℕ) : Except StorageError (Log W) := do
  let a ← okOr l.artifacts[index]? .database
  let world := a.quote.elim l.world (H.recordQuote l.world a.aggregate)
  if (l.providerReceipts.get? a.position).isSome = true then .ok (l.withWorld world)
  else .ok {l.withWorld world with
    providerReceipts := l.providerReceipts.insert a.position (a.aggregate, a.receipt)}

/-- Retention's deletion of a command: the digest the provider signed takes the place of the outcome. -/
def retire (l : Log W) (aggregate : Text) (position : BigInt) : Except StorageError (Log W × Bool) :=
  if H.workOpen l.world aggregate position = true then .ok (l, false)
  else
    match l.providerReceipt aggregate position with
    | none => .ok (l, false)
    | some receipt =>
      let world := H.forget l.world aggregate position
      match l.row aggregate position with
      | none => .ok (l.withWorld world, true)
      | some r => .ok ({l.withWorld world with
        rows := l.rows.insert position {r with
          evidence := none
          outcome := some (.retired receipt.payload.outcomeDigest)
          receipt := none}}, true)

end Log

/-! ### Operators -/

inductive ProcessingStatus
  | ready
  | waitingForQuote (attempts : BigInt)
  | retryable (attempts : BigInt)
  | intervention (attempts : BigInt)
  | completed
  deriving DecidableEq

def Received.status (r : Received) : ProcessingStatus :=
  if r.outcome.isSome = true then .completed
  else
    match r.failure with
    | none => .ready
    | some .awaitingQuoteSignature => .waitingForQuote r.failedAttempts
    | some .persistence => .retryable r.failedAttempts
    | some .requiresIntervention => .intervention r.failedAttempts

/-- Protected receipt facts. -/
structure ProcessingTarget where
  digest : Bytes32
  status : ProcessingStatus

/-- Resumption keeps the original command, authority, time and policy. -/
def ProcessingTarget.resume (t : ProcessingTarget) (expected : Bytes32) : Except OperationsError Bool := do
  refuseIf (t.digest ≠ expected ∨ t.status = .completed) .invalid
  .ok (decide (t.status ≠ .ready))

namespace Log
variable {H}

/-- An operator's `Resume`; the check of the operator and the audit record are the change. -/
def resume (l : Log W) (position : BigInt) (digest : Bytes32) (audit : W → Except StorageError W) :
    Except StorageError (Log W × Bool) := do
  let r ← okOr (l.rows.get? position) (.operations .invalid)
  let changed ← (ProcessingTarget.resume ⟨r.digest, r.status⟩ digest).mapError .operations
  let world ← audit l.world
  if r.pending then
    .ok ({l.withWorld world with rows := l.rows.insert position {r with failure := none}}, changed)
  else .ok (l.withWorld world, changed)

/-! ### Gates and configuration -/

/-- A pending command is of one of the owners. -/
def awaits (l : Log W) (scopes : List Text) : Bool :=
  l.rows.values.any fun r => r.pending && r.shares scopes

def requireDrained (l : Log W) : Except StorageError Unit :=
  refuseIf (l.rows.values.any Received.pending = true) .pendingCommands

def requireRelationshipDrained (l : Log W) (key : Text) : Except StorageError Unit := do
  let scopes ← orderingScopes H l.world key
  refuseIf (l.awaits scopes = true) .pendingCommands

def requirePersonasDrained (l : Log W) (personas : List ProtocolIdentity) : Except StorageError Unit :=
  refuseIf (l.awaits (personaScopes H l.world personas) = true) .pendingCommands

/-- Pins the scope at startup; later calls cannot replace it. -/
def configureIngress (l : Log W) (key : Text) (deployment : Bytes32) (policy : PolicySnapshot)
    (initialAdmission : AdmissionPolicy) : Except StorageError (Log W) := do
  let pinned := if l.ingressScopes.contains key then l.ingressScopes
    else l.ingressScopes.insert key (.of deployment policy)
  let stored ← okOr (pinned.get? key) .registryMissing
  refuseIf (stored.admits deployment policy = false) (.security .signingScopeMismatch)
  .ok {l with
    ingressScopes := pinned
    database.admissionPolicies := if l.database.admissionPolicies.contains key then
        l.database.admissionPolicies
      else l.database.admissionPolicies.insert key initialAdmission}

/-- Refuses older versions, conflicting definitions and overtaking pending commands. -/
def configureAdmissionPolicy (l : Log W) (key : Text) (policy : AdmissionPolicy) :
    Except StorageError (Log W) :=
  if l.database.admissionPolicies.get? key = some policy then .ok l
  else do
    refuseIf ((l.database.admissionPolicies.get? key).any (fun old => policy.version ≤ old.version) = true)
      .versionConflict
    l.requireRelationshipDrained (H := H) key
    .ok {l with database.admissionPolicies := l.database.admissionPolicies.insert key policy}

end Log

/-! ### The machine -/

inductive Gate
  | everything
  | relationship (key : Text)
  | personas (ids : List ProtocolIdentity)

def Gate.pass (l : Log W) : Gate → Except StorageError Unit
  | everything => l.requireDrained
  | relationship key => l.requireRelationshipDrained (H := H) key
  | personas ids => l.requirePersonasDrained (H := H) ids

inductive Call (W : Type)
  | receive (submission : Submission W)
  | processNext
  | sign (aggregate : Text) (position : BigInt) (signer : ProviderSigner)
  | store (index : ℕ)
  | retire (aggregate : Text) (position : BigInt)
  | resume (position : BigInt) (digest : Bytes32) (audit : W → Except StorageError W)
  | configureIngress (key : Text) (deployment : Bytes32) (policy : PolicySnapshot)
      (initialAdmission : AdmissionPolicy)
  | configureAdmissionPolicy (key : Text) (policy : AdmissionPolicy)
  /-- A change of the rest of the database, through a gate or past it. -/
  | gated (gate : Gate) (change : W → Except StorageError W)
  | elsewhere (change : W → Except StorageError W)
  /-- Another use of the journal sequence, or an insertion that failed. -/
  | draw

/-- One transaction. It commits, or leaves everything as it was. -/
def call (l : Log W) : Call W → Except StorageError (Log W)
  | .receive submission => (l.receive H submission).map Prod.fst
  | .processNext => .ok (l.processNext H).1
  | .sign aggregate position signer => l.sign aggregate position signer
  | .store index => l.store (H := H) index
  | .retire aggregate position => (l.retire (H := H) aggregate position).map Prod.fst
  | .resume position digest audit => (l.resume position digest audit).map Prod.fst
  | .configureIngress key deployment policy initialAdmission =>
    l.configureIngress key deployment policy initialAdmission
  | .configureAdmissionPolicy key policy => l.configureAdmissionPolicy (H := H) key policy
  | .gated gate change => do
    gate.pass H l
    let world ← change l.world
    .ok (l.withWorld world)
  | .elsewhere change => do
    let world ← change l.world
    .ok (l.withWorld world)
  | .draw => .ok {l with nextPosition := l.nextPosition + 1}

/-- An inbox that nothing has been received by. -/
def Log.start (world : W) : Log W := ⟨∅, 1, ∅, ∅, [], ⟨∅, world⟩⟩

end CsMail.Ingress
