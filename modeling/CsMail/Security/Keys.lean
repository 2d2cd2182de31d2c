import CsMail.Library.HashChain
import CsMail.Library.InPlace
import CsMail.Wire.Command

/-! Operational keys: their registry, and the log of what happened to them.

A registry holds every key ever registered for an actor, with what it is still good for,
and a hash-linked log of each registration, retirement and revocation. Authority at a
receipt time and current authority are two questions: a revoked key still answers for
what was received before, and for nothing now. -/
namespace CsMail
open Library

inductive SecurityError
  | wire (error : WireError)
  | unknownKey
  | duplicateKey
  | actorMismatch
  | keyNotYetValid
  | keyNotValidAtReceipt
  | invalidPublicKey
  | invalidSignature
  | wireVersionMismatch
  | protocolVersionMismatch
  | signingScopeMismatch
  | versionConflict
  | invalidRecoveryPolicy
  | unknownRecoveryFactor
  | recoveryAlreadyConsumed
  deriving DecidableEq

inductive KeyStatus
  | active
  | retired (validUntil : CanonicalTime)
  | revoked (revokedAt : CanonicalTime)
  /-- Revocation does not erase the earlier retirement boundary. -/
  | retiredRevoked (validUntil revokedAt : CanonicalTime)
  deriving DecidableEq

namespace KeyStatus

def validAtReceipt (time : CanonicalTime) : KeyStatus → Bool
  | active => true
  | retired validUntil => time ≤ validUntil
  | revoked revokedAt => time < revokedAt
  | retiredRevoked validUntil revokedAt => time ≤ validUntil && time < revokedAt

def isRevoked : KeyStatus → Bool
  | revoked _ | retiredRevoked .. => true
  | active | retired _ => false

end KeyStatus

structure OperationalKeyRecord where
  reference : OperationalKeyRef
  actor : ActorRef
  verifyingKey : Bytes32
  validFrom : CanonicalTime
  status : KeyStatus
  version : Version
  deriving DecidableEq

/-! ### The transparency log -/

inductive TransparencyAction
  | registered
  | retired
  | revoked
  deriving DecidableEq

def TransparencyAction.tag : TransparencyAction → UInt8
  | registered => 0
  | retired => 1
  | revoked => 2

structure TransparencyEntry where
  sequence : U64
  key : OperationalKeyRef
  actor : ActorRef
  verifyingKey : Bytes32
  action : TransparencyAction
  time : CanonicalTime
  previousHash : Bytes32
  hash : Bytes32
  deriving DecidableEq

/-- `hash_actor`. -/
def actorBytes : ActorRef → Bytes
  | .sender identity => 0 :: identity.toBeBytes
  | .recipient identity => 1 :: identity.toBeBytes
  | .provider provider => 2 :: provider.toBeBytes
  | .scheduler provider => 3 :: provider.toBeBytes

/-- What an entry's hash is taken of. -/
def entryBytes (sequence : U64) (key : OperationalKeyRef) (actor : ActorRef) (verifyingKey : Bytes32)
    (action : TransparencyAction) (time : CanonicalTime) (previousHash : Bytes32) : Bytes :=
  byteString "cs-mail/key-transparency/v1" ++ beBytes 8 sequence.val ++ key.toBeBytes ++
    actorBytes actor ++ verifyingKey.toList ++ [action.tag] ++ beBytes 8 time.millis ++
    previousHash.toList

/-- The sequence number of the entry at an index: saturating at the largest `u64`. -/
def sequenceAt (index : Nat) : U64 := ⟨min (index + 1) u64Max, by unfold u64Max; omega⟩

structure KeyTransparencyLog where
  entries : List TransparencyEntry
  deriving DecidableEq

namespace KeyTransparencyLog

def checkpoint (l : KeyTransparencyLog) : Option (U64 × Bytes32) :=
  l.entries.getLast?.map fun e => (e.sequence, e.hash)

variable [Crypto]

/-- The entry an append adds. -/
def entry (l : KeyTransparencyLog) (record : OperationalKeyRecord) (action : TransparencyAction)
    (time : CanonicalTime) : TransparencyEntry :=
  let previousHash := (l.entries.getLast?.map (·.hash)).getD zero32
  let sequence := sequenceAt l.entries.length
  {
    sequence
    key := record.reference
    actor := record.actor
    verifyingKey := record.verifyingKey
    action, time, previousHash
    hash := Crypto.sha256 (entryBytes sequence record.reference record.actor record.verifyingKey
      action time previousHash)}

def append (l : KeyTransparencyLog) (record : OperationalKeyRecord) (action : TransparencyAction)
    (time : CanonicalTime) : KeyTransparencyLog := ⟨l.entries ++ [l.entry record action time]⟩

/-- The loop of `verify`, at an index and with the hash before it. -/
def verifyFrom : Nat → Bytes32 → List TransparencyEntry → Bool
  | _, _, [] => true
  | index, previous, e :: rest =>
    if e.sequence ≠ sequenceAt index ∨ e.previousHash ≠ previous then false
    else if Crypto.sha256 (entryBytes e.sequence e.key e.actor e.verifyingKey e.action e.time previous) ≠
        e.hash then false
    else verifyFrom (index + 1) e.hash rest

def verify (l : KeyTransparencyLog) : Bool := verifyFrom 0 zero32 l.entries

end KeyTransparencyLog

/-! ### The registry -/

structure KeyRegistry where
  keys : SortedMap OperationalKeyRef OperationalKeyRecord
  version : Version
  transparency : KeyTransparencyLog

instance : DecidableEq KeyRegistry := fun a b =>
  decidable_of_iff (a.keys = b.keys ∧ a.version = b.version ∧ a.transparency = b.transparency)
    (by cases a; cases b; simp)

def nextVersion (version : Version) : Except SecurityError Version :=
  okOr version.checkedNext .versionConflict

namespace KeyRegistry

/-- `KeyRegistry::default`. -/
def empty : KeyRegistry := ⟨∅, .initial, ⟨[]⟩⟩

def containsKey (r : KeyRegistry) (reference : OperationalKeyRef) : Bool := r.keys.contains reference

def records (r : KeyRegistry) : List OperationalKeyRecord := r.keys.values

/-- An actor-scoped key, only when it is valid now. -/
def activeVerifyingKey (r : KeyRegistry) (reference : OperationalKeyRef) (expectedActor : ActorRef)
    (time : CanonicalTime) : Except SecurityError Bytes32 := do
  let key ← okOr (r.keys.get? reference) .unknownKey
  refuseIf (key.actor ≠ expectedActor) .actorMismatch
  refuseIf (time < key.validFrom) .keyNotYetValid
  -- A revoked key has no current authority, whatever time the caller supplies.
  refuseIf (key.status.isRevoked = true ∨ key.status.validAtReceipt time = false) .keyNotValidAtReceipt
  .ok key.verifyingKey

/-- Resolves current key ownership. -/
def activeActor (r : KeyRegistry) (reference : OperationalKeyRef) (time : CanonicalTime) :
    Except SecurityError (ActorRef × Bytes32) := do
  let key ← okOr (r.keys.get? reference) .unknownKey
  let verifyingKey ← r.activeVerifyingKey reference key.actor time
  .ok (key.actor, verifyingKey)

abbrev Method := InPlace KeyRegistry SecurityError

section
variable [Crypto]

def register (reference : OperationalKeyRef) (actor : ActorRef) (verifyingKey : Bytes32)
    (validFrom : CanonicalTime) : Method Unit := do
  let r ← get
  let _ ← refuseIf (r.keys.contains reference = true) SecurityError.duplicateKey
  let _ ← refuseIf (Crypto.validKey verifyingKey = false) SecurityError.invalidPublicKey
  let version ← nextVersion r.version
  modify fun r => {r with version}
  let record : OperationalKeyRecord :=
    {reference, actor, verifyingKey, validFrom, status := .active, version := .initial}
  modify fun r => {r with keys := r.keys.insert reference record}
  modify fun r => {r with transparency := r.transparency.append record .registered validFrom}

/-- Retires one key and registers its replacement. -/
def rotate (oldReference : OperationalKeyRef) (expectedOldVersion : Version)
    (newReference : OperationalKeyRef) (newVerifyingKey : Bytes32) (time : CanonicalTime) :
    Method Unit := do
  let r ← get
  let _ ← refuseIf (r.keys.contains newReference = true) SecurityError.duplicateKey
  let _ ← refuseIf (Crypto.validKey newVerifyingKey = false) SecurityError.invalidPublicKey
  let old ← okOr (r.keys.get? oldReference) SecurityError.unknownKey
  let _ ← refuseIf (old.version ≠ expectedOldVersion) SecurityError.versionConflict
  let _ ← refuseIf (old.status ≠ .active) SecurityError.keyNotValidAtReceipt
  let _ ← refuseIf (time < old.validFrom) SecurityError.keyNotYetValid
  let oldVersion ← nextVersion old.version
  let registryVersion ← nextVersion r.version
  let retired := {old with status := .retired time, version := oldVersion}
  modify fun r => {r with keys := r.keys.insert oldReference retired}
  modify fun r => {r with version := registryVersion}
  let replacement : OperationalKeyRecord := {
    reference := newReference
    actor := old.actor
    verifyingKey := newVerifyingKey
    validFrom := time
    status := .active
    version := .initial}
  modify fun r => {r with keys := r.keys.insert newReference replacement}
  modify fun r => {r with transparency := r.transparency.append retired .retired time}
  modify fun r => {r with transparency := r.transparency.append replacement .registered time}

/-- The status a revocation leaves; a key revoked before keeps its own (`none`). -/
def revokedStatus (status : KeyStatus) (time : CanonicalTime) :
    Except SecurityError (Option KeyStatus) :=
  match status with
  | .active => .ok (some (.revoked time))
  | .retired validUntil => do
    refuseIf (time < validUntil) .keyNotYetValid
    .ok (some (.retiredRevoked validUntil time))
  | .revoked revokedAt | .retiredRevoked _ revokedAt =>
    if revokedAt ≤ time then .ok none else .error .keyNotYetValid

def revoke (reference : OperationalKeyRef) (expectedVersion : Version) (time : CanonicalTime) :
    Method Unit := do
  let r ← get
  let key ← okOr (r.keys.get? reference) SecurityError.unknownKey
  let _ ← refuseIf (key.version ≠ expectedVersion) SecurityError.versionConflict
  let _ ← refuseIf (time < key.validFrom) SecurityError.keyNotYetValid
  match ← revokedStatus key.status time with
  | none => pure ()
  | some status =>
    let keyVersion ← nextVersion key.version
    let registryVersion ← nextVersion r.version
    let revoked := {key with status, version := keyVersion}
    modify fun r => {r with keys := r.keys.insert reference revoked}
    modify fun r => {r with version := registryVersion}
    modify fun r => {r with transparency := r.transparency.append revoked .revoked time}

end

end KeyRegistry

/-! ### Signed commands -/

structure SigningScope where
  deploymentDomain : Bytes32
  intendedProvider : ProviderRef
  relationship : RelationshipRef
  deriving DecidableEq

/-- A `[u8; 64]`. -/
abbrev Signature := Vector UInt8 64

structure SignedCommandBytes where
  payload : Bytes
  signature : Signature
  deriving DecidableEq

/-- Authentication evidence: only a verification makes one. -/
structure VerifiedCommand where
  authorized : KernelCommand ProtocolCommand
  target : RelationshipRef
  digest : Bytes32
  canonicalBytes : Bytes
  deriving DecidableEq

/-- Verifies canonical encoding, key scope, key lifetime and signature at receipt. -/
def KeyRegistry.verify [Crypto] [Cbor] [Json] (r : KeyRegistry) (signed : SignedCommandBytes)
    (receiptTime : CanonicalTime) (expectedProtocolVersion : ProtocolVersion)
    (expectedScope : SigningScope) : Except SecurityError VerifiedCommand := do
  let envelope ← (decodeCommandEnvelope signed.payload).mapError .wire
  refuseIf (envelope.wireVersion ≠ ⟨7⟩) .wireVersionMismatch
  refuseIf (envelope.protocolVersion ≠ expectedProtocolVersion) .protocolVersionMismatch
  refuseIf (envelope.deploymentDomain ≠ expectedScope.deploymentDomain ∨
    envelope.intendedProvider ≠ expectedScope.intendedProvider ∨
    envelope.target ≠ .relationship expectedScope.relationship) .signingScopeMismatch
  let key ← okOr (r.keys.get? envelope.operationalKey) .unknownKey
  refuseIf (key.actor ≠ envelope.actor) .actorMismatch
  refuseIf (receiptTime < key.validFrom) .keyNotYetValid
  refuseIf (key.status.validAtReceipt receiptTime = false) .keyNotValidAtReceipt
  refuseIf (Crypto.validKey key.verifyingKey = false) .invalidPublicKey
  refuseIf (Crypto.verifyStrict key.verifyingKey signed.payload signed.signature.toList = false)
    .invalidSignature
  .ok {
    authorized := ⟨envelope.command, envelope.actor, envelope.operationalKey, envelope.idempotencyKey⟩
    target := expectedScope.relationship
    digest := Crypto.sha256 signed.payload
    canonicalBytes := signed.payload}

end CsMail
