import CsMail.Security.KeyProofs

/-! Whose keys speak for whom, at receipt.

A snapshot composes the registry of a relationship's provider and scheduler with the
registries of the accounts involved, each with its personas. No persona and no key is
held twice, so every lookup has one registry to ask; and the accounts may be added in any
order. -/
namespace CsMail
open Library

structure AccountAuthority where
  personas : SortedMap ProtocolIdentity Unit
  registry : KeyRegistry
  deriving DecidableEq

structure AuthoritySnapshot where
  relationship : KeyRegistry
  accounts : SortedMap AccountId AccountAuthority
  deriving DecidableEq

/-- The persona an actor speaks as, if it is a user's. -/
def ActorRef.persona : ActorRef → Option ProtocolIdentity
  | sender identity | recipient identity => some identity
  | provider _ | scheduler _ => none

namespace AuthoritySnapshot

/-- Relationship authority may contain only provider and scheduler keys. -/
def new (relationship : KeyRegistry) : Except SecurityError AuthoritySnapshot := do
  refuseIf (relationship.records.any (fun r => r.actor.persona.isSome) = true) .actorMismatch
  .ok ⟨relationship, ∅⟩

/-- A record of the account to add: its persona is the account's, its key nobody else's. -/
def checkRecord (s : AuthoritySnapshot) (personas : SortedMap ProtocolIdentity Unit)
    (r : OperationalKeyRecord) : Except SecurityError Unit := do
  refuseIf (r.actor.persona.any personas.contains = false) .actorMismatch
  refuseIf (s.relationship.containsKey r.reference = true ∨
    s.accounts.values.any (fun a => a.registry.containsKey r.reference) = true) .duplicateKey

def addAccount (s : AuthoritySnapshot) (id : AccountId) (personas : SortedMap ProtocolIdentity Unit)
    (registry : KeyRegistry) : Except SecurityError AuthoritySnapshot := do
  refuseIf (id.val = 0 ∨ personas.keys = [] ∨ s.accounts.contains id = true ∨
    s.accounts.values.any (fun a => a.personas.keys.any personas.contains) = true) .actorMismatch
  registry.records.forM (s.checkRecord personas)
  .ok {s with accounts := s.accounts.insert id ⟨personas, registry⟩}

/-- `TryFrom<SnapshotData>`: the accounts are added one by one. -/
def ofData (relationship : KeyRegistry) (accounts : SortedMap AccountId AccountAuthority) :
    Except SecurityError AuthoritySnapshot := do
  let snapshot ← new relationship
  accounts.entries.foldlM (fun s (id, a) => s.addAccount id a.personas a.registry) snapshot

/-- `registry`: the one registry that answers for an actor. -/
def registry (s : AuthoritySnapshot) : ActorRef → Except SecurityError KeyRegistry
  | .sender id | .recipient id =>
    okOr ((s.accounts.values.find? fun a => a.personas.contains id).map (·.registry)) .unknownKey
  | .provider _ | .scheduler _ => .ok s.relationship

def activeVerifyingKey (s : AuthoritySnapshot) (reference : OperationalKeyRef) (actor : ActorRef)
    (time : CanonicalTime) : Except SecurityError Bytes32 := do
  let registry ← s.registry actor
  registry.activeVerifyingKey reference actor time

/-- The registry that holds a key: an account's, or else the relationship's. -/
def holder (s : AuthoritySnapshot) (reference : OperationalKeyRef) : KeyRegistry :=
  match s.accounts.values.find? fun a => a.registry.containsKey reference with
  | some account => account.registry
  | none => s.relationship

def activeActor (s : AuthoritySnapshot) (reference : OperationalKeyRef) (time : CanonicalTime) :
    Except SecurityError (ActorRef × Bytes32) := do
  let (actor, _) ← (s.holder reference).activeActor reference time
  let verifyingKey ← s.activeVerifyingKey reference actor time
  .ok (actor, verifyingKey)

def verify [Crypto] [Cbor] [Json] (s : AuthoritySnapshot) (signed : SignedCommandBytes)
    (time : CanonicalTime) (version : ProtocolVersion) (scope : SigningScope) :
    Except SecurityError VerifiedCommand := do
  let envelope ← (decodeCommandEnvelope signed.payload).mapError .wire
  let registry ← s.registry envelope.actor
  registry.verify signed time version scope

end AuthoritySnapshot

end CsMail
