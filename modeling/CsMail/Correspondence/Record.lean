import CsMail.External.Message

/-! The durable record of a native message: its headers, which survive the deletion of its
copies, and the inbox assignment it was delivered by. -/
namespace CsMail
open Library

structure MessageRecordFields where
  receiving : DeliveredRoute
  senderKey : EndpointPublicKey
  manifest : MessageManifest
  author : ProtocolIdentity
  admission : AdmissionBasis
  committedAt : CanonicalTime
  deriving DecidableEq

/-- The message was admitted on what its receiving assignment rests on. -/
def MessageRecordFields.basisMatches (f : MessageRecordFields) : Bool :=
  match f.receiving.provenance, f.admission with
  | .native admission, _ => admission = f.admission
  | .request request, .initialRequest id | .request request, .requestFollowup id _ => id = request
  | .developmentAssignment _, _ => true
  | .aliasPermission (.standing version), .acceptedRelationship v => v = version
  | .aliasPermission (.senderLane id version), .expressLane lane v
  | .aliasPermission (.pairedSender id version _), .expressLane lane v => lane = id ∧ v = version
  | .aliasPermission (.aliasLane revision), .aliasLane address r =>
    address = f.receiving.receivingAlias ∧ r = revision.val
  | _, _ => false

def MessageRecordFields.bound (f : MessageRecordFields) : Bool :=
  f.basisMatches = true ∧ f.receiving.transport = .native ∧ f.receiving.message = f.manifest.message ∧
    f.receiving.conversation = f.manifest.conversation ∧ f.receiving.sender = f.author ∧
    f.receiving.time = f.committedAt

/-- A durable native message always carries its receiving assignment. -/
structure MessageRecord where
  fields : MessageRecordFields
  bound : fields.bound = true

instance : DecidableEq MessageRecord := fun a b =>
  decidable_of_iff (a.fields = b.fields) (by
    cases a
    cases b
    simp)

namespace MessageRecord

/-- Rejects a receiving assignment for another message, sender, transport or time. -/
def new (fields : MessageRecordFields) : Except CorrespondenceError MessageRecord :=
  if h : fields.bound = true then .ok ⟨fields, h⟩ else .error .invalid

def manifest (r : MessageRecord) : MessageManifest := r.fields.manifest

end MessageRecord

end CsMail
