import CsMail.External.Command

/-! Signed native correspondence commands.

A command names the persona it acts for and the operational key that signed it; its digest is
what receipts keep of it. -/
namespace CsMail
open Library

/-- A recovery envelope of one retained owner. -/
structure RecoveryCopy where
  sender : EndpointPublicKey
  ciphertext : SealedRecord
  deriving DecidableEq

/-- The `PreparedMessage` of native correspondence. -/
structure NativePackage where
  manifest : MessageManifest
  senderCopy : SealedRecord
  recipientCopy : SealedRecord
  senderRecovery : RecoveryCopy
  recipientRecovery : RecoveryCopy
  deriving DecidableEq

/-- The commands that change something; queries, which do not, are left out. -/
inductive NativeCommand
  | create (subject : SubjectCommitment) (id : ConversationId) (other : ProtocolIdentity)
  | changePolicy (id : ConversationId) (revision : U64) (action : PolicyAction)
  | send (address : AliasId) (package : NativePackage)
  | sendToAlias (address : AliasId) (package : NativePackage)
  | deleteCopies (id : ConversationId)
  deriving DecidableEq

def NativeCommand.package : NativeCommand → Option NativePackage
  | send _ package | sendToAlias _ package => some package
  | create .. | changePolicy .. | deleteCopies _ => none

/-- What a command is recorded as. -/
inductive AuditAction
  | created (id : ConversationId)
  | policyChanged (conversation : ConversationId) (expectedRevision : U64) (action : PolicyAction)
  | delivered (message : MessageId)
  | copiesDeleted (id : ConversationId)
  deriving DecidableEq

def NativeCommand.auditAction : NativeCommand → AuditAction
  | create _ id _ => .created id
  | changePolicy id revision action => .policyChanged id revision action
  | send _ package | sendToAlias _ package => .delivered package.manifest.message
  | deleteCopies id => .copiesDeleted id

/-- The part of a command its signature covers. -/
structure NativeRequest where
  product : Text
  account : AccountId
  persona : ProtocolIdentity
  key : OperationalKeyRef
  operation : IdempotencyKey
  command : NativeCommand
  deriving DecidableEq

structure SignedRequest extends NativeRequest where
  signature : Bytes
  deriving DecidableEq

/-- The bytes serde_json writes requests and receipts as, if it does. -/
class MemberJson where
  request : NativeRequest → Option Bytes
  receipt : ExternalReceipt → Option Bytes

namespace SignedRequest
variable [Crypto] [MemberJson]

def bytes (r : SignedRequest) : Except CorrespondenceError Bytes := do
  refuseIf (r.product = [] ∨ r.account.val = 0 ∨ r.persona.val = 0 ∨ r.operation.val = 0) .invalid
  okOr (MemberJson.request r.toNativeRequest) .invalid

def digest (r : SignedRequest) : Except CorrespondenceError Bytes32 := do
  let bytes ← r.bytes
  .ok (Crypto.sha256 bytes)

def verify (r : SignedRequest) (key : Bytes32) : Except CorrespondenceError Unit := do
  refuseIf (Crypto.validKey key = false) .unauthorized
  let bytes ← r.bytes
  refuseIf (r.signature.length ≠ 64) .unauthorized
  refuseIf (Crypto.verifyStrict key bytes r.signature = false) .unauthorized

/-- `authenticate_request`: the persona's key must be in force now. -/
def authenticate (r : SignedRequest) (authority : AccountState) (now : CanonicalTime) :
    Except CorrespondenceError Unit := do
  let key ← (authority.personaKey r.product r.persona r.key now).mapError fun _ => .unauthorized
  r.verify key

end SignedRequest

end CsMail
