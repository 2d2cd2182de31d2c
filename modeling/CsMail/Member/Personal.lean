import CsMail.Correspondence.Command
import CsMail.Member.Drafts

/-! The journal of outgoing work.

Every native or external message is recorded before it is transmitted, with the exact command that
carries it. The record awaits confirmation while the command is in flight, and is resolved once,
with the evidence that ended it. Loading verifies every record against its evidence. -/
namespace CsMail
open Library

/-- The `Response` to a native command, as far as the device tells them apart. -/
inductive NativeResponse
  | refused (operation : IdempotencyKey) (digest : Bytes32) (reason : CorrespondenceError)
  | conversation (id : ConversationId) (scope : CorrespondenceRef)
  | committed (message : MessageId)
  | copiesDeleted
  | other

/-- Provider-authenticated commitment to the durable result of one exact external command. -/
structure Acknowledgement where
  receipt : ExternalReceipt
  signature : Bytes

section
variable [Crypto] [ExternalJson] [MemberJson]

namespace Acknowledgement

def bytes (a : Acknowledgement) : Except CorrespondenceError Bytes := do
  let receipt ← okOr (MemberJson.receipt a.receipt) .invalid
  .ok (byteString "cs-mail/external-acknowledgement/v1" ++ receipt)

def verify (a : Acknowledgement) (request : SignedExternalCommand) (provider : Bytes32) :
    Except CorrespondenceError Unit := do
  let digest ← request.digest
  refuseIf (a.receipt.digest ≠ digest ∨ a.receipt.key ≠ request.key ∨
    a.receipt.signature ≠ request.signature) .invalid
  refuseIf (Crypto.validKey provider = false) .invalid
  let bytes ← a.bytes
  refuseIf (a.signature.length ≠ 64) .invalid
  refuseIf (Crypto.verifyStrict provider bytes a.signature = false) .invalid

end Acknowledgement

/-! ### Work records -/

inductive MailKey
  | native (conversation : ConversationId)
  | external (conversation : ConversationId)
  deriving DecidableEq

/-- One exact send, journaled before transmission and resent unchanged until answered. -/
structure PendingSend where
  other : ProtocolIdentity
  create : Option SignedRequest
  send : SignedRequest

/-- Historical send result. -/
inductive SendOutcome
  | committed (message : MessageId)
  | refused (operation : IdempotencyKey) (reason : CorrespondenceError)

inductive Personal.WorkStatus
  | awaitingConfirmation
  | committed
  | queued
  | refused
  deriving DecidableEq

inductive WorkCommand
  | native (p : PendingSend)
  | external (p : SignedExternalCommand)

inductive WorkEvidence
  | native (outcome : SendOutcome)
  | external (ack : Acknowledgement)

structure WorkRecord where
  operation : IdempotencyKey
  key : MailKey
  message : MessageId
  draft : Option DraftRef
  command : WorkCommand
  evidence : Option WorkEvidence
  preparedAt : CanonicalTime
  resolvedAt : Option CanonicalTime
  status : Personal.WorkStatus

namespace WorkCommand

/-- The operation, the conversation and the message of a command. -/
def identity : WorkCommand → Except MemberError (IdempotencyKey × MailKey × MessageId)
  | native p => do
    let package ← okOr p.send.command.package .invalidData
    .ok (p.send.operation, .native package.manifest.conversation, package.manifest.message)
  | external p => do
    let message ← okOr p.command.message .invalidData
    .ok (p.operation, .external p.conversation, message.manifest.message)

/-- The account and the persona a command is signed for. -/
def signer : WorkCommand → AccountId × ProtocolIdentity
  | native p => (p.send.account, p.send.persona)
  | external p => (p.account, p.persona)

end WorkCommand

structure Deployment where
  scope : RecipientSigningScope
  protocolVersion : ProtocolVersion
  providerKey : Bytes32
  product : Text

structure Profile where
  account : AccountId
  persona : ProtocolIdentity
  senderKey : OperationalKeyRef
  /-- The digest of what the device declares of its messages. -/
  declaration : MessageDeclarationDigest
  deployment : Deployment

namespace WorkRecord

def isAwaiting (r : WorkRecord) : Bool := r.status = .awaitingConfirmation

/-- The outcome of an acknowledgement is the status of its record. -/
def acknowledged (r : WorkRecord) (outcome : ExternalOutcome) : Bool :=
  match outcome, r.status with
  | .queued message, .queued => message = r.message
  | .refused _, .refused => true
  | _, _ => false

/-- The evidence of a record is that of its command, and gives it its status. -/
def checkEvidence (r : WorkRecord) (provider : Bytes32) : Except MemberError Unit :=
  match r.command, r.evidence, r.status with
  | _, none, .awaitingConfirmation => .ok ()
  | .native _, some (.native (.committed message)), .committed => refuseIf (message ≠ r.message) .invalidData
  | .native p, some (.native (.refused operation _)), .refused =>
    refuseIf (¬(operation = p.send.operation ∨ p.create.any (fun c => c.operation = operation) = true)) .invalidData
  | .external p, some (.external ack), _ => do
    (ack.verify p provider).mapError fun _ => .invalidData
    refuseIf (r.acknowledged ack.receipt.outcome = false) .invalidData
  | _, _, _ => .error .invalidData

def validate (r : WorkRecord) (profile : Profile) : Except MemberError Unit := do
  let identity ← r.command.identity
  refuseIf (identity ≠ (r.operation, r.key, r.message) ∨ r.operation.val = 0 ∨ r.message.val = 0 ∨
    r.resolvedAt.isSome ≠ decide (r.status ≠ .awaitingConfirmation) ∨
    r.resolvedAt.any (fun time => time < r.preparedAt) = true) .invalidData
  r.checkEvidence profile.deployment.providerKey
  refuseIf (r.command.signer ≠ (profile.account, profile.persona)) .invalidData

end WorkRecord

/-! ### The journal -/

def maxWork : ℕ := 10_000

/-- The outgoing work of `Personal`; its threads and resources are left out. -/
structure Personal where
  account : AccountId
  persona : ProtocolIdentity
  work : List WorkRecord

/-- The commands in flight: at most one native send and one external command. -/
structure InFlight where
  sending : Option PendingSend
  external : Option SignedExternalCommand

namespace InFlight

def none : InFlight := ⟨.none, .none⟩

/-- The command a new record is about; a command without a message is not recorded. -/
def command (s : InFlight) : Option WorkCommand :=
  match s.sending with
  | some p => some (.native p)
  | .none => (s.external.filter fun p => p.command.message.isSome).map .external

/-- Whether a command of this kind is in flight. -/
def isPending (s : InFlight) : WorkCommand → Bool
  | .native _ => s.sending.isSome
  | .external _ => s.external.isSome

end InFlight

namespace Personal

def empty (account : AccountId) (persona : ProtocolIdentity) : Personal := ⟨account, persona, []⟩

def operations (p : Personal) : List IdempotencyKey := p.work.map WorkRecord.operation

/-- The checks of `load`, once the journal is decrypted and parsed. -/
def load (p : Personal) (profile : Profile) : Except MemberError Unit := do
  refuseIf (p.account ≠ profile.account ∨ p.persona ≠ profile.persona ∨ ¬p.operations.Nodup ∨
    maxWork < p.work.length) .invalidData
  p.work.forM (WorkRecord.validate · profile)

def prepare (p : Personal) (inFlight : InFlight) (draft : Option DraftRef) (now : CanonicalTime) :
    Except MemberError Personal :=
  match inFlight.command with
  | none => .ok p
  | some command => do
    let (operation, key, message) ← command.identity
    refuseIf (operation ∈ p.operations) .invalidData
    refuseIf (maxWork ≤ p.work.length) .invalidData
    .ok {p with work := p.work ++ [
      {operation, key, message, draft, command, evidence := none, preparedAt := now, resolvedAt := none,
        status := .awaitingConfirmation}]}

/-- The status a resolved command has. -/
def resolvedStatus (refused : Bool) : WorkCommand → Personal.WorkStatus
  | .native _ => if refused then .refused else .committed
  | .external _ => if refused then .refused else .queued

/-- The first record that awaits confirmation is resolved, unless a command of its kind is in
flight. -/
def resolve (p : Personal) (inFlight : InFlight) (refused : Bool) (evidence : Option WorkEvidence)
    (now : CanonicalTime) : Personal :=
  {p with work := modifyFirst WorkRecord.isAwaiting (fun r =>
    if inFlight.isPending r.command then r
    else {r with
      status := resolvedStatus refused r.command
      resolvedAt := some (max now r.preparedAt)
      evidence}) p.work}

end Personal
end
end CsMail
