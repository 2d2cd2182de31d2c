import CsMail.Member.Journey

/-! Outgoing work of a member's device.

One operation is in flight at a time: it is journaled together with the draft it carries away, and
ends with the draft's disposition in one step. A call that only asks the server changes nothing
until an answer decides; retrying is answering again. -/
namespace CsMail
open Library

/-- The slots of decisions, conversation edits and setups, which nothing here fills. -/
structure OtherSlots where
  deciding : Bool
  editing : Bool
  settingUp : Bool

/-- What a device keeps of its outgoing work. -/
structure Outgoing where
  profile : Profile
  inFlight : InFlight
  requesting : Option RequestJourney
  others : OtherSlots
  lastSend : Option SendOutcome
  lastRequest : Option RequestResult
  workspace : Workspace
  personal : Personal

/-- The readings of the clock while a step is committed. -/
structure Times where
  workspace : CanonicalTime
  personal : CanonicalTime

section
variable [Crypto] [ExternalJson] [MemberJson]

/-! ### Committing and finishing -/

namespace Outgoing

def enrolled (profile : Profile) : Outgoing where
  profile
  inFlight := .none
  requesting := none
  others := ⟨false, false, false⟩
  lastSend := none
  lastRequest := none
  workspace := .empty profile.account profile.persona
  personal := .empty profile.account profile.persona

def requireIdle (s : Outgoing) : Except MemberError Unit := do
  refuseIf (s.inFlight.external.isSome = true) .externalPending
  refuseIf (s.requesting.isSome = true) .requestPending
  refuseIf (s.others.deciding = true ∨ s.others.editing = true) .decisionPending
  refuseIf (s.inFlight.sending.isSome = true) .sendPending
  refuseIf (s.others.settingUp = true) .setupPending

/-- The workspace once the draft that is sent has been handed over. -/
def handOver (s : Outgoing) (now : CanonicalTime) : Option DraftRef → Except MemberError Workspace
  | none => .ok s.workspace
  | some (id, expected) => do
    let decision ← s.workspace.transition now (.submit id expected)
    .ok decision.next

/-- `commit_draft`: the draft and the operation that takes it over are committed in one step. -/
def commitDraft (s : Outgoing) (draft : Option DraftRef) (times : Times) : Except MemberError Outgoing := do
  s.workspace.load s.profile.account s.profile.persona
  let workspace ← s.handOver times.workspace draft
  s.personal.load s.profile
  let personal ← s.personal.prepare s.inFlight draft times.personal
  .ok {s with workspace, personal}

/-- `finish_draft`: the end of an operation and the draft's disposition are committed in one step. -/
def finishDraft (s : Outgoing) (resolution : DraftResolution) (evidence : Option WorkEvidence) (times : Times) :
    Except MemberError Outgoing := do
  s.workspace.load s.profile.account s.profile.persona
  let decision ← s.workspace.transition times.workspace (.resolve resolution)
  s.personal.load s.profile
  .ok {s with
    workspace := decision.next
    personal := s.personal.resolve s.inFlight (resolution = .restoreEditable) evidence times.personal}

/-- A local edit, which waits for no operation. -/
def edit (s : Outgoing) (command : WorkspaceCommand) (now : CanonicalTime) : Except MemberError Outgoing := do
  s.workspace.load s.profile.account s.profile.persona
  let decision ← s.workspace.transition now command
  .ok {s with workspace := decision.next}

end Outgoing

/-! ### Native messages -/

/-- A native message, sealed for its recipient. A new conversation is created first, unless the
receiving address is given explicitly. -/
structure NativeWriting where
  other : ProtocolIdentity
  address : AliasId
  explicit : Bool
  created : Option (ConversationId × SubjectCommitment)
  package : NativePackage
  createOperation : IdempotencyKey
  createSignature : Bytes
  sendOperation : IdempotencyKey
  sendSignature : Bytes

namespace Profile

def signed (p : Profile) (command : NativeCommand) (operation : IdempotencyKey) (signature : Bytes) :
    Except MemberError SignedRequest := do
  let request : SignedRequest :=
    ⟨⟨p.deployment.product, p.account, p.persona, p.senderKey, operation, command⟩, signature⟩
  let _ ← request.bytes.mapError fun _ => .invalidData
  .ok request

def signedCreate (p : Profile) (w : NativeWriting) : Except MemberError (Option SignedRequest) :=
  match w.created with
  | none => .ok none
  | some (id, subject) => do
    let create ← p.signed (.create subject id w.other) w.createOperation w.createSignature
    .ok (some create)

def prepareSend (p : Profile) (w : NativeWriting) : Except MemberError PendingSend :=
  if w.explicit then do
    let send ← p.signed (.sendToAlias w.address w.package) w.sendOperation w.sendSignature
    .ok ⟨w.other, none, send⟩
  else do
    let create ← p.signedCreate w
    let send ← p.signed (.send w.address w.package) w.sendOperation w.sendSignature
    .ok ⟨w.other, create, send⟩

end Profile

/-- A refusal that names this very command. -/
def SignedRequest.refusal (r : SignedRequest) (operation : IdempotencyKey) (digest : Bytes32)
    (reason : CorrespondenceError) : Except MemberError SendOutcome := do
  let expected ← r.digest.mapError fun _ => .invalidData
  refuseIf (operation ≠ r.operation ∨ digest ≠ expected) .invalidData
  .ok (.refused operation reason)

namespace PendingSend

/-- The answer to the creation of the conversation: it is there, or it was refused. -/
def confirmCreate (create : SignedRequest) (answer : NativeResponse) : Except MemberError (Option SendOutcome) :=
  match create.command, answer with
  | .create _ id _, .conversation found _ => do
    refuseIf (found ≠ id) .invalidData
    .ok none
  | .create .., .refused operation digest reason => do
    let refused ← create.refusal operation digest reason
    .ok (some refused)
  | _, _ => .error .invalidData

def createOutcome (p : PendingSend) (answer : Except MemberError NativeResponse) :
    Except MemberError (Option SendOutcome) :=
  match p.create with
  | none => .ok none
  | some create => do
    let answer ← answer
    confirmCreate create answer

def confirmSend (p : PendingSend) (package : NativePackage) (answer : NativeResponse) : Except MemberError SendOutcome :=
  match answer with
  | .committed id => do
    refuseIf (id ≠ package.manifest.message) .invalidData
    .ok (.committed id)
  | .refused operation digest reason => p.send.refusal operation digest reason
  | _ => .error .invalidData

def sendOutcome (p : PendingSend) (answer : Except MemberError NativeResponse) : Except MemberError SendOutcome := do
  let package ← okOr p.send.command.package .invalidData
  let answer ← answer
  p.confirmSend package answer

/-- How a send ended, if the answers decide it. -/
def transmit (p : PendingSend) (create send : Except MemberError NativeResponse) : Except MemberError SendOutcome := do
  let refused ← p.createOutcome create
  match refused with
  | some outcome => .ok outcome
  | none => p.sendOutcome send

end PendingSend

def SendOutcome.resolution : SendOutcome → DraftResolution
  | committed _ => .removeSubmitted
  | refused .. => .restoreEditable

namespace Outgoing

/-- `send_message_with_draft`, up to the first transmission. -/
def sendMessage (s : Outgoing) (draft : Option DraftRef) (w : NativeWriting) (times : Times) :
    Except MemberError Outgoing := do
  refuseIf (s.requesting.isSome = true) .requestPending
  refuseIf (s.others.editing = true) .decisionPending
  refuseIf (s.inFlight.sending.isSome = true) .sendPending
  refuseIf (s.others.deciding = true) .decisionPending
  refuseIf (s.others.settingUp = true) .setupPending
  s.requireIdle
  let pending ← s.profile.prepareSend w
  {s with inFlight := {s.inFlight with sending := some pending}, lastSend := none}.commitDraft draft times

def transmitSend (s : Outgoing) (create send : Except MemberError NativeResponse) (times : Times) :
    Except MemberError Outgoing := do
  let pending ← okOr s.inFlight.sending .invalidData
  let outcome ← pending.transmit create send
  {s with inFlight := {s.inFlight with sending := none}, lastSend := some outcome}.finishDraft
    outcome.resolution (some (.native outcome)) times

end Outgoing

/-! ### External messages and controls -/

inductive ExternalAction
  | reject
  | withdrawDisclosure
  | grantDisclosure

def ExternalAction.command : ExternalAction → ExternalCommand
  | reject => .reject
  | withdrawDisclosure => .withdrawDisclosure
  | grantDisclosure => .grantDisclosure

/-- An external message, sealed for the member and the relay. The first one starts its conversation. -/
structure ExternalWriting where
  conversation : ConversationId
  start : Option (AliasId × GuestMailbox)
  message : PreparedMessage
  disclose : Bool

def ExternalWriting.command (w : ExternalWriting) : ExternalCommand :=
  match w.start with
  | some (address, mailbox) => .start address mailbox w.message w.disclose
  | none => .send w.message w.disclose

/-- The `Response` to an external command. -/
inductive ExternalResponse
  | outcome (ack : Acknowledgement)
  | conversation

def Profile.externalSigned (p : Profile) (conversation : ConversationId) (command : ExternalCommand)
    (operation : IdempotencyKey) (signature : Bytes) : Except MemberError SignedExternalCommand := do
  let signed : SignedExternalCommand :=
    ⟨⟨p.deployment.scope, p.deployment.product, p.account, p.persona, p.senderKey, operation, conversation, command⟩,
      signature⟩
  let _ ← signed.bytes.mapError fun _ => .invalidData
  .ok signed

def ExternalOutcome.isRefused : ExternalOutcome → Bool
  | refused _ => true
  | _ => false

/-- The outcome is one this command may have. -/
def ExternalCommand.matches (c : ExternalCommand) (outcome : ExternalOutcome) : Bool :=
  match c, outcome with
  | _, .refused _ => true
  | .start _ _ message _, .queued id | .send message _, .queued id => id = message.manifest.message
  | .reject, .rejected | .withdrawDisclosure, .disclosureWithdrawn | .grantDisclosure, .disclosureGranted => true
  | _, _ => false

/-- How an external command ended, if the answer is an acknowledgement of it. -/
def SignedExternalCommand.transmit (p : SignedExternalCommand) (provider : Bytes32)
    (answer : Except MemberError ExternalResponse) : Except MemberError Acknowledgement := do
  let response ← answer
  match response with
  | .conversation => .error .invalidData
  | .outcome ack => do
    (ack.verify p provider).mapError fun _ => .invalidData
    refuseIf (p.command.matches ack.receipt.outcome = false) .invalidData
    .ok ack

def Acknowledgement.resolution (ack : Acknowledgement) : DraftResolution :=
  if ack.receipt.outcome.isRefused then .restoreEditable else .removeSubmitted

namespace Outgoing

/-- `send_external_with_draft`, up to the first transmission. -/
def sendExternal (s : Outgoing) (draft : Option DraftRef) (w : ExternalWriting) (operation : IdempotencyKey)
    (signature : Bytes) (times : Times) : Except MemberError Outgoing := do
  s.requireIdle
  refuseIf (w.start.isSome = true ∧ w.disclose = false) .invalidData
  let signed ← s.profile.externalSigned w.conversation w.command operation signature
  {s with inFlight := {s.inFlight with external := some signed}}.commitDraft draft times

/-- `control_external`, up to the first transmission. -/
def controlExternal (s : Outgoing) (conversation : ConversationId) (action : ExternalAction)
    (operation : IdempotencyKey) (signature : Bytes) : Except MemberError Outgoing := do
  s.requireIdle
  let signed ← s.profile.externalSigned conversation action.command operation signature
  .ok {s with inFlight := {s.inFlight with external := some signed}}

def transmitExternal (s : Outgoing) (answer : Except MemberError ExternalResponse) (times : Times) :
    Except MemberError Outgoing :=
  match s.inFlight.external with
  | none => .ok s
  | some pending => do
    let ack ← pending.transmit s.profile.deployment.providerKey answer
    {s with inFlight := {s.inFlight with external := none}}.finishDraft ack.resolution (some (.external ack)) times

end Outgoing
end
end CsMail
