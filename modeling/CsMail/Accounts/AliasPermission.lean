import CsMail.Accounts.Directory
import CsMail.Capabilities.Lane

/-! Receiving permission: who may write to an entrance without a bond.

A permission has its own revision and lifecycle, independent of its address. Every
change ends in the check of the whole record (`PermissionRecord.validate`), so a
permission that exists passes it. -/
namespace CsMail
open Library

inductive AliasError
  | invalid
  | conflict
  | addressTaken
  | retired
  | restricted
  | blocked
  | coverage
  | authentication
  | permission
  deriving DecidableEq

/-- An already admitted conversation on one route; a held or failed message is none. -/
structure AdmittedConversation where
  aliasId : AliasId
  conversation : ConversationId
  sender : ProtocolIdentity
  admittedAt : CanonicalTime
  named : sender.val ≠ 0
  deriving DecidableEq

def AdmittedConversation.new (aliasId : AliasId) (conversation : ConversationId)
    (sender : ProtocolIdentity) (time : CanonicalTime) : Except AliasError AdmittedConversation :=
  if h : sender.val = 0 then .error .invalid else .ok ⟨aliasId, conversation, sender, time, h⟩

/-- The evidence of a lifecycle change, filed under the conversations it names. -/
def conversationMap (existing : List AdmittedConversation) :
    SortedMap ConversationId AdmittedConversation :=
  .ofList (existing.map fun c => (c.conversation, c))

/-- A recipient's grant of its entrance to every sender. -/
structure AliasScopedGrant where
  aliasId : AliasId
  recipient : ProtocolIdentity
  establishedAt : CanonicalTime
  named : recipient.val ≠ 0
  deriving DecidableEq

def AliasScopedGrant.establish (aliasId : AliasId) (recipient : ProtocolIdentity)
    (time : CanonicalTime) : Except CapabilityError AliasScopedGrant :=
  if h : recipient.val = 0 then .error .invalidGrant else .ok ⟨aliasId, recipient, time, h⟩

structure PermissionRevision where
  val : U64
  deriving DecidableEq

def PermissionRevision.checkedNext (r : PermissionRevision) : Option PermissionRevision :=
  (Checked.succ r.val).map mk

inductive PermissionState
  | none
  | broad (grant : AliasScopedGrant)
  | restricted (grant : AliasScopedGrant) (conversations : SortedMap ConversationId AdmittedConversation)
  | senders (lanes : List SenderScopedLane)
  deriving DecidableEq

namespace PermissionState

def grant : PermissionState → Option AliasScopedGrant
  | broad grant | restricted grant _ => some grant
  | none | senders _ => Option.none

/-- The permission speaks for the entrance as a whole. -/
def isAliasWide : PermissionState → Bool
  | broad _ | restricted .. => true
  | none | senders _ => false

end PermissionState

structure PermissionRecord where
  aliasId : AliasId
  owner : ProtocolIdentity
  revision : PermissionRevision
  changedAt : CanonicalTime
  state : PermissionState
  deriving DecidableEq

/-- Two lanes for one subject. -/
def subjectRepeated (lanes : List SenderScopedLane) : Bool :=
  lanes.zipIdx.any fun (l, i) =>
    (lanes.take i).any fun prior => prior.grant.subject = l.grant.subject

namespace PermissionRecord

/-- What each state asks of the record around it. -/
def checkState (r : PermissionRecord) : Except AliasError Unit :=
  match r.state with
  | .restricted _ conversations =>
    refuseIf (conversations.entries.any (fun (id, c) => id ≠ c.conversation ∨
      c.aliasId ≠ r.aliasId ∨ c.sender = r.owner ∨ r.changedAt < c.admittedAt) = true) .invalid
  | .senders lanes =>
    let ids : SortedMap LaneId Unit := .ofList (lanes.map fun l => (l.grant.id, ()))
    refuseIf (lanes = [] ∨ 32 < lanes.length ∨ ids.entries.length ≠ lanes.length ∨
      subjectRepeated lanes = true ∨
      lanes.any (fun l => l.grant.recipient ≠ r.owner ∨ r.changedAt < l.grant.issuedAt) = true) .invalid
  | .none | .broad _ => .ok ()

def validate (r : PermissionRecord) : Except AliasError Unit := do
  refuseIf (r.owner.val = 0 ∨ (r.revision.val = 0 ∧ r.state ≠ .none)) .invalid
  refuseIf (r.state.grant.any (fun g => g.aliasId ≠ r.aliasId ∨ g.recipient ≠ r.owner ∨
    r.changedAt < g.establishedAt) = true) .invalid
  r.checkState

end PermissionRecord

/-- A permission that passes its check; only the check makes one. -/
structure ReceivingPermission where
  record : PermissionRecord
  valid : record.validate = .ok ()

instance : DecidableEq ReceivingPermission := fun a b =>
  decidable_of_iff (a.record = b.record) (by cases a; cases b; simp)

def PermissionRecord.permission (r : PermissionRecord) : Except AliasError ReceivingPermission :=
  match h : r.validate with
  | .ok () => .ok ⟨r, h⟩
  | .error e => .error e

namespace ReceivingPermission

def unpaired (aliasId : AliasId) (owner : ProtocolIdentity) (time : CanonicalTime) :
    Except AliasError ReceivingPermission :=
  PermissionRecord.permission {
    aliasId, owner
    revision := ⟨0⟩
    changedAt := time
    state := .none}

def revision (p : ReceivingPermission) : PermissionRevision := p.record.revision

def changedAt (p : ReceivingPermission) : CanonicalTime := p.record.changedAt

def state (p : ReceivingPermission) : PermissionState := p.record.state

def change (p : ReceivingPermission) (expected : PermissionRevision) (state : PermissionState)
    (time : CanonicalTime) : Except AliasError ReceivingPermission := do
  refuseIf (p.revision ≠ expected) .conflict
  refuseIf (time < p.changedAt) .invalid
  let revision ← okOr expected.checkedNext .invalid
  PermissionRecord.permission {p.record with state, revision, changedAt := time}

/-- `open`: to every sender. -/
def openAll (p : ReceivingPermission) (expected : PermissionRevision) (time : CanonicalTime) :
    Except AliasError ReceivingPermission := do
  let grant ← (AliasScopedGrant.establish p.record.aliasId p.record.owner time).mapError
    fun _ => AliasError.invalid
  p.change expected (.broad grant) time

def remove (p : ReceivingPermission) (expected : PermissionRevision) (time : CanonicalTime) :
    Except AliasError ReceivingPermission := p.change expected .none time

/-- Closes an open entrance to all but the conversations already admitted on it. -/
def restrict (p : ReceivingPermission) (expected : PermissionRevision)
    (existing : List AdmittedConversation) (time : CanonicalTime) :
    Except AliasError ReceivingPermission :=
  match p.state with
  | .broad grant => do
    let conversations := conversationMap existing
    refuseIf (conversations.entries.length ≠ existing.length) .invalid
    p.change expected (.restricted grant conversations) time
  | .none | .restricted .. | .senders _ => .error .restricted

def senders (p : ReceivingPermission) (expected : PermissionRevision) (lanes : List SenderScopedLane)
    (time : CanonicalTime) : Except AliasError ReceivingPermission :=
  p.change expected (.senders lanes) time

def authorizesAlias (p : ReceivingPermission) (sender : ProtocolIdentity)
    (conversation : ConversationId) (time : CanonicalTime) : Bool :=
  if time < p.changedAt then false
  else match p.state with
    | .broad _ => true
    | .restricted _ conversations => (conversations.get? conversation).any (·.sender = sender)
    | .none | .senders _ => false

/-- Replaces the first lane with the identifier of the given one. -/
def replaceLane (lane : SenderScopedLane) : List SenderScopedLane → List SenderScopedLane
  | [] => []
  | l :: rest => if l.grant.id = lane.grant.id then lane :: rest else l :: replaceLane lane rest

/-- Takes over the allowance of a sender lane already authorized, under the same grant. -/
def consume (p : ReceivingPermission) (lane : SenderScopedLane) :
    Except AliasError ReceivingPermission :=
  match p.state with
  | .senders lanes => do
    let current ← okOr (lanes.find? (·.grant.id = lane.grant.id)) .permission
    refuseIf (current.grant ≠ lane.grant ∨ current.version.checkedNext ≠ some lane.version) .conflict
    PermissionRecord.permission {p.record with state := .senders (replaceLane lane lanes)}
  | .none | .broad _ | .restricted .. => .error .permission

end ReceivingPermission

end CsMail
