import CsMail.Library.ContentStore
import CsMail.Member.Mailbox

/-! How a member's device is saved and opened again.

The state is saved as a head without messages, and every message as a record of its own under an
address derived from its content. Opening joins the records to the head again, in the order of
the head's references, and checks what it has joined. -/
namespace CsMail
open Library

inductive MailboxRecord
  | native (sequence : U64) (record : MessageRecord)
  | external (conversation : U128) (view : MessageView)
  deriving DecidableEq

section
variable [Crypto] {Rest : Type}

structure ExternalWorkspace where
  pending : Option SignedExternalCommand
  records : SortedMap U128 WorkspaceRecord

/-- The state of a device. What synchronization neither reads nor writes is kept as it is. -/
structure MemberState (Rest : Type) where
  format : U16
  persona : ProtocolIdentity
  mailbox : Mailbox
  external : Option ExternalWorkspace
  rest : Rest

/-- What is sealed as the head of the cache; an enrollment's own data is left out. -/
inductive Snapshot (Rest Id : Type)
  | enrolling
  | active (state : MemberState Rest) (records : List Id)

/-- How the device serializes and seals what it saves. Under the device's key, a record is sealed
for its own address, which is a keyed digest of what is written, and the head for the head. -/
class DeviceCodec (Rest : Type) where
  Plain : Type
  Cipher : Type
  Nonce : Type
  Id : Type
  decEq : DecidableEq Id
  records : ContentStore.Scheme MailboxRecord Plain Cipher Nonce Id
  sealHead : Nonce → Snapshot Rest Id → Option Cipher
  openHead : Cipher → Option (Snapshot Rest Id)
  openHead_sealHead : ∀ {n s c}, sealHead n s = some c → openHead c = some s

instance [DeviceCodec Rest] : DecidableEq (DeviceCodec.Id Rest) := DeviceCodec.decEq

/-- How the records of a device are written, addressed and sealed. -/
abbrev DeviceCodec.scheme (Rest : Type) [DeviceCodec Rest] : ContentStore.Scheme MailboxRecord
    (DeviceCodec.Plain Rest) (DeviceCodec.Cipher Rest) (DeviceCodec.Nonce Rest) (DeviceCodec.Id Rest) :=
  DeviceCodec.records

/-! ### Heads and records -/

namespace ExternalWorkspace

def empty : ExternalWorkspace := ⟨none, .empty⟩

def withoutMessages (w : ExternalWorkspace) : ExternalWorkspace :=
  {w with records := w.records.map fun _ r => {r with messages := []}}

def messages (w : ExternalWorkspace) : List (U128 × MessageView) :=
  w.records.entries.flatMap fun (id, r) => r.messages.map (id, ·)

def push (w : ExternalWorkspace) (id : U128) (view : MessageView) : Except MemberError ExternalWorkspace := do
  let record ← okOr (w.records.get? id) .invalidData
  .ok {w with records := w.records.insert id {record with messages := record.messages ++ [view]}}

end ExternalWorkspace

namespace MemberState

/-- The state without any message. -/
def head (s : MemberState Rest) : MemberState Rest :=
  {s with mailbox := {s.mailbox with records := []}, external := s.external.map ExternalWorkspace.withoutMessages}

def externalMessages (s : MemberState Rest) : List (U128 × MessageView) :=
  (s.external.map ExternalWorkspace.messages).getD []

/-- The messages of the state, each as a record. -/
def items (s : MemberState Rest) : List MailboxRecord :=
  s.mailbox.records.map (fun e => .native e.1 e.2) ++ s.externalMessages.map fun e => .external e.1 e.2

def join (s : MemberState Rest) : MailboxRecord → Except MemberError (MemberState Rest)
  | .native sequence record =>
    .ok {s with mailbox := {s.mailbox with records := s.mailbox.records ++ [(sequence, record)]}}
  | .external id view => do
    let w ← okOr s.external .invalidData
    let w' ← w.push id view
    .ok {s with external := some w'}

/-! ### Validation -/

def validateNative (s : MemberState Rest) (e : U64 × MessageRecord) : Except MemberError PUnit := do
  let other ← okOr (s.mailbox.participants.get? e.2.conversation) .invalidData
  refuseIf ((e.2.author = s.persona ∧ e.2.recipient ≠ other) ∨
    (e.2.author ≠ s.persona ∧ (e.2.author ≠ other ∨ e.2.recipient ≠ s.persona))) .invalidData

def validateView (r : WorkspaceRecord) (view : MessageView) : Except MemberError PUnit :=
  (view.message.validate r.conversation r.relationship).mapError fun _ => .invalidData

def validateExternal (s : MemberState Rest) (e : U128 × WorkspaceRecord) : Except MemberError PUnit := do
  refuseIf (e.2.conversation.member ≠ s.persona ∨ e.2.conversation.id.val ≠ e.1) .invalidData
  e.2.messages.forM (validateView e.2)

/-- `validate_mailbox`. -/
def validateMailbox (s : MemberState Rest) : Except MemberError PUnit := do
  s.mailbox.records.forM s.validateNative
  ((s.external.map fun w => w.records.entries).getD []).forM s.validateExternal

/-- Nothing in the head of the state is a message. -/
def isHead (s : MemberState Rest) : Bool :=
  s.format = 6 ∧ s.mailbox.records.isEmpty = true ∧
    s.external.all (fun w => w.records.values.all (fun r => r.messages.isEmpty)) = true

end MemberState

/-! ### The store -/

/-- The cache of a device: a sealed head, and sealed records under opaque addresses. -/
structure DeviceStore (Rest : Type) [DeviceCodec Rest] where
  head : Option (DeviceCodec.Cipher Rest)
  records : DeviceCodec.Id Rest → Option (DeviceCodec.Cipher Rest)

structure CacheCommit (Rest : Type) [DeviceCodec Rest] where
  head : DeviceCodec.Cipher Rest
  records : ContentStore.Placement (DeviceCodec.Cipher Rest) (DeviceCodec.Id Rest)

variable [DeviceCodec Rest]

namespace DeviceStore

def empty : DeviceStore Rest := ⟨none, fun _ => none⟩

/-- `commit_cache`: the head is replaced, missing records are added, unreferenced ones removed. -/
def commit (store : DeviceStore Rest) (change : CacheCommit Rest) : DeviceStore Rest :=
  ⟨some change.head, ContentStore.apply store.records change.records⟩

/-- `state_commit`; every sealing has a nonce of its own. -/
def stateCommit (store : DeviceStore Rest) (s : MemberState Rest) (nonces : ℕ → DeviceCodec.Nonce Rest) :
    Except MemberError (CacheCommit Rest) := do
  let placement ← okOr ((s.items.zipIdx.map fun (item, i) => (item, nonces i)).foldlM
    ((DeviceCodec.scheme Rest).place store.records) ⟨[], []⟩) .invalidData
  let head ← okOr (DeviceCodec.sealHead (nonces s.items.length) (.active s.head placement.keep)) .invalidData
  .ok ⟨head, placement⟩

/-- Joins the record of one reference, after the references before it. -/
def openRecord (store : DeviceStore Rest) (opened : List (DeviceCodec.Id Rest) × MemberState Rest)
    (reference : DeviceCodec.Id Rest) : Except MemberError (List (DeviceCodec.Id Rest) × MemberState Rest) := do
  refuseIf (reference ∈ opened.1) .invalidData
  let item ← okOr ((DeviceCodec.scheme Rest).recollect store.records reference) .invalidData
  let state ← opened.2.join item
  .ok (opened.1 ++ [reference], state)

/-- `open`: the state of an active device. -/
def openDevice (store : DeviceStore Rest) : Except MemberError (MemberState Rest) := do
  let bytes ← okOr store.head .notConfigured
  let snapshot ← okOr (DeviceCodec.openHead bytes) .invalidData
  match snapshot with
  | .enrolling => .error .enrollmentRequired
  | .active state records => do
    refuseIf (state.isHead = false) .invalidData
    let opened ← records.foldlM store.openRecord ([], state)
    opened.2.validateMailbox
    .ok opened.2

end DeviceStore

/-! ### The device -/

/-- A page-by-page read of an external conversation, between two pages. -/
structure FetchLoop (Rest : Type) where
  state : MemberState Rest
  id : ConversationId
  after : U64
  through : Option U64

/-- A device: its cache, the state it saved last, and the read that is under way. -/
structure Device (Rest : Type) [DeviceCodec Rest] where
  store : DeviceStore Rest
  saved : Option (MemberState Rest)
  loop : Option (FetchLoop Rest)

inductive DeviceCall (Rest : Type) [DeviceCodec Rest]
  | enroll (persona : ProtocolIdentity) (rest : Rest) (nonces : ℕ → DeviceCodec.Nonce Rest)
  | syncMailbox (pages : List (Except MemberError MailboxPage)) (nonces : ℕ → DeviceCodec.Nonce Rest)
  | fetchExternal (id : ConversationId)
  | answer (page : Except MemberError ExternalPage) (now : MessageId → CanonicalTime)
    (nonces : ℕ → DeviceCodec.Nonce Rest)

namespace MemberState

/-- A device that has just been enrolled. -/
def enrolled (persona : ProtocolIdentity) (rest : Rest) : MemberState Rest where
  format := 6
  persona
  mailbox := .empty
  external := none
  rest

def externalRecord (s : MemberState Rest) (id : U128) : Option WorkspaceRecord :=
  s.external.bind fun w => w.records.get? id

/-- The state after a page of an external conversation. -/
def readPage (s : MemberState Rest) (id : ConversationId) (after : U64) (through : Option U64) (p : ExternalPage)
    (now : MessageId → CanonicalTime) : Except MemberError (MemberState Rest) := do
  p.checkScope s.persona id after through
  let _ ← p.messages.foldlM p.checkMessage []
  let record ← WorkspaceRecord.read (s.externalRecord id.val) p now
  let w := s.external.getD .empty
  .ok {s with external := some {w with records := w.records.insert id.val record}}

end MemberState

namespace Device

def empty : Device Rest := ⟨.empty, none, none⟩

/-- `save`; calls follow one another, so no read is under way when one saves. -/
def save (d : Device Rest) (s : MemberState Rest) (nonces : ℕ → DeviceCodec.Nonce Rest) :
    Except MemberError (Device Rest) := do
  let change ← d.store.stateCommit s nonces
  .ok ⟨d.store.commit change, some s, none⟩

/-- One page of the read that is under way, which goes on unless the page reached its bound. -/
def readPage (d : Device Rest) (l : FetchLoop Rest) (answer : Except MemberError ExternalPage)
    (now : MessageId → CanonicalTime) (nonces : ℕ → DeviceCodec.Nonce Rest) : Except MemberError (Device Rest) := do
  let page ← answer
  let state ← l.state.readPage l.id l.after l.through page now
  let saved ← d.save state nonces
  .ok {saved with loop :=
    if page.nextAfter = page.through then none else some ⟨state, l.id, page.nextAfter, some page.through⟩}

/-- A call of the client, or the answer to the page it is waiting for. A read that fails at a page
keeps what its pages before have saved. -/
def call (d : Device Rest) : DeviceCall Rest → Except MemberError (Device Rest)
  | .enroll persona rest nonces => do
    refuseIf (d.store.head.isSome = true) .alreadyConfigured
    d.save (.enrolled persona rest) nonces
  | .syncMailbox pages nonces => do
    let state ← d.store.openDevice
    let mailbox ← state.mailbox.sync state.persona pages
    d.save {state with mailbox} nonces
  | .fetchExternal id => do
    let state ← d.store.openDevice
    let after := ((state.externalRecord id.val).map WorkspaceRecord.observed).getD 0
    .ok {d with loop := some ⟨state, id, after, none⟩}
  | .answer answer now nonces => do
    let l ← okOr d.loop .unavailable
    match d.readPage l answer now nonces with
    | .ok d' => .ok d'
    | .error _ => .ok {d with loop := none}

end Device
end
end CsMail
