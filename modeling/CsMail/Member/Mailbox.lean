import CsMail.Correspondence.Record
import CsMail.External.Store
import CsMail.Member.Semantic

/-! The mailbox of a member's device: what it takes over from the server.

The native mailbox only grows, page by page, and learns the other participant of every
conversation. An external conversation is read again from where its last page ended: each page
brings the conversation and its relationship as they are, and messages whose delivery may have
been observed anew but which are otherwise what they were. -/
namespace CsMail
open Library

/-! ### Native messages -/

namespace MessageRecord

def author (r : MessageRecord) : ProtocolIdentity := r.fields.author

def recipient (r : MessageRecord) : ProtocolIdentity := r.fields.receiving.recipient

def conversation (r : MessageRecord) : U128 := r.fields.manifest.conversation.val

end MessageRecord

/-- Headers and conversation participants, never content. -/
structure Mailbox where
  after : U64
  records : List (U64 × MessageRecord)
  /-- The other participant of each conversation. -/
  participants : SortedMap U128 ProtocolIdentity

/-- A header of a page, with what the server answers if it is asked for the conversation. -/
structure MailboxEntry where
  sequence : U64
  record : MessageRecord
  policy : Except MemberError CorrespondenceRef

structure MailboxPage where
  entries : List MailboxEntry
  nextAfter : U64

namespace Mailbox

def empty : Mailbox := ⟨0, [], .empty⟩

/-- The participants of the mailbox once the conversation of an entry is known. -/
def learn (me : ProtocolIdentity) (m : Mailbox) (e : MailboxEntry) :
    Except MemberError (SortedMap U128 ProtocolIdentity) :=
  match m.participants.get? e.record.conversation with
  | some _ => .ok m.participants
  | none =>
    if e.record.author = me then do
      let scope ← e.policy
      let other ← (scope.other me).mapError fun _ => .invalidData
      .ok (m.participants.insert e.record.conversation other)
    else .ok (m.participants.insert e.record.conversation e.record.author)

def push (me : ProtocolIdentity) (m : Mailbox) (e : MailboxEntry) : Except MemberError Mailbox := do
  refuseIf (e.record.author ≠ me ∧ e.record.recipient ≠ me) .invalidData
  let participants ← m.learn me e
  let other ← okOr (participants.get? e.record.conversation) .invalidData
  refuseIf ((e.record.author = me ∧ e.record.recipient ≠ other) ∨
    (e.record.author ≠ me ∧ e.record.author ≠ other)) .invalidData
  .ok {m with records := m.records ++ [(e.sequence, e.record)], participants}

/-- `sync_mailbox`: page after page, until one does not lead on. The answer to a page is the
page, or why there is none. -/
def sync (me : ProtocolIdentity) (m : Mailbox) : List (Except MemberError MailboxPage) → Except MemberError Mailbox
  | [] => .error .offline
  | answer :: rest => do
    let page ← answer
    let m' ← page.entries.foldlM (push me) m
    if page.nextAfter ≤ m.after then .ok m' else sync me {m' with after := page.nextAfter} rest

end Mailbox

/-! ### External conversations -/

structure MessageView where
  sequence : U64
  message : ExternalMessage
  delivery : Option DeliveryState
  providerEvents : List ProviderEvent
  deriving DecidableEq

def MessageView.id (v : MessageView) : MessageId := v.message.message

def MessageView.expiresAt (v : MessageView) : CanonicalTime := v.message.fields.memberCopy.expiresAt

section
variable [Crypto]

/-- An external conversation as it was last read. -/
structure WorkspaceRecord where
  conversation : ExternalConversation
  relationship : Relationship
  messages : List MessageView
  observed : U64
  deriving DecidableEq

/-- A page of an external conversation. -/
structure ExternalPage where
  conversation : ExternalConversation
  relationship : Relationship
  messages : List MessageView
  nextAfter : U64
  through : U64

namespace ExternalPage

/-- The page is about the conversation that was asked for, and leads on to one bound. -/
def checkScope (p : ExternalPage) (me : ProtocolIdentity) (id : ConversationId) (after : U64)
    (through : Option U64) : Except MemberError PUnit :=
  refuseIf (p.conversation.id ≠ id ∨ p.conversation.member ≠ me ∨
    p.relationship.key.sender ≠ p.conversation.guest ∨ p.relationship.key.recipient ≠ me ∨
    p.nextAfter < after ∨ p.through < p.nextAfter ∨ through.any (fun previous => previous ≠ p.through) = true ∨
    (p.nextAfter = after ∧ p.nextAfter ≠ p.through)) .invalidData

/-- One message of the page, after the messages before it. -/
def checkMessage (p : ExternalPage) (seen : List MessageId) (entry : MessageView) :
    Except MemberError (List MessageId) := do
  (entry.message.validate p.conversation p.relationship).mapError fun _ => .invalidData
  refuseIf (entry.sequence = 0 ∨ entry.id ∈ seen) .invalidData
  .ok (seen ++ [entry.id])

end ExternalPage

/-- A message is added, or its observations are replaced: the committed message cannot change. -/
def mergeMessage : List MessageView → MessageView → Except MemberError (List MessageView)
  | [], entry => .ok [entry]
  | old :: rest, entry =>
    if old.id = entry.id then do
      refuseIf (old.message ≠ entry.message ∨ old.sequence ≠ entry.sequence) .invalidData
      .ok (entry :: rest)
    else do
      let rest' ← mergeMessage rest entry
      .ok (old :: rest')

/-- The record of a conversation after a page, without the copies that have expired when they
are looked at. -/
def WorkspaceRecord.read (known : Option WorkspaceRecord) (p : ExternalPage) (now : MessageId → CanonicalTime) :
    Except MemberError WorkspaceRecord := do
  let messages ← p.messages.foldlM mergeMessage ((known.map WorkspaceRecord.messages).getD [])
  .ok {
    conversation := p.conversation
    relationship := p.relationship
    messages := (messages.insertionSort (·.sequence ≤ ·.sequence)).filter fun m => now m.id < m.expiresAt
    observed := p.nextAfter}

end
end CsMail
