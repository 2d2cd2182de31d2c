import CsMail.Correspondence.Document
import CsMail.Library.Grouping
import CsMail.Member.Personal
import CsMail.Member.Storage

/-! The index of the copies a device retains.

Copies and their index records are kept one by one; in memory an index knows which copies are
available and which are excluded, and it observes the headers the device holds, so that copies
which are neither are fetched. A pending deletion hides the copies of its conversation without
removing them. -/
namespace CsMail
open Library

/-! ### Keys -/

namespace MailKey

/-- The derived order: native conversations before external ones. -/
def rank : MailKey → ℕ
  | native conversation => conversation.val.val
  | external conversation => 2 ^ 128 + conversation.val.val

theorem rank_injective : Function.Injective rank := by
  rintro (⟨⟨a, ha⟩, _⟩ | ⟨⟨a, ha⟩, _⟩) (⟨⟨b, hb⟩, _⟩ | ⟨⟨b, hb⟩, _⟩) h <;> simp only [rank] at h
  case native.native => cases h; rfl
  case external.external => cases Nat.add_left_cancel h; rfl
  all_goals omega

instance : LinearOrder MailKey := LinearOrder.lift' rank rank_injective

end MailKey

structure CopyKey where
  thread : MailKey
  message : MessageId
  deriving DecidableEq

namespace CopyKey

def rank (k : CopyKey) : ℕ ×ₗ ℕ := toLex (k.thread.rank, k.message.val.val)

theorem rank_injective : Function.Injective rank := by
  rintro ⟨thread, message⟩ ⟨thread', message'⟩ h
  obtain ⟨hthread, hmessage⟩ := Prod.mk.inj (toLex_inj.mp h)
  have hsamethread : thread = thread' := MailKey.rank_injective hthread
  have hsamemessage : message = message' := Ident.val_injective (Fin.ext hmessage)
  rw [hsamethread, hsamemessage]

instance : LinearOrder CopyKey := LinearOrder.lift' rank rank_injective

end CopyKey

/-! ### Copies -/

/-- A native copy: its record and its ciphertext. -/
structure NativeView where
  record : MessageRecord
  ciphertext : SealedRecord
  deriving DecidableEq

/-- A retained copy. -/
structure Entry where
  key : CopyKey
  native : Option NativeView
  text : Text
  subject : Option ConversationSubject
  expires : CanonicalTime
  deriving DecidableEq

variable {Values : Type}

/-- What the index knows of a retained copy. -/
structure Indexed (Values : Type) where
  key : CopyKey
  subject : Option ConversationSubject
  expires : CanonicalTime
  contentDigest : Bytes32
  projection : Projection Values

inductive IndexRecord (Values : Type)
  | available (indexed : Indexed Values)
  | excluded (key : CopyKey)

def IndexRecord.key : IndexRecord Values → CopyKey
  | available indexed => indexed.key
  | excluded key => key

inductive PendingRecord (Values : Type)
  | replace (entry : Entry)
  | reindex (indexed : Indexed Values)
  | exclude

/-! ### Headers -/

/-- What the index has observed of the headers a device holds. -/
structure Headers where
  versions : SortedMap CopyKey MessageVersion
  knownKeys : SortedMap CopyKey Unit
  receivedKeys : SortedMap AliasId (SortedMap CopyKey Unit)
  missingNative : SortedMap CopyKey ℕ
  missingExternal : SortedMap CopyKey (U128 × ℕ)
  deriving DecidableEq

/-- Where a header stands. -/
inductive Place
  | native (position : ℕ)
  | external (id : U128) (position : ℕ)
  deriving DecidableEq

structure Header where
  key : CopyKey
  version : MessageVersion
  /-- The inbox the message was received in, if it was. -/
  received : Option AliasId
  place : Place
  deriving DecidableEq

namespace Headers

def empty : Headers := ⟨∅, ∅, ∅, ∅, ∅⟩

/-- A header is known, and its copy is missing unless the index knows it. -/
def add (known : CopyKey → Bool) (h : Headers) (x : Header) : Headers where
  versions := h.versions.insert x.key x.version
  knownKeys := h.knownKeys.insert x.key ()
  receivedKeys := match x.received with
    | some a => h.receivedKeys.insert a (((h.receivedKeys.get? a).getD ∅).insert x.key ())
    | none => h.receivedKeys
  missingNative := match x.place with
    | .native position => if known x.key then h.missingNative else h.missingNative.insert x.key position
    | .external _ _ => h.missingNative
  missingExternal := match x.place with
    | .native _ => h.missingExternal
    | .external id position =>
      if known x.key then h.missingExternal else h.missingExternal.insert x.key (id, position)

/-- The copy of a key is not missing any more. -/
def forget (key : CopyKey) (h : Headers) : Headers :=
  {h with
    missingNative := h.missingNative.erase key
    missingExternal := h.missingExternal.erase key}

end Headers

/-- The header of a native message. -/
def MessageRecord.header (me : ProtocolIdentity) (position : ℕ) (r : MessageRecord) : Header where
  key := ⟨.native r.manifest.conversation, r.manifest.message⟩
  version := r.manifest.version
  received := if r.recipient = me then some r.fields.receiving.receivingAlias else none
  place := .native position

/-- The header of an external message. -/
def MessageView.header (id : U128) (conversation : ConversationId) (position : ℕ) (v : MessageView) : Header where
  key := ⟨.external conversation, v.id⟩
  version := v.message.fields.manifest.version
  received := match v.message.fields.direction with
    | .guestToMember route => some route.receivingAlias
    | .memberToGuest => none
  place := .external id position

section
variable [Crypto]

/-- The state of a device, with the conversation whose native copies a signed deletion names. -/
abbrev ClientState := MemberState (Option ConversationId)

namespace MemberState
variable {Rest : Type}

def nativeHeaders (s : MemberState Rest) (me : ProtocolIdentity) : List Header :=
  s.mailbox.records.zipIdx.map fun (e, position) => e.2.header me position

def recordHeaders (id : U128) (r : WorkspaceRecord) : List Header :=
  r.messages.zipIdx.map fun (v, position) => v.header id r.conversation.id position

def externalRecords (s : MemberState Rest) : SortedMap U128 WorkspaceRecord :=
  (s.external.map ExternalWorkspace.records).getD ∅

def externalHeaders (s : MemberState Rest) : List Header :=
  s.externalRecords.entries.flatMap fun e => recordHeaders e.1 e.2

/-- The headers of all messages the device holds. -/
def headers (s : MemberState Rest) (me : ProtocolIdentity) : List Header :=
  s.nativeHeaders me ++ s.externalHeaders

/-- How many messages the device holds of either kind. -/
def headerCounts (s : MemberState Rest) : ℕ × ℕ :=
  (s.mailbox.records.length, s.externalRecords.sumBy fun r => r.messages.length)

end MemberState

/-! ### The index -/

/-- A retained index in memory. `observed` counts the headers it last looked at; at first it
has looked at none. -/
structure Retained (Values : Type) where
  owner : ProtocolIdentity
  entries : SortedMap CopyKey (Indexed Values)
  excluded : SortedMap CopyKey Unit
  byThread : Grouping MailKey CopyKey
  deadlines : Grouping CanonicalTime CopyKey
  pending : SortedMap CopyKey (PendingRecord Values)
  headers : Headers
  observed : Option (ℕ × ℕ)
  suspended : SortedMap ConversationId Unit

namespace Retained

def empty (owner : ProtocolIdentity) : Retained Values where
  owner
  entries := ∅
  excluded := ∅
  byThread := ∅
  deadlines := ∅
  pending := ∅
  headers := .empty
  observed := none
  suspended := ∅

def known (r : Retained Values) (key : CopyKey) : Bool :=
  r.entries.contains key || r.excluded.contains key || r.pending.contains key

def suspend (r : Retained Values) (id : ConversationId) : Retained Values :=
  {r with suspended := r.suspended.insert id ()}

def resume (r : Retained Values) (id : ConversationId) : Retained Values :=
  {r with suspended := r.suspended.erase id}

/-- The deadlines without the one of a copy that is available. -/
def deadlinesWithout (r : Retained Values) (key : CopyKey) : Grouping CanonicalTime CopyKey :=
  match r.entries.get? key with
  | some old => r.deadlines.drop old.expires key
  | none => r.deadlines

/-- A record replaces what was known of its copy. -/
def publish (r : Retained Values) (record : IndexRecord Values) : Retained Values :=
  let key := record.key
  let r := {r with
    headers := r.headers.forget key
    entries := r.entries.erase key
    deadlines := r.deadlinesWithout key
    byThread := r.byThread.drop key.thread key
    excluded := r.excluded.erase key}
  match record with
  | .excluded k => {r with excluded := r.excluded.insert k ()}
  | .available v =>
    {r with
      deadlines := r.deadlines.add v.expires key
      byThread := r.byThread.add key.thread key
      entries := r.entries.insert key v}

/-- The index as the records of the store make it. -/
def ofRecords (owner : ProtocolIdentity) (records : List (IndexRecord Values)) : Retained Values :=
  records.foldl publish (.empty owner)

/-- Looks at the headers again if there are more or fewer of them than before. A pending
deletion suspends its conversation. -/
def observeHeaders (r : Retained Values) (s : ClientState) : Retained Values :=
  let r := match s.rest with
    | some id => r.suspend id
    | none => r
  if r.observed ≠ some s.headerCounts then
    {r with
      headers := (s.headers r.owner).foldl (Headers.add r.known) .empty
      observed := some s.headerCounts}
  else r

end Retained
end
end CsMail
