import CsMail.Member.Retained

/-! What a device does to the copies it retains.

A change of the index is prepared, committed together with the copies it concerns, and only then
published in memory; after a commit that is not acknowledged the index is read anew. Calls of the
client are given checkpoint by checkpoint, from one load of the index to its save, with what the
server, the host and the clock answer. A record is filed under a keyed digest of its key, here
under the key itself. -/
namespace CsMail
open Library

/-! ### Content -/

/-- What a device makes of the content of messages. -/
class RetainedContent [Crypto] [Html] [MailParser] where
  decrypt : SealedRecord → EndpointPublicKey → Option Document
  /-- `search_text` of what a reader sees of the document. -/
  searchText : Document → Except MemberError Text

/-- Which values are an embedding of the device's model. -/
class Embedding (Values : Type) where
  finite : Values → Bool

def MailKey.isNative : MailKey → Bool
  | native _ => true
  | external _ => false

section
variable {Values : Type} [Embedding Values]

namespace Projection

def chunks : Projection Values → List (Chunk Values)
  | pending => []
  | building _ chunks | ready _ chunks => chunks

def validate (p : Projection Values) : Except MemberError Unit :=
  refuseIf (20_000 < p.chunks.length ∨
    p.chunks.any (fun c => c.text = [] ∨ Embedding.finite c.values = false) = true) .invalidData

end Projection
end

section
variable [Crypto]

def contentDigest (text : Text) : Bytes32 := Crypto.sha256 text.utf8

section
variable [Html] [MailParser] [DocumentJson] [RetainedContent]

namespace NativeView

/-- `correspondence::open`. -/
def openDocument (v : NativeView) (owner : ProtocolIdentity) : Except CorrespondenceError Document := do
  let binding := v.ciphertext.binding
  refuseIf (binding.sender ≠ v.record.author ∨ binding.recipient ≠ owner ∨
    binding.message ≠ v.record.manifest.message) .invalid
  let document ← okOr (RetainedContent.decrypt v.ciphertext v.record.fields.senderKey) .invalid
  let manifest ← document.manifest binding.message v.record.manifest.conversation
  refuseIf (manifest ≠ v.record.manifest) .invalid
  .ok document

/-- The subject of a native copy, and the text it is searched by. -/
def content (v : NativeView) (owner : ProtocolIdentity) : Except MemberError (ConversationSubject × Text) := do
  let document ← (v.openDocument owner).mapError fun _ => .invalidData
  let subject ← okOr document.subject .invalidData
  let text ← RetainedContent.searchText document
  .ok (subject, subject.record.text ++ "\n\n".toList ++ text)

end NativeView
end

/-! ### Reading -/

variable {Values : Type}

namespace Retained
variable (r : Retained Values)

/-- The conversation is suspended. -/
def hides : MailKey → Bool
  | .native id => r.suspended.contains id
  | .external _ => false

/-- What is indexed of a copy, unless it is hidden or has expired. -/
def entry (key : CopyKey) (now : CanonicalTime) : Option (Indexed Values) :=
  if r.hides key.thread = true then none else (r.entries.get? key).filter fun v => now < v.expires

end Retained

/-- The copy under a key is the one that was indexed. -/
def Entry.fits (e : Entry) (v : Indexed Values) (owner : ProtocolIdentity) (key : CopyKey) : Bool :=
  e.key = key ∧ e.subject = v.subject ∧ e.expires = v.expires ∧ contentDigest e.text = v.contentDigest ∧
    e.native.all (fun n => n.ciphertext.binding.recipient = owner) = true

def Retained.copy (r : Retained Values) (copies : SortedMap CopyKey Entry) (key : CopyKey)
    (now : CanonicalTime) : Except MemberError (Option Entry) :=
  match r.entry key now with
  | none => .ok none
  | some v => do
    let e ← okOr (copies.get? key) .invalidData
    refuseIf (e.fits v r.owner key = false) .invalidData
    .ok (some e)

/-! ### Preparing changes -/

def Entry.indexed (e : Entry) : Except MemberError (Indexed Values) := do
  refuseIf (e.native.isSome ≠ e.key.thread.isNative ∨ e.subject.isSome ≠ e.key.thread.isNative ∨
    e.native.any (fun v => v.record.manifest.message ≠ e.key.message ∨
      MailKey.native v.record.manifest.conversation ≠ e.key.thread ∨ v.ciphertext.expiresAt ≠ e.expires ∨
      v.record.manifest.record.subject ≠ e.subject.map ConversationSubject.commitment) = true) .invalidData
  .ok ⟨e.key, e.subject, e.expires, contentDigest e.text, .pending⟩

namespace Retained
variable (r : Retained Values)

def insert (e : Entry) : Retained Values :=
  if r.excluded.contains e.key = true then r else {r with pending := r.pending.insert e.key (.replace e)}

def reindex (e : Entry) : Except MemberError (Retained Values) := do
  let v ← e.indexed
  .ok {r with pending := r.pending.insert e.key (.reindex v)}

def exclude (key : CopyKey) : Retained Values := {r with pending := r.pending.insert key .exclude}

/-- The copies whose time has come, in the order of their times. -/
def due (now : CanonicalTime) : List CopyKey :=
  (r.deadlines.entries.filter fun e => e.1 ≤ now).flatMap fun e => e.2.keys

/-- Exclusion takes effect by time before this bounded cleanup; also how many are excluded. -/
def expire (now : CanonicalTime) (limit : ℕ) : Retained Values × ℕ :=
  let expired := (r.due now).take limit
  (expired.foldl exclude r, expired.length)

def project [Embedding Values] (key : CopyKey) (projection : Projection Values) :
    Except MemberError (Retained Values) := do
  projection.validate
  let v ← okOr (r.entries.get? key) .sourceUnavailable
  .ok {r with pending := r.pending.insert key (.reindex {v with projection})}

end Retained

/-! ### The store -/

inductive RetainedCopyWrite
  | replace (e : Entry)
  | keep
  | remove

structure RetainedWrite (Values : Type) where
  key : CopyKey
  record : IndexRecord Values
  copy : RetainedCopyWrite

def PendingRecord.write (key : CopyKey) : PendingRecord Values → Except MemberError (RetainedWrite Values)
  | replace e => do
    let v ← e.indexed
    .ok ⟨key, .available v, .replace e⟩
  | reindex v => .ok ⟨key, .available v, .keep⟩
  | exclude => .ok ⟨key, .excluded key, .remove⟩

/-- Index records and copies, as the host keeps them. -/
structure RetainedStore (Values : Type) where
  revision : U64
  records : SortedMap CopyKey (IndexRecord Values)
  copies : SortedMap CopyKey Entry

namespace RetainedStore

def empty : RetainedStore Values := ⟨0, ∅, ∅⟩

def write (s : RetainedStore Values) (w : RetainedWrite Values) : RetainedStore Values :=
  {s with
    records := s.records.insert w.key w.record
    copies := match w.copy with
      | .replace e => s.copies.insert w.key e
      | .keep => s.copies
      | .remove => s.copies.erase w.key}

/-- `commit_retained`: all writes, or none if the revision is stale. -/
def commit (s : RetainedStore Values) (expected next : U64) (writes : List (RetainedWrite Values)) :
    Option (RetainedStore Values) :=
  if s.revision = expected then some {writes.foldl write s with revision := next} else none

end RetainedStore

/-- What the host answers to a commit: it is made, it is not made, or it is made and the
answer is lost. -/
inductive CommitAnswer
  | committed
  | failed
  | lost

/-! ### The client -/

structure LoadedIndex (Values : Type) where
  revision : U64
  retained : Retained Values

/-- A client, as far as it retains copies: what it has saved of its state and of its index, the
index in memory, and the search lifetime, which is open when it is odd. -/
structure MemberClient (Values : Type) where
  state : ClientState
  store : RetainedStore Values
  index : Option (LoadedIndex Values)
  epoch : U64
  emailTextRevision : ℕ

section
variable [Embedding Values]

def RetainedStore.checkRow (row : CopyKey × IndexRecord Values) : Except MemberError Unit := do
  refuseIf (row.2.key ≠ row.1) .invalidData
  match row.2 with
  | .available v => do
    v.projection.validate
    refuseIf (v.subject.isSome ≠ v.key.thread.isNative) .invalidData
  | .excluded _ => .ok ()

/-- Reads the index anew. -/
def RetainedStore.read (s : RetainedStore Values) (owner : ProtocolIdentity) :
    Except MemberError (LoadedIndex Values) := do
  s.records.entries.forM checkRow
  .ok ⟨s.revision, .ofRecords owner s.records.values⟩

namespace MemberClient
variable (x : MemberClient Values)

def searchSession : Except MemberError U64 :=
  if x.epoch.val % 2 = 1 ∧ x.epoch.val < 2 ^ 64 - 1 then .ok x.epoch else .error .unavailable

def held : Except MemberError (LoadedIndex Values) :=
  match x.index with
  | some l => .ok l
  | none => x.store.read x.state.persona

/-- `load_at_epoch`. -/
def load (session : Option U64) : Except MemberError (LoadedIndex Values) := do
  let current ← x.searchSession
  refuseIf (session.any (fun s => s ≠ current) = true) .unavailable
  let l ← x.held
  refuseIf (l.retained.owner ≠ x.state.persona) .invalidData
  .ok {l with retained := l.retained.observeHeaders x.state}

/-- `save`, and whether it went through. -/
def save (l : LoadedIndex Values) (answer : CommitAnswer) : MemberClient Values × Bool :=
  let published := {l.retained with pending := ∅}
  match l.retained.pending.entries.mapM fun e => e.2.write e.1, Checked.succ l.revision with
  | .ok writes, some next =>
    match x.store.commit l.revision next writes, answer with
    | some store, .committed =>
      ({x with store, index := some ⟨next, (writes.map RetainedWrite.record).foldl Retained.publish published⟩}, true)
    | some store, .lost => ({x with store, index := none}, false)
    | _, _ => ({x with index := none}, false)
  | _, _ => ({x with index := some {l with retained := published}}, false)

/-- Loads the index and saves what is prepared, if anything is. A call that fails before it saves
leaves an index that has looked at the headers. -/
def checkpoint (session : Option U64) (prepare : Retained Values → Except MemberError (Option (Retained Values)))
    (answer : CommitAnswer) : MemberClient Values × Bool :=
  match x.load session with
  | .error _ => (x, false)
  | .ok l =>
    match prepare l.retained with
    | .ok (some r) => x.save {l with retained := r} answer
    | .ok none => ({x with index := some l}, true)
    | .error _ => ({x with index := some l}, false)

end MemberClient
end

/-! ### Indexing -/

/-- The external message at a place. -/
def MemberState.externalView {Rest : Type} (s : MemberState Rest) (place : U128 × ℕ) : Option MessageView :=
  (s.externalRecords.get? place.1).bind fun r => r.messages[place.2]?

section
variable (state : ClientState) (clock : CopyKey → CanonicalTime) (texts : CopyKey → Except MemberError Text)

/-- `texts` is what `external_text` reads of external messages at this time. -/
def Retained.indexExternalKey (r : Retained Values) (missing : CopyKey × U128 × ℕ) :
    Except MemberError (Retained Values) := do
  let view ← okOr (state.externalView missing.2) .invalidData
  if view.expiresAt ≤ clock missing.1 then .ok (r.exclude missing.1)
  else do
    let text ← texts missing.1
    .ok (r.insert ⟨missing.1, none, text, none, view.expiresAt⟩)

def Retained.indexExternal (r : Retained Values) (limit : ℕ) : Except MemberError (Retained Values × ℕ) := do
  let pending := r.headers.missingExternal.entries.take limit
  let r ← pending.foldlM (indexExternalKey state clock texts) r
  .ok (r, pending.length)

/-- `index_retained_sources`, once the text of external mail is current. -/
def Retained.indexSources (r : Retained Values) (limit : ℕ) (now : CanonicalTime) :
    Except MemberError (Option (Retained Values)) := do
  let expired := r.expire now limit
  let indexed ← expired.1.indexExternal state clock texts (limit - expired.2)
  .ok (if 0 < expired.2 + indexed.2 then some indexed.1 else none)

/-- What `retain_mail` and `retain_batch` begin with. -/
def Retained.indexMissing (r : Retained Values) (limit : ℕ) : Except MemberError (Option (Retained Values)) := do
  let indexed ← r.indexExternal state clock texts limit
  .ok (if 0 < indexed.2 then some indexed.1 else none)

/-- `ensure_email_text_index`, for one key. -/
def Retained.upgradeKey (copies : SortedMap CopyKey Entry) (r : Retained Values) (key : CopyKey) :
    Except MemberError (Retained Values) := do
  match ← r.copy copies key (clock key) with
  | some e => do
    let text ← texts key
    .ok (r.insert {e with text})
  | none => .ok r

def Retained.upgradeText (copies : SortedMap CopyKey Entry) (r : Retained Values) :
    Except MemberError (Option (Retained Values)) :=
  ((r.entries.keys.filter fun key => key.thread.isNative = false).foldlM
    (upgradeKey clock texts copies) r).map some

section
variable [Html] [MailParser] [DocumentJson] [RetainedContent]

/-- The text a rebuilt index would have of a copy. -/
def Entry.rebuiltText (e : Entry) : Except MemberError Text :=
  match e.native with
  | some v => (v.content state.persona).map Prod.snd
  | none => texts e.key

/-- `rebuild_search_index`, for one key. -/
def Retained.rebuildKey (copies : SortedMap CopyKey Entry) (r : Retained Values) (key : CopyKey) :
    Except MemberError (Retained Values) := do
  match ← r.copy copies key (clock key) with
  | some e => do
    let text ← e.rebuiltText state texts
    refuseIf (text ≠ e.text) .invalidData
    r.reindex e
  -- a hidden copy is not read either
  | none => .ok (r.exclude key)

def Retained.rebuild (copies : SortedMap CopyKey Entry) (r : Retained Values) :
    Except MemberError (Option (Retained Values)) :=
  (r.entries.keys.foldlM (rebuildKey state clock texts copies) r).map some

end
end

/-- The end of `index_semantic`: what it has captured of the copy must still hold of it. -/
def Retained.publishProjection [Embedding Values] (r : Retained Values) (copies : SortedMap CopyKey Entry)
    (key : CopyKey) (original : Text) (expires : CanonicalTime) (projection : Projection Values)
    (now : CanonicalTime) : Except MemberError (Option (Retained Values)) := do
  let v ← okOr (r.entry key now) .sourceUnavailable
  refuseIf (v.contentDigest ≠ contentDigest original ∨ expires ≤ now) .sourceUnavailable
  let found ← r.copy copies key now
  let e ← okOr found .sourceUnavailable
  refuseIf (e.text ≠ original) .invalidData
  let r ← r.project key projection
  .ok (some r)

/-! ### Fetching -/

/-- The `Response` to a fetch. -/
inductive FetchResponse
  | message (view : NativeView)
  | unavailable
  | accessDenied
  | other

section
variable [Html] [MailParser] [DocumentJson] [RetainedContent] (state : ClientState) (key : CopyKey)
  (record : MessageRecord) (now : CanonicalTime)

def Retained.retainResponse (r : Retained Values) : FetchResponse → Except MemberError (Retained Values)
  | .message view => do
    refuseIf (view.record ≠ record ∨ view.ciphertext.expiresAt ≤ now) .invalidData
    let content ← view.content state.persona
    .ok (r.insert ⟨key, some view, content.2, some content.1, view.ciphertext.expiresAt⟩)
  | .unavailable => .ok (r.exclude key)
  | .accessDenied => .error .unauthorized
  | .other => .error .invalidData

/-- A deletion may have committed while a fetch of `retain_mail` was in flight. -/
def Retained.retainFetched (r : Retained Values) (response : FetchResponse) :
    Except MemberError (Option (Retained Values)) :=
  if r.excluded.contains key = true then .ok none
  else (r.retainResponse state key record now response).map some

end

/-! ### Deleting -/

/-- The `Response` to a signed deletion; a refusal is one of that very command. -/
inductive DeletionResponse
  | copiesDeleted
  | refused
  | other

def Retained.excludeConversation (state : ClientState) (id : ConversationId) (r : Retained Values) :
    Retained Values :=
  (state.mailbox.records.filter fun e => e.2.manifest.conversation = id).foldl
    (fun r e => r.exclude ⟨.native id, e.2.manifest.message⟩) r

namespace MemberClient
variable [Embedding Values] (x : MemberClient Values)

/-- `delete_native_copies`, up to the transmission of the signed deletion. -/
def deleteCopies (id : ConversationId) : MemberClient Values :=
  if x.state.rest.isSome = true ∨ x.state.mailbox.participants.contains id.val = false then x
  else {x with
    state := {x.state with rest := some id}
    index := x.index.map fun l => {l with retained := l.retained.suspend id}}

/-- The deletion is not pending any more. -/
def settled : MemberClient Values := {x with state := {x.state with rest := none}}

/-- `transmit_conversation_edit` of a pending deletion. What follows the exclusion may fail, and the
deletion stays pending. -/
def transmit (response : DeletionResponse) (answer : CommitAnswer) (finishes : Bool) : MemberClient Values :=
  match x.state.rest, response with
  | some id, .copiesDeleted =>
    let y := x.checkpoint none (fun r => .ok (some (r.excludeConversation x.state id))) answer
    if y.2 && finishes then y.1.settled else y.1
  | some id, .refused =>
    if finishes then
      {x.settled with index := x.index.map fun l => {l with retained := l.retained.resume id}}
    else x
  | _, _ => x

/-! ### Search lifetimes -/

def openSession : MemberClient Values :=
  match Checked.add x.epoch (if x.epoch.val % 2 = 1 then 2 else 3) with
  | some next => if next.val < 2 ^ 64 - 1 then {x with index := none, epoch := next} else x
  | none => x

def invalidateSession : MemberClient Values :=
  match Checked.add x.epoch (if x.epoch.val % 2 = 1 then 1 else 2) with
  | some next => {x with index := none, epoch := next}
  | none => x

def closeSession (session : U64) : MemberClient Values :=
  if x.epoch = session then x.invalidateSession else x

end MemberClient

/-! ### Calls -/

/-- The checkpoints of the client's calls. -/
inductive RetentionCall (Values : Type)
  | sync (pages : List (Except MemberError MailboxPage))
  | read (id : ConversationId) (after : U64) (through : Option U64) (page : ExternalPage)
    (now : MessageId → CanonicalTime)
  | openSession
  | closeSession (session : U64)
  | invalidateSession
  | observe (session : Option U64)
  | upgradeText (clock : CopyKey → CanonicalTime) (texts : CopyKey → Except MemberError Text)
    (answer : CommitAnswer) (finishes : Bool)
  | indexSources (session : U64) (limit : ℕ) (now : CanonicalTime) (clock : CopyKey → CanonicalTime)
    (texts : CopyKey → Except MemberError Text) (answer : CommitAnswer)
  | indexMissing (session : Option U64) (limit : ℕ) (clock : CopyKey → CanonicalTime)
    (texts : CopyKey → Except MemberError Text) (answer : CommitAnswer)
  | retainFetched (session : U64) (key : CopyKey) (position : ℕ) (response : FetchResponse)
    (now : CanonicalTime) (answer : CommitAnswer)
  | retainBatch (session : U64) (key : CopyKey) (position : ℕ) (response : FetchResponse)
    (now : CanonicalTime) (answer : CommitAnswer)
  | publishProjection (session : U64) (key : CopyKey) (original : Text) (expires : CanonicalTime)
    (projection : Projection Values) (now : CanonicalTime) (answer : CommitAnswer)
  | rebuild (clock : CopyKey → CanonicalTime) (texts : CopyKey → Except MemberError Text) (answer : CommitAnswer)
  | deleteCopies (id : ConversationId)
  | transmit (response : DeletionResponse) (answer : CommitAnswer) (finishes : Bool)

namespace MemberClient
variable [Html] [MailParser] [DocumentJson] [RetainedContent] [Embedding Values] (x : MemberClient Values)

/-- A client that has just been enrolled. -/
def enrolled (persona : ProtocolIdentity) : MemberClient Values :=
  ⟨.enrolled persona none, .empty, none, 1, 0⟩

def step : RetentionCall Values → MemberClient Values
  | .sync pages =>
    match x.state.mailbox.sync x.state.persona pages with
    | .ok mailbox => {x with state := {x.state with mailbox}}
    | .error _ => x
  | .read id after through page now =>
    match x.state.readPage id after through page now with
    | .ok state => {x with state}
    | .error _ => x
  | .openSession => x.openSession
  | .closeSession session => x.closeSession session
  | .invalidateSession => x.invalidateSession
  | .observe session => (x.checkpoint session (fun _ => .ok none) .committed).1
  | .upgradeText clock texts answer finishes =>
    if x.emailTextRevision = 1 then x
    else
      let y := x.checkpoint none (fun r => r.upgradeText clock texts x.store.copies) answer
      if y.2 && finishes then {y.1 with emailTextRevision := 1} else y.1
  | .indexSources session limit now clock texts answer =>
    if limit = 0 ∨ 25 < limit then x
    else (x.checkpoint (some session) (fun r => r.indexSources x.state clock texts limit now) answer).1
  | .indexMissing session limit clock texts answer =>
    (x.checkpoint session (fun r => r.indexMissing x.state clock texts limit) answer).1
  | .retainFetched session key position response now answer =>
    match x.state.mailbox.records[position]? with
    | some e =>
      if (⟨.native e.2.manifest.conversation, e.2.manifest.message⟩ : CopyKey) ≠ key then x
      else (x.checkpoint (some session) (fun r => r.retainFetched x.state key e.2 now response) answer).1
    | none => x
  | .retainBatch session key position response now answer =>
    match x.state.mailbox.records[position]? with
    | some e => (x.checkpoint (some session)
        (fun r => (r.retainResponse x.state key e.2 now response).map some) answer).1
    | none => x
  | .publishProjection session key original expires projection now answer =>
    (x.checkpoint (some session)
      (fun r => r.publishProjection x.store.copies key original expires projection now) answer).1
  | .rebuild clock texts answer =>
    (x.checkpoint none (fun r => r.rebuild x.state clock texts x.store.copies) answer).1
  | .deleteCopies id => x.deleteCopies id
  | .transmit response answer finishes => x.transmit response answer finishes

end MemberClient
end
end CsMail
