import CsMail.Correspondence.Manifest
import CsMail.Library.FirstMatch
import CsMail.Member.Semantic

/-! A member's writing on the device.

Drafts are edited locally, under a revision that every edit names and raises. A draft that is sent
leaves the editable ones for the submitted slot, where it stays until the operation that carries
it ends: then it is removed, or becomes editable again. -/
namespace CsMail
open Library

/-! ### Drafts -/

/-- Local identity is distinct from the identities of messages and operations. -/
structure DraftId where
  val : U128
  nonzero : val ≠ 0

instance : DecidableEq DraftId := fun a b =>
  decidable_of_iff (a.val = b.val) (by
    cases a
    cases b
    simp)

structure DraftRevision where
  val : U64
  nonzero : val ≠ 0
  deriving DecidableEq

namespace DraftRevision

def one : DraftRevision := ⟨1, by decide⟩

def checkedNext (r : DraftRevision) : Option DraftRevision := do
  let next ← Checked.succ r.val
  if h : next ≠ 0 then some ⟨next, h⟩ else none

end DraftRevision

/-- A draft as its editor last saw it. -/
abbrev DraftRef := DraftId × DraftRevision

inductive DraftTarget
  | unaddressed
  | nativeAddress (other : ProtocolIdentity) (address : AliasId)
  | native (other : ProtocolIdentity) (conversation : Option ConversationId)
  | external (conversation : Option ConversationId)
  | request (address : AliasId) (other : ProtocolIdentity) (requestClass : RequestClassId)
  | followup (other : ProtocolIdentity) (request : RequestId)
  deriving DecidableEq

namespace DraftTarget

def hasEditableRecipient : DraftTarget → Bool
  | unaddressed | native _ none | nativeAddress .. | external none => true
  | _ => false

/-- The targets that take a subject: an answer in a native conversation, a follow-up take none. -/
def takesSubject : DraftTarget → Bool
  | unaddressed | native _ none | nativeAddress .. | request .. | external _ => true
  | native _ (some _) | followup .. => false

def isExternal : DraftTarget → Bool
  | external _ => true
  | _ => false

/-- The identifiers of a target are not empty. -/
def named : DraftTarget → Bool
  | native other _ | nativeAddress other _ => other.val ≠ 0
  | request _ other requestClass => other.val ≠ 0 ∧ requestClass.val ≠ 0
  | followup other id => other.val ≠ 0 ∧ id.val ≠ 0
  | unaddressed | external _ => true

end DraftTarget

inductive ReuseMode
  | quotation
  | sharing
  | reference
  deriving DecidableEq

structure SourceDraft where
  selection : MessageSelection
  mode : ReuseMode
  deriving DecidableEq

/-- A composed body: the record it is serialized as, and the text its content reads as. -/
structure ComposedBody where
  record : Bytes
  text : Text
  deriving DecidableEq

inductive DraftBody
  | composed (mailbox : Text) (content : ComposedBody) (sources : List SourceDraft)
  | native (text : Text) (sources : List SourceDraft)
  | external (mailbox : Text) (text : Text)
  | request (text : Text)
  deriving DecidableEq

namespace DraftBody

def text : DraftBody → Text
  | composed _ content _ => content.text
  | native text _ | external _ text | request text => text

def sources : DraftBody → List SourceDraft
  | composed _ _ sources | native _ sources => sources
  | external .. | request .. => []

/-- A body has the shape its target is written in. -/
def shaped : DraftTarget → DraftBody → Bool
  | .unaddressed, native .. | .native .., native .. | .nativeAddress .., native .. => true
  | .external _, external .. => true
  | .request .., request .. | .followup .., request .. => true
  | .unaddressed, composed .. | .native .., composed .. | .nativeAddress .., composed .. => true
  | .external _, composed .. => true
  | _, _ => false

/-- Nothing in a body exceeds its bound, and an external one draws on no source. -/
def bounded (target : DraftTarget) : DraftBody → Bool
  | composed mailbox _ sources =>
    mailbox.len ≤ 320 ∧ sources.length ≤ 100 ∧ (target.isExternal = true → sources = [])
  | native _ sources => sources.length ≤ 128
  | external mailbox _ => mailbox.len ≤ 320
  | request _ => true

def validate (target : DraftTarget) (body : DraftBody) : Except MemberError Unit := do
  refuseIf (body.shaped target = false ∨ 1_048_576 < body.text.len) .invalidData
  refuseIf (body.bounded target = false) .invalidData

/-- The empty body a draft is opened with. -/
def blank : DraftTarget → DraftBody
  | .unaddressed | .native .. | .nativeAddress .. => native [] []
  | .external _ => external [] []
  | .request .. | .followup .. => request []

end DraftBody

structure DraftRecord where
  subject : Text
  localOffsetSeconds : ℤ
  id : DraftId
  revision : DraftRevision
  target : DraftTarget
  body : DraftBody
  updatedAt : CanonicalTime
  deriving DecidableEq

def DraftRecord.validate (r : DraftRecord) : Except MemberError Unit := do
  r.body.validate r.target
  refuseIf (65_536 < r.subject.len ∨ r.subject.any isControl = true ∨
    ¬(-86_399 ≤ r.localOffsetSeconds ∧ r.localOffsetSeconds ≤ 86_399) ∨
    (r.target.takesSubject = false ∧ r.subject ≠ [])) .invalidData
  refuseIf (r.target.named = false) .invalidData

/-- A draft is a record that passed its checks. -/
structure Draft where
  record : DraftRecord
  valid : record.validate = .ok ()

namespace Draft

def new (r : DraftRecord) : Except MemberError Draft :=
  match h : r.validate with
  | .ok _ => .ok ⟨r, h⟩
  | .error e => .error e

def id (d : Draft) : DraftId := d.record.id

def revision (d : Draft) : DraftRevision := d.record.revision

def target (d : Draft) : DraftTarget := d.record.target

def body (d : Draft) : DraftBody := d.record.body

def subject (d : Draft) : Text := d.record.subject

def updatedAt (d : Draft) : CanonicalTime := d.record.updatedAt

/-- The body a draft has for another recipient. -/
def bodyFor (d : Draft) (target : DraftTarget) (mailbox : Text) : DraftBody :=
  match d.body with
  | .composed _ content sources =>
    .composed (if target.isExternal then mailbox else []) content (if target.isExternal then [] else sources)
  | body => if target.isExternal then .external mailbox body.text else .native body.text body.sources

def retarget (d : Draft) (expected : DraftRevision) (target : DraftTarget) (mailbox : Text)
    (dropIncompatible : Bool) (now : CanonicalTime) : Except MemberError Draft := do
  refuseIf (d.target.hasEditableRecipient = false ∨ target.hasEditableRecipient = false) .invalidData
  refuseIf (target.isExternal = true ∧ d.body.sources ≠ [] ∧ dropIncompatible = false) .invalidData
  let revision ← okOr expected.checkedNext .invalidData
  new {d.record with revision, target, body := d.bodyFor target mailbox, updatedAt := max now d.updatedAt}

def update (d : Draft) (expected : DraftRevision) (body : DraftBody) (subject : Text)
    (localOffsetSeconds : ℤ) (now : CanonicalTime) : Except MemberError Draft := do
  refuseIf (d.revision ≠ expected) .draftChanged
  let revision ← okOr expected.checkedNext .invalidData
  new {d.record with subject, localOffsetSeconds, revision, body, updatedAt := max now d.updatedAt}

end Draft

/-! ### The workspace -/

def maxDrafts : ℕ := 256

structure Workspace where
  account : AccountId
  persona : ProtocolIdentity
  drafts : List Draft
  submitted : Option Draft

inductive DraftResolution
  | removeSubmitted
  | restoreEditable
  deriving DecidableEq

inductive OpenMode
  | resume
  | new
  deriving DecidableEq

/-- Commands carry caller-supplied identifiers; deciding one performs no I/O. -/
inductive WorkspaceCommand
  | start (id : DraftId) (target : DraftTarget) (mode : OpenMode)
  | save (id : DraftId) (expected : DraftRevision) (body : DraftBody) (subject : Text) (localOffsetSeconds : ℤ)
  | retarget (id : DraftId) (expected : DraftRevision) (target : DraftTarget) (dropIncompatible : Bool)
    (mailbox : Text)
  | discard (id : DraftId) (expected : DraftRevision)
  | submit (id : DraftId) (expected : DraftRevision)
  | resolve (resolution : DraftResolution)

structure WorkspaceDecision where
  next : Workspace
  draft : Option Draft

namespace Workspace

def empty (account : AccountId) (persona : ProtocolIdentity) : Workspace := ⟨account, persona, [], none⟩

/-- The number of drafts, with the submitted one. -/
def size (w : Workspace) : ℕ := w.drafts.length + w.submitted.toList.length

def ids (w : Workspace) : List DraftId := w.drafts.map Draft.id

/-- The checks of `load`, once the workspace is decrypted and parsed. -/
def load (w : Workspace) (account : AccountId) (persona : ProtocolIdentity) : Except MemberError Unit :=
  refuseIf (w.account ≠ account ∨ w.persona ≠ persona ∨ maxDrafts < w.size ∨ ¬w.ids.Nodup ∨
    w.submitted.any (fun d => d.id ∈ w.ids) = true) .invalidData

def get (w : Workspace) (id : DraftId) (revision : DraftRevision) : Except MemberError Draft := do
  let draft ← okOr (w.drafts.find? fun d => d.id = id) .draftChanged
  refuseIf (draft.revision ≠ revision) .draftChanged
  .ok draft

/-- Puts an edited draft in the place of the one it was edited from. -/
def put (w : Workspace) (id : DraftId) (next : Draft) : Workspace :=
  {w with drafts := modifyFirst (fun d => d.id = id) (fun _ => next) w.drafts}

def remove (w : Workspace) (id : DraftId) : Workspace := {w with drafts := w.drafts.filter fun d => d.id ≠ id}

/-- `max_by_key`: the draft of a target that was updated last. -/
def latest (w : Workspace) (target : DraftTarget) : Option Draft :=
  (w.drafts.filter fun d => d.target = target).foldl (fun best d =>
    match best with
    | none => some d
    | some b =>
      if b.updatedAt < d.updatedAt ∨ (b.updatedAt = d.updatedAt ∧ b.id.val ≤ d.id.val) then some d else some b) none

/-- The draft that is resumed instead of opening one. -/
def resumed (w : Workspace) (target : DraftTarget) : OpenMode → Option Draft
  | .resume => w.latest target
  | .new => none

/-- `open`. -/
def start (w : Workspace) (id : DraftId) (target : DraftTarget) (mode : OpenMode) (now : CanonicalTime) :
    Except MemberError WorkspaceDecision :=
  match w.resumed target mode with
  | some draft => .ok ⟨w, some draft⟩
  | none => do
    refuseIf (maxDrafts ≤ w.size ∨ id ∈ w.ids ∨ w.submitted.any (fun d => d.id = id) = true) .invalidData
    let draft ← Draft.new ⟨[], 0, id, .one, target, .blank target, now⟩
    .ok ⟨{w with drafts := w.drafts ++ [draft]}, some draft⟩

/-- What becomes of the submitted draft. -/
def settle (w : Workspace) (draft : Draft) (now : CanonicalTime) : DraftResolution → Except MemberError Workspace
  | .removeSubmitted => .ok {w with submitted := none}
  | .restoreEditable => do
    let next ← draft.update draft.revision draft.body draft.subject draft.record.localOffsetSeconds now
    .ok {w with submitted := none, drafts := w.drafts ++ [next]}

def transition (w : Workspace) (now : CanonicalTime) : WorkspaceCommand → Except MemberError WorkspaceDecision
  | .start id target mode => w.start id target mode now
  | .save id expected body subject localOffsetSeconds => do
    let draft ← w.get id expected
    let next ← draft.update expected body subject localOffsetSeconds now
    .ok ⟨w.put id next, some next⟩
  | .retarget id expected target dropIncompatible mailbox => do
    let draft ← w.get id expected
    let next ← draft.retarget expected target mailbox dropIncompatible now
    .ok ⟨w.put id next, some next⟩
  | .discard id expected => do
    let _ ← w.get id expected
    .ok ⟨w.remove id, none⟩
  | .submit id expected => do
    let draft ← w.get id expected
    refuseIf (w.submitted.isSome = true ∨ draft.target = .unaddressed) .draftChanged
    .ok ⟨{w.remove id with submitted := some draft}, none⟩
  | .resolve resolution =>
    match w.submitted with
    | none => .ok ⟨w, none⟩
    | some draft => do
      let next ← w.settle draft now resolution
      .ok ⟨next, none⟩

end Workspace
end CsMail
