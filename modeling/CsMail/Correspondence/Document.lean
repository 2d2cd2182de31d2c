import CsMail.Correspondence.Email
import CsMail.Correspondence.Forwarding
import CsMail.Search.Passages

/-! Documents: the content of messages.

A document is a sequence of parts, and its coordinates are those of the content blocks the parts
contribute, one part behind the other: a composed body contributes its text, its pictures and its
files, a reference a block that nothing can be selected of, and a quotation the blocks it retains. -/
namespace CsMail
open Library

/-! ### Subjects -/

def maxSubjectBytes : ℕ := 512

structure SubjectRecord where
  text : Text
  secret : Bytes32
  deriving DecidableEq

/-- A shared subject: immutable content with a secret salt. -/
structure ConversationSubject where
  record : SubjectRecord
  salted : record.secret ≠ zero32
  worded : record.text.isBlank = false
  short : record.text.utf8.length ≤ maxSubjectBytes
  printed : record.text.any isControl = false
  deriving DecidableEq

def ConversationSubject.commitment [Crypto] (s : ConversationSubject) : SubjectCommitment :=
  ⟨Crypto.sha256 (byteString "cs-mail/conversation-subject/v1" ++ s.record.secret.toList ++ s.record.text.utf8)⟩

/-! ### Pictures and files -/

structure ImageContent where
  format : ImageFormat
  bytes : Bytes
  nonempty : bytes ≠ []
  short : bytes.length ≤ maxImageBytes
  deriving DecidableEq

structure AttachedFile where
  name : Text
  bytes : Bytes
  named : name ≠ [] ∧ name.utf8.length ≤ 255
  printed : name.any (fun c => isControl c || c = '/' || c = '\\') = false
  short : bytes.length ≤ maxComposedBytes
  deriving DecidableEq

/-! ### Composed bodies -/

def maxFiles : ℕ := 24
def maxRemotePictures : ℕ := 64

/-- A parsed address. -/
structure WebAddress where
  scheme : Text
  host : Option Text
  username : Text
  password : Option Text
  spelling : Text
  deriving DecidableEq

/-- What sanitizes a page. -/
class Html where
  parseUrl : Text → Option WebAddress
  /-- The sources of the pictures of a page, in order and without repetitions. -/
  pictures : Text → List Text
  /-- The tag, the name and the value of every attribute the sanitizer asks about. -/
  attributes : Text → List (Text × Text × Text)
  /-- The sanitized page, where the filter says what becomes of an attribute. -/
  clean : (Text → Text → Text → Option Text) → Text → Text
  /-- `email_text::extract`. -/
  extract : Text → Text

inductive CompositionFormat
  | editable
  | imported
  deriving DecidableEq

structure ComposedRecord where
  format : CompositionFormat
  html : Text
  images : List ImageContent
  files : List AttachedFile
  deriving DecidableEq

section Composed
variable [Crypto]

def hexDigit (n : ℕ) : Char := "0123456789abcdef".toList.getD n '0'

def resourceId (value : Bytes) : Text := (Crypto.sha256 value).toList.flatMap fun b =>
  [hexDigit (b.toNat / 16), hexDigit (b.toNat % 16)]

variable [Html]

omit [Crypto] in
/-- A navigation destination, never authorization to visit it. -/
def webDestination (value : Text) : Option Text := do
  let url ← Html.parseUrl value
  if (url.scheme = "https".toList ∨ url.scheme = "http".toList) ∧ url.host.isSome ∧ url.username.isEmpty ∧ url.password.isNone then
    some url.spelling
  else none

omit [Html] in
/-- The source names one of the pictures kept with the page. -/
def isContained (images : List ImageContent) (source : Text) : Bool :=
  images.any fun image => source = "cid:".toList ++ resourceId image.bytes

/-- The attribute filter, where no picture is replaced. -/
def filterAttribute (images : List ImageContent) (tag attr value : Text) : Option Text :=
  if attr = "src".toList then
    if tag ≠ "img".toList then none
    else if isContained images value = true then some value
    else webDestination value
  else if attr = "href".toList then
    if tag = "a".toList then webDestination value else none
  else some value

/-- A picture whose source leads nowhere. -/
def isMissing (images : List ImageContent) (a : Text × Text × Text) : Bool :=
  a.2.1 = "src".toList ∧ a.1 = "img".toList ∧ isContained images a.2.2 = false ∧ webDestination a.2.2 = none

def remotePicture (images : List ImageContent) (source : Text) : Except CorrespondenceError (Option Text) :=
  if isContained images source = true then .ok none
  else (okOr (webDestination source) .invalid).map some

namespace ComposedRecord

/-- `sanitize`, of a page whose pictures are all supplied. -/
def cleanHtml (r : ComposedRecord) : Except CorrespondenceError Text := do
  refuseIf (maxComposedBytes < r.html.len) .invalid
  let remote ← (Html.pictures r.html).mapM (remotePicture r.images)
  refuseIf (maxRemotePictures < (remote.filterMap id).dedup.length) .invalid
  refuseIf ((Html.attributes r.html).any (isMissing r.images) = true) .invalid
  .ok (Html.clean (filterAttribute r.images) r.html)

/-- The text of a composition that is accepted. -/
def body (r : ComposedRecord) : Except CorrespondenceError Text := do
  refuseIf (maxComposedBytes < r.html.len + (r.images.map fun i => i.bytes.length).sum +
      (r.files.map fun f => f.bytes.length).sum ∨
    maxFiles < r.images.length + r.files.length) .invalid
  refuseIf (¬(r.images.map fun i => resourceId i.bytes).Nodup) .invalid
  let page ← r.cleanHtml
  let text := Html.extract page
  refuseIf (maxTextBytes < text.len) .invalid
  .ok text

end ComposedRecord

/-- A `ComposedBody`: an accepted composition, with the text read off its sanitized page. -/
structure Composition where
  source : ComposedRecord
  text : Text
  restored : source.body = .ok text

end Composed

/-! ### Content blocks -/

/-- Retained selected content; references cannot masquerade as retained image bytes. -/
inductive ContentBlock
  | text (t : Text)
  | image (i : ImageContent)
  deriving DecidableEq

inductive BlockRef
  | text (t : Text)
  | image (i : ImageContent)
  | reference
  | email (bytes : ℕ)
  | file (bytes : ℕ)
  deriving DecidableEq

def ContentBlock.borrowed : ContentBlock → BlockRef
  | text t => .text t
  | image i => .image i

namespace BlockRef

def bounded (length : ℕ) : Except CorrespondenceError U32 :=
  if h : length < 2 ^ 32 then .ok ⟨length, h⟩ else .error .invalid

def descriptor : BlockRef → Except CorrespondenceError BlockDescriptor
  | text t => (bounded t.len).map .text
  | image i => (bounded i.bytes.length).map .image
  | reference => .ok .reference
  | file bytes => (bounded bytes).map .attachment
  | email bytes => (bounded bytes).map .email

end BlockRef

/-! ### Excerpts -/

structure ExcerptRecord where
  source : MessageSelection
  blocks : List ContentBlock
  deriving DecidableEq

namespace ExcerptRecord

/-- What an element selects has its kind, and a text has the length of its range. -/
def suits : SelectionElement × ContentBlock → Bool
  | (.textRange _ start stop, .text t) => t.len = stop.val - start.val
  | (.imageBlock _, .image _) => true
  | _ => false

def validate (r : ExcerptRecord) : Except CorrespondenceError Unit := do
  refuseIf (r.blocks.length ≠ r.source.elements.length) .invalid
  (r.source.elements.zip r.blocks).forM fun pair => refuseIf (suits pair = false) .invalid
  let descriptors ← r.blocks.mapM fun b => b.borrowed.descriptor
  validateBlocks descriptors

end ExcerptRecord

structure QuotedExcerpt where
  record : ExcerptRecord
  valid : record.validate = .ok ()

namespace QuotedExcerpt

/-- `try_from`. -/
def restore (r : ExcerptRecord) : Except CorrespondenceError QuotedExcerpt :=
  match h : r.validate with
  | .ok _ => .ok ⟨r, h⟩
  | .error e => .error e

def source (q : QuotedExcerpt) : MessageSelection := q.record.source

def blocks (q : QuotedExcerpt) : List ContentBlock := q.record.blocks

end QuotedExcerpt

structure SourceReference where
  selection : MessageSelection
  deriving DecidableEq

structure SharedCopy where
  excerpt : QuotedExcerpt

/-! ### Documents -/

section Documents
variable [Crypto] [Html] [MailParser]

inductive DocumentPart
  | composed (body : Composition)
  | email (content : EmailContent)
  | text (t : Text)
  | image (i : ImageContent)
  | reference (r : SourceReference)
  | quotation (q : QuotedExcerpt)
  | share (s : SharedCopy)

namespace DocumentPart

/-- What the part contributes to the coordinates of its document. -/
def blocks : DocumentPart → List BlockRef
  | composed body => .text body.text :: (body.source.images.map .image ++
      body.source.files.map fun f => .file f.bytes.length)
  | email e => [.email e.mime.length]
  | text t => [.text t]
  | image i => [.image i]
  | reference _ => [.reference]
  | quotation q => q.blocks.map ContentBlock.borrowed
  | share s => s.excerpt.blocks.map ContentBlock.borrowed

def source : DocumentPart → Option SourceUse
  | text _ | image _ | email _ | composed _ => none
  | reference r => some (.reference r.selection)
  | quotation q => some (.quotation q.source)
  | share s => some (.sharing s.excerpt.source)

def isEmail : DocumentPart → Bool
  | email _ => true
  | _ => false

end DocumentPart

structure DocumentRecord where
  subject : Option ConversationSubject
  versionSecret : Bytes32
  parts : List DocumentPart

namespace DocumentRecord
variable (r : DocumentRecord)

def blocks : List BlockRef := r.parts.flatMap DocumentPart.blocks

def blockDescriptors : Except CorrespondenceError (List BlockDescriptor) := r.blocks.mapM BlockRef.descriptor

def validate : Except CorrespondenceError Unit := do
  refuseIf (r.versionSecret = zero32 ∨ r.parts = [] ∨ maxParts < r.parts.length) .invalid
  refuseIf (r.parts.any DocumentPart.isEmail = true ∧ r.parts.length ≠ 1) .invalid
  let descriptors ← r.blockDescriptors
  validateBlocks descriptors

end DocumentRecord

/-- A document is a record that passed its checks. -/
structure Document where
  record : DocumentRecord
  valid : record.validate = .ok ()

/-- The JSON a version is taken of. -/
class DocumentJson where
  toVec : Document → Option Bytes

namespace Document

/-- `try_from`. -/
def restore (r : DocumentRecord) : Except CorrespondenceError Document :=
  match h : r.validate with
  | .ok _ => .ok ⟨r, h⟩
  | .error e => .error e

/-- The secret stays encrypted, so that public versions cannot fingerprint guessable content. -/
def new (parts : List DocumentPart) (versionSecret : Bytes32) : Except CorrespondenceError Document :=
  restore ⟨none, versionSecret, parts⟩

def withSubject (d : Document) (subject : ConversationSubject) : Document where
  record := {d.record with subject := some subject}
  valid := d.valid

variable (d : Document)

def parts : List DocumentPart := d.record.parts

def subject : Option ConversationSubject := d.record.subject

def blocks : List BlockRef := d.record.blocks

def blockDescriptors : Except CorrespondenceError (List BlockDescriptor) := d.record.blockDescriptors

def manifest [DocumentJson] (message : MessageId) (conversation : ConversationId) :
    Except CorrespondenceError MessageManifest := do
  let bytes ← okOr (DocumentJson.toVec d) .invalid
  refuseIf (maxEncodedDocumentBytes < bytes.length) .invalid
  let blocks ← d.blockDescriptors
  MessageManifest.restore {
    subject := d.subject.map ConversationSubject.commitment
    message
    conversation
    version := ⟨Crypto.sha256 (byteString "cs-mail/correspondence-document/v3" ++ bytes)⟩
    blocks
    sources := d.parts.filterMap DocumentPart.source}

/-- What one element takes of the blocks. -/
def pick (blocks : List BlockRef) (e : SelectionElement) : Except CorrespondenceError ContentBlock :=
  match e, blocks[e.block.val]? with
  | .textRange _ start stop, some (.text t) =>
    (okOr (t.slice? start.val stop.val) .invalid).map .text
  | .imageBlock _, some (.image i) => .ok (.image i)
  | _, _ => .error .invalid

variable [DocumentJson]

/-- Resolves a selection after an authorized source message has been decrypted. -/
def select (manifest : MessageManifest) (selection : MessageSelection) :
    Except CorrespondenceError (List ContentBlock) := do
  let own ← d.manifest manifest.message manifest.conversation
  refuseIf (own ≠ manifest) .invalid
  selection.validateTarget manifest
  selection.elements.mapM (pick d.blocks)

/-- Validates the selection and retains its text and image bytes. -/
def quote (manifest : MessageManifest) (selection : MessageSelection) :
    Except CorrespondenceError QuotedExcerpt := do
  let blocks ← d.select manifest selection
  QuotedExcerpt.restore ⟨selection, blocks⟩

end Document
end Documents
end CsMail
