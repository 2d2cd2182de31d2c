import CsMail.Library.Refusal
import CsMail.Protocol.Model

/-! Message manifests: the nonplaintext shape of a message.

A manifest lists the descriptors of a message's flattened content blocks and the messages it
draws on; a selection is bound to one immutable version of one message. -/
namespace CsMail
open Library

/-- `CorrespondenceError`. -/
inductive CorrespondenceError
  | admissionRefused (failure : AdmissionFailure)
  | invalid
  | unauthorized
  | conflict
  | policyRestricted
  | policyUnresolved
  | unavailable
  deriving DecidableEq

def maxParts : ℕ := 128
def maxBlocks : ℕ := 128
def maxTextBytes : ℕ := 1_048_576
def maxImageBytes : ℕ := 4 * 1_048_576
def maxEncodedDocumentBytes : ℕ := 24 * 1_048_576
def maxEmailBytes : ℕ := 8 * 1024 * 1024
def maxComposedBytes : ℕ := 4 * 1024 * 1024

structure MessageVersion where
  bytes : Bytes32
  deriving DecidableEq

/-! ### Blocks -/

inductive BlockDescriptor
  | text (bytes : U32)
  | image (bytes : U32)
  | reference
  | email (bytes : U32)
  | attachment (bytes : U32)
  deriving DecidableEq

namespace BlockDescriptor

def isEmail : BlockDescriptor → Bool
  | email _ => true
  | _ => false

/-- Newly authored content: text, a picture or a file. -/
def isAuthored : BlockDescriptor → Bool
  | text _ | image _ | attachment _ => true
  | reference | email _ => false

def textBytes : BlockDescriptor → ℕ
  | text bytes => bytes.val
  | _ => 0

def imageBytes : BlockDescriptor → ℕ
  | image bytes => bytes.val
  | _ => 0

def fileBytes : BlockDescriptor → ℕ
  | attachment bytes => bytes.val
  | _ => 0

/-- A picture has bytes, and an email a bounded number of them. -/
def sized : BlockDescriptor → Bool
  | image bytes => 0 < bytes
  | email bytes => 0 < bytes ∧ bytes.val ≤ maxEmailBytes
  | text _ | reference | attachment _ => true

end BlockDescriptor

def validateBlocks (blocks : List BlockDescriptor) : Except CorrespondenceError Unit := do
  refuseIf (blocks = [] ∨ maxBlocks < blocks.length) .invalid
  refuseIf (¬blocks.all BlockDescriptor.sized) .invalid
  refuseIf (maxTextBytes < (blocks.map BlockDescriptor.textBytes).sum ∨
    maxImageBytes < (blocks.map BlockDescriptor.imageBytes).sum ∨
    maxComposedBytes < (blocks.map BlockDescriptor.fileBytes).sum) .invalid

/-! ### Selections -/

/-- Coordinates in the flattened content blocks of a message. -/
inductive SelectionElement
  | textRange (block start stop : U32)
  | imageBlock (block : U32)
  deriving DecidableEq

namespace SelectionElement

def block : SelectionElement → U32
  | textRange block _ _ | imageBlock block => block

/-- The range of a text element is not empty, and no text is longer. -/
def ranged : SelectionElement → Bool
  | textRange _ start stop => start < stop ∧ stop.val ≤ maxTextBytes
  | imageBlock _ => true

def bounded (e : SelectionElement) : Bool := e.block.val < maxBlocks ∧ e.ranged = true

/-- A later block, or a later range of the same text. -/
def follows : SelectionElement → SelectionElement → Bool
  | textRange b start _, textRange a _ stop => a < b ∨ (a = b ∧ stop ≤ start)
  | e, prior => prior.block < e.block

/-- Each element follows the one before it. -/
def ordered : List SelectionElement → Bool
  | prior :: e :: rest => e.follows prior && ordered (e :: rest)
  | _ => true

end SelectionElement

/-- A nonempty ordered selection, bound to exactly one immutable message version. -/
structure MessageSelection where
  message : MessageId
  version : MessageVersion
  elements : List SelectionElement
  identified : message.val ≠ 0
  nonempty : elements ≠ []
  short : elements.length ≤ maxBlocks
  bounded : elements.all SelectionElement.bounded = true
  ordered : SelectionElement.ordered elements = true

instance : DecidableEq MessageSelection := fun a b =>
  decidable_of_iff (a.message = b.message ∧ a.version = b.version ∧ a.elements = b.elements) (by
    cases a
    cases b
    simp)

inductive SourceUse
  | reference (selection : MessageSelection)
  | quotation (selection : MessageSelection)
  | sharing (selection : MessageSelection)
  deriving DecidableEq

def SourceUse.selection : SourceUse → MessageSelection
  | reference s | quotation s | sharing s => s

/-! ### Manifests -/

/-- A salted commitment to a subject. -/
structure SubjectCommitment where
  bytes : Bytes32
  deriving DecidableEq

structure ManifestRecord where
  subject : Option SubjectCommitment
  message : MessageId
  conversation : ConversationId
  version : MessageVersion
  blocks : List BlockDescriptor
  sources : List SourceUse
  deriving DecidableEq

def ManifestRecord.validate (r : ManifestRecord) : Except CorrespondenceError Unit := do
  validateBlocks r.blocks
  refuseIf (r.blocks.any BlockDescriptor.isEmail = true ∧ (r.blocks.length ≠ 1 ∨ r.sources ≠ [])) .invalid
  refuseIf (r.message.val = 0 ∨ maxParts < r.sources.length ∨
    r.sources.any (fun s => s.selection.message = r.message) = true) .invalid

structure MessageManifest where
  record : ManifestRecord
  valid : record.validate = .ok ()

instance : DecidableEq MessageManifest := fun a b =>
  decidable_of_iff (a.record = b.record) (by
    cases a
    cases b
    simp)

namespace MessageManifest

/-- `try_from`. -/
def restore (r : ManifestRecord) : Except CorrespondenceError MessageManifest :=
  match h : r.validate with
  | .ok _ => .ok ⟨r, h⟩
  | .error e => .error e

def message (m : MessageManifest) : MessageId := m.record.message

def conversation (m : MessageManifest) : ConversationId := m.record.conversation

def version (m : MessageManifest) : MessageVersion := m.record.version

def blocks (m : MessageManifest) : List BlockDescriptor := m.record.blocks

def sources (m : MessageManifest) : List SourceUse := m.record.sources

end MessageManifest
end CsMail
