import CsMail.Accounts.Directory
import CsMail.Correspondence.Manifest
import CsMail.Finance.Payments
import CsMail.Library.PrefixCode
import CsMail.Library.SortedMap
import Mathlib.Data.Char
import Mathlib.Data.List.Lex

/-! Preserved email.

An email is kept as the MIME bytes it was supplied as, and only if the whole MIME tree is of the
supported kind: one text, one HTML page, pictures with identifiers of their own, and containers whose
framing is exactly their parts. Its delivery identity is taken of what it says, not of how. -/
namespace CsMail
open Library Library.PrefixCode

/-! ### Pictures -/

inductive ImageFormat
  | png
  | jpeg
  | webP
  deriving DecidableEq

namespace ImageFormat

def subtype : ImageFormat → Text
  | png => "png".toList
  | jpeg => "jpeg".toList
  | webP => "webp".toList

def mimeType : ImageFormat → Text
  | png => "image/png".toList
  | jpeg => "image/jpeg".toList
  | webP => "image/webp".toList

end ImageFormat

/-! ### What the parser reports -/

/-- A parsed `Content-Type` or `Content-Disposition`. -/
structure MimeType where
  cType : Text
  subtype : Option Text
  attributes : Option (List (Text × Text))
  deriving DecidableEq

inductive MimeHeaderName
  | contentType
  | contentTransferEncoding
  | contentDisposition
  | other (name : Text)
  deriving DecidableEq

inductive MimeHeaderValue
  | text (value : Text)
  | contentType (value : MimeType)
  | other
  deriving DecidableEq

inductive MimeBody
  | text (content : Text)
  | html (content : Text)
  | binary (bytes : Bytes)
  | inlineBinary (bytes : Bytes)
  | message
  | multipart (parts : List U32)
  deriving DecidableEq

structure MimePart where
  headers : List (MimeHeaderName × MimeHeaderValue)
  isEncodingProblem : Bool
  attachmentName : Option Text
  contentDisposition : Option MimeType
  contentTransferEncoding : Option Text
  contentType : Option MimeType
  contentId : Option Text
  body : MimeBody
  offsetHeader : U32
  offsetBody : U32
  offsetEnd : U32
  deriving DecidableEq

structure MimeMessage where
  subject : Option Text
  parts : List MimePart
  raw : Bytes
  deriving DecidableEq

/-- Lengths are machine integers. -/
structure MimeMessage.Sized (m : MimeMessage) : Prop where
  subject : ∀ t, m.subject = some t → t.utf8.length < 256 ^ 8
  text : ∀ part ∈ m.parts, ∀ t, part.body = .text t → t.utf8.length < 256 ^ 8
  html : ∀ part ∈ m.parts, ∀ t, part.body = .html t → t.utf8.length < 256 ^ 8
  contentId : ∀ part ∈ m.parts, ∀ t, part.contentId = some t → t.utf8.length < 256 ^ 8
  bytes : ∀ part ∈ m.parts, ∀ b, part.body = .binary b ∨ part.body = .inlineBinary b → b.length < 256 ^ 8

/-- The MIME parser. -/
class MailParser where
  parse : Bytes → Option MimeMessage
  isContentType : MimePart → Text → Text → Bool
  attributeOf : MimeType → Text → Option Text
  /-- There is a decoder for the charset. -/
  hasDecoder : Bytes → Bool
  sized : ∀ raw m, parse raw = some m → m.Sized

/-! ### Validation -/

def maxEmailParts : ℕ := 64

/-- `eq_ignore_ascii_case`. -/
def Text.equalsIgnoringCase (t : Text) (s : String) : Bool := t.toAsciiLowercase = s.toList.map Char.toLower

namespace MimePart
variable [MailParser] (part : MimePart)

def isType (type subtype : String) : Bool := MailParser.isContentType part type.toList subtype.toList

/-- `raster_mime`. -/
def raster : Option ImageFormat := [.png, .jpeg, .webP].find? fun format =>
  MailParser.isContentType part "image".toList format.subtype

/-- The part is neither damaged nor an attachment. -/
def presentable : Bool :=
  ¬part.isEncodingProblem ∧ (part.attachmentName = none ∨ part.raster.isSome = true ∧ part.contentId.isSome = true) ∧
    part.contentDisposition.all (fun d => d.cType.equalsIgnoringCase "inline")

omit [MailParser] in
/-- A header that shapes the part stands there once at most, and is understood. -/
def headerUnderstood (name : MimeHeaderName) : Bool :=
  match part.headers.filter fun h => h.1 = name with
  | [] => true
  | [(_, .text _)] => name = .contentTransferEncoding
  | [(_, .contentType _)] => name ≠ .contentTransferEncoding
  | _ => false

omit [MailParser] in
def isMultipart : Bool :=
  match part.body with
  | .multipart _ => true
  | _ => false

omit [MailParser] in
def encodingSupported (encoding : Text) : Bool :=
  ["7bit", "8bit", "binary", "base64", "quoted-printable"].any encoding.equalsIgnoringCase ∧
    ¬(part.isMultipart = true ∧ ["base64", "quoted-printable"].any encoding.equalsIgnoringCase = true)

end MimePart

namespace MimeType

/-- No attribute is given twice, in whatever case. -/
def attributesDistinct (kind : MimeType) : Bool :=
  ((kind.attributes.getD []).map fun a => a.1.toAsciiLowercase).Nodup

def charsetSupported [MailParser] (kind : MimeType) : Bool :=
  (MailParser.attributeOf kind "charset".toList).all fun charset =>
    charset.equalsIgnoringCase "utf-8" || charset.equalsIgnoringCase "utf8" || MailParser.hasDecoder charset.utf8

end MimeType

/-- `split_inclusive` at the ends of lines. -/
def linesInclusive : Bytes → List Bytes
  | [] => []
  | b :: rest =>
    if b = 10 then [b] :: linesInclusive rest
    else match linesInclusive rest with
      | [] => [[b]]
      | line :: more => (b :: line) :: more

/-- `u8::is_ascii_whitespace`. -/
def isAsciiWhitespace (b : UInt8) : Bool := b ∈ [9, 10, 12, 13, 32]

/-- `trim_ascii_end`. -/
def trimAsciiEnd (line : Bytes) : Bytes := (line.reverse.dropWhile isAsciiWhitespace).reverse

def boundaryCharacter (c : Char) : Bool := c.isAlphanum || c ∈ "'()+_,-./:=? ".toList

def boundarySupported (boundary : Text) : Bool :=
  boundary ≠ [] ∧ boundary.utf8.length ≤ 70 ∧ boundary.getLast? ≠ some ' ' ∧ boundary.all boundaryCharacter

namespace MimeMessage

/-- The part's header begins at the position. -/
def startsAt (m : MimeMessage) (id : U32) (position : ℕ) : Bool :=
  (m.parts[id.val]?).any fun part => part.offsetHeader.val = position

/-- One line of a container: where it ends, and how many delimiters have been read. -/
def frameLine (m : MimeMessage) (boundary : Text) (ids : List U32) (read : ℕ × ℕ) (line : Bytes) :
    Except CorrespondenceError (ℕ × ℕ) := do
  let opening := byteString "--" ++ boundary.utf8
  let position := read.1 + line.length
  if opening.isPrefixOf (trimAsciiEnd line) then
    refuseIf (match ids[read.2]? with
      | some id => trimAsciiEnd line ≠ opening ∨ m.startsAt id position = false
      | none => read.2 ≠ ids.length ∨ trimAsciiEnd line ≠ opening ++ byteString "--" : Bool) .invalid
    .ok (position, read.2 + 1)
  else .ok (position, read.2)

/-- `validate_framing`: the delimiters of a container are exactly those of its parts. -/
def validateFraming [MailParser] (m : MimeMessage) (part : MimePart) (ids : List U32) :
    Except CorrespondenceError Unit := do
  let boundary ← okOr (part.contentType.bind fun kind => MailParser.attributeOf kind "boundary".toList) .invalid
  refuseIf (boundarySupported boundary = false) .invalid
  refuseIf (¬(part.offsetBody ≤ part.offsetEnd ∧ part.offsetEnd.val ≤ m.raw.length)) .invalid
  let body := (m.raw.drop part.offsetBody.val).take (part.offsetEnd.val - part.offsetBody.val)
  let (_, delimiters) ← (linesInclusive body).foldlM (m.frameLine boundary ids) (part.offsetBody.val, 0)
  refuseIf (delimiters ≠ ids.length + 1) .invalid

/-- What has been found so far. -/
structure Found where
  texts : ℕ
  htmls : ℕ
  cids : List Text

/-- A replacement character stands for what could not be decoded. -/
def decoded (t : Text) : Bool := '\uFFFD' ∉ t

variable [MailParser]

/-- The content of a part, by its kind. -/
def validateBody (m : MimeMessage) (found : Found) (part : MimePart) : Except CorrespondenceError Found :=
  match part.body with
  | .text t => do
    refuseIf (¬(part.contentType = none ∨ part.isType "text" "plain" = true) ∨ decoded t = false) .invalid
    .ok {found with texts := found.texts + 1}
  | .html t => do
    refuseIf (part.isType "text" "html" = false ∨ decoded t = false) .invalid
    .ok {found with htmls := found.htmls + 1}
  | .multipart ids => do
    refuseIf (¬(part.isType "multipart" "alternative" = true ∨ part.isType "multipart" "related" = true)) .invalid
    refuseIf (ids = [] ∨ ids.any (fun id => m.parts.length ≤ id.val) = true) .invalid
    m.validateFraming part ids
    .ok found
  | .inlineBinary bytes | .binary bytes => do
    refuseIf (part.raster = none ∨ bytes = []) .invalid
    let cid ← okOr part.contentId .invalid
    refuseIf (cid ∈ found.cids) .invalid
    .ok {found with cids := cid :: found.cids}
  | .message => .error .invalid

def validatePart (m : MimeMessage) (found : Found) (part : MimePart) : Except CorrespondenceError Found := do
  refuseIf (part.presentable = false) .invalid
  refuseIf (¬[MimeHeaderName.contentType, .contentTransferEncoding, .contentDisposition].all
    part.headerUnderstood) .invalid
  refuseIf (part.contentTransferEncoding.all part.encodingSupported = false) .invalid
  refuseIf (part.contentType.all MimeType.attributesDistinct = false) .invalid
  refuseIf (part.contentType.all MimeType.charsetSupported = false) .invalid
  m.validateBody found part

end MimeMessage

/-- Accepts only the supported complete MIME tree. -/
def validateMime [MailParser] (raw : Bytes) : Except CorrespondenceError MimeMessage := do
  refuseIf (raw = [] ∨ maxEmailBytes < raw.length) .invalid
  let message ← okOr (MailParser.parse raw) .invalid
  refuseIf (message.parts = [] ∨ maxEmailParts < message.parts.length) .invalid
  let found ← message.parts.foldlM message.validatePart ⟨0, 0, []⟩
  refuseIf (1 < found.texts ∨ 1 < found.htmls ∨ found.texts + found.htmls = 0) .invalid
  .ok message

/-! ### Delivery identity -/

namespace MimeMessage
variable [MailParser]

omit [MailParser] in
def texts (m : MimeMessage) : List Text := m.parts.filterMap fun part =>
  match part.body with
  | .text t => some t
  | _ => none

omit [MailParser] in
def htmls (m : MimeMessage) : List Text := m.parts.filterMap fun part =>
  match part.body with
  | .html t => some t
  | _ => none

/-- A picture under its content identifier. -/
def resource (part : MimePart) : Option (Text × ImageFormat × Bytes) :=
  match part.contentId, part.raster, part.body with
  | some cid, some kind, .binary bytes | some cid, some kind, .inlineBinary bytes => some (cid, kind, bytes)
  | _, _, _ => none

/-- The pictures by their content identifiers. -/
def resources (m : MimeMessage) : SortedMap Text (ImageFormat × Bytes) :=
  .ofList (m.parts.filterMap resource)

def deliveryField (tag : String) (value : Bytes) : Bytes := byteString tag ++ counted 8 value

def resourceBytes (r : Text × ImageFormat × Bytes) : Bytes :=
  deliveryField "cid" r.1.utf8 ++ deliveryField "kind" r.2.1.mimeType.utf8 ++ deliveryField "bytes" r.2.2

/-- What the delivery commitment is taken of. -/
def deliveryBytes (m : MimeMessage) : Bytes :=
  byteString "cs-mail/email-delivery-content/v1" ++ deliveryField "subject" (m.subject.getD []).utf8 ++
    m.texts.flatMap (fun t => deliveryField "text" t.utf8) ++
    m.htmls.flatMap (fun t => deliveryField "html" t.utf8) ++ m.resources.entries.flatMap resourceBytes

end MimeMessage

/-- Supplied MIME bytes, with the message they parse as. -/
structure EmailContent [MailParser] where
  mime : Bytes
  message : MimeMessage
  accepted : validateMime mime = .ok message

/-- Excludes transport headers and transfer encodings, but includes every representation and resource. -/
def EmailContent.deliveryCommitment [MailParser] [Crypto] (e : EmailContent) : Bytes32 :=
  Crypto.sha256 e.message.deliveryBytes

end CsMail
