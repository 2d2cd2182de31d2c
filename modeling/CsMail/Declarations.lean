import CsMail.Finance.Payments

/-! What a message declares about itself: its purpose, its origin and its schema.

The digest fixed by request terms and checked at admission hashes the canonical
bytes written here. -/
namespace CsMail
open Library

inductive DeclarationError
  | invalidIdentifier
  | unsupportedLegacyOrigin
  | unsupportedGuestOrigin
  deriving DecidableEq

inductive KnownPurpose
  | personal
  | transactional
  | request
  | bulk
  deriving DecidableEq

def KnownPurpose.code : KnownPurpose → UInt8
  | personal => 0
  | transactional => 1
  | request => 2
  | bulk => 3

structure NamespacedIdentifier where
  namespaceName : Text
  name : Text
  version : U16
  deriving DecidableEq

def validIdentifierComponent (value : Text) : Bool :=
  let bytes := value.utf8
  !bytes.isEmpty && bytes.length ≤ 64 && bytes.all fun b =>
    (97 ≤ b && b ≤ 122) || (48 ≤ b && b ≤ 57) || b = 46 || b = 45 || b = 95

def pushDeclarationBytes (target value : Bytes) : Except DeclarationError Bytes := do
  refuseIf (2 ^ 16 ≤ value.length) .invalidIdentifier
  .ok (target ++ beBytes 2 value.length ++ value)

namespace NamespacedIdentifier

/-- Validates the bounded identifier grammar. -/
def validate (i : NamespacedIdentifier) : Except DeclarationError Unit :=
  refuseIf (i.version = 0 ∨ validIdentifierComponent i.namespaceName = false ∨
    validIdentifierComponent i.name = false) .invalidIdentifier

def appendCanonical (i : NamespacedIdentifier) (bytes : Bytes) : Except DeclarationError Bytes := do
  i.validate
  let bytes ← pushDeclarationBytes bytes i.namespaceName.utf8
  let bytes ← pushDeclarationBytes bytes i.name.utf8
  .ok (bytes ++ beBytes 2 i.version.val)

end NamespacedIdentifier

inductive DeclaredPurpose
  | unspecified
  | known (purpose : KnownPurpose)
  | extension (identifier : NamespacedIdentifier)
  deriving DecidableEq

namespace DeclaredPurpose

def validate : DeclaredPurpose → Except DeclarationError Unit
  | extension identifier => identifier.validate
  | _ => .ok ()

def appendCanonical (p : DeclaredPurpose) (bytes : Bytes) : Except DeclarationError Bytes := do
  p.validate
  match p with
  | unspecified => .ok (bytes ++ [0])
  | known purpose => .ok (bytes ++ [1, purpose.code])
  | extension identifier => identifier.appendCanonical (bytes ++ [2])

end DeclaredPurpose

inductive OriginMode
  | humanInitiated
  | agentDraftHumanApproved
  | autonomousAgent
  | automatedSystem
  | legacyOrUnspecified
  deriving DecidableEq

def OriginMode.code : OriginMode → UInt8
  | humanInitiated => 0
  | agentDraftHumanApproved => 1
  | autonomousAgent => 2
  | automatedSystem => 3
  | legacyOrUnspecified => 4

inductive DeclarationAuthority
  | nativeSender (key : OperationalKeyRef)
  | legacyGateway (provider : ProviderRef)
  | guestGateway (provider : ProviderRef)
  | guestSmtp (provider : ProviderRef)
  deriving DecidableEq

def DeclarationAuthority.canonicalBytes : DeclarationAuthority → Bytes
  | nativeSender key => 0 :: key.toBeBytes
  | legacyGateway provider => 1 :: provider.toBeBytes
  | guestGateway provider => 2 :: provider.toBeBytes
  | guestSmtp provider => 3 :: provider.toBeBytes

structure OriginDeclaration where
  mode : OriginMode
  authority : DeclarationAuthority
  deriving DecidableEq

inductive ExtensionCriticality
  | nonCritical
  | critical
  deriving DecidableEq

def ExtensionCriticality.code : ExtensionCriticality → UInt8
  | nonCritical => 0
  | critical => 1

structure PayloadSchema where
  id : NamespacedIdentifier
  criticality : ExtensionCriticality
  deriving DecidableEq

def PayloadSchema.appendCanonical (s : PayloadSchema) (bytes : Bytes) :
    Except DeclarationError Bytes := do
  s.id.validate
  let bytes ← s.id.appendCanonical bytes
  .ok (bytes ++ [s.criticality.code])

structure MessageDeclarations where
  purpose : DeclaredPurpose
  origin : OriginDeclaration
  payloadSchema : Option PayloadSchema
  deriving DecidableEq

namespace MessageDeclarations

/-- Validates every declaration and the authority-specific provenance rules. -/
def validate (d : MessageDeclarations) : Except DeclarationError Unit := do
  d.purpose.validate
  match d.payloadSchema with
  | some schema => schema.id.validate
  | none => .ok ()
  match d.origin.authority with
  | .legacyGateway _ =>
    refuseIf (d.origin.mode ≠ .legacyOrUnspecified) .unsupportedLegacyOrigin
  | .guestSmtp _ => refuseIf (d.origin.mode ≠ .legacyOrUnspecified) .unsupportedGuestOrigin
  | .guestGateway _ => refuseIf (d.origin.mode ≠ .humanInitiated) .unsupportedGuestOrigin
  | .nativeSender _ => .ok ()

def canonicalBytes (d : MessageDeclarations) : Except DeclarationError Bytes := do
  d.validate
  let bytes ← d.purpose.appendCanonical (byteString "cs-mail/message-declarations/v1")
  let bytes := bytes ++ [d.origin.mode.code] ++ d.origin.authority.canonicalBytes
  match d.payloadSchema with
  | some schema => schema.appendCanonical (bytes ++ [1])
  | none => .ok (bytes ++ [0])

/-- The declaration digest fixed by contact terms and checked at admission. -/
def digest [Crypto] (d : MessageDeclarations) : Except DeclarationError MessageDeclarationDigest := do
  let bytes ← d.canonicalBytes
  .ok ⟨Crypto.sha256 bytes⟩

end MessageDeclarations
end CsMail
