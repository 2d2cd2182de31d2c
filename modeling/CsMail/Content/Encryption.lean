import CsMail.Capabilities.SigningBytes
import CsMail.External.Message
import Mathlib.Data.Set.Function

/-! Encrypted content and what it is bound to.

A ciphertext is authenticated together with its binding, written as bytes. The bytes are a bare
concatenation, and yet every binding is written differently (`ContentBinding.delimits_code`): all
fields but two have one width, declarations delimit themselves, and the lane comes last behind a
flag. So what opens under a binding was sealed under it (`decrypt_binding`). Bindings, certificates
and declarations are never written alike, for their labels differ. -/
namespace CsMail
open Library Library.PrefixCode

/-! ### HPKE -/

/-- The HPKE primitives the program calls, in authenticated mode. Key generation draws on the seed. -/
class Hpke where
  PrivateKey : Type
  PublicKey : Type
  EncappedKey : Type
  Context : Type
  Seed : Type
  privateToPublic : PrivateKey → PublicKey
  publicFromBytes : Bytes32 → Option PublicKey
  encappedFromBytes : Bytes → Option EncappedKey
  encappedToBytes : EncappedKey → Bytes
  /-- From the sender's keys, the recipient's key and the info string. -/
  setupSender : Seed → PrivateKey × PublicKey → PublicKey → Bytes → Option (EncappedKey × Context)
  /-- From the sender's key, the recipient's private key, the encapsulated key and the info string. -/
  setupReceiver : PublicKey → PrivateKey → EncappedKey → Bytes → Option Context
  /-- A plaintext under associated data. -/
  sealWith : Context → Bytes → Bytes → Option Bytes
  /-- A ciphertext under associated data. -/
  openWith : Context → Bytes → Bytes → Option Bytes

/-- Authenticated encryption: what opens under associated data was sealed under it. -/
def Hpke.Authenticates [Hpke] : Prop := ∀ (context context' : Hpke.Context) (plaintext plaintext' aad aad' c : Bytes),
  Hpke.sealWith context plaintext aad = some c → Hpke.openWith context' c aad' = some plaintext' → aad = aad'

/-! ### Bindings -/

inductive ContentError
  | plaintextTooLarge
  | invalidPublicKey
  | wrongRecipientKey
  | invalidCiphertext
  | invalidLifetime
  | invalidDeclaration
  | unsupportedWireVersion
  deriving DecidableEq

namespace SealedBinding

/-- `validate_binding`. -/
def validate (b : SealedBinding) : Except ContentError Unit := do
  refuseIf (b.wireVersion ≠ ⟨1⟩) .unsupportedWireVersion
  b.declarations.validate.mapError fun _ => .invalidDeclaration

/-- `binding_bytes`. -/
def bindingBytes (b : SealedBinding) : Except ContentError Bytes := do
  b.validate
  let declarations ← b.declarations.canonicalBytes.mapError fun _ => .invalidDeclaration
  .ok (byteString "cs-mail/content-binding/v2" ++ beBytes 2 b.wireVersion.val.val ++
    b.contentRef.toBeBytes ++ b.message.toBeBytes ++ b.sender.toBeBytes ++ b.recipient.toBeBytes ++
    beBytes 2 b.protocolVersion.val.val ++ beBytes 2 b.relationship.derivationVersion.val ++
    b.relationship.bytes.toList ++ beBytes 2 b.contentScope.derivationVersion.val ++
    b.contentScope.bytes.toList ++ b.senderCertificate.toList ++ declarations ++
    beBytes 8 b.messageValidUntil.time.val.val ++ match b.capability with
      | some lane => 1 :: lane.toBeBytes
      | none => [0])

end SealedBinding

structure ContentKeyVersion where
  val : U64
  deriving DecidableEq

structure ContentKeyCertificate where
  wireVersion : WireVersion
  protocolVersion : ProtocolVersion
  deploymentDomain : Bytes32
  intendedProvider : ProviderRef
  relationship : RelationshipRef
  owner : ProtocolIdentity
  operationalKey : OperationalKeyRef
  contentKeyVersion : ContentKeyVersion
  key : EndpointPublicKey
  validFrom : CanonicalTime
  validUntil : CanonicalTime
  deriving DecidableEq

/-- `content_key_certificate_bytes`. -/
def ContentKeyCertificate.bytes (c : ContentKeyCertificate) : Bytes :=
  byteString "cs-mail/content-key-certificate/v1" ++ beBytes 2 c.wireVersion.val.val ++
    beBytes 2 c.protocolVersion.val.val ++ c.deploymentDomain.toList ++ c.intendedProvider.toBeBytes ++
    beBytes 2 c.relationship.derivationVersion.val ++ c.relationship.bytes.toList ++ c.owner.toBeBytes ++
    c.operationalKey.toBeBytes ++ beBytes 8 c.contentKeyVersion.val.val ++ c.key.reference.toBeBytes ++
    c.key.bytes.toList ++ beBytes 8 c.validFrom.val.val ++ beBytes 8 c.validUntil.val.val

/-- `content_key_certificate_digest`. -/
def ContentKeyCertificate.digest [Crypto] (c : ContentKeyCertificate) : Bytes32 := Crypto.sha256 c.bytes

/-- `message_declaration_digest`. -/
def messageDeclarationDigest [Crypto] (d : MessageDeclarations) :
    Except ContentError MessageDeclarationDigest :=
  d.digest.mapError fun _ => .invalidDeclaration

/-! ### Encryption -/

def maxPlaintextBytes : ℕ := 32 * 1024 * 1024

section
variable [Hpke]

structure EndpointSecretKey where
  reference : ContentKeyRef
  secret : Hpke.PrivateKey

def info : Bytes := byteString "cs-mail/native-content/v1"

/-- Encrypts for one recipient and authenticates the binding. -/
def encrypt (seed : Hpke.Seed) (senderKey : EndpointSecretKey) (recipientKey : EndpointPublicKey)
    (binding : SealedBinding) (plaintext : Bytes) (createdAt expiresAt : CanonicalTime) :
    Except ContentError SealedRecord := do
  refuseIf (maxPlaintextBytes < plaintext.length) .plaintextTooLarge
  refuseIf (expiresAt ≤ createdAt ∨ binding.messageValidUntil.time ≤ createdAt) .invalidLifetime
  binding.validate
  let recipient ← okOr (Hpke.publicFromBytes recipientKey.bytes) .invalidPublicKey
  let (encapsulated, context) ← okOr (Hpke.setupSender seed
    (senderKey.secret, Hpke.privateToPublic senderKey.secret) recipient info) .invalidPublicKey
  let aad ← binding.bindingBytes
  let ciphertext ← okOr (Hpke.sealWith context plaintext aad) .invalidCiphertext
  .ok {
    binding
    envelope := {
      senderKey := senderKey.reference
      recipientKey := recipientKey.reference
      encapsulatedKey := Hpke.encappedToBytes encapsulated
      ciphertext}
    createdAt, expiresAt}

def decrypt (recipientKey : EndpointSecretKey) (senderKey : EndpointPublicKey) (record : SealedRecord) :
    Except ContentError Bytes := do
  refuseIf (recipientKey.reference ≠ record.envelope.recipientKey ∨
    senderKey.reference ≠ record.envelope.senderKey) .wrongRecipientKey
  let sender ← okOr (Hpke.publicFromBytes senderKey.bytes) .invalidPublicKey
  let encapsulated ← okOr (Hpke.encappedFromBytes record.envelope.encapsulatedKey) .invalidCiphertext
  let context ← okOr (Hpke.setupReceiver sender recipientKey.secret encapsulated info) .invalidCiphertext
  record.binding.validate
  let aad ← record.binding.bindingBytes
  okOr (Hpke.openWith context record.envelope.ciphertext aad) .invalidCiphertext

end

/-! ### Bindings are written apart -/

theorem ContentKeyVersion.delimits :
    Delimits (fun _ => True) fun v : ContentKeyVersion => beBytes 8 v.val.val :=
  delimits_fin (by decide) fun ⟨_⟩ ⟨_⟩ h => congrArg mk h

namespace SealedBinding

def label : Bytes := byteString "cs-mail/content-binding/v2"

def code (b : SealedBinding) : Bytes :=
  beBytes 2 b.wireVersion.val.val ++ (b.contentRef.toBeBytes ++ (b.message.toBeBytes ++ (b.sender.toBeBytes ++
    (b.recipient.toBeBytes ++ (beBytes 2 b.protocolVersion.val.val ++
    (beBytes 2 b.relationship.derivationVersion.val ++ (b.relationship.bytes.toList ++
    (beBytes 2 b.contentScope.derivationVersion.val ++ (b.contentScope.bytes.toList ++
    (b.senderCertificate.toList ++ (MessageDeclarations.label ++ (b.declarations.code ++
    (beBytes 8 b.messageValidUntil.time.val.val ++ PrefixCode.optional Ident.toBeBytes b.capability)))))))))))))

theorem validate_eq_ok {b : SealedBinding} :
    b.validate = .ok () ↔ b.wireVersion = ⟨1⟩ ∧ b.declarations.validate = .ok () := by
  simp only [validate, bind_eq_ok, refuseIf_eq_ok, not_not, mapError_eq_ok, exists_const]

theorem bindingBytes_eq_ok {b : SealedBinding} {out : Bytes} :
    b.bindingBytes = .ok out ↔ b.validate = .ok () ∧ out = label ++ b.code := by
  have hcapability : (match b.capability with
      | some lane => 1 :: lane.toBeBytes
      | none => [0]) = PrefixCode.optional Ident.toBeBytes b.capability := by
    cases b.capability <;> rfl
  constructor
  · intro h
    obtain ⟨⟨⟩, hvalid, h⟩ := bind_eq_ok.mp h
    obtain ⟨declarations, hdeclarations, h⟩ := bind_eq_ok.mp h
    obtain ⟨-, rfl⟩ := MessageDeclarations.canonicalBytes_eq_ok.mp (mapError_eq_ok.mp hdeclarations)
    refine ⟨hvalid, (Except.ok.inj h).symm.trans ?_⟩
    simp only [hcapability, label, code, List.append_assoc]
  · rintro ⟨hvalid, rfl⟩
    refine bind_eq_ok.mpr ⟨⟨⟩, hvalid, bind_eq_ok.mpr ⟨_, mapError_eq_ok.mpr
      (MessageDeclarations.canonicalBytes_eq_ok.mpr ⟨(validate_eq_ok.mp hvalid).2, rfl⟩), ?_⟩⟩
    simp only [hcapability, label, code, List.append_assoc]

theorem delimits_code : Delimits (fun b : SealedBinding => b.validate = .ok ()) code := by
  rintro ⟨⟨content, message, sender, recipient, protocol, ⟨derivation, relationship⟩, declarations, ⟨validity⟩,
      capability⟩, wire, ⟨scope, scopeBytes⟩, certificate⟩
    ⟨⟨content', message', sender', recipient', protocol', ⟨derivation', relationship'⟩, declarations', ⟨validity'⟩,
      capability'⟩, wire', ⟨scope', scopeBytes'⟩, certificate'⟩ s s' hb hb' heq
  have hdeclarations : declarations.validate = .ok () := (validate_eq_ok.mp hb).2
  have hdeclarations' : declarations'.validate = .ok () := (validate_eq_ok.mp hb').2
  simp only [code, List.append_assoc] at heq
  obtain ⟨hwire, heq⟩ := WireVersion.delimits trivial trivial heq
  obtain ⟨hcontent, heq⟩ := Ident.delimits_toBeBytes trivial trivial heq
  obtain ⟨hmessage, heq⟩ := Ident.delimits_toBeBytes trivial trivial heq
  obtain ⟨hsender, heq⟩ := Ident.delimits_toBeBytes trivial trivial heq
  obtain ⟨hrecipient, heq⟩ := Ident.delimits_toBeBytes trivial trivial heq
  obtain ⟨hprotocol, heq⟩ := ProtocolVersion.delimits trivial trivial heq
  obtain ⟨hderivation, heq⟩ := delimits_u16 trivial trivial heq
  obtain ⟨hrelationship, heq⟩ := delimits_bytes32 trivial trivial heq
  obtain ⟨hscope, heq⟩ := delimits_u16 trivial trivial heq
  obtain ⟨hscopeBytes, heq⟩ := delimits_bytes32 trivial trivial heq
  obtain ⟨hcertificate, heq⟩ := delimits_bytes32 trivial trivial heq
  have heq := List.append_cancel_left heq
  obtain ⟨hsamedeclarations, heq⟩ := MessageDeclarations.delimits_code hdeclarations hdeclarations' heq
  obtain ⟨huntil, heq⟩ := CanonicalTime.delimits trivial trivial heq
  obtain ⟨hcapability, heq⟩ := Ident.delimits_toBeBytes.optional (fun _ _ => trivial) (fun _ _ => trivial) heq
  rw [SealedBinding.mk.injEq, ContentBinding.mk.injEq, ScopedRef.mk.injEq, ContentScopeRef.mk.injEq,
    MessageValidityUntil.mk.injEq]
  exact ⟨⟨⟨hcontent, hmessage, hsender, hrecipient, hprotocol, ⟨hderivation, hrelationship⟩, hsamedeclarations,
    huntil, hcapability⟩, hwire, ⟨hscope, hscopeBytes⟩, hcertificate⟩, heq⟩

/-- Bindings written alike are one binding. -/
theorem bindingBytes_injective {b b' : SealedBinding} {bytes : Bytes} (h : b.bindingBytes = .ok bytes)
    (h' : b'.bindingBytes = .ok bytes) : b = b' := by
  obtain ⟨hvalid, rfl⟩ := bindingBytes_eq_ok.mp h
  obtain ⟨hvalid', heq⟩ := bindingBytes_eq_ok.mp h'
  exact delimits_code.injective hvalid hvalid' (List.append_cancel_left heq)

/-- Every binding that passes its check is written. -/
theorem bindingBytes_succeeds {b : SealedBinding} (h : b.validate = .ok ()) :
    b.bindingBytes = .ok (label ++ b.code) := bindingBytes_eq_ok.mpr ⟨h, rfl⟩

end SealedBinding

namespace ContentKeyCertificate

def label : Bytes := byteString "cs-mail/content-key-certificate/v1"

/-- Certificates written alike are one certificate. -/
theorem bytes_injective {c c' : ContentKeyCertificate} (heq : c.bytes = c'.bytes) : c = c' := by
  obtain ⟨wire, protocol, deployment, provider, ⟨derivation, relationship⟩, owner, operational, version,
    ⟨reference, key⟩, validFrom, validUntil⟩ := c
  obtain ⟨wire', protocol', deployment', provider', ⟨derivation', relationship'⟩, owner', operational', version',
    ⟨reference', key'⟩, validFrom', validUntil'⟩ := c'
  simp only [bytes, List.append_assoc] at heq
  replace heq := List.append_cancel_left heq
  obtain ⟨hwire, heq⟩ := WireVersion.delimits trivial trivial heq
  obtain ⟨hprotocol, heq⟩ := ProtocolVersion.delimits trivial trivial heq
  obtain ⟨hdeployment, heq⟩ := delimits_bytes32 trivial trivial heq
  obtain ⟨hprovider, heq⟩ := Ident.delimits_toBeBytes trivial trivial heq
  obtain ⟨hderivation, heq⟩ := delimits_u16 trivial trivial heq
  obtain ⟨hrelationship, heq⟩ := delimits_bytes32 trivial trivial heq
  obtain ⟨howner, heq⟩ := Ident.delimits_toBeBytes trivial trivial heq
  obtain ⟨hoperational, heq⟩ := Ident.delimits_toBeBytes trivial trivial heq
  obtain ⟨hversion, heq⟩ := ContentKeyVersion.delimits trivial trivial heq
  obtain ⟨hreference, heq⟩ := Ident.delimits_toBeBytes trivial trivial heq
  obtain ⟨hkey, heq⟩ := delimits_bytes32 trivial trivial heq
  obtain ⟨hfrom, heq⟩ := CanonicalTime.delimits trivial trivial heq
  have huntil := CanonicalTime.delimits.injective trivial trivial heq
  rw [ContentKeyCertificate.mk.injEq, ScopedRef.mk.injEq, EndpointPublicKey.mk.injEq]
  exact ⟨hwire, hprotocol, hdeployment, hprovider, ⟨hderivation, hrelationship⟩, howner, hoperational, hversion,
    ⟨hreference, hkey⟩, hfrom, huntil⟩

end ContentKeyCertificate

/-! ### The three kinds are written apart -/

/-- The labels of the three kinds differ within their first seventeen bytes. -/
theorem binding_label_ne_certificate {l l' : Bytes} : SealedBinding.label ++ l ≠ ContentKeyCertificate.label ++ l' :=
  labels_apart (n := 17) (by decide) (by decide) (by decide)

theorem binding_label_ne_declarations {l l' : Bytes} : SealedBinding.label ++ l ≠ MessageDeclarations.label ++ l' :=
  labels_apart (n := 17) (by decide) (by decide) (by decide)

theorem certificate_label_ne_declarations {l l' : Bytes} :
    ContentKeyCertificate.label ++ l ≠ MessageDeclarations.label ++ l' :=
  labels_apart (n := 17) (by decide) (by decide) (by decide)

theorem ContentKeyCertificate.bytes_eq (c : ContentKeyCertificate) : ∃ l, c.bytes = label ++ l := by
  simp only [bytes, List.append_assoc]
  exact ⟨_, rfl⟩

/-! ### What opens was sealed under its binding -/

section
variable [Hpke]

theorem encrypt_sealed {seed : Hpke.Seed} {senderKey : EndpointSecretKey} {recipientKey : EndpointPublicKey}
    {binding : SealedBinding} {plaintext : Bytes} {createdAt expiresAt : CanonicalTime} {record : SealedRecord}
    (h : encrypt seed senderKey recipientKey binding plaintext createdAt expiresAt = .ok record) :
    record.binding = binding ∧ ∃ context aad, binding.bindingBytes = .ok aad ∧
      Hpke.sealWith context plaintext aad = some record.envelope.ciphertext := by
  obtain ⟨⟨⟩, -, h⟩ := bind_eq_ok.mp h
  obtain ⟨⟨⟩, -, h⟩ := bind_eq_ok.mp h
  obtain ⟨⟨⟩, -, h⟩ := bind_eq_ok.mp h
  obtain ⟨recipient, -, h⟩ := bind_eq_ok.mp h
  obtain ⟨⟨encapsulated, context⟩, -, h⟩ := bind_eq_ok.mp h
  obtain ⟨aad, haad, h⟩ := bind_eq_ok.mp h
  obtain ⟨ciphertext, hseal, h⟩ := bind_eq_ok.mp h
  obtain rfl := Except.ok.inj h
  exact ⟨rfl, context, aad, haad, okOr_eq_ok.mp hseal⟩

theorem decrypt_opened {recipientKey : EndpointSecretKey} {senderKey : EndpointPublicKey} {record : SealedRecord}
    {plaintext : Bytes} (h : decrypt recipientKey senderKey record = .ok plaintext) :
    ∃ context aad, record.binding.bindingBytes = .ok aad ∧
      Hpke.openWith context record.envelope.ciphertext aad = some plaintext := by
  obtain ⟨⟨⟩, -, h⟩ := bind_eq_ok.mp h
  obtain ⟨sender, -, h⟩ := bind_eq_ok.mp h
  obtain ⟨encapsulated, -, h⟩ := bind_eq_ok.mp h
  obtain ⟨context, -, h⟩ := bind_eq_ok.mp h
  obtain ⟨⟨⟩, -, h⟩ := bind_eq_ok.mp h
  obtain ⟨aad, haad, h⟩ := bind_eq_ok.mp h
  exact ⟨context, aad, haad, okOr_eq_ok.mp h⟩

/-- A ciphertext opens under the binding it was sealed under and no other. -/
theorem decrypt_binding (hauthenticates : Hpke.Authenticates) {seed : Hpke.Seed} {senderKey : EndpointSecretKey}
    {recipientKey : EndpointPublicKey} {binding : SealedBinding} {plaintext : Bytes}
    {createdAt expiresAt : CanonicalTime} {record : SealedRecord}
    (hencrypt : encrypt seed senderKey recipientKey binding plaintext createdAt expiresAt = .ok record)
    {openingKey : EndpointSecretKey} {claimedKey : EndpointPublicKey} {record' : SealedRecord} {plaintext' : Bytes}
    (hciphertext : record'.envelope.ciphertext = record.envelope.ciphertext)
    (hdecrypt : decrypt openingKey claimedKey record' = .ok plaintext') : record'.binding = binding := by
  obtain ⟨-, context, aad, haad, hseal⟩ := encrypt_sealed hencrypt
  obtain ⟨context', aad', haad', hopen⟩ := decrypt_opened hdecrypt
  rw [hciphertext] at hopen
  obtain rfl := hauthenticates _ _ _ _ _ _ _ hseal hopen
  exact SealedBinding.bindingBytes_injective haad' haad

end

/-! ### Content is unambiguous -/

theorem messageDeclarationDigest_eq_ok [Crypto] {d : MessageDeclarations} {digest : MessageDeclarationDigest} :
    messageDeclarationDigest d = .ok digest ↔
      ∃ bytes, d.canonicalBytes = .ok bytes ∧ digest = ⟨Crypto.sha256 bytes⟩ := by
  simp only [messageDeclarationDigest, MessageDeclarations.digest, mapError_eq_ok, bind_eq_ok, Except.ok.injEq,
    eq_comm (b := digest)]

/-- Bindings, certificates and declarations are written apart, and a ciphertext opens under its own
binding. Digests are as distinct as the strings they are taken of, where SHA-256 keeps those apart. -/
structure ContentUnambiguous [Crypto] [Hpke] : Prop where
  written : ∀ b : SealedBinding, b.validate = .ok () → ∃ bytes, b.bindingBytes = .ok bytes
  binding : ∀ (b b' : SealedBinding) (bytes : Bytes), b.bindingBytes = .ok bytes → b'.bindingBytes = .ok bytes →
    b = b'
  opened : ∀ (seed : Hpke.Seed) (senderKey : EndpointSecretKey) (recipientKey : EndpointPublicKey)
    (b : SealedBinding) (plaintext : Bytes) (createdAt expiresAt : CanonicalTime) (record : SealedRecord),
    encrypt seed senderKey recipientKey b plaintext createdAt expiresAt = .ok record →
      ∀ (openingKey : EndpointSecretKey) (claimedKey : EndpointPublicKey) (record' : SealedRecord)
        (plaintext' : Bytes), record'.envelope.ciphertext = record.envelope.ciphertext →
        decrypt openingKey claimedKey record' = .ok plaintext' → record'.binding = b
  certificate : ∀ c c' : ContentKeyCertificate, c.bytes = c'.bytes → c = c'
  binding_certificate : ∀ (b : SealedBinding) (c : ContentKeyCertificate), b.bindingBytes ≠ .ok c.bytes
  binding_declarations : ∀ (b : SealedBinding) (d : MessageDeclarations) (bytes : Bytes),
    b.bindingBytes = .ok bytes → d.canonicalBytes ≠ .ok bytes
  certificate_declarations : ∀ (c : ContentKeyCertificate) (d : MessageDeclarations), d.canonicalBytes ≠ .ok c.bytes
  certificate_digest : ∀ c c' : ContentKeyCertificate, Set.InjOn Crypto.sha256 {c.bytes, c'.bytes} →
    c.digest = c'.digest → c = c'
  declarations_digest : ∀ (d d' : MessageDeclarations) (bytes bytes' : Bytes) (digest : MessageDeclarationDigest),
    d.canonicalBytes = .ok bytes → d'.canonicalBytes = .ok bytes' → Set.InjOn Crypto.sha256 {bytes, bytes'} →
      messageDeclarationDigest d = .ok digest → messageDeclarationDigest d' = .ok digest → d = d'
  digests : ∀ (c : ContentKeyCertificate) (d : MessageDeclarations) (bytes : Bytes), d.canonicalBytes = .ok bytes →
    Set.InjOn Crypto.sha256 {c.bytes, bytes} → messageDeclarationDigest d ≠ .ok ⟨c.digest⟩

theorem declarations_injective {d d' : MessageDeclarations} {bytes : Bytes} (h : d.canonicalBytes = .ok bytes)
    (h' : d'.canonicalBytes = .ok bytes) : d = d' := by
  obtain ⟨hvalid, rfl⟩ := MessageDeclarations.canonicalBytes_eq_ok.mp h
  obtain ⟨hvalid', heq⟩ := MessageDeclarations.canonicalBytes_eq_ok.mp h'
  exact MessageDeclarations.delimits_code.injective hvalid hvalid' (List.append_cancel_left heq)

theorem certificate_ne_declarations (c : ContentKeyCertificate) (d : MessageDeclarations) :
    d.canonicalBytes ≠ .ok c.bytes := by
  intro h
  obtain ⟨-, heq⟩ := MessageDeclarations.canonicalBytes_eq_ok.mp h
  obtain ⟨l, hl⟩ := c.bytes_eq
  exact certificate_label_ne_declarations (hl.symm.trans heq)

/-- **Content binding is unambiguous.** -/
theorem content_unambiguous [Crypto] [Hpke] (hauthenticates : Hpke.Authenticates) : ContentUnambiguous where
  written _ h := ⟨_, SealedBinding.bindingBytes_succeeds h⟩
  binding _ _ _ h h' := SealedBinding.bindingBytes_injective h h'
  opened _ _ _ _ _ _ _ _ hencrypt _ _ _ _ hciphertext hdecrypt :=
    decrypt_binding hauthenticates hencrypt hciphertext hdecrypt
  certificate _ _ h := ContentKeyCertificate.bytes_injective h
  binding_certificate b c h := by
    obtain ⟨-, heq⟩ := SealedBinding.bindingBytes_eq_ok.mp h
    obtain ⟨l, hl⟩ := c.bytes_eq
    exact binding_label_ne_certificate (heq.symm.trans hl)
  binding_declarations b d bytes h h' := by
    obtain ⟨-, rfl⟩ := SealedBinding.bindingBytes_eq_ok.mp h
    obtain ⟨-, heq⟩ := MessageDeclarations.canonicalBytes_eq_ok.mp h'
    exact binding_label_ne_declarations heq
  certificate_declarations := certificate_ne_declarations
  certificate_digest c c' hsha hdigest :=
    ContentKeyCertificate.bytes_injective (hsha (Set.mem_insert ..) (Set.mem_insert_of_mem _ rfl) hdigest)
  declarations_digest d d' bytes bytes' digest h h' hsha hdigest hdigest' := by
    obtain ⟨_, hbytes, rfl⟩ := messageDeclarationDigest_eq_ok.mp hdigest
    obtain ⟨_, hbytes', hsame⟩ := messageDeclarationDigest_eq_ok.mp hdigest'
    obtain rfl := Except.ok.inj (h.symm.trans hbytes)
    obtain rfl := Except.ok.inj (h'.symm.trans hbytes')
    have heq : bytes = bytes' :=
      hsha (Set.mem_insert ..) (Set.mem_insert_of_mem _ rfl) ((MessageDeclarationDigest.mk.injEq ..).mp hsame)
    exact declarations_injective h (heq ▸ h')
  digests c d bytes h hsha hdigest := by
    obtain ⟨_, hbytes, hsame⟩ := messageDeclarationDigest_eq_ok.mp hdigest
    obtain rfl := Except.ok.inj (h.symm.trans hbytes)
    have heq : c.bytes = bytes :=
      hsha (Set.mem_insert ..) (Set.mem_insert_of_mem _ rfl) ((MessageDeclarationDigest.mk.injEq ..).mp hsame)
    exact certificate_ne_declarations c d (heq ▸ h)

namespace Content.Example

/-- Bytes behind marks, and a mark that ends them. -/
def marked : Bytes → Bytes
  | [] => [0]
  | b :: rest => 1 :: b :: marked rest

theorem delimits_marked : Delimits (fun _ => True) marked := by
  intro aad aad' s s' _ _ heq
  induction aad generalizing aad' with
  | nil =>
    cases aad' with
    | nil => exact ⟨rfl, List.tail_eq_of_cons_eq heq⟩
    | cons b rest => exact absurd (List.head_eq_of_cons_eq heq) (by decide)
  | cons b rest ih =>
    cases aad' with
    | nil => exact absurd (List.head_eq_of_cons_eq heq) (by decide)
    | cons b' rest' =>
      have heq := List.tail_eq_of_cons_eq heq
      obtain ⟨hrest, hs⟩ := ih (List.tail_eq_of_cons_eq heq)
      exact ⟨by rw [List.head_eq_of_cons_eq heq, hrest], hs⟩

/-- Encryption that shows its associated data and its plaintext, and checks the former. -/
@[reducible] def hpke : Hpke where
  PrivateKey := Unit
  PublicKey := Unit
  EncappedKey := Unit
  Context := Unit
  Seed := Unit
  privateToPublic := id
  publicFromBytes _ := some ()
  encappedFromBytes _ := some ()
  encappedToBytes _ := []
  setupSender _ _ _ _ := some ((), ())
  setupReceiver _ _ _ _ := some ()
  sealWith _ plaintext aad := some (marked aad ++ plaintext)
  openWith _ c aad := if marked aad <+: c then some (c.drop (marked aad).length) else none

theorem authenticates : @Hpke.Authenticates hpke := by
  intro _ _ plaintext plaintext' aad aad' c hseal hopen
  obtain rfl := Option.some.inj hseal
  replace hopen : (if marked aad' <+: marked aad ++ plaintext then
    some ((marked aad ++ plaintext).drop (marked aad').length) else none) = some plaintext' := hopen
  split_ifs at hopen with hprefix
  obtain ⟨rest, hrest⟩ := hprefix
  exact (delimits_marked trivial trivial hrest.symm).1

@[reducible] def crypto : Crypto := ⟨fun _ => zero32, fun _ => true, fun _ _ _ => true⟩

end Content.Example

theorem content_unambiguous_marked : @ContentUnambiguous Content.Example.crypto Content.Example.hpke :=
  @content_unambiguous Content.Example.crypto Content.Example.hpke Content.Example.authenticates

end CsMail
