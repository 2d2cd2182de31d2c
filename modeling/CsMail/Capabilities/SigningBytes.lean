import CsMail.Capabilities.Lane
import CsMail.Library.PrefixCode

/-! The bytes a grant, an admission and a declaration are signed or hashed as.

Every writer appends to what is already there and stops with an error where a value has
no representation. Beside each writer stands what it appends (`code`): the writer
succeeds on the representable values alone and appends their code, and every code
delimits its values. -/
namespace CsMail
open Library Library.PrefixCode

/-! ### Writers -/

def pushBytes (target bytes : Bytes) : Except CapabilityError Bytes := do
  refuseIf (2 ^ 32 ≤ bytes.length) .invalidGrant
  .ok (target ++ beBytes 4 bytes.length ++ bytes)

def LaneSubject.appendSigningBytes (s : LaneSubject) (bytes : Bytes) : Except CapabilityError Bytes :=
  match s with
  | guestMailbox identity => .ok (bytes ++ [2] ++ identity.toBeBytes)
  | native handle => .ok (bytes ++ [0] ++ handle.bytes.toList)
  | legacyDomain domain => pushBytes (bytes ++ [1]) domain.name.utf8

def DeclarationAuthorityConstraint.code : DeclarationAuthorityConstraint → UInt8
  | nativeSender => 0
  | legacyGateway => 1
  | guestGateway => 2

def LaneMode.code : LaneMode → UInt8
  | expiring => 0
  | persistent => 1

/-- The domain-separated canonical grant representation. -/
def SenderScopedGrant.signingBytes (g : SenderScopedGrant) : Except CapabilityError Bytes := do
  g.validate
  let bytes ← g.subject.appendSigningBytes (byteString "cs-mail/lane-grant/v2" ++ g.id.toBeBytes)
  let bytes := bytes ++ g.sender.toBeBytes ++ g.recipient.toBeBytes ++
    beBytes 2 g.protocolVersion.val.val ++ g.deploymentDomain.toList ++
    g.intendedProvider.toBeBytes ++ g.recipientOperationalKey.toBeBytes
  let bytes ← (g.purpose.appendCanonical bytes).mapError fun _ => .invalidDeclaration
  let bytes := bytes ++ (match g.origin with
    | some origin => [1, origin.code]
    | none => [0])
  .ok (bytes ++ [g.declarationAuthority.code] ++ beBytes 8 g.lifetime.val.val ++
    beBytes 4 g.rateLimit.maxMessages.val ++ beBytes 8 g.rateLimit.interval.val.val ++
    [g.mode.code] ++ beBytes 8 g.issuedAt.val.val ++ beBytes 8 g.notBefore.val.val ++
    beBytes 8 g.notAfter.val.val ++ beBytes 8 g.version.val.val)

def DmarcAlignment.code : DmarcAlignment → UInt8
  | strict => 0
  | relaxed => 1

def appendDmarcPass (bytes : Bytes) : Option DmarcPass → Bytes
  | some pass => bytes ++ [1] ++ [pass.alignment.code]
  | none => bytes ++ [0]

def LaneEvidence.appendSigningBytes (e : LaneEvidence) (bytes : Bytes) :
    Except CapabilityError Bytes :=
  match e with
  | guestMailbox identity => .ok (bytes ++ [2] ++ identity.toBeBytes)
  | native handle => .ok (bytes ++ [0] ++ handle.bytes.toList)
  | legacy evidence => do
    let bytes ← pushBytes (bytes ++ [1] ++ beBytes 2 evidence.formatVersion.val)
      evidence.laneDomain.name.utf8
    let bytes ← pushBytes bytes evidence.verification.authorDomain.name.utf8
    let bytes := appendDmarcPass bytes evidence.verification.dkim
    let bytes := appendDmarcPass bytes evidence.verification.spf
    .ok (bytes ++ beBytes 8 evidence.verification.evaluatedAt.val.val)

/-- Whether the authority behind the declarations is the one that authenticates. -/
def AdmissionAuthentication.supports (provider : ProviderRef) :
    AdmissionAuthentication → DeclarationAuthority → Bool
  | nativeKey expected, .nativeSender actual => expected = actual
  | legacyDmarc, .legacyGateway actual => actual = provider
  | _, _ => false

namespace BondFreeAdmission

def validate (a : BondFreeAdmission) : Except CapabilityError Unit := do
  refuseIf (a.wireVersion ≠ ⟨1⟩) .unsupportedWireVersion
  a.declarations.validate.mapError fun _ => .invalidDeclaration
  refuseIf (a.authentication.supports a.intendedProvider a.declarations.origin.authority = false)
    .invalidDeclaration

/-- The evidence of the admission, behind its flag. -/
def appendEvidence (a : BondFreeAdmission) (bytes : Bytes) : Except CapabilityError Bytes :=
  match a.evidence with
  | some evidence => evidence.appendSigningBytes (bytes ++ [1])
  | none => .ok (bytes ++ [0])

/-- The domain-separated canonical admission representation. -/
def signingBytes (a : BondFreeAdmission) : Except CapabilityError Bytes := do
  a.validate
  let declarations ← a.declarations.canonicalBytes.mapError fun _ => .invalidDeclaration
  let bytes := byteString "cs-mail/bond-free-admission/v2" ++ beBytes 2 a.wireVersion.val.val ++
    a.sender.toBeBytes ++ a.recipient.toBeBytes ++ a.message.toBeBytes ++ a.content.toBeBytes ++
    a.deliveryIntent.toBeBytes ++ declarations ++ beBytes 8 a.messageValidUntil.time.val.val
  let bytes := bytes ++ (match a.capability with
    | some lane => [1] ++ lane.toBeBytes
    | none => [0])
  let bytes ← a.appendEvidence bytes
  let bytes := bytes ++ a.idempotencyKey.toBeBytes ++ beBytes 2 a.protocolVersion.val.val ++
    a.deploymentDomain.toList ++ a.intendedProvider.toBeBytes
  .ok (bytes ++ match a.authentication with
    | .nativeKey key => [0] ++ key.toBeBytes
    | .legacyDmarc => [1])

end BondFreeAdmission

/-! ### Values of fixed width -/

/-- A machine integer written in as many bytes as it has. -/
theorem delimits_fin {α : Type*} {n w : ℕ} {field : α → Fin n} (hn : n = 256 ^ w)
    (hfield : Function.Injective field) :
    Delimits (fun _ => True) fun a => beBytes w (field a).val := by
  apply delimits_of_length fun a => beBytes_length w (field a).val
  intro a a' _ _ heq
  apply hfield
  apply Fin.ext
  exact beBytes_injective (hn ▸ (field a).isLt) (hn ▸ (field a').isLt) heq

theorem Ident.delimits_toBeBytes {k : IdentKind} :
    Delimits (fun _ => True) (Ident.toBeBytes (k := k)) :=
  delimits_fin (by decide) Ident.val_injective

theorem delimits_u16 : Delimits (fun _ => True) fun x : U16 => beBytes 2 x.val :=
  delimits_fin (by decide) Function.injective_id

theorem delimits_u32 : Delimits (fun _ => True) fun x : U32 => beBytes 4 x.val :=
  delimits_fin (by decide) Function.injective_id

theorem ProtocolVersion.delimits : Delimits (fun _ => True) fun v : ProtocolVersion => beBytes 2 v.val.val :=
  delimits_fin (by decide) fun ⟨_⟩ ⟨_⟩ h => congrArg mk h

theorem WireVersion.delimits : Delimits (fun _ => True) fun v : WireVersion => beBytes 2 v.val.val :=
  delimits_fin (by decide) fun ⟨_⟩ ⟨_⟩ h => congrArg mk h

theorem Duration.delimits : Delimits (fun _ => True) fun d : Duration => beBytes 8 d.val.val :=
  delimits_fin (by decide) val_injective

theorem CanonicalTime.delimits : Delimits (fun _ => True) fun t : CanonicalTime => beBytes 8 t.val.val :=
  delimits_fin (by decide) val_injective

theorem Counter.delimits {k : CounterKind} :
    Delimits (fun _ => True) fun c : Counter k => beBytes 8 c.val.val :=
  delimits_fin (by decide) val_injective

theorem delimits_bytes32 : Delimits (fun _ => True) fun b : Bytes32 => b.toList :=
  delimits_of_length (w := 32) (fun b => by simp) fun _ _ _ _ heq => Vector.toList_inj.mp heq

theorem Text.utf8_injective : Function.Injective Text.utf8 := by
  intro t t' heq
  have hread : ∀ text : Text, (Text.utf8 text).toByteArray.utf8Decode?.map Array.toList = some text := by
    intro text
    rw [show (Text.utf8 text).toByteArray = text.utf8Encode from rfl, List.utf8Decode?_utf8Encode]
    rfl
  have hsame := hread t
  rw [heq, hread t'] at hsame
  exact (Option.some.inj hsame).symm

/-- A text behind the length of its UTF-8. -/
theorem Text.delimits_counted (w : ℕ) :
    Delimits (fun t : Text => t.utf8.length < 256 ^ w) fun t => counted w t.utf8 := by
  intro t t' s s' ht ht' heq
  obtain ⟨hbytes, hrest⟩ := PrefixCode.delimits_counted w ht ht' heq
  exact ⟨Text.utf8_injective hbytes, hrest⟩

/-! ### Declarations -/

theorem KnownPurpose.code_injective : Function.Injective code := by
  intro p p' heq
  cases p <;> cases p' <;> first | rfl | exact absurd heq (by decide)

theorem OriginMode.code_injective : Function.Injective code := by
  intro m m' heq
  cases m <;> cases m' <;> first | rfl | exact absurd heq (by decide)

theorem ExtensionCriticality.code_injective : Function.Injective code := by
  intro c c' heq
  cases c <;> cases c' <;> first | rfl | exact absurd heq (by decide)

theorem pushDeclarationBytes_eq_ok {target value out : Bytes} :
    pushDeclarationBytes target value = .ok out ↔
      value.length < 2 ^ 16 ∧ out = target ++ counted 2 value := by
  simp only [pushDeclarationBytes, bind_eq_ok, refuseIf_eq_ok, Except.ok.injEq, not_le, counted,
    List.append_assoc, exists_const, eq_comm (a := out)]

namespace NamespacedIdentifier

def code (i : NamespacedIdentifier) : Bytes :=
  counted 2 i.namespaceName.utf8 ++ (counted 2 i.name.utf8 ++ beBytes 2 i.version.val)

theorem short_of_validComponent {t : Text} (h : validIdentifierComponent t = true) :
    t.utf8.length < 2 ^ 16 := by
  simp only [validIdentifierComponent, Bool.and_eq_true, decide_eq_true_eq] at h
  omega

theorem short_of_validate {i : NamespacedIdentifier} (h : i.validate = .ok ()) :
    i.namespaceName.utf8.length < 2 ^ 16 ∧ i.name.utf8.length < 2 ^ 16 := by
  simp only [validate, refuseIf_eq_ok, not_or, Bool.not_eq_false] at h
  exact ⟨short_of_validComponent h.2.1, short_of_validComponent h.2.2⟩

theorem appendCanonical_eq_ok {i : NamespacedIdentifier} {bytes out : Bytes} :
    i.appendCanonical bytes = .ok out ↔ i.validate = .ok () ∧ out = bytes ++ i.code := by
  constructor
  · intro h
    obtain ⟨⟨⟩, hvalid, h⟩ := bind_eq_ok.mp h
    obtain ⟨named, hnamed, h⟩ := bind_eq_ok.mp h
    obtain ⟨both, hboth, h⟩ := bind_eq_ok.mp h
    obtain ⟨-, rfl⟩ := pushDeclarationBytes_eq_ok.mp hnamed
    obtain ⟨-, rfl⟩ := pushDeclarationBytes_eq_ok.mp hboth
    cases h
    exact ⟨hvalid, by simp only [code, List.append_assoc]⟩
  · rintro ⟨hvalid, rfl⟩
    obtain ⟨hspace, hname⟩ := short_of_validate hvalid
    rw [appendCanonical, hvalid, ok_bind, pushDeclarationBytes_eq_ok.mpr ⟨hspace, rfl⟩, ok_bind,
      pushDeclarationBytes_eq_ok.mpr ⟨hname, rfl⟩, ok_bind]
    simp only [code, List.append_assoc]

theorem delimits_code : Delimits (fun i : NamespacedIdentifier => i.validate = .ok ()) code := by
  rintro ⟨space, name, version⟩ ⟨space', name', version'⟩ s s' hi hi' heq
  obtain ⟨hspace, hname⟩ : space.utf8.length < 2 ^ 16 ∧ name.utf8.length < 2 ^ 16 :=
    short_of_validate hi
  obtain ⟨hspace', hname'⟩ : space'.utf8.length < 2 ^ 16 ∧ name'.utf8.length < 2 ^ 16 :=
    short_of_validate hi'
  simp only [code, List.append_assoc] at heq
  obtain ⟨hsamespace, heq⟩ := Text.delimits_counted 2 hspace hspace' heq
  obtain ⟨hsamename, heq⟩ := Text.delimits_counted 2 hname hname' heq
  obtain ⟨hversion, heq⟩ := delimits_u16 trivial trivial heq
  exact ⟨by subst_vars; rfl, heq⟩

end NamespacedIdentifier

namespace DeclaredPurpose

def code : DeclaredPurpose → Bytes
  | unspecified => [0]
  | known purpose => [1, purpose.code]
  | extension identifier => 2 :: identifier.code

theorem appendCanonical_eq_ok {p : DeclaredPurpose} {bytes out : Bytes} :
    p.appendCanonical bytes = .ok out ↔ p.validate = .ok () ∧ out = bytes ++ p.code := by
  cases p with
  | unspecified => simp [appendCanonical, validate, code, eq_comm]
  | known purpose => simp [appendCanonical, validate, code, eq_comm]
  | extension identifier =>
    have hbytes : bytes ++ [2] ++ identifier.code = bytes ++ (extension identifier).code := by
      simp [code]
    rw [← hbytes]
    constructor
    · intro h
      obtain ⟨⟨⟩, -, h⟩ := bind_eq_ok.mp h
      exact NamespacedIdentifier.appendCanonical_eq_ok.mp h
    · rintro ⟨hvalid, rfl⟩
      exact bind_eq_ok.mpr ⟨⟨⟩, hvalid, NamespacedIdentifier.appendCanonical_eq_ok.mpr ⟨hvalid, rfl⟩⟩

theorem delimits_code : Delimits (fun p : DeclaredPurpose => p.validate = .ok ()) code := by
  intro p p' s s' hp hp' heq
  cases p <;> cases p' <;> first | exact absurd (List.head_eq_of_cons_eq heq) (by decide) | skip
  case unspecified.unspecified => exact ⟨rfl, List.tail_eq_of_cons_eq heq⟩
  case known.known purpose purpose' =>
    obtain ⟨rfl, hrest⟩ := delimits_byte KnownPurpose.code_injective trivial trivial
      (List.tail_eq_of_cons_eq heq)
    exact ⟨rfl, hrest⟩
  case extension.extension identifier identifier' =>
    obtain ⟨rfl, hrest⟩ := NamespacedIdentifier.delimits_code hp hp' (List.tail_eq_of_cons_eq heq)
    exact ⟨rfl, hrest⟩

end DeclaredPurpose

theorem DeclarationAuthority.delimits_canonicalBytes :
    Delimits (fun _ => True) DeclarationAuthority.canonicalBytes := by
  intro a a' s s' _ _ heq
  cases a <;> cases a' <;> first | exact absurd (List.head_eq_of_cons_eq heq) (by decide) | skip
  all_goals
    obtain ⟨rfl, hrest⟩ := Ident.delimits_toBeBytes trivial trivial (List.tail_eq_of_cons_eq heq)
    exact ⟨rfl, hrest⟩

namespace PayloadSchema

def code (p : PayloadSchema) : Bytes := p.id.code ++ [p.criticality.code]

theorem appendCanonical_eq_ok {p : PayloadSchema} {bytes out : Bytes} :
    p.appendCanonical bytes = .ok out ↔ p.id.validate = .ok () ∧ out = bytes ++ p.code := by
  constructor
  · intro h
    obtain ⟨⟨⟩, -, h⟩ := bind_eq_ok.mp h
    obtain ⟨named, hnamed, h⟩ := bind_eq_ok.mp h
    obtain ⟨hvalid, rfl⟩ := NamespacedIdentifier.appendCanonical_eq_ok.mp hnamed
    cases h
    exact ⟨hvalid, List.append_assoc ..⟩
  · rintro ⟨hvalid, rfl⟩
    rw [appendCanonical, hvalid, ok_bind,
      NamespacedIdentifier.appendCanonical_eq_ok.mpr ⟨hvalid, rfl⟩, ok_bind, List.append_assoc, code]

theorem delimits_code : Delimits (fun p : PayloadSchema => p.id.validate = .ok ()) code := by
  rintro ⟨id, criticality⟩ ⟨id', criticality'⟩ s s' hp hp' heq
  simp only [code, List.append_assoc] at heq
  obtain ⟨hid, heq⟩ := NamespacedIdentifier.delimits_code hp hp' heq
  obtain ⟨hcriticality, heq⟩ :=
    delimits_byte ExtensionCriticality.code_injective trivial trivial heq
  exact ⟨PayloadSchema.mk.injEq .. ▸ ⟨hid, hcriticality⟩, heq⟩

end PayloadSchema

namespace MessageDeclarations

def label : Bytes := byteString "cs-mail/message-declarations/v1"

def code (d : MessageDeclarations) : Bytes :=
  d.purpose.code ++ ([d.origin.mode.code] ++ (d.origin.authority.canonicalBytes ++
    PrefixCode.optional PayloadSchema.code d.payloadSchema))

/-- Valid declarations have a valid purpose, and a valid schema if they have one. -/
theorem parts_of_validate {d : MessageDeclarations} (h : d.validate = .ok ()) :
    d.purpose.validate = .ok () ∧ ∀ p, d.payloadSchema = some p → p.id.validate = .ok () := by
  obtain ⟨⟨⟩, hpurpose, h⟩ := bind_eq_ok.mp h
  refine ⟨hpurpose, fun p hp => ?_⟩
  rw [hp] at h
  obtain ⟨⟨⟩, hschema, -⟩ := bind_eq_ok.mp h
  exact hschema

theorem canonicalBytes_eq_ok {d : MessageDeclarations} {out : Bytes} :
    d.canonicalBytes = .ok out ↔ d.validate = .ok () ∧ out = label ++ d.code := by
  obtain ⟨declared, origin, payload⟩ := d
  constructor
  · intro h
    obtain ⟨⟨⟩, hvalid, h⟩ := bind_eq_ok.mp h
    obtain ⟨purpose, hpurpose, h⟩ := bind_eq_ok.mp h
    obtain ⟨-, rfl⟩ := DeclaredPurpose.appendCanonical_eq_ok.mp hpurpose
    refine ⟨hvalid, ?_⟩
    cases payload with
    | none =>
      cases h
      simp [label, code, PrefixCode.optional]
    | some schema =>
      obtain ⟨-, rfl⟩ := PayloadSchema.appendCanonical_eq_ok.mp h
      simp [label, code, PrefixCode.optional]
  · rintro ⟨hvalid, rfl⟩
    obtain ⟨hdeclared, hschema⟩ := parts_of_validate hvalid
    refine bind_eq_ok.mpr ⟨⟨⟩, hvalid, bind_eq_ok.mpr ⟨_,
      DeclaredPurpose.appendCanonical_eq_ok.mpr ⟨hdeclared, rfl⟩, ?_⟩⟩
    cases payload with
    | none => simp [label, code, PrefixCode.optional]
    | some schema =>
      refine PayloadSchema.appendCanonical_eq_ok.mpr ⟨hschema schema rfl, ?_⟩
      simp [label, code, PrefixCode.optional]

theorem delimits_code : Delimits (fun d : MessageDeclarations => d.validate = .ok ()) code := by
  rintro ⟨purpose, ⟨mode, authority⟩, schema⟩ ⟨purpose', ⟨mode', authority'⟩, schema'⟩ s s' hd hd' heq
  obtain ⟨hpurpose, hschema⟩ := parts_of_validate hd
  obtain ⟨hpurpose', hschema'⟩ := parts_of_validate hd'
  simp only [code, List.append_assoc] at heq
  obtain ⟨hsamepurpose, heq⟩ := DeclaredPurpose.delimits_code hpurpose hpurpose' heq
  obtain ⟨hmode, heq⟩ := delimits_byte OriginMode.code_injective trivial trivial heq
  obtain ⟨hauthority, heq⟩ := DeclarationAuthority.delimits_canonicalBytes trivial trivial heq
  obtain ⟨hsameschema, heq⟩ := PayloadSchema.delimits_code.optional hschema hschema' heq
  exact ⟨by subst_vars; rfl, heq⟩

end MessageDeclarations

/-! ### Grants -/

theorem pushBytes_eq_ok {target bytes out : Bytes} :
    pushBytes target bytes = .ok out ↔ bytes.length < 2 ^ 32 ∧ out = target ++ counted 4 bytes := by
  simp only [pushBytes, bind_eq_ok, refuseIf_eq_ok, Except.ok.injEq, not_le, counted,
    List.append_assoc, exists_const, eq_comm (a := out)]

/-- A domain name has a representation below the length of four bytes. -/
def DomainIdentity.Fits (d : DomainIdentity) : Prop := d.name.utf8.length < 2 ^ 32

def DomainIdentity.code (d : DomainIdentity) : Bytes := counted 4 d.name.utf8

theorem DomainIdentity.delimits_code : Delimits Fits code := by
  rintro ⟨name⟩ ⟨name'⟩ s s' hd hd' heq
  obtain ⟨rfl, hrest⟩ := Text.delimits_counted 4 hd hd' heq
  exact ⟨rfl, hrest⟩

theorem ScopedHandle.delimits_bytes : Delimits (fun _ => True) fun h : ScopedHandle => h.bytes.toList := by
  rintro ⟨bytes⟩ ⟨bytes'⟩ s s' _ _ heq
  obtain ⟨rfl, hrest⟩ := delimits_bytes32 trivial trivial heq
  exact ⟨rfl, hrest⟩

namespace LaneSubject

def Fits : LaneSubject → Prop
  | legacyDomain domain => domain.Fits
  | _ => True

def code : LaneSubject → Bytes
  | guestMailbox identity => 2 :: identity.toBeBytes
  | native handle => 0 :: handle.bytes.toList
  | legacyDomain domain => 1 :: domain.code

theorem appendSigningBytes_eq_ok {l : LaneSubject} {bytes out : Bytes} :
    l.appendSigningBytes bytes = .ok out ↔ l.Fits ∧ out = bytes ++ l.code := by
  cases l with
  | native handle => simp [appendSigningBytes, Fits, code, eq_comm]
  | legacyDomain domain => simp [appendSigningBytes, Fits, DomainIdentity.Fits, code,
      DomainIdentity.code, pushBytes_eq_ok]
  | guestMailbox identity => simp [appendSigningBytes, Fits, code, eq_comm]

theorem delimits_code : Delimits Fits code := by
  intro l l' s s' hl hl' heq
  cases l <;> cases l' <;> first | exact absurd (List.head_eq_of_cons_eq heq) (by decide) | skip
  case native.native =>
    obtain ⟨rfl, hrest⟩ := ScopedHandle.delimits_bytes trivial trivial (List.tail_eq_of_cons_eq heq)
    exact ⟨rfl, hrest⟩
  case legacyDomain.legacyDomain =>
    obtain ⟨rfl, hrest⟩ := DomainIdentity.delimits_code hl hl' (List.tail_eq_of_cons_eq heq)
    exact ⟨rfl, hrest⟩
  case guestMailbox.guestMailbox =>
    obtain ⟨rfl, hrest⟩ := Ident.delimits_toBeBytes trivial trivial (List.tail_eq_of_cons_eq heq)
    exact ⟨rfl, hrest⟩

end LaneSubject

theorem DeclarationAuthorityConstraint.code_injective : Function.Injective code := by
  intro c c' heq
  cases c <;> cases c' <;> first | rfl | exact absurd heq (by decide)

theorem LaneMode.code_injective : Function.Injective code := by
  intro m m' heq
  cases m <;> cases m' <;> first | rfl | exact absurd heq (by decide)

namespace SenderScopedGrant

def label : Bytes := byteString "cs-mail/lane-grant/v2"

def code (g : SenderScopedGrant) : Bytes :=
  g.id.toBeBytes ++ (g.subject.code ++ (g.sender.toBeBytes ++ (g.recipient.toBeBytes ++
    (beBytes 2 g.protocolVersion.val.val ++ (g.deploymentDomain.toList ++
    (g.intendedProvider.toBeBytes ++ (g.recipientOperationalKey.toBeBytes ++ (g.purpose.code ++
    (PrefixCode.optional (fun o => [OriginMode.code o]) g.origin ++ ([g.declarationAuthority.code] ++
    (beBytes 8 g.lifetime.val.val ++ (beBytes 4 g.rateLimit.maxMessages.val ++
    (beBytes 8 g.rateLimit.interval.val.val ++ ([g.mode.code] ++ (beBytes 8 g.issuedAt.val.val ++
    (beBytes 8 g.notBefore.val.val ++ (beBytes 8 g.notAfter.val.val ++
    beBytes 8 g.version.val.val)))))))))))))))))

theorem purpose_of_validate {g : SenderScopedGrant} (h : g.validate = .ok ()) :
    g.purpose.validate = .ok () := by
  obtain ⟨⟨⟩, hpurpose, -⟩ := bind_eq_ok.mp h
  exact mapError_eq_ok.mp hpurpose

theorem signingBytes_eq_ok {g : SenderScopedGrant} {out : Bytes} :
    g.signingBytes = .ok out ↔ (g.validate = .ok () ∧ g.subject.Fits) ∧ out = label ++ g.code := by
  have horigin : (match g.origin with
      | some origin => [1, origin.code]
      | none => [0]) = PrefixCode.optional (fun o => [OriginMode.code o]) g.origin := by
    cases g.origin <;> rfl
  constructor
  · intro h
    obtain ⟨⟨⟩, hvalid, h⟩ := bind_eq_ok.mp h
    obtain ⟨subject, hsubject, h⟩ := bind_eq_ok.mp h
    obtain ⟨purpose, hpurpose, h⟩ := bind_eq_ok.mp h
    obtain ⟨hfits, rfl⟩ := LaneSubject.appendSigningBytes_eq_ok.mp hsubject
    obtain ⟨-, rfl⟩ := DeclaredPurpose.appendCanonical_eq_ok.mp (mapError_eq_ok.mp hpurpose)
    refine ⟨⟨hvalid, hfits⟩, (Except.ok.inj h).symm.trans ?_⟩
    simp only [horigin, label, code, List.append_assoc]
  · rintro ⟨⟨hvalid, hfits⟩, rfl⟩
    refine bind_eq_ok.mpr ⟨⟨⟩, hvalid, bind_eq_ok.mpr ⟨_,
      LaneSubject.appendSigningBytes_eq_ok.mpr ⟨hfits, rfl⟩, bind_eq_ok.mpr ⟨_,
      mapError_eq_ok.mpr (DeclaredPurpose.appendCanonical_eq_ok.mpr ⟨purpose_of_validate hvalid, rfl⟩), ?_⟩⟩⟩
    simp only [horigin, label, code, List.append_assoc]

theorem delimits_code :
    Delimits (fun g : SenderScopedGrant => g.validate = .ok () ∧ g.subject.Fits) code := by
  rintro ⟨id, subject, sender, recipient, protocol, deployment, provider, key, purpose, origin, authority,
      lifetime, ⟨messages, interval⟩, mode, issued, notBefore, notAfter, version⟩
    ⟨id', subject', sender', recipient', protocol', deployment', provider', key', purpose', origin',
      authority', lifetime', ⟨messages', interval'⟩, mode', issued', notBefore', notAfter', version'⟩
    s s' ⟨hg, hfits⟩ ⟨hg', hfits'⟩ heq
  have hpurpose : purpose.validate = .ok () := purpose_of_validate hg
  have hpurpose' : purpose'.validate = .ok () := purpose_of_validate hg'
  simp only [code, List.append_assoc] at heq hfits hfits'
  obtain ⟨hid, heq⟩ := Ident.delimits_toBeBytes trivial trivial heq
  obtain ⟨hsubject, heq⟩ := LaneSubject.delimits_code hfits hfits' heq
  obtain ⟨hsender, heq⟩ := Ident.delimits_toBeBytes trivial trivial heq
  obtain ⟨hrecipient, heq⟩ := Ident.delimits_toBeBytes trivial trivial heq
  obtain ⟨hprotocol, heq⟩ := ProtocolVersion.delimits trivial trivial heq
  obtain ⟨hdeployment, heq⟩ := delimits_bytes32 trivial trivial heq
  obtain ⟨hprovider, heq⟩ := Ident.delimits_toBeBytes trivial trivial heq
  obtain ⟨hkey, heq⟩ := Ident.delimits_toBeBytes trivial trivial heq
  obtain ⟨hsamepurpose, heq⟩ := DeclaredPurpose.delimits_code hpurpose hpurpose' heq
  obtain ⟨horigin, heq⟩ := (delimits_byte OriginMode.code_injective).optional (fun _ _ => trivial)
    (fun _ _ => trivial) heq
  obtain ⟨hauthority, heq⟩ :=
    delimits_byte DeclarationAuthorityConstraint.code_injective trivial trivial heq
  obtain ⟨hlifetime, heq⟩ := Duration.delimits trivial trivial heq
  obtain ⟨hmessages, heq⟩ := delimits_u32 trivial trivial heq
  obtain ⟨hinterval, heq⟩ := Duration.delimits trivial trivial heq
  obtain ⟨hmode, heq⟩ := delimits_byte LaneMode.code_injective trivial trivial heq
  obtain ⟨hissued, heq⟩ := CanonicalTime.delimits trivial trivial heq
  obtain ⟨hbefore, heq⟩ := CanonicalTime.delimits trivial trivial heq
  obtain ⟨hafter, heq⟩ := CanonicalTime.delimits trivial trivial heq
  obtain ⟨hversion, heq⟩ := Counter.delimits trivial trivial heq
  rw [SenderScopedGrant.mk.injEq, RateLimit.mk.injEq]
  exact ⟨⟨hid, hsubject, hsender, hrecipient, hprotocol, hdeployment, hprovider, hkey, hsamepurpose,
    horigin, hauthority, hlifetime, ⟨hmessages, hinterval⟩, hmode, hissued, hbefore, hafter, hversion⟩, heq⟩

end SenderScopedGrant

/-! ### Admissions -/

theorem DmarcAlignment.code_injective : Function.Injective code := by
  intro a a' heq
  cases a <;> cases a' <;> first | rfl | exact absurd heq (by decide)

def DmarcPass.code (p : DmarcPass) : Bytes := [p.alignment.code]

theorem DmarcPass.delimits_code : Delimits (fun _ => True) code := by
  rintro ⟨alignment⟩ ⟨alignment'⟩ s s' _ _ heq
  obtain ⟨rfl, hrest⟩ := delimits_byte DmarcAlignment.code_injective trivial trivial heq
  exact ⟨rfl, hrest⟩

theorem appendDmarcPass_eq (bytes : Bytes) (pass : Option DmarcPass) :
    appendDmarcPass bytes pass = bytes ++ PrefixCode.optional DmarcPass.code pass := by
  cases pass <;> simp [appendDmarcPass, PrefixCode.optional, DmarcPass.code]

namespace LegacyDmarcEvidence

def Fits (e : LegacyDmarcEvidence) : Prop := e.laneDomain.Fits ∧ e.verification.authorDomain.Fits

def code (e : LegacyDmarcEvidence) : Bytes :=
  beBytes 2 e.formatVersion.val ++ (e.laneDomain.code ++ (e.verification.authorDomain.code ++
    (PrefixCode.optional DmarcPass.code e.verification.dkim ++
    (PrefixCode.optional DmarcPass.code e.verification.spf ++
    beBytes 8 e.verification.evaluatedAt.val.val))))

theorem delimits_code : Delimits Fits code := by
  rintro ⟨version, lane, ⟨author, dkim, spf, evaluated⟩⟩ ⟨version', lane', ⟨author', dkim', spf', evaluated'⟩⟩
    s s' ⟨hlane, hauthor⟩ ⟨hlane', hauthor'⟩ heq
  simp only [code, List.append_assoc] at heq hlane hauthor hlane' hauthor'
  obtain ⟨hversion, heq⟩ := delimits_u16 trivial trivial heq
  obtain ⟨hsamelane, heq⟩ := DomainIdentity.delimits_code hlane hlane' heq
  obtain ⟨hsameauthor, heq⟩ := DomainIdentity.delimits_code hauthor hauthor' heq
  obtain ⟨hdkim, heq⟩ := DmarcPass.delimits_code.optional (fun _ _ => trivial) (fun _ _ => trivial) heq
  obtain ⟨hspf, heq⟩ := DmarcPass.delimits_code.optional (fun _ _ => trivial) (fun _ _ => trivial) heq
  obtain ⟨hevaluated, heq⟩ := CanonicalTime.delimits trivial trivial heq
  rw [LegacyDmarcEvidence.mk.injEq, VerifiedDomain.mk.injEq]
  exact ⟨⟨hversion, hsamelane, hsameauthor, hdkim, hspf, hevaluated⟩, heq⟩

end LegacyDmarcEvidence

namespace LaneEvidence

def Fits : LaneEvidence → Prop
  | legacy evidence => evidence.Fits
  | _ => True

def code : LaneEvidence → Bytes
  | guestMailbox identity => 2 :: identity.toBeBytes
  | native handle => 0 :: handle.bytes.toList
  | legacy evidence => 1 :: evidence.code

theorem appendSigningBytes_eq_ok {e : LaneEvidence} {bytes out : Bytes} :
    e.appendSigningBytes bytes = .ok out ↔ e.Fits ∧ out = bytes ++ e.code := by
  cases e with
  | native handle => simp [appendSigningBytes, Fits, code, eq_comm]
  | guestMailbox identity => simp [appendSigningBytes, Fits, code, eq_comm]
  | legacy evidence =>
    constructor
    · intro h
      obtain ⟨lane, hlane, h⟩ := bind_eq_ok.mp h
      obtain ⟨author, hauthor, h⟩ := bind_eq_ok.mp h
      obtain ⟨hfits, rfl⟩ := pushBytes_eq_ok.mp hlane
      obtain ⟨hfits', rfl⟩ := pushBytes_eq_ok.mp hauthor
      refine ⟨⟨hfits, hfits'⟩, (Except.ok.inj h).symm.trans ?_⟩
      simp [appendDmarcPass_eq, code, LegacyDmarcEvidence.code, DomainIdentity.code]
    · rintro ⟨⟨hfits, hfits'⟩, rfl⟩
      refine bind_eq_ok.mpr ⟨_, pushBytes_eq_ok.mpr ⟨hfits, rfl⟩, bind_eq_ok.mpr ⟨_,
        pushBytes_eq_ok.mpr ⟨hfits', rfl⟩, ?_⟩⟩
      simp [appendDmarcPass_eq, code, LegacyDmarcEvidence.code, DomainIdentity.code]

theorem delimits_code : Delimits Fits code := by
  intro e e' s s' he he' heq
  cases e <;> cases e' <;> first | exact absurd (List.head_eq_of_cons_eq heq) (by decide) | skip
  case native.native =>
    obtain ⟨rfl, hrest⟩ := ScopedHandle.delimits_bytes trivial trivial (List.tail_eq_of_cons_eq heq)
    exact ⟨rfl, hrest⟩
  case legacy.legacy =>
    obtain ⟨rfl, hrest⟩ := LegacyDmarcEvidence.delimits_code he he' (List.tail_eq_of_cons_eq heq)
    exact ⟨rfl, hrest⟩
  case guestMailbox.guestMailbox =>
    obtain ⟨rfl, hrest⟩ := Ident.delimits_toBeBytes trivial trivial (List.tail_eq_of_cons_eq heq)
    exact ⟨rfl, hrest⟩

end LaneEvidence

namespace AdmissionAuthentication

def code : AdmissionAuthentication → Bytes
  | nativeKey key => 0 :: key.toBeBytes
  | legacyDmarc => [1]

theorem delimits_code : Delimits (fun _ => True) code := by
  intro a a' s s' _ _ heq
  cases a <;> cases a' <;> first | exact absurd (List.head_eq_of_cons_eq heq) (by decide) | skip
  case nativeKey.nativeKey =>
    obtain ⟨rfl, hrest⟩ := Ident.delimits_toBeBytes trivial trivial (List.tail_eq_of_cons_eq heq)
    exact ⟨rfl, hrest⟩
  case legacyDmarc.legacyDmarc => exact ⟨rfl, List.tail_eq_of_cons_eq heq⟩

end AdmissionAuthentication

namespace BondFreeAdmission

def label : Bytes := byteString "cs-mail/bond-free-admission/v2"

/-- The evidence has a representation, if there is any. -/
def Fits (a : BondFreeAdmission) : Prop := ∀ e, a.evidence = some e → e.Fits

def code (a : BondFreeAdmission) : Bytes :=
  beBytes 2 a.wireVersion.val.val ++ (a.sender.toBeBytes ++ (a.recipient.toBeBytes ++
    (a.message.toBeBytes ++ (a.content.toBeBytes ++ (a.deliveryIntent.toBeBytes ++
    (MessageDeclarations.label ++ (a.declarations.code ++ (beBytes 8 a.messageValidUntil.time.val.val ++
    (PrefixCode.optional Ident.toBeBytes a.capability ++ (PrefixCode.optional LaneEvidence.code a.evidence ++
    (a.idempotencyKey.toBeBytes ++ (beBytes 2 a.protocolVersion.val.val ++ (a.deploymentDomain.toList ++
    (a.intendedProvider.toBeBytes ++ a.authentication.code))))))))))))))

theorem declarations_of_validate {a : BondFreeAdmission} (h : a.validate = .ok ()) :
    a.declarations.validate = .ok () := by
  obtain ⟨⟨⟩, -, h⟩ := bind_eq_ok.mp h
  obtain ⟨⟨⟩, hdeclarations, -⟩ := bind_eq_ok.mp h
  exact mapError_eq_ok.mp hdeclarations

theorem appendEvidence_eq_ok {a : BondFreeAdmission} {bytes out : Bytes} :
    a.appendEvidence bytes = .ok out ↔
      a.Fits ∧ out = bytes ++ PrefixCode.optional LaneEvidence.code a.evidence := by
  unfold appendEvidence Fits
  cases a.evidence with
  | none => simp [PrefixCode.optional, eq_comm]
  | some e => simp [PrefixCode.optional, LaneEvidence.appendSigningBytes_eq_ok]

theorem signingBytes_eq_ok {a : BondFreeAdmission} {out : Bytes} :
    a.signingBytes = .ok out ↔ (a.validate = .ok () ∧ a.Fits) ∧ out = label ++ a.code := by
  have hcapability : (match a.capability with
      | some lane => [1] ++ lane.toBeBytes
      | none => [0]) = PrefixCode.optional Ident.toBeBytes a.capability := by
    cases a.capability <;> simp [PrefixCode.optional]
  have hauthentication : (match a.authentication with
      | .nativeKey key => [0] ++ key.toBeBytes
      | .legacyDmarc => [1]) = a.authentication.code := by
    cases a.authentication <;> simp [AdmissionAuthentication.code]
  constructor
  · intro h
    obtain ⟨⟨⟩, hvalid, h⟩ := bind_eq_ok.mp h
    obtain ⟨declarations, hdeclarations, h⟩ := bind_eq_ok.mp h
    obtain ⟨evidence, hevidence, h⟩ := bind_eq_ok.mp h
    obtain ⟨-, rfl⟩ := MessageDeclarations.canonicalBytes_eq_ok.mp (mapError_eq_ok.mp hdeclarations)
    obtain ⟨hfits, rfl⟩ := appendEvidence_eq_ok.mp hevidence
    refine ⟨⟨hvalid, hfits⟩, (Except.ok.inj h).symm.trans ?_⟩
    simp only [hcapability, hauthentication, label, code, List.append_assoc]
  · rintro ⟨⟨hvalid, hfits⟩, rfl⟩
    refine bind_eq_ok.mpr ⟨⟨⟩, hvalid, bind_eq_ok.mpr ⟨_, mapError_eq_ok.mpr
      (MessageDeclarations.canonicalBytes_eq_ok.mpr ⟨declarations_of_validate hvalid, rfl⟩),
      bind_eq_ok.mpr ⟨_, appendEvidence_eq_ok.mpr ⟨hfits, rfl⟩, ?_⟩⟩⟩
    simp only [hcapability, hauthentication, label, code, List.append_assoc]

theorem delimits_code :
    Delimits (fun a : BondFreeAdmission => a.validate = .ok () ∧ a.Fits) code := by
  rintro ⟨wire, sender, recipient, message, content, intent, declarations, ⟨validUntil⟩, capability, evidence,
      idempotency, protocol, deployment, provider, authentication⟩
    ⟨wire', sender', recipient', message', content', intent', declarations', ⟨validUntil'⟩, capability', evidence',
      idempotency', protocol', deployment', provider', authentication'⟩
    s s' ⟨ha, hfits⟩ ⟨ha', hfits'⟩ heq
  have hdeclarations : declarations.validate = .ok () := declarations_of_validate ha
  have hdeclarations' : declarations'.validate = .ok () := declarations_of_validate ha'
  simp only [code, List.append_assoc] at heq
  obtain ⟨hwire, heq⟩ := WireVersion.delimits trivial trivial heq
  obtain ⟨hsender, heq⟩ := Ident.delimits_toBeBytes trivial trivial heq
  obtain ⟨hrecipient, heq⟩ := Ident.delimits_toBeBytes trivial trivial heq
  obtain ⟨hmessage, heq⟩ := Ident.delimits_toBeBytes trivial trivial heq
  obtain ⟨hcontent, heq⟩ := Ident.delimits_toBeBytes trivial trivial heq
  obtain ⟨hintent, heq⟩ := Ident.delimits_toBeBytes trivial trivial heq
  have heq := List.append_cancel_left heq
  obtain ⟨hsamedeclarations, heq⟩ :=
    MessageDeclarations.delimits_code hdeclarations hdeclarations' heq
  obtain ⟨huntil, heq⟩ := CanonicalTime.delimits trivial trivial heq
  obtain ⟨hcapability, heq⟩ := Ident.delimits_toBeBytes.optional (fun _ _ => trivial)
    (fun _ _ => trivial) heq
  obtain ⟨hevidence, heq⟩ := LaneEvidence.delimits_code.optional hfits hfits' heq
  obtain ⟨hidempotency, heq⟩ := Ident.delimits_toBeBytes trivial trivial heq
  obtain ⟨hprotocol, heq⟩ := ProtocolVersion.delimits trivial trivial heq
  obtain ⟨hdeployment, heq⟩ := delimits_bytes32 trivial trivial heq
  obtain ⟨hprovider, heq⟩ := Ident.delimits_toBeBytes trivial trivial heq
  obtain ⟨hauthentication, heq⟩ := AdmissionAuthentication.delimits_code trivial trivial heq
  rw [BondFreeAdmission.mk.injEq, MessageValidityUntil.mk.injEq]
  exact ⟨⟨hwire, hsender, hrecipient, hmessage, hcontent, hintent, hsamedeclarations, huntil, hcapability,
    hevidence, hidempotency, hprotocol, hdeployment, hprovider, hauthentication⟩, heq⟩

end BondFreeAdmission

/-! ### Signed bytes are unambiguous -/

/-- The labels of the three kinds differ within their first nine bytes. -/
theorem grant_label_ne_admission {l l' : Bytes} : SenderScopedGrant.label ++ l ≠ BondFreeAdmission.label ++ l' :=
  labels_apart (n := 9) (by decide) (by decide) (by decide)

theorem grant_label_ne_declarations {l l' : Bytes} :
    SenderScopedGrant.label ++ l ≠ MessageDeclarations.label ++ l' :=
  labels_apart (n := 9) (by decide) (by decide) (by decide)

theorem admission_label_ne_declarations {l l' : Bytes} :
    BondFreeAdmission.label ++ l ≠ MessageDeclarations.label ++ l' :=
  labels_apart (n := 9) (by decide) (by decide) (by decide)

/-- **No signature can be moved.** Two grants, two admissions or two declarations that are
written as the same bytes are the same, and bytes of one kind are never bytes of another. -/
theorem signed_bytes_unambiguous :
    (∀ (g g' : SenderScopedGrant) (b : Bytes), g.signingBytes = .ok b → g'.signingBytes = .ok b → g = g') ∧
    (∀ (a a' : BondFreeAdmission) (b : Bytes), a.signingBytes = .ok b → a'.signingBytes = .ok b → a = a') ∧
    (∀ (d d' : MessageDeclarations) (b : Bytes),
      d.canonicalBytes = .ok b → d'.canonicalBytes = .ok b → d = d') ∧
    (∀ (g : SenderScopedGrant) (a : BondFreeAdmission) (b : Bytes),
      g.signingBytes = .ok b → a.signingBytes ≠ .ok b) ∧
    (∀ (g : SenderScopedGrant) (d : MessageDeclarations) (b : Bytes),
      g.signingBytes = .ok b → d.canonicalBytes ≠ .ok b) ∧
    ∀ (a : BondFreeAdmission) (d : MessageDeclarations) (b : Bytes),
      a.signingBytes = .ok b → d.canonicalBytes ≠ .ok b := by
  refine ⟨fun g g' b hg hg' => ?_, fun a a' b ha ha' => ?_, fun d d' b hd hd' => ?_,
    fun g a b hg ha => ?_, fun g d b hg hd => ?_, fun a d b ha hd => ?_⟩
  · obtain ⟨hvalid, rfl⟩ := SenderScopedGrant.signingBytes_eq_ok.mp hg
    obtain ⟨hvalid', heq⟩ := SenderScopedGrant.signingBytes_eq_ok.mp hg'
    exact SenderScopedGrant.delimits_code.injective hvalid hvalid' (List.append_cancel_left heq)
  · obtain ⟨hvalid, rfl⟩ := BondFreeAdmission.signingBytes_eq_ok.mp ha
    obtain ⟨hvalid', heq⟩ := BondFreeAdmission.signingBytes_eq_ok.mp ha'
    exact BondFreeAdmission.delimits_code.injective hvalid hvalid' (List.append_cancel_left heq)
  · obtain ⟨hvalid, rfl⟩ := MessageDeclarations.canonicalBytes_eq_ok.mp hd
    obtain ⟨hvalid', heq⟩ := MessageDeclarations.canonicalBytes_eq_ok.mp hd'
    exact MessageDeclarations.delimits_code.injective hvalid hvalid' (List.append_cancel_left heq)
  · obtain ⟨-, rfl⟩ := SenderScopedGrant.signingBytes_eq_ok.mp hg
    obtain ⟨-, heq⟩ := BondFreeAdmission.signingBytes_eq_ok.mp ha
    exact grant_label_ne_admission heq
  · obtain ⟨-, rfl⟩ := SenderScopedGrant.signingBytes_eq_ok.mp hg
    obtain ⟨-, heq⟩ := MessageDeclarations.canonicalBytes_eq_ok.mp hd
    exact grant_label_ne_declarations heq
  · obtain ⟨-, rfl⟩ := BondFreeAdmission.signingBytes_eq_ok.mp ha
    obtain ⟨-, heq⟩ := MessageDeclarations.canonicalBytes_eq_ok.mp hd
    exact admission_label_ne_declarations heq

end CsMail
