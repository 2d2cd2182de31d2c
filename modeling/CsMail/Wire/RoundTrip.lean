import CsMail.Library.PreferredCbor
import CsMail.Wire.Command

/-! Every command has one canonical encoding.

What the CBOR and JSON libraries are relied on for is `LawfulCbor` and `Json.ReadsBack`: an
item or a document is read back as it was written. From it each writer and reader of
the format fit together, field by field in the order of the format (`codes_command`). -/
namespace CsMail
open Library Codec

/-- minicbor reads back what it wrote, wherever it stands and whatever follows. -/
class LawfulCbor [Cbor] : Prop where
  array : ∀ n, Reads Cbor.readArray (some n) (Cbor.array n)
  u8 : ∀ x, Reads Cbor.readU8 x (Cbor.u8 x)
  u16 : ∀ x, Reads Cbor.readU16 x (Cbor.u16 x)
  u32 : ∀ x, Reads Cbor.readU32 x (Cbor.u32 x)
  u64 : ∀ x, Reads Cbor.readU64 x (Cbor.u64 x)
  bytes : ∀ b, Reads Cbor.readBytes b (Cbor.bytes b)
  str : ∀ t, Reads Cbor.readStr t (Cbor.str t)

/-- The one field of a command whose type does not fix its length. -/
def ProtocolCommand.Fits : ProtocolCommand → Prop
  | recordPayment _ receipt => receipt.signature.length = 64
  | _ => True

/-- The JSON documents inside a command. -/
def ProtocolCommand.documents : ProtocolCommand → List JsonValue
  | issueRequestTerms returnRoute _ _ _ _ => [returnRoute.json]
  | createRequest _ _ _ terms => [terms.returnRoute.json, terms.replyLane.json]
  | _ => []

/-- An envelope the format can carry. -/
structure CanonicalCommandEnvelope.Encodable [Json] (e : CanonicalCommandEnvelope) : Prop where
  fits : e.command.Fits
  documents : ∀ v ∈ e.command.documents, Json.ReadsBack v

section
variable [Cbor] [Json]

/-- The bytes are the encoding of the envelope, and of no other; they decode to it, and no
others do. -/
structure CanonicalCommandEnvelope.CanonicalAs (e : CanonicalCommandEnvelope) (b : Bytes) : Prop where
  encoded : encodeCommandEnvelope e = .ok b
  accepted : ∀ b', decodeCommandEnvelope b' = .ok e ↔ b' = b
  injective : ∀ e' : CanonicalCommandEnvelope, e'.Encodable → encodeCommandEnvelope e' = .ok b → e' = e

/-- The decoder encodes what it decoded once more, and compares. -/
theorem encode_of_decode {b : Bytes} {e : CanonicalCommandEnvelope} (h : decodeCommandEnvelope b = .ok e) :
    encodeCommandEnvelope e = .ok b := by
  obtain ⟨⟨envelope, cursor⟩, -, h⟩ := bind_eq_ok.mp h
  simp only [bind_eq_ok, refuseIf_eq_ok, exists_const, ne_eq, not_not, Except.ok.injEq] at h
  obtain ⟨-, again, hagain, rfl, rfl⟩ := h
  exact hagain

end

theorem bytes32_toList (b : Bytes32) : bytes32 b.toList = some b := by
  have hlength : b.toList.length = 32 := by simp
  rw [bytes32, dif_pos hlength]
  exact congrArg some (Vector.toList_inj.mp rfl)

theorem u128OfBytes_of_length {b : Bytes} (h : b.length = 16) :
    ∃ x, u128OfBytes b = some x ∧ x.val = ofBeBytes b := by
  rw [u128OfBytes, dif_pos h]
  exact ⟨_, rfl, rfl⟩

theorem u128OfBytes_beBytes (x : U128) : u128OfBytes (beBytes 16 x.val) = some x := by
  obtain ⟨y, hy, hval⟩ := u128OfBytes_of_length (beBytes_length 16 x.val)
  have hwidth : x.val < 256 ^ 16 := by
    rw [show 256 ^ 16 = 2 ^ 128 by decide]
    exact x.isLt
  rw [hy, Option.some.injEq]
  exact Fin.ext (hval.trans (ofBeBytes_beBytes hwidth))

section
variable [Cbor] [LawfulCbor]

/-! ### Items -/

theorem codes_array (n : U64) : Codes (Encoder.array n) Decoder.array (some n) :=
  ((LawfulCbor.array n).mapErrors _).codes

theorem codes_u8 (x : U8) : Codes (Encoder.u8 x) Decoder.u8 x := ((LawfulCbor.u8 x).mapErrors _).codes

theorem codes_u16 (x : U16) : Codes (Encoder.u16 x) Decoder.u16 x := ((LawfulCbor.u16 x).mapErrors _).codes

theorem codes_u32 (x : U32) : Codes (Encoder.u32 x) Decoder.u32 x := ((LawfulCbor.u32 x).mapErrors _).codes

theorem codes_u64 (x : U64) : Codes (Encoder.u64 x) Decoder.u64 x := ((LawfulCbor.u64 x).mapErrors _).codes

theorem codes_bytes (b : Bytes) : Codes (Encoder.bytes b) Decoder.bytes b :=
  ((LawfulCbor.bytes b).mapErrors _).codes

theorem codes_str (t : Text) : Codes (Encoder.str t) Decoder.str t := ((LawfulCbor.str t).mapErrors _).codes

/-! ### Fields -/

theorem codes_expectArray (n : U64) : Codes (Encoder.array n) (expectArray n) () :=
  (codes_array n).convert (refuseIf_eq_ok.mpr (not_not.mpr rfl))

theorem codes_read32 (b : Bytes32) : Codes (Encoder.bytes b.toList) read32 b :=
  (codes_bytes _).convert (okOr_eq_ok.mpr (bytes32_toList b))

theorem codes_id (x : U128) : Codes (encodeId x) decodeId x :=
  (codes_bytes _).convert (okOr_eq_ok.mpr (u128OfBytes_beBytes x))

theorem codes_alias (a : AliasId) : Codes (encodeId a.val) decodeAlias a :=
  (codes_id a.val).convert (okOr_eq_ok.mpr a.new_val)

theorem codes_scopedRef {k : ScopeKind} (r : ScopedRef k) :
    Codes (encodeScopedRef r.derivationVersion r.bytes) decodeScopedRef r := by
  refine (codes_expectArray 2).bind ((codes_u16 _).bind ((codes_bytes _).last ?_))
  exact Reads.check (okOr_eq_ok.mpr (bytes32_toList r.bytes)) (reads_pure r)

theorem codes_declarationDigest (digest : Option MessageDeclarationDigest) :
    Codes (encodeOptionalDeclarationDigest digest) decodeOptionalDeclarationDigest digest := by
  cases digest with
  | none => exact (codes_array 0).last (reads_pure none)
  | some digest => exact (codes_array 1).bind ((codes_read32 digest.bytes).map _)

theorem codes_selectedClass (c : SelectedRequestClass) :
    Codes (encodeSelectedClass c) decodeSelectedClass c :=
  (codes_id c.id.val).bind ((codes_str c.description).convert (mapError_eq_ok.mpr c.new_fields))

theorem codes_financialScope (s : FinancialScope) :
    Codes (encodeFinancialScope s) decodeFinancialScope s := by
  refine (codes_expectArray 5).bind ((codes_read32 _).bind ((codes_id _).bind ?_))
  exact (codes_id _).bind ((codes_read32 _).bind ((codes_u16 _).map _))

theorem codes_target (t : CommandTarget) : Codes (encodeTarget t) decodeTarget t := by
  cases t with
  | relationship reference =>
    exact (codes_expectArray 2).bind ((codes_u8 0).bind ((codes_scopedRef reference).map _))

theorem codes_actor (a : ActorRef) : Codes (encodeActor a) decodeActor a := by
  cases a with
  | sender identity | recipient identity | provider identity | scheduler identity =>
    exact (codes_expectArray 2).bind ((codes_u8 _).bind ((codes_id _).convert rfl))

theorem codes_json [Json] {α : Type} {v : JsonValue} {ofJson : JsonValue → Option α} {a : α}
    (hv : Json.ReadsBack v) (h : ofJson v = some a) : Codes (encodeJson v) (decodeJson ofJson) a := by
  obtain ⟨b, hto, hfrom⟩ := hv
  have hread : ((Json.fromSlice b).bind ofJson) = some a := by
    rw [hfrom]
    exact h
  exact ((codes_bytes b).convert (okOr_eq_ok.mpr hread)).checkWriter (okOr_eq_ok.mpr hto)

/-! ### Request terms -/

variable [Json]

theorem codes_terms {t : RequestTerms} (hroute : Json.ReadsBack t.returnRoute.json)
    (hreply : Json.ReadsBack t.replyLane.json) : Codes (encodeTerms t) decodeTerms t := by
  refine (codes_expectArray 36).bind ?_
  refine (codes_json hroute t.returnRoute.ofJson_json).bind ?_
  refine (codes_alias _).bind ((codes_selectedClass _).bind ((codes_id _).bind ?_))
  refine (codes_u16 _).bind ((codes_u64 _).bind ((codes_u64 _).bind ?_))
  refine (codes_u16 _).bind ((codes_u16 _).bind ?_)
  refine (codes_scopedRef t.relationship).bind ((codes_scopedRef t.requestHistory).bind ?_)
  refine (codes_id _).bind ((codes_id _).bind ((codes_id _).bind ?_))
  refine (codes_u64 _).bind ((codes_u64 _).bind ?_)
  refine (codes_u64 _).bind ((codes_u64 _).bind ((codes_u32 _).bind ?_))
  refine (codes_u64 _).bind ((codes_u32 _).bind ?_)
  refine (codes_u64 _).bind ((codes_u64 _).bind ((codes_u64 _).bind ((codes_u64 _).bind ?_)))
  refine (codes_declarationDigest _).bind ((codes_financialScope _).bind ?_)
  refine (codes_u64 _).bind ((codes_u16 _).bind ((codes_u64 _).bind ?_))
  refine (codes_read32 _).bind ?_
  refine (codes_u64 _).bind ((codes_u64 _).bind ((codes_u64 _).bind ?_))
  exact (codes_json hreply t.replyLane.ofJson_json).map _

/-! ### Commands -/

/-- The tag and the length of a command select its reader. -/
theorem codes_tagged {tag : U8} {length : U64} {w : Encoder Unit} {c : ProtocolCommand}
    (h : Codes w (DecodeCommand.tagged tag length) c) :
    Codes (do Encoder.array length; Encoder.u8 tag; w) decodeCommand c :=
  (codes_array length).bind (Codes.check ((codes_u8 tag).bind h) (okOr_eq_ok.mpr rfl))

theorem codes_version {tag : U8} {command : Version → ProtocolCommand} (version : Version)
    (h : DecodeCommand.tagged tag 2 = DecodeCommand.version command) :
    Codes (encodeVersionCommand tag version) decodeCommand (command version) := by
  refine codes_tagged ?_
  rw [h]
  exact (codes_u64 version.val).map _

theorem codes_recordPayment (request : RequestId) (receipt : SignedPaymentEvidence)
    (h : receipt.signature.length = 64) :
    Codes (encodeCommand (.recordPayment request receipt)) decodeCommand (.recordPayment request receipt) := by
  obtain ⟨code, hencode, hdecode⟩ : ∃ code, encodePaymentOutcome receipt.evidence.outcome = Encoder.u8 code ∧
      paymentOutcomeOf code = .ok receipt.evidence.outcome := by
    cases receipt.evidence.outcome <;> exact ⟨_, rfl, rfl⟩
  have hsize : refuseIf (receipt.signature.length ≠ 64) WireError.unexpectedShape = .ok ⟨⟩ :=
    refuseIf_eq_ok.mpr (not_not.mpr h)
  refine codes_tagged ((codes_id _).bind ((codes_id _).bind ((codes_id _).bind ((codes_read32 _).bind ?_))))
  rw [hencode]
  exact (codes_u8 code).bind (Codes.check ((codes_bytes _).last (Reads.check hsize (reads_pure _))) hdecode)

theorem codes_cancelRequestSubmission (request : RequestId) (version : Version) (reason : CancellationReason) :
    Codes (encodeCommand (.cancelRequestSubmission request version reason)) decodeCommand
      (.cancelRequestSubmission request version reason) := by
  obtain ⟨code, hencode, hdecode⟩ : ∃ code, encodeCancellationReason reason = Encoder.u8 code ∧
      cancellationReasonOf code = .ok reason := by
    cases reason <;> exact ⟨_, rfl, rfl⟩
  refine codes_tagged ((codes_id _).bind ((codes_u64 _).bind ?_))
  rw [hencode]
  exact (codes_u8 code).last (Reads.check hdecode (reads_pure _))

/-- Every arm of the reader takes back what the same arm of the writer wrote. -/
theorem codes_command {c : ProtocolCommand} (hfits : c.Fits)
    (hdocuments : ∀ v ∈ c.documents, Json.ReadsBack v) : Codes (encodeCommand c) decodeCommand c := by
  cases c with
  | recordPayment request receipt => exact codes_recordPayment request receipt hfits
  | setFollowupPolicy expectedVersion policy =>
    refine codes_tagged ((codes_u64 _).bind ((codes_u64 _).bind ((codes_u32 _).bind ?_)))
    exact (codes_u32 _).bind ((codes_u64 _).map _)
  | admitFollowup request message content deliveryIntent declarationDigest messageValidUntil version =>
    refine codes_tagged ((codes_id _).bind ((codes_id _).bind ((codes_id _).bind ((codes_id _).bind ?_))))
    exact (codes_read32 _).bind ((codes_u64 _).bind ((codes_u64 _).map _))
  | issueRequestTerms returnRoute address classId quote declarationDigest =>
    have hroute := hdocuments _ (List.mem_singleton.mpr rfl)
    refine codes_tagged ((codes_json hroute returnRoute.ofJson_json).bind ((codes_alias _).bind ?_))
    exact (codes_id _).bind ((codes_id _).bind ((codes_declarationDigest _).map _))
  | createRequest paymentMethod request message terms =>
    have hterms := codes_terms (hdocuments _ (List.mem_cons_self ..))
      (hdocuments _ (List.mem_cons_of_mem _ (List.mem_singleton.mpr rfl)))
    exact codes_tagged ((codes_id _).bind ((codes_id _).bind (hterms.bind ((codes_read32 _).map _))))
  | submitRequestToRecipient request version content deliveryIntent declarationDigest messageValidUntil =>
    refine codes_tagged ((codes_id _).bind ((codes_u64 _).bind ((codes_id _).bind ((codes_id _).bind ?_))))
    exact (codes_read32 _).bind ((codes_u64 _).map _)
  | cancelRequestSubmission request version reason => exact codes_cancelRequestSubmission request version reason
  | acceptRelationship version | rejectRelationship version | blockRelationship version
  | unblockRelationship version | revokeRelationship version => exact codes_version version rfl
  | expireRequest request version => exact codes_tagged ((codes_id _).bind ((codes_u64 _).map _))

/-! ### Envelopes -/

theorem codes_envelope {e : CanonicalCommandEnvelope} (hfits : e.command.Fits)
    (hdocuments : ∀ v ∈ e.command.documents, Json.ReadsBack v) : Codes (encodeEnvelope e) decodeEnvelope e := by
  have hdomain : refuseIf (signingDomain ≠ signingDomain) WireError.unexpectedShape = .ok ⟨⟩ :=
    refuseIf_eq_ok.mpr (not_not.mpr rfl)
  refine (codes_expectArray 10).bind ((codes_str signingDomain).bind (Codes.check ?_ hdomain))
  refine (codes_u16 _).bind ((codes_u16 _).bind ((codes_read32 _).bind ((codes_id _).bind ?_)))
  refine (codes_target _).bind ((codes_actor _).bind ((codes_id _).bind ((codes_id _).bind ?_)))
  exact (codes_command hfits hdocuments).map _

theorem decode_encode {e : CanonicalCommandEnvelope} (h : e.Encodable) :
    ∃ b, encodeCommandEnvelope e = .ok b ∧ decodeCommandEnvelope b = .ok e := by
  obtain ⟨b, hwrites, hreads⟩ := codes_envelope h.fits h.documents
  have hencode : encodeCommandEnvelope e = .ok b := by
    rw [encodeCommandEnvelope, hwrites []]
    rfl
  refine ⟨b, hencode, ?_⟩
  simp only [decodeCommandEnvelope, hreads.whole, ok_bind, refuseIf, ne_eq, not_true, if_false, hencode]

/-- **Every command has one canonical encoding.** An accepted byte string is the encoding of
what it decodes to; and an envelope is decoded from its own encoding and from nothing else,
which is the encoding of no other envelope. -/
theorem envelope_canonical :
    (∀ b e, decodeCommandEnvelope b = .ok e → encodeCommandEnvelope e = .ok b) ∧
      ∀ e : CanonicalCommandEnvelope, e.Encodable → ∃ b, e.CanonicalAs b := by
  refine ⟨fun b e => encode_of_decode, fun e h => ?_⟩
  obtain ⟨b, hencode, hdecode⟩ := decode_encode h
  refine ⟨b, hencode, fun b' => ⟨fun hb' => ?_, fun heq => heq ▸ hdecode⟩, fun e' h' hencode' => ?_⟩
  · have hsame := encode_of_decode hb'
    rw [hencode] at hsame
    exact (Except.ok.inj hsame).symm
  · obtain ⟨b', hb', hdecode'⟩ := decode_encode h'
    rw [hencode'] at hb'
    cases hb'
    rw [hdecode] at hdecode'
    exact (Except.ok.inj hdecode').symm

end

/-! ### A request for terms -/

namespace CanonicalCommandEnvelope

namespace Example

def message : Text := "malformed item".toList

/-- Preferred serialization. -/
@[reducible] def cbor : Cbor where
  array n := PreferredCbor.head 4 n.val
  u8 x := PreferredCbor.head 0 x.val
  u16 x := PreferredCbor.head 0 x.val
  u32 x := PreferredCbor.head 0 x.val
  u64 x := PreferredCbor.head 0 x.val
  bytes := PreferredCbor.bytes
  str := PreferredCbor.str
  readArray := PreferredCbor.readArray message
  readU8 := PreferredCbor.readUnsigned message 8
  readU16 := PreferredCbor.readUnsigned message 16
  readU32 := PreferredCbor.readUnsigned message 32
  readU64 := PreferredCbor.readUnsigned message 64
  readBytes := PreferredCbor.readBytes message
  readStr := PreferredCbor.readStr message

theorem lawful : @LawfulCbor cbor :=
  @LawfulCbor.mk cbor PreferredCbor.reads_array PreferredCbor.reads_unsigned PreferredCbor.reads_unsigned
    PreferredCbor.reads_unsigned PreferredCbor.reads_unsigned PreferredCbor.reads_bytes PreferredCbor.reads_str

def route : RequestReturnRoute := .native ⟨10, by decide⟩

def routeBytes : Bytes := byteString "\x7b\"Native\":10\x7d"

/-- The one document of the envelope. -/
@[reducible] def json : Json where
  toVec v := if RequestReturnRoute.ofJson v = some route then some routeBytes else none
  fromSlice b := if b = routeBytes then some route.json else none

def envelope : CanonicalCommandEnvelope where
  wireVersion := ⟨7⟩
  protocolVersion := ⟨2⟩
  deploymentDomain := Vector.replicate 32 9
  intendedProvider := ⟨5⟩
  target := .relationship ⟨1, Vector.replicate 32 44⟩
  actor := .recipient ⟨2⟩
  operationalKey := ⟨3⟩
  idempotencyKey := ⟨4⟩
  command := .issueRequestTerms route ⟨20, by decide⟩ ⟨1⟩ ⟨1⟩ (some ⟨Vector.replicate 32 1⟩)

def id (n : ℕ) : Bytes := 0x50 :: beBytes 16 n

def bytes : Bytes :=
  [0x8a, 0x72] ++ byteString "cs-mail/command/v7" ++ [7, 2, 0x58, 0x20] ++ List.replicate 32 9 ++ id 5 ++
    [0x82, 0, 0x82, 1, 0x58, 0x20] ++ List.replicate 32 44 ++ [0x82, 1] ++ id 2 ++ id 3 ++ id 4 ++
    [0x86, 0, 0x4d] ++ routeBytes ++ id 20 ++ id 1 ++ id 1 ++ [0x81, 0x58, 0x20] ++ List.replicate 32 1

end Example

/-- The envelope and its bytes. -/
theorem envelope_canonical_issueRequestTerms :
    @encodeCommandEnvelope Example.cbor Example.json Example.envelope = .ok Example.bytes ∧
      @decodeCommandEnvelope Example.cbor Example.json Example.bytes = .ok Example.envelope := by
  have hroute : @Json.ReadsBack Example.json Example.route.json :=
    ⟨Example.routeBytes, if_pos (RequestReturnRoute.ofJson_json _), if_pos rfl⟩
  have hdocuments : ∀ v ∈ Example.envelope.command.documents, @Json.ReadsBack Example.json v :=
    List.forall_mem_singleton.mpr hroute
  have hencodable := @Encodable.mk Example.json Example.envelope trivial hdocuments
  obtain ⟨b, hcanonical⟩ := (@envelope_canonical Example.cbor Example.lawful Example.json).2 _ hencodable
  have hbytes : @encodeCommandEnvelope Example.cbor Example.json Example.envelope = .ok Example.bytes := by
    decide +kernel
  obtain ⟨hencoded, haccepted, -⟩ := hcanonical
  have hsame : b = Example.bytes := Except.ok.inj (hencoded.symm.trans hbytes)
  exact ⟨hbytes, (haccepted _).mpr hsame.symm⟩

end CanonicalCommandEnvelope
end CsMail
