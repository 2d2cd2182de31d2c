import CsMail.Protocol.Model

/-! The JSON inside a command: return routes and reply agreements.

A value is what the derived code of a type hands to the JSON writer, or hears from its
parser. A derived structure is an object with its fields, read in any order, or from an array
in the order of their declaration; a derived enumeration is named by its variant. The bytes
are the business of the `Json` parameter. -/
namespace CsMail
open Library

inductive JsonValue
  | null
  | boolean (value : Bool)
  | unsigned (value : U128)
  /-- Any other number. -/
  | number (text : Text)
  | string (text : Text)
  | array (items : List JsonValue)
  | object (entries : List (Text × JsonValue))

namespace JsonValue

/-- An integer of a width. -/
def integer (w : Nat) : JsonValue → Option (Fin (2 ^ w))
  | unsigned n => if h : n.val < 2 ^ w then some ⟨n.val, h⟩ else none
  | _ => none

def text : JsonValue → Option Text
  | string t => some t
  | _ => none

/-- The fields of a derived structure. `exact` refuses unknown fields. -/
def fields (names : List Text) (exact : Bool) : JsonValue → Option (List JsonValue)
  | object entries =>
    if exact && entries.any (fun e => !names.contains e.1) then none
    else names.mapM fun name =>
      match entries.filter fun e => e.1 = name with
      | [e] => some e.2
      | _ => none
  | array items => if items.length = names.length then some items else none
  | _ => none

/-- The variant of a derived enumeration, and its content. -/
def variant : JsonValue → Option (Text × Option JsonValue)
  | string name => some (name, none)
  | object [(name, content)] => some (name, some content)
  | _ => none

/-- The content of a variant that has none. -/
def isUnit : Option JsonValue → Bool
  | none | some null => true
  | _ => false

end JsonValue

/-! ### Derived representations -/

/-- A byte array, or a `Vec<u8>`. -/
def Bytes.json (b : Bytes) : JsonValue :=
  .array (b.map fun x => .unsigned ⟨x.toNat, x.toNat_lt.trans (by decide)⟩)

def AliasId.json (a : AliasId) : JsonValue := .unsigned a.val

def AliasId.ofJson (v : JsonValue) : Option AliasId := (v.integer 128).bind AliasId.new

def RequestReturnRoute.json : RequestReturnRoute → JsonValue
  | native address => .object [("Native".toList, address.json)]
  | guestMailbox => .string "GuestMailbox".toList

def RequestReturnRoute.ofJson (v : JsonValue) : Option RequestReturnRoute := do
  let (name, content) ← v.variant
  if name = "Native".toList then content.bind fun c => (AliasId.ofJson c).map native
  else if name = "GuestMailbox".toList ∧ JsonValue.isUnit content = true then some guestMailbox
  else none

def Duration.json (d : Duration) : JsonValue := .unsigned ⟨d.val.val, d.val.isLt.trans (by decide)⟩

def Duration.ofJson (v : JsonValue) : Option Duration := (v.integer 64).map mk

def RateLimit.json (r : RateLimit) : JsonValue :=
  .object [("max_messages".toList, .unsigned ⟨r.maxMessages.val, r.maxMessages.isLt.trans (by decide)⟩),
    ("interval".toList, r.interval.json)]

def RateLimit.ofJson (v : JsonValue) : Option RateLimit := do
  match ← v.fields ["max_messages".toList, "interval".toList] false with
  | [maxMessages, interval] =>
    let maxMessages ← maxMessages.integer 32
    let interval ← Duration.ofJson interval
    some ⟨maxMessages, interval⟩
  | _ => none

def KnownPurpose.name : KnownPurpose → Text
  | personal => "Personal".toList
  | transactional => "Transactional".toList
  | request => "Request".toList
  | bulk => "Bulk".toList

def KnownPurpose.json (p : KnownPurpose) : JsonValue := .string p.name

def KnownPurpose.ofJson (v : JsonValue) : Option KnownPurpose := do
  let (name, content) ← v.variant
  if JsonValue.isUnit content = false then none
  else [personal, transactional, request, bulk].find? fun p => p.name = name

def NamespacedIdentifier.json (i : NamespacedIdentifier) : JsonValue :=
  .object [("namespace".toList, .string i.namespaceName), ("name".toList, .string i.name),
    ("version".toList, .unsigned ⟨i.version.val, i.version.isLt.trans (by decide)⟩)]

def NamespacedIdentifier.ofJson (v : JsonValue) : Option NamespacedIdentifier := do
  match ← v.fields ["namespace".toList, "name".toList, "version".toList] false with
  | [namespaceName, name, version] =>
    let namespaceName ← namespaceName.text
    let name ← name.text
    let version ← version.integer 16
    some ⟨namespaceName, name, version⟩
  | _ => none

def DeclaredPurpose.json : DeclaredPurpose → JsonValue
  | unspecified => .string "Unspecified".toList
  | known purpose => .object [("Known".toList, purpose.json)]
  | extension identifier => .object [("Extension".toList, identifier.json)]

def DeclaredPurpose.ofJson (v : JsonValue) : Option DeclaredPurpose := do
  let (name, content) ← v.variant
  if name = "Unspecified".toList then
    if JsonValue.isUnit content = true then some unspecified else none
  else if name = "Known".toList then content.bind fun c => (KnownPurpose.ofJson c).map known
  else if name = "Extension".toList then
    content.bind fun c => (NamespacedIdentifier.ofJson c).map extension
  else none

def ReplyTermsRecord.json (r : ReplyTermsRecord) : JsonValue :=
  .object [("lifetime".toList, r.lifetime.json), ("rate_limit".toList, r.rateLimit.json),
    ("purpose".toList, r.purpose.json)]

def ReplyTermsRecord.ofJson (v : JsonValue) : Option ReplyTermsRecord := do
  match ← v.fields ["lifetime".toList, "rate_limit".toList, "purpose".toList] true with
  | [lifetime, rateLimit, purpose] =>
    let lifetime ← Duration.ofJson lifetime
    let rateLimit ← RateLimit.ofJson rateLimit
    let purpose ← DeclaredPurpose.ofJson purpose
    some ⟨lifetime, rateLimit, purpose⟩
  | _ => none

def ReplyLaneTerms.ofJson (v : JsonValue) : Option ReplyLaneTerms :=
  (ReplyTermsRecord.ofJson v).bind fun r => (ReplyLaneTerms.new r).toOption

/-- Through `Option<ReplyLaneTerms>`: no agreement is `null`. -/
def RequestReplyAgreement.json : RequestReplyAgreement → JsonValue
  | notOffered => .null
  | agreed terms => terms.record.json

def RequestReplyAgreement.ofJson : JsonValue → Option RequestReplyAgreement
  | .null => some notOffered
  | v => (ReplyLaneTerms.ofJson v).map agreed

/-! ### What is written is read back -/

namespace JsonValue

theorem integer_unsigned {w : Nat} (x : Fin (2 ^ w)) (h : x.val < 2 ^ 128) :
    (unsigned ⟨x.val, h⟩).integer w = some x := by
  simp [integer]

theorem fields_object₂ {n m : Text} (exact : Bool) (a b : JsonValue) (h : n ≠ m) :
    (object [(n, a), (m, b)]).fields [n, m] exact = some [a, b] := by
  simp [fields, h, h.symm]

theorem fields_object₃ {n m k : Text} (exact : Bool) (a b c : JsonValue) (hnm : n ≠ m) (hnk : n ≠ k)
    (hmk : m ≠ k) : (object [(n, a), (m, b), (k, c)]).fields [n, m, k] exact = some [a, b, c] := by
  simp [fields, hnm, hnm.symm, hnk, hnk.symm, hmk, hmk.symm]

end JsonValue

theorem AliasId.ofJson_json (a : AliasId) : AliasId.ofJson a.json = some a := by
  rw [AliasId.ofJson, AliasId.json, JsonValue.integer_unsigned]
  exact a.new_val

theorem RequestReturnRoute.ofJson_json (r : RequestReturnRoute) : RequestReturnRoute.ofJson r.json = some r := by
  cases r with
  | native address =>
    show (AliasId.ofJson address.json).map native = _
    rw [AliasId.ofJson_json]
    rfl
  | guestMailbox => rfl

theorem Duration.ofJson_json (d : Duration) : Duration.ofJson d.json = some d := by
  rw [Duration.ofJson, Duration.json, JsonValue.integer_unsigned]
  rfl

theorem RateLimit.ofJson_json (r : RateLimit) : RateLimit.ofJson r.json = some r := by
  rw [RateLimit.ofJson, RateLimit.json, JsonValue.fields_object₂ _ _ _ (by decide)]
  simp only [Option.bind_eq_bind, Option.bind_some, JsonValue.integer_unsigned, Duration.ofJson_json]

theorem KnownPurpose.ofJson_json (p : KnownPurpose) : KnownPurpose.ofJson p.json = some p := by
  cases p <;> decide

theorem NamespacedIdentifier.ofJson_json (i : NamespacedIdentifier) :
    NamespacedIdentifier.ofJson i.json = some i := by
  rw [NamespacedIdentifier.ofJson, NamespacedIdentifier.json,
    JsonValue.fields_object₃ _ _ _ _ (by decide) (by decide) (by decide)]
  simp only [Option.bind_eq_bind, Option.bind_some, JsonValue.text, JsonValue.integer_unsigned]

theorem DeclaredPurpose.ofJson_json (p : DeclaredPurpose) : DeclaredPurpose.ofJson p.json = some p := by
  cases p with
  | unspecified => rfl
  | known purpose =>
    show (KnownPurpose.ofJson purpose.json).map known = _
    rw [KnownPurpose.ofJson_json]
    rfl
  | extension identifier =>
    show (NamespacedIdentifier.ofJson identifier.json).map extension = _
    rw [NamespacedIdentifier.ofJson_json]
    rfl

theorem ReplyTermsRecord.ofJson_json (r : ReplyTermsRecord) : ReplyTermsRecord.ofJson r.json = some r := by
  rw [ReplyTermsRecord.ofJson, ReplyTermsRecord.json,
    JsonValue.fields_object₃ _ _ _ _ (by decide) (by decide) (by decide)]
  simp only [Option.bind_eq_bind, Option.bind_some, Duration.ofJson_json, RateLimit.ofJson_json,
    DeclaredPurpose.ofJson_json]

theorem RequestReplyAgreement.ofJson_json (a : RequestReplyAgreement) :
    RequestReplyAgreement.ofJson a.json = some a := by
  cases a with
  | notOffered => rfl
  | agreed terms =>
    show (ReplyLaneTerms.ofJson terms.record.json).map agreed = _
    rw [ReplyLaneTerms.ofJson, ReplyTermsRecord.ofJson_json, Option.bind_some, ReplyLaneTerms.new_record]
    rfl

/-! ### The bytes -/

/-- serde_json, as the format uses it. -/
class Json where
  toVec : JsonValue → Option Bytes
  fromSlice : Bytes → Option JsonValue

/-- serde_json writes the value, and reads back what it wrote. -/
def Json.ReadsBack [Json] (v : JsonValue) : Prop := ∃ b, toVec v = some b ∧ fromSlice b = some v

end CsMail
