import CsMail.Accounts.Directory
import CsMail.Correspondence.Manifest
import CsMail.Finance.Payments
import CsMail.Library.Slices

/-! Passages of retained text.

A passage binds a range of one canonical text part of one version of a source to the digest of
what stands there. Ranges count UTF-8 bytes and begin and end between characters. -/
namespace CsMail
open Library

/-! ### Characters -/

theorem isLower_iff {c : Char} : c.isLower = true ↔ 97 ≤ c.toNat ∧ c.toNat ≤ 122 := by
  show (decide ('a'.val ≤ c.val) && decide (c.val ≤ 'z'.val)) = true ↔ _
  simp only [Bool.and_eq_true, decide_eq_true_eq, UInt32.le_iff_toNat_le]
  exact Iff.rfl

theorem isUpper_iff {c : Char} : c.isUpper = true ↔ 65 ≤ c.toNat ∧ c.toNat ≤ 90 := by
  show decide ('A'.val ≤ c.val ∧ c.val ≤ 'Z'.val) = true ↔ _
  simp only [decide_eq_true_eq, UInt32.le_iff_toNat_le]
  exact Iff.rfl

theorem isDigit_iff {c : Char} : c.isDigit = true ↔ 48 ≤ c.toNat ∧ c.toNat ≤ 57 := by
  show (decide ('0'.val ≤ c.val) && decide (c.val ≤ '9'.val)) = true ↔ _
  simp only [Bool.and_eq_true, decide_eq_true_eq, UInt32.le_iff_toNat_le]
  exact Iff.rfl

/-! ### Byte offsets -/

namespace Text

/-- `len`: the length in UTF-8 bytes. -/
def len (t : Text) : ℕ := Slices.extent Char.utf8Size t

/-- `get(start..stop)`: nothing where the range leaves the text or cuts a character. -/
def slice? (t : Text) (start stop : ℕ) : Option Text := Slices.slice? Char.utf8Size t start stop

/-- `get(start..)`. -/
def from? (t : Text) (start : ℕ) : Option Text := Slices.from? Char.utf8Size t start

@[simp] theorem len_nil : len [] = 0 := rfl

@[simp] theorem len_cons (c : Char) (t : Text) : len (c :: t) = c.utf8Size + len t :=
  Slices.extent_cons ..

@[simp] theorem len_append (t u : Text) : len (t ++ u) = len t + len u := Slices.extent_append ..

theorem slice?_eq_some {t s : Text} {start stop : ℕ} : t.slice? start stop = some s ↔
    ∃ p q : Text, t = p ++ (s ++ q) ∧ p.len = start ∧ start + s.len = stop :=
  Slices.slice?_eq_some Char.utf8Size_pos

theorem from?_eq_some {t s : Text} {start : ℕ} :
    t.from? start = some s ↔ ∃ p : Text, t = p ++ s ∧ p.len = start :=
  Slices.from?_eq_some Char.utf8Size_pos

theorem prefix_of_len {t p q p' q' : Text} (h : t = p ++ q) (h' : t = p' ++ q') (hle : p.len ≤ p'.len) :
    ∃ m : Text, p' = p ++ m ∧ q = m ++ q' :=
  Slices.prefix_of_extent Char.utf8Size_pos h h' hle

end Text

/-! ### Sources -/

/-- `cs_mail_search::Error`. -/
inductive SearchError
  | invalid
  | stale
  | removed
  | incompatible
  | expired
  deriving DecidableEq

inductive CorrespondenceStream
  | native
  | external
  deriving DecidableEq

inductive SourceOccurrence
  | message (stream : CorrespondenceStream) (conversation : ConversationId) (message : MessageId)
  | privateDraft (id : U128)
  deriving DecidableEq

def SourceOccurrence.named : SourceOccurrence → Bool
  | message _ _ id => id.val ≠ 0
  | privateDraft id => id ≠ 0

/-- Account and occurrence identity are independent of the text. -/
structure SourceIdentity where
  account : AccountId
  occurrence : SourceOccurrence
  valid : account.val ≠ 0 ∧ occurrence.named = true

instance : DecidableEq SourceIdentity := fun a b =>
  decidable_of_iff (a.account = b.account ∧ a.occurrence = b.occurrence) (by
    cases a
    cases b
    simp)

inductive SourceVersion
  | message (version : MessageVersion)
  | privateDraft (revision : {r : U64 // r ≠ 0}) (checksum : Bytes32)
  deriving DecidableEq

def SourceVersion.matches (v : SourceVersion) (source : SourceIdentity) : Bool :=
  match source.occurrence, v with
  | .message .., .message _ | .privateDraft _, .privateDraft .. => true
  | .message .., .privateDraft .. | .privateDraft _, .message _ => false

/-! ### Passages -/

/-- Coordinates refer to one canonical text part, never to extra model context. -/
inductive TextPart
  | subject
  | body (part : U32)
  | quotation (part block : U32)
  | sharedCopy (part block : U32)
  deriving DecidableEq

structure Passage where
  source : SourceIdentity
  version : SourceVersion
  extraction : U32
  location : TextPart
  start : U32
  stop : U32
  checksum : Bytes32
  valid : version.matches source = true ∧ extraction ≠ 0 ∧ start < stop

namespace Passage
variable [Crypto]

def range (p : Passage) : ℕ × ℕ := (p.start.val, p.stop.val)

/-- Binds a passage to an exact range of its canonical part. -/
def new (source : SourceIdentity) (version : SourceVersion) (extraction : U32) (location : TextPart)
    (text : Text) (start stop : U32) : Except SearchError Passage := do
  let selected ← okOr (text.slice? start.val stop.val) .invalid
  if h : version.matches source = true ∧ extraction ≠ 0 ∧ start < stop then
    .ok ⟨source, version, extraction, location, start, stop, Crypto.sha256 selected.utf8, h⟩
  else .error .invalid

/-- What stands at the passage, if it is still what the passage was bound to. -/
def verify (p : Passage) (text : Text) : Except SearchError Text := do
  let selected ← okOr (text.slice? p.start.val p.stop.val) .stale
  refuseIf (Crypto.sha256 selected.utf8 ≠ p.checksum) .stale
  .ok selected

/-- A passage that is bound to a text selects from it what stands there. -/
theorem new_eq_ok {source : SourceIdentity} {version : SourceVersion} {extraction : U32}
    {location : TextPart} {text : Text} {start stop : U32} {p : Passage}
    (h : new source version extraction location text start stop = .ok p) :
    (p.source = source ∧ p.version = version ∧ p.location = location) ∧
      (p.start = start ∧ p.stop = stop) ∧
        ∃ selected, text.slice? start.val stop.val = some selected ∧ p.verify text = .ok selected := by
  obtain ⟨selected, hselected, h⟩ := bind_eq_ok.mp h
  rw [okOr_eq_ok] at hselected
  split_ifs at h
  cases h
  refine ⟨⟨rfl, rfl, rfl⟩, ⟨rfl, rfl⟩, selected, hselected, ?_⟩
  rw [verify, hselected]
  simp [okOr, refuseIf]

/-- A range of the text that is not empty can be bound. -/
theorem new_succeeds {source : SourceIdentity} {version : SourceVersion} (extraction : U32)
    (location : TextPart) {text selected : Text} {start stop : U32}
    (hmatches : version.matches source = true) (hextraction : extraction ≠ 0) (hlt : start < stop)
    (hselected : text.slice? start.val stop.val = some selected) :
    ∃ p, new source version extraction location text start stop = .ok p := by
  refine ⟨_, bind_eq_ok.mpr ⟨selected, okOr_eq_ok.mpr hselected, dif_pos ⟨hmatches, hextraction, hlt⟩⟩⟩

end Passage
end CsMail
