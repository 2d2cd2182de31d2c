import CsMail.Correspondence.Document
import CsMail.Guests.Verification
import CsMail.Protocol.Model
import CsMail.Work.Queue
import Mathlib.Data.Sum.Order

/-! Which request history a guest's approach uses.

A guest is known to a recipient by evidence: the mailbox that was verified, and the fingerprint of
the payment instrument. Evidence selects the history it is linked to. Where it is linked to two, they
are merged into a third that is as restrictive as both, unless both hold a pending request. -/
namespace CsMail
open Library

/-! ### Subjects -/

/-- Who a protocol identity belongs to. -/
inductive SenderSubject
  | member (account : AccountId)
  | legacyDomain (domain : DomainIdentity)
  | guest (mailbox : GuestMailbox)
  deriving DecidableEq

namespace SenderSubject

/-- A key unique to the subject. Addresses of one account are distinct identities of one subject, so a
member's key names the address. -/
def key (s : SenderSubject) (identity : ProtocolIdentity) : Text :=
  match s with
  | member account => "member:".toList ++ decimal account.val.val ++ ":".toList ++ decimal identity.val.val
  | legacyDomain domain => "legacy-domain:".toList ++ domain.name
  | guest mailbox => "guest:".toList ++ mailbox.address

def isGuest : SenderSubject → Bool
  | guest _ => true
  | member _ | legacyDomain _ => false

end SenderSubject

/-! ### Evidence -/

/-- The payment processor's stable fingerprint of a card or account. -/
structure InstrumentFingerprint where
  bytes : Bytes32
  deriving DecidableEq

inductive HistoryEvidence
  | mailbox (mailbox : GuestMailbox)
  | fingerprint (fingerprint : InstrumentFingerprint)
  deriving DecidableEq

namespace HistoryEvidence

def key : HistoryEvidence → Text
  | mailbox m => "mailbox:".toList ++ m.address
  | fingerprint f => "fingerprint:".toList ++ f.bytes.toList.flatMap fun b =>
      [hexDigit (b.toNat / 16), hexDigit (b.toNat % 16)]

/-- The parts of a piece of evidence, in an order. -/
def rank : HistoryEvidence → (Text ×ₗ Text) ⊕ₗ ℕ
  | mailbox m => Sum.inlₗ (toLex (m.localPart, m.domain.name))
  | fingerprint f => Sum.inrₗ (ofBeBytes f.bytes.toList)

theorem rank_injective : Function.Injective rank := by
  rintro (⟨localPart, ⟨domain⟩⟩ | ⟨⟨b⟩⟩) (⟨localPart', ⟨domain'⟩⟩ | ⟨⟨b'⟩⟩) h
  · obtain ⟨rfl, rfl⟩ := Prod.mk.inj (toLex_inj.mp (Sum.inl.inj h))
    rfl
  · cases h
  · cases h
  · have hlength : b.toList.length = b'.toList.length := by simp
    have := Vector.toList_inj.mp (ofBeBytes_injective hlength (Sum.inr.inj h))
    rw [this]

instance : LinearOrder HistoryEvidence := LinearOrder.lift' rank rank_injective

theorem hexDigit_injective : ∀ m n : Fin 16, hexDigit m = hexDigit n → m = n := by decide

theorem hexDigits_injective {a b : UInt8}
    (h : [hexDigit (a.toNat / 16), hexDigit (a.toNat % 16)] = [hexDigit (b.toNat / 16), hexDigit (b.toNat % 16)]) :
    a = b := by
  obtain ⟨hhigh, hlow, -⟩ := List.cons.inj h |>.imp_right List.cons.inj
  have ha := a.toNat_lt
  have hb := b.toNat_lt
  have hhigh := Fin.mk.inj (hexDigit_injective ⟨a.toNat / 16, by omega⟩ ⟨b.toNat / 16, by omega⟩ hhigh)
  have hlow := Fin.mk.inj (hexDigit_injective ⟨a.toNat % 16, by omega⟩ ⟨b.toNat % 16, by omega⟩ hlow)
  exact UInt8.toNat_inj.mp (by omega)

theorem hex_injective : ∀ {a b : List UInt8},
    (a.flatMap fun b => [hexDigit (b.toNat / 16), hexDigit (b.toNat % 16)]) =
      (b.flatMap fun b => [hexDigit (b.toNat / 16), hexDigit (b.toNat % 16)]) → a = b
  | [], [], _ => rfl
  | x :: a, y :: b, h => by
    simp only [List.flatMap_cons] at h
    obtain ⟨hxy, hrest⟩ := List.append_inj h rfl
    rw [hexDigits_injective hxy, hex_injective hrest]

theorem split_injective {c : Char} : ∀ {x x' z z' : Text}, c ∉ x → c ∉ x' → x ++ c :: z = x' ++ c :: z' →
    x = x' ∧ z = z'
  | [], [], _, _, _, _, h => ⟨rfl, (List.cons.inj h).2⟩
  | [], y :: x', _, _, _, hy, h => absurd (List.cons.inj h).1 (List.ne_of_not_mem_cons hy)
  | y :: x, [], _, _, hy, _, h => absurd (List.cons.inj h).1.symm (List.ne_of_not_mem_cons hy)
  | y :: x, y' :: x', _, _, hy, hy', h => by
    obtain ⟨rfl, hrest⟩ := List.cons.inj h
    obtain ⟨rfl, hz⟩ := split_injective (List.not_mem_of_not_mem_cons hy) (List.not_mem_of_not_mem_cons hy') hrest
    exact ⟨rfl, hz⟩

/-- No two mailboxes whose local parts are without an at sign have one address, and no two pieces of
evidence one key. -/
theorem key_injOn : Set.InjOn key {e | ∀ m, e = mailbox m → '@' ∉ m.localPart} := by
  rintro (⟨localPart, ⟨domain⟩⟩ | ⟨⟨b⟩⟩) hm (⟨localPart', ⟨domain'⟩⟩ | ⟨⟨b'⟩⟩) hm' h
  · have h := List.append_cancel_left (show "mailbox:".toList ++ _ = "mailbox:".toList ++ _ from h)
    simp only [GuestMailbox.address, List.append_assoc] at h
    obtain ⟨rfl, rfl⟩ := split_injective (hm _ rfl) (hm' _ rfl) h
    rfl
  · exact absurd (List.cons.inj h).1 (by decide)
  · exact absurd (List.cons.inj h).1 (by decide)
  · have h := List.append_cancel_left (show "fingerprint:".toList ++ _ = "fingerprint:".toList ++ _ from h)
    have hbytes : b = b' := Vector.toList_inj.mp (hex_injective h)
    rw [hbytes]

end HistoryEvidence

/-! ### Resolving a history -/

/-- Which history a guest request uses, and what must change for it. -/
structure HistoryDecision where
  history : RequestHistoryRef
  create : Option RequestHistory
  merged : Option (RequestHistoryRef × RequestHistoryRef)
  /-- Evidence not yet linked to the history. -/
  link : List HistoryEvidence
  deriving DecidableEq

/-- The most restrictive state of two histories. -/
def RequestHistory.mergeWith (a b : RequestHistory) (merged : RequestHistoryRef) (recipient : ProtocolIdentity)
    (now : CanonicalTime) : RequestHistory where
  reference := merged
  recipient
  level := max a.level b.level
  earliestNextSubmission := max a.earliestNextSubmission b.earliestNextSubmission
  pendingSubmission := a.pendingSubmission.or b.pendingSubmission
  -- saturating
  version := ⟨⟨min (max a.version.val.val b.version.val.val + 1) u64Max, by unfold u64Max; omega⟩⟩
  lastEvent := none
  changedAt := now

/-- Evidence already linked to a history selects it; evidence that links two merges them. -/
def resolveHistory (recipient : ProtocolIdentity) (mailbox : GuestMailbox × Option RequestHistory)
    (fingerprint : InstrumentFingerprint × Option RequestHistory) (fresh merged : RequestHistoryRef)
    (now : CanonicalTime) : Except GuestError HistoryDecision := do
  let mailboxEvidence := HistoryEvidence.mailbox mailbox.1
  let fingerprintEvidence := HistoryEvidence.fingerprint fingerprint.1
  [mailbox.2, fingerprint.2].reduceOption.forM fun history =>
    refuseIf (history.recipient ≠ recipient) .recipientMismatch
  match mailbox.2, fingerprint.2 with
  | none, none => .ok {
    history := fresh
    create := some (.new fresh recipient now)
    merged := none
    link := [mailboxEvidence, fingerprintEvidence]}
  | some one, none => .ok {
    history := one.reference
    create := none
    merged := none
    link := [fingerprintEvidence]}
  | none, some one => .ok {
    history := one.reference
    create := none
    merged := none
    link := [mailboxEvidence]}
  | some a, some b =>
    if a.reference = b.reference then .ok {
      history := a.reference
      create := none
      merged := none
      link := []}
    else do
      refuseIf (a.pendingSubmission.isSome = true ∧ b.pendingSubmission.isSome = true) .pendingRequestsConflict
      .ok {
        history := merged
        create := some (a.mergeWith b merged recipient now)
        merged := some (a.reference, b.reference)
        link := [mailboxEvidence, fingerprintEvidence]}

/-! ### Planning a relationship -/

/-- Where a relationship of two addresses is kept. -/
structure RelationshipAddress where
  relationship : RelationshipRef
  sender : ProtocolIdentity
  recipient : ProtocolIdentity
  deriving DecidableEq

/-- The state the relationship starts from when it is first opened. -/
def RelationshipAddress.initialState (a : RelationshipAddress) (history : RequestHistoryRef)
    (now : CanonicalTime) : ProtocolState :=
  .initialScoped a.relationship history a.sender a.recipient now

/-- What a guest brings to a recipient: a verified mailbox and a tokenized instrument. -/
structure GuestApproach where
  session : GuestSession
  identity : ProtocolIdentity
  fingerprint : InstrumentFingerprint
  token : Bytes32
  address : RelationshipAddress
  deriving DecidableEq

structure GuestRelationshipContext where
  now : CanonicalTime
  /-- The subject already registered under the guest's identity. -/
  registered : Option SenderSubject
  mailboxHistory : Option RequestHistory
  fingerprintHistory : Option RequestHistory

structure GuestRelationshipPlan where
  /-- The subject to register, when the identity is not yet registered. -/
  register : Option SenderSubject
  history : HistoryDecision
  plannedAt : CanonicalTime

inductive GuestAccessError
  /-- The guest's identity already belongs to another sender subject. -/
  | identityTaken
  | guest (error : GuestError)
  deriving DecidableEq

/-- What an existing registration leaves to be registered. -/
def registration (registered : Option SenderSubject) (subject : SenderSubject) :
    Except GuestAccessError (Option SenderSubject) :=
  match registered with
  | none => .ok (some subject)
  | some existing => if existing = subject then .ok none else .error .identityTaken

/-- The identity must be free or already this guest's, and the history follows the evidence. -/
def planGuestRelationship (approach : GuestApproach) (context : GuestRelationshipContext)
    (fresh : RequestHistoryRef) (merge : RequestHistoryRef → RequestHistoryRef → RequestHistoryRef) :
    Except GuestAccessError GuestRelationshipPlan := do
  let mailbox ← (approach.session.authorize context.now).mapError .guest
  let register ← registration context.registered (.guest mailbox)
  let merged := match context.mailboxHistory, context.fingerprintHistory with
    | some a, some b => merge a.reference b.reference
    | _, _ => fresh
  let history ← (resolveHistory approach.address.recipient (mailbox, context.mailboxHistory)
    (approach.fingerprint, context.fingerprintHistory) fresh merged context.now).mapError .guest
  .ok ⟨register, history, context.now⟩

end CsMail
