import CsMail.Capabilities.Lane
import CsMail.Correspondence.Conversation
import CsMail.Finance.Payments

/-! Member-initiated external conversations.

Pending access is conversation scoped; standing permission and lanes remain owned by the
relationship. A conversation keeps its member's consent to disclose it through its fixed
external route, and each queued message its own handoff. -/
namespace CsMail
open Library

/-! ### Correspondents -/

/-- One exact mailbox address. -/
structure GuestMailbox where
  localPart : Text
  domain : DomainIdentity
  deriving DecidableEq

namespace GuestMailbox

def mappingVersion : U16 := 1

def address (m : GuestMailbox) : Text := m.localPart ++ "@".toList ++ m.domain.name

/-- The protocol identity this mailbox writes as; its lowest bit keeps it nonzero. -/
def syntheticProtocolIdentity [Crypto] (m : GuestMailbox) (deployment : Bytes32) : ProtocolIdentity :=
  ⟨firstU128 (Crypto.sha256 (byteString "cs-mail/guest-mailbox-identity/v1" ++ deployment.toList ++
    beBytes 2 mappingVersion.val ++ m.address.utf8)) ||| 1⟩

end GuestMailbox

/-! ### Consent to disclose -/

inductive ConsentError
  | invalid
  | unauthorized
  | scopeDenied
  | expired
  | revoked
  | unavailable
  | conflict
  deriving DecidableEq

/-- Consent to disclose a conversation through its fixed external route. -/
inductive DisclosureConsent
  | notGranted
  | granted (time : CanonicalTime)
  | withdrawn (time : CanonicalTime)
  deriving DecidableEq

namespace DisclosureConsent

/-- When the consent last changed. -/
def changedAt : DisclosureConsent → Option CanonicalTime
  | notGranted => none
  | granted time | withdrawn time => some time

/-- A new grant cannot predate the recorded withdrawal or prior grant. -/
def grant (c : DisclosureConsent) (now : CanonicalTime) : Except ConsentError DisclosureConsent :=
  if c.changedAt.any (fun time => now < time) then .error .invalid
  else match c with
    | granted time => .ok (.granted time)
    | notGranted | withdrawn _ => .ok (.granted now)

def permitsDispatch : DisclosureConsent → Bool
  | granted _ => true
  | notGranted | withdrawn _ => false

/-- A withdrawal cannot predate the recorded consent. -/
def withdraw (c : DisclosureConsent) (now : CanonicalTime) : Except ConsentError DisclosureConsent :=
  if c.changedAt.any (fun time => now < time) then .error .invalid
  else match c with
    | notGranted => .ok .notGranted
    | granted _ => .ok (.withdrawn now)
    | withdrawn time => .ok (.withdrawn time)

end DisclosureConsent

/-! ### Handoff -/

/-- A carrier's acceptance identifier: a nonempty token. -/
structure ProviderReference where
  value : Text
  nonempty : value ≠ []
  bounded : value.length ≤ 256
  token : value.all (fun c => c.isAlphanum || c ∈ ['-', '_', '.', ':']) = true
  deriving DecidableEq

/-- A durable handoff: a once-only attempt. Uncertain outcomes are reconciled, never retried. -/
inductive DeliveryState
  | waiting
  | cancelled (time : CanonicalTime)
  | dispatchBegun (time : CanonicalTime)
  | accepted (time : CanonicalTime) (reference : ProviderReference)
  | failed (time : CanonicalTime)
  deriving DecidableEq

namespace DeliveryState

def cancel (d : DeliveryState) (now : CanonicalTime) : DeliveryState :=
  if d = waiting then .cancelled now else d

/-- A dispatch can only begin once. -/
def begin (d : DeliveryState) (now : CanonicalTime) : Except CorrespondenceError DeliveryState :=
  if d ≠ waiting then .error .conflict else .ok (.dispatchBegun now)

/-- Conflicting terminal outcomes are refused. -/
def finish (d : DeliveryState) (reference : Option ProviderReference) (now : CanonicalTime) :
    Except CorrespondenceError DeliveryState :=
  match d, reference with
  | dispatchBegun time, some reference =>
    if time ≤ now then .ok (.accepted now reference) else .error .conflict
  | dispatchBegun time, none => if time ≤ now then .ok (.failed now) else .error .conflict
  | accepted time known, some reference =>
    if time ≤ now ∧ reference = known then .ok (.accepted time known) else .error .conflict
  | failed time, none => if time ≤ now then .ok (.failed time) else .error .conflict
  | _, _ => .error .conflict

end DeliveryState

/-! ### Conversations -/

inductive Invitation
  /-- Existing standing or lane permission governs replies from the outset. -/
  | notRequired
  | pending (relationshipVersion : RelationshipVersion)
  | rejected (time : CanonicalTime)
  deriving DecidableEq

def Invitation.rejectedAt : Invitation → Option CanonicalTime
  | rejected time => some time
  | notRequired | pending _ => none

structure ExternalRecord where
  conversation : Conversation
  member : ProtocolIdentity
  receivingAlias : AliasId
  mailbox : GuestMailbox
  deployment : Bytes32
  invitation : Invitation
  disclosure : DisclosureConsent
  createdAt : CanonicalTime
  deriving DecidableEq

namespace ExternalRecord
variable [Crypto]

def guest (r : ExternalRecord) : ProtocolIdentity := r.mailbox.syntheticProtocolIdentity r.deployment

def validate (r : ExternalRecord) : Except CorrespondenceError Unit := do
  let scope ← CorrespondenceRef.new r.member r.guest
  refuseIf (r.conversation.scope ≠ scope ∨
    r.invitation.rejectedAt.any (fun time => time < r.createdAt) = true ∨
    r.disclosure.changedAt.any (fun time => time < r.createdAt) = true) .invalid

/-- What is read of a record when it is checked. -/
theorem validate_eq_ok {r : ExternalRecord} : r.validate = .ok () ↔
    CorrespondenceRef.new r.member r.guest = .ok r.conversation.scope ∧
      (∀ time, r.invitation.rejectedAt = some time → r.createdAt ≤ time) ∧
      ∀ time, r.disclosure.changedAt = some time → r.createdAt ≤ time := by
  have hany : ∀ o : Option CanonicalTime, ¬o.any (fun time => time < r.createdAt) = true ↔
      ∀ time, o = some time → r.createdAt ≤ time := fun o => by
    cases o <;> simp
  simp only [validate, bind_eq_ok, refuseIf_eq_ok, not_or, hany, ne_eq, Decidable.not_not]
  constructor
  · rintro ⟨scope, hscope, rfl, hinvitation, hdisclosure⟩
    exact ⟨hscope, hinvitation, hdisclosure⟩
  · rintro ⟨hscope, hinvitation, hdisclosure⟩
    exact ⟨_, hscope, rfl, hinvitation, hdisclosure⟩

end ExternalRecord

/-- A conversation between its member and its mailbox, no part of which predates it. -/
structure ExternalConversation [Crypto] where
  record : ExternalRecord
  valid : record.validate = .ok ()

instance [Crypto] : DecidableEq ExternalConversation := fun a b =>
  decidable_of_iff (a.record = b.record) (by cases a; cases b; simp)

section
variable [Crypto]

/-- `TryFrom<Record>`. -/
def ExternalRecord.toExternal (r : ExternalRecord) : Except CorrespondenceError ExternalConversation :=
  match h : r.validate with
  | .ok () => .ok ⟨r, h⟩
  | .error e => .error e

theorem ExternalRecord.toExternal_eq_ok {r : ExternalRecord} {c : ExternalConversation}
    (h : r.toExternal = .ok c) : c.record = r := by
  unfold toExternal at h
  split at h
  · cases h
    rfl
  · cases h

namespace ExternalConversation

def id (c : ExternalConversation) : ConversationId := c.record.conversation.id

def member (c : ExternalConversation) : ProtocolIdentity := c.record.member

def guest (c : ExternalConversation) : ProtocolIdentity := c.record.guest

def invitation (c : ExternalConversation) : Invitation := c.record.invitation

def disclosure (c : ExternalConversation) : DisclosureConsent := c.record.disclosure

/-- An inbound route records a conversation without inventing an invitation or outbound
consent. -/
def inbound (id : ConversationId) (member : ProtocolIdentity) (receivingAlias : AliasId)
    (mailbox : GuestMailbox) (deployment : Bytes32) (relationship : Relationship) (now : CanonicalTime) :
    Except CorrespondenceError ExternalConversation := do
  refuseIf (relationship.key.sender ≠ mailbox.syntheticProtocolIdentity deployment ∨
    relationship.key.recipient ≠ member) .unauthorized
  let scope ← CorrespondenceRef.new member relationship.key.sender
  ExternalRecord.toExternal {
    conversation := .new id scope
    member, receivingAlias, mailbox, deployment
    invitation := .notRequired
    disclosure := .notGranted
    createdAt := now}

/-- The member explicitly supplies disclosure consent in the signed start command. -/
def start (id : ConversationId) (member : ProtocolIdentity) (receivingAlias : AliasId)
    (mailbox : GuestMailbox) (deployment : Bytes32) (relationship : Relationship) (now : CanonicalTime) :
    Except CorrespondenceError ExternalConversation := do
  refuseIf (relationship.key.sender ≠ mailbox.syntheticProtocolIdentity deployment ∨
    relationship.key.recipient ≠ member ∨ relationship.state = .blocked) .unauthorized
  let scope ← CorrespondenceRef.new member (mailbox.syntheticProtocolIdentity deployment)
  ExternalRecord.toExternal {
    conversation := .new id scope
    member, receivingAlias, mailbox, deployment
    invitation := match relationship.state with
      | .accepted | .expressLane _ => .notRequired
      | .unknown | .rejected | .revoked | .blocked => .pending relationship.version
    disclosure := .granted now
    createdAt := now}

/-- Any relationship decision invalidates the old pending opportunity. -/
def pendingAccess (c : ExternalConversation) (r : Relationship) : Bool :=
  r.key.sender = c.guest ∧ r.key.recipient = c.member ∧ r.state ≠ .blocked ∧
    c.invitation = .pending r.version

end ExternalConversation

/-! ### What the member may change -/

omit [Crypto] in
theorem DisclosureConsent.grant_changedAt {d d' : DisclosureConsent} {now : CanonicalTime}
    (h : d.grant now = .ok d') : d'.changedAt = some now ∨ d' = d := by
  unfold grant at h
  split_ifs at h
  cases d <;> cases h
  · exact .inl rfl
  · exact .inr rfl
  · exact .inl rfl

omit [Crypto] in
theorem DisclosureConsent.withdraw_changedAt {d d' : DisclosureConsent} {now : CanonicalTime}
    (h : d.withdraw now = .ok d') : d' = d ∨ (∃ time, d = .granted time ∧ time ≤ now ∧ d' = .withdrawn now) := by
  unfold withdraw at h
  split_ifs at h with hbefore
  cases d with
  | notGranted =>
    cases h
    exact .inl rfl
  | granted time =>
    cases h
    exact .inr ⟨time, rfl, by simpa [changedAt] using hbefore, rfl⟩
  | withdrawn time =>
    cases h
    exact .inl rfl

namespace ExternalConversation

theorem valid_grant {c : ExternalConversation} {disclosure : DisclosureConsent} {now : CanonicalTime}
    (h : c.disclosure.grant now = .ok disclosure) (hnow : c.record.createdAt ≤ now) :
    {c.record with disclosure}.validate = .ok () := by
  obtain ⟨hscope, hinvitation, hdisclosure⟩ := ExternalRecord.validate_eq_ok.mp c.valid
  refine ExternalRecord.validate_eq_ok.mpr ⟨hscope, hinvitation, fun time htime => ?_⟩
  rcases DisclosureConsent.grant_changedAt h with hnew | rfl
  · cases hnew.symm.trans htime
    exact hnow
  · exact hdisclosure time htime

theorem valid_withdraw {c : ExternalConversation} {disclosure : DisclosureConsent} {now : CanonicalTime}
    (h : c.disclosure.withdraw now = .ok disclosure) : {c.record with disclosure}.validate = .ok () := by
  obtain ⟨hscope, hinvitation, hdisclosure⟩ := ExternalRecord.validate_eq_ok.mp c.valid
  refine ExternalRecord.validate_eq_ok.mpr ⟨hscope, hinvitation, fun time htime => ?_⟩
  rcases DisclosureConsent.withdraw_changedAt h with rfl | ⟨granted, hgranted, hbefore, rfl⟩
  · exact hdisclosure time htime
  · cases htime
    exact (hdisclosure granted (congrArg DisclosureConsent.changedAt hgranted)).trans hbefore

theorem valid_reject {c : ExternalConversation} {now : CanonicalTime} (h : c.record.createdAt ≤ now) :
    {c.record with invitation := .rejected now}.validate = .ok () := by
  obtain ⟨hscope, -, hdisclosure⟩ := ExternalRecord.validate_eq_ok.mp c.valid
  refine ExternalRecord.validate_eq_ok.mpr ⟨hscope, fun time htime => ?_, hdisclosure⟩
  cases htime
  exact h

/-- Only the member can grant disclosure for the fixed destination. -/
def grantDisclosure (c : ExternalConversation) (actor : ProtocolIdentity) (now : CanonicalTime) :
    Except CorrespondenceError ExternalConversation :=
  if hallowed : actor ≠ c.member ∨ now < c.record.createdAt then .error .unauthorized
  else match h : c.disclosure.grant now with
    | .error _ => .error .invalid
    | .ok disclosure => .ok ⟨{c.record with disclosure},
        valid_grant h (not_lt.mp fun hbefore => hallowed (.inr hbefore))⟩

/-- Rejects a nonowner or a decision predating the invitation. -/
def reject (c : ExternalConversation) (actor : ProtocolIdentity) (relationship : Relationship)
    (now : CanonicalTime) : Except CorrespondenceError ExternalConversation :=
  if h : actor ≠ c.member ∨ now < c.record.createdAt ∨ c.pendingAccess relationship = false ∨
      relationship.state = .accepted then .error .unauthorized
  else .ok ⟨{c.record with invitation := .rejected now},
    valid_reject (not_lt.mp fun hbefore => h (.inr (.inl hbefore)))⟩

/-- Only the member can withdraw this route's disclosure authority. -/
def withdraw (c : ExternalConversation) (actor : ProtocolIdentity) (now : CanonicalTime) :
    Except CorrespondenceError ExternalConversation :=
  if actor ≠ c.member then .error .unauthorized
  else match h : c.disclosure.withdraw now with
    | .error _ => .error .invalid
    | .ok disclosure => .ok ⟨{c.record with disclosure}, valid_withdraw h⟩

end ExternalConversation
end
end CsMail
