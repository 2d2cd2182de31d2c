import CsMail.Correspondence.Manifest

/-! Conversations between two personas, and the policy for reusing what was said in them.

Either participant may restrict reuse to the originating relationship; both must agree to
relax it again. -/
namespace CsMail
open Library

/-- An unordered pair of personas, not a contact grant. -/
structure CorrespondenceRef where
  first : ProtocolIdentity
  second : ProtocolIdentity
  nonzero : first.val ≠ 0
  ordered : first < second

instance : DecidableEq CorrespondenceRef := fun a b =>
  decidable_of_iff (a.first = b.first ∧ a.second = b.second) (by
    cases a
    cases b
    simp)

/-- Requires two distinct nonzero personas. -/
def CorrespondenceRef.new (a b : ProtocolIdentity) : Except CorrespondenceError CorrespondenceRef :=
  if h : a.val = 0 ∨ b.val = 0 ∨ a = b then .error .invalid
  else .ok {
    first := min a b
    second := max a b
    nonzero := by
      rcases min_choice a b with hmin | hmin <;> simp_all
    ordered := min_lt_max.mpr fun heq => h (.inr (.inr heq))}

/-- A nonparticipant is refused without disclosing another participant. -/
def CorrespondenceRef.other (r : CorrespondenceRef) (actor : ProtocolIdentity) :
    Except CorrespondenceError ProtocolIdentity :=
  if actor = r.first then .ok r.second
  else if actor = r.second then .ok r.first
  else .error .unauthorized

def CorrespondenceRef.contains (r : CorrespondenceRef) (actor : ProtocolIdentity) : Bool :=
  actor = r.first ∨ actor = r.second

/-! ### Conversations -/

inductive ReusePolicy
  | acrossRelationships
  | originatingRelationshipOnly
  deriving DecidableEq

inductive PolicyAction
  | restrict
  | proposeRelaxation
  | approveRelaxation
  deriving DecidableEq

/-- The last message received, and the withdrawal epoch it was received in. -/
structure ReceivedMessage where
  message : MessageId
  epoch : ReplyEpoch
  deriving DecidableEq

structure ConversationRecord where
  subject : Option SubjectCommitment
  id : ConversationId
  scope : CorrespondenceRef
  policy : ReusePolicy
  revision : U64
  relaxationProposer : Option ProtocolIdentity
  received : SortedMap ProtocolIdentity ReceivedMessage
  deriving DecidableEq

/-- A participant received each message, and a participant proposed what is proposed. -/
def ConversationRecord.valid (r : ConversationRecord) : Bool :=
  (r.received.entries.all fun (actor, receipt) => r.scope.contains actor && receipt.message.val ≠ 0) &&
    r.relaxationProposer.all fun p => r.scope.contains p && r.policy = .originatingRelationshipOnly &&
      r.revision ≠ 0

structure Conversation where
  record : ConversationRecord
  valid : record.valid = true

instance : DecidableEq Conversation := fun a b =>
  decidable_of_iff (a.record = b.record) (by
    cases a
    cases b
    simp)

namespace Conversation

def new (id : ConversationId) (scope : CorrespondenceRef) : Conversation where
  record := {
    subject := none
    id, scope
    policy := .acrossRelationships
    revision := 0
    relaxationProposer := none
    received := .empty}
  valid := rfl

def id (c : Conversation) : ConversationId := c.record.id

def subject (c : Conversation) : Option SubjectCommitment := c.record.subject

def scope (c : Conversation) : CorrespondenceRef := c.record.scope

def policy (c : Conversation) : ReusePolicy := c.record.policy

def revision (c : Conversation) : U64 := c.record.revision

/-- Whether what was said here may be reused there. -/
def permits (c : Conversation) (destination : CorrespondenceRef) : Bool :=
  c.policy = .acrossRelationships ∨ c.scope = destination

/-- The first native delivery binds the subject; later ones cannot change it. -/
def bindSubject (c : Conversation) (subject : Option SubjectCommitment) :
    Except CorrespondenceError Conversation := do
  let subject ← okOr subject .invalid
  refuseIf (c.subject.any (· ≠ subject) = true) .conflict
  .ok ⟨{c.record with subject := some subject}, c.valid⟩

/-- Reply evidence applies only in this conversation, and only in the current withdrawal
epoch. -/
def replySource (c : Conversation) (actor : ProtocolIdentity) (epoch : ReplyEpoch) : Option MessageId :=
  ((c.record.received.get? actor).filter fun receipt => receipt.epoch = epoch).map (·.message)

theorem valid_receive {c : Conversation} {recipient : ProtocolIdentity} {receipt : ReceivedMessage}
    (hrecipient : c.scope.contains recipient = true) (hmessage : receipt.message.val ≠ 0) :
    {c.record with received := c.record.received.insert recipient receipt}.valid = true := by
  obtain ⟨hreceived, hproposer⟩ := Bool.and_eq_true_iff.mp c.valid
  refine Bool.and_eq_true_iff.mpr ⟨List.all_eq_true.mpr fun ⟨actor, r⟩ hr => ?_, hproposer⟩
  rcases SortedMap.get?_insert_eq_some.mp (SortedMap.mem_entries.mp hr) with ⟨rfl, rfl⟩ | ⟨-, hold⟩
  · have hcontains : c.record.scope.contains actor = true := hrecipient
    simp [hcontains, hmessage]
  · exact List.all_eq_true.mp hreceived _ (SortedMap.mem_entries.mpr hold)

/-- A recipient's evidence of the message, committed with its delivery. -/
def receive (c : Conversation) (recipient : ProtocolIdentity) (message : MessageId) (epoch : ReplyEpoch) :
    Except CorrespondenceError Conversation :=
  if h : c.scope.contains recipient = false ∨ message.val = 0 then .error .invalid
  else .ok ⟨{c.record with received := c.record.received.insert recipient ⟨message, epoch⟩},
    valid_receive (Bool.of_not_eq_false fun hforeign => h (.inl hforeign)) fun hzero => h (.inr hzero)⟩

/-- The policy an action leads to, and who then proposes to relax it. -/
def relaxed (c : Conversation) (actor : ProtocolIdentity) :
    PolicyAction → Except CorrespondenceError (ReusePolicy × Option ProtocolIdentity)
  | .restrict => .ok (.originatingRelationshipOnly, none)
  | .proposeRelaxation => do
    refuseIf (¬(c.policy = .originatingRelationshipOnly ∧ c.record.relaxationProposer = none)) .conflict
    .ok (c.policy, some actor)
  | .approveRelaxation => do
    refuseIf (c.record.relaxationProposer.any (· ≠ actor) = false) .conflict
    .ok (.acrossRelationships, none)

theorem valid_change {c : Conversation} {actor : ProtocolIdentity} {action : PolicyAction}
    {policy : ReusePolicy} {relaxationProposer : Option ProtocolIdentity} {revision : U64}
    (hactor : c.scope.contains actor = true) (h : c.relaxed actor action = .ok (policy, relaxationProposer))
    (hrevision : revision.val = c.revision.val + 1) :
    {c.record with policy, relaxationProposer, revision}.valid = true := by
  obtain ⟨hreceived, -⟩ := Bool.and_eq_true_iff.mp c.valid
  refine Bool.and_eq_true_iff.mpr ⟨hreceived, ?_⟩
  cases action with
  | restrict =>
    cases h
    rfl
  | proposeRelaxation =>
    simp only [relaxed, bind_eq_ok, refuseIf_eq_ok, Decidable.not_not, Except.ok.injEq, Prod.mk.injEq] at h
    obtain ⟨_, ⟨hpolicy, -⟩, rfl, rfl⟩ := h
    have hcontains : c.record.scope.contains actor = true := hactor
    have hnonzero : revision ≠ 0 := fun hzero => by
      rw [hzero] at hrevision
      cases hrevision
    simp [hcontains, hpolicy, hnonzero]
  | approveRelaxation =>
    simp only [relaxed, bind_eq_ok, Except.ok.injEq, Prod.mk.injEq] at h
    obtain ⟨_, -, rfl, rfl⟩ := h
    rfl

/-- A participant changes the policy it has read; a proposal takes the other's approval. -/
def change (c : Conversation) (actor : ProtocolIdentity) (revision : U64) (action : PolicyAction) :
    Except CorrespondenceError Conversation :=
  if hactor : c.scope.contains actor = false then .error .unauthorized
  else if hrevision : revision ≠ c.revision then .error .conflict
  else match h : c.relaxed actor action, hnext : Checked.succ revision with
    | .error e, _ => .error e
    | .ok _, none => .error .invalid
    | .ok (policy, relaxationProposer), some next =>
      .ok ⟨{c.record with policy, relaxationProposer, revision := next},
        valid_change (Bool.of_not_eq_false hactor) h
          (not_ne_iff.mp hrevision ▸ Checked.succ_eq_some.mp hnext)⟩

end Conversation
end CsMail
