import CsMail.Accounts.AliasPermission

/-! Entrances: the addresses a participant receives at, and their lifecycle.

An entrance is `active` until it is restricted to the conversations already admitted on
it, replaced by a new one up to a deadline, or retired. Each operation builds the record
of the next state and passes it through the check every stored record must pass
(`AliasRecord.validate`). -/
namespace CsMail
open Library

inductive ReceivingPolicy
  | bonded
  | aliasScoped
  deriving DecidableEq

/-- Private context, kept trimmed: never an address or routing evidence. -/
structure AliasDescription where
  text : Text
  visible : text ≠ []
  short : text.length ≤ 240
  printable : text.any isControl = false

instance : DecidableEq AliasDescription := fun a b =>
  decidable_of_iff (a.text = b.text) (by cases a; cases b; simp)

theorem Text.trim_sublist (t : Text) : t.trim.Sublist t := by
  unfold Text.trim
  have hinner : ((t.dropWhile isWhitespace).reverse.dropWhile isWhitespace).Sublist
      (t.dropWhile isWhitespace).reverse := List.dropWhile_sublist _
  have houter := hinner.reverse
  rw [List.reverse_reverse] at houter
  exact houter.trans (List.dropWhile_sublist _)

def AliasDescription.ofText (t : Text) : Except AliasError AliasDescription :=
  if h : t.trim = [] ∨ 240 < t.length ∨ t.any isControl = true then .error .invalid
  else .ok ⟨t.trim, fun hblank => h (.inl hblank),
    t.trim_sublist.length_le.trans (not_lt.mp fun hlong => h (.inr (.inl hlong))), by
      have hnone : t.any isControl = false := by
        simpa using fun hcontrol => h (.inr (.inr hcontrol))
      rw [List.any_eq_false] at hnone ⊢
      exact fun c hc => hnone c (t.trim_sublist.subset hc)⟩

structure AliasConfiguration where
  description : AliasDescription
  receiving : ReceivingPolicy
  deriving DecidableEq

structure ConversationApproval where
  sender : ProtocolIdentity
  time : CanonicalTime
  named : sender.val ≠ 0

instance : DecidableEq ConversationApproval := fun a b =>
  decidable_of_iff (a.sender = b.sender ∧ a.time = b.time) (by cases a; cases b; simp)

def ConversationApproval.new (sender : ProtocolIdentity) (time : CanonicalTime) :
    Except AliasError ConversationApproval :=
  if h : sender.val = 0 then .error .invalid else .ok ⟨sender, time, h⟩

abbrev Admitted := SortedMap ConversationId AdmittedConversation
abbrev Approvals := SortedMap ConversationId ConversationApproval

inductive AliasLifecycle
  | active
  | restricted (time : CanonicalTime) (conversations : Admitted) (approvals : Approvals)
  | replaced (time : CanonicalTime) (replacement : AliasId) (deadline : CanonicalTime)
      (conversations : Admitted) (approvals : Approvals)
  | retired (time : CanonicalTime)
  deriving DecidableEq

def AliasLifecycle.approvals : AliasLifecycle → Option Approvals
  | restricted _ _ approvals | replaced _ _ _ _ approvals => some approvals
  | active | retired _ => none

structure AliasRecord where
  id : AliasId
  owner : ProtocolIdentity
  address : MemberAddress
  configuration : AliasConfiguration
  createdAt : CanonicalTime
  changedAt : CanonicalTime
  revision : U64
  lifecycle : AliasLifecycle
  permission : ReceivingPermission
  deriving DecidableEq

namespace AliasRecord

/-- When the stage began, and the conversations it keeps. -/
def stage (r : AliasRecord) : Except AliasError (CanonicalTime × Option Admitted) :=
  match r.lifecycle with
  | .active => .ok (r.createdAt, none)
  | .restricted time conversations _ => .ok (time, some conversations)
  | .replaced time replacement deadline conversations _ => do
    refuseIf (replacement = r.id ∨ deadline ≤ time) .invalid
    .ok (time, some conversations)
  | .retired time => .ok (time, none)

/-- The revision counts the changes the lifecycle records. -/
def checkChanges (r : AliasRecord) : Except AliasError Unit :=
  match r.lifecycle with
  | .restricted time _ approvals => do
    let length ← okOr (Checked.ofNat (2 ^ 64) approvals.entries.length) AliasError.invalid
    let changes ← okOr (Checked.add length 1) .invalid
    refuseIf (r.revision ≠ changes ∨ approvals.values.any (fun a => a.time < time) = true ∨
      ((approvals.values.map (·.time)).max?).getD time ≠ r.changedAt) .invalid
  | .replaced time _ _ _ approvals => do
    let length ← okOr (Checked.ofNat (2 ^ 64) approvals.entries.length) AliasError.invalid
    let changes ← okOr (Checked.add length 2) .invalid
    refuseIf (r.changedAt ≠ time ∨
      (r.revision ≠ changes ∧ ¬(approvals.entries = [] ∧ r.revision = 1))) .invalid
  | .active | .retired _ => .ok ()

def validate (r : AliasRecord) : Except AliasError Unit := do
  refuseIf (r.owner.val = 0 ∨ r.changedAt < r.createdAt ∨ r.permission.record.aliasId ≠ r.id ∨
    r.permission.record.owner ≠ r.owner ∨ r.permission.changedAt < r.createdAt ∨
    (r.configuration.receiving = .bonded ∧ r.permission.state.isAliasWide = true)) .invalid
  let (time, conversations) ← r.stage
  refuseIf (time < r.createdAt ∨ r.changedAt < time ∨
    (r.lifecycle = .active ∧ (r.revision ≠ 0 ∨ r.changedAt ≠ r.createdAt)) ∨
    (r.lifecycle ≠ .active ∧ r.revision = 0) ∨
    conversations.any (fun m => m.entries.any fun (id, c) => id ≠ c.conversation ∨
      c.aliasId ≠ r.id ∨ c.sender = r.owner ∨ c.admittedAt < r.createdAt ∨ time < c.admittedAt) = true)
    .invalid
  r.checkChanges
  refuseIf (r.lifecycle.approvals.any (fun m => m.values.any fun a => a.sender.val = 0 ∨
    a.sender = r.owner ∨ a.time < r.createdAt ∨ r.changedAt < a.time) = true) .invalid

end AliasRecord

/-- An entrance whose record passes the check; only the check makes one. -/
structure Alias where
  record : AliasRecord
  valid : record.validate = .ok ()

instance : DecidableEq Alias := fun a b =>
  decidable_of_iff (a.record = b.record) (by cases a; cases b; simp)

/-- `TryFrom<AliasRecord>`. -/
def AliasRecord.toAlias (r : AliasRecord) : Except AliasError Alias :=
  match h : r.validate with
  | .ok () => .ok ⟨r, h⟩
  | .error e => .error e

namespace Alias

def create (id : AliasId) (owner : ProtocolIdentity) (address : MemberAddress)
    (configuration : AliasConfiguration) (time : CanonicalTime) : Except AliasError Alias := do
  let permission ← ReceivingPermission.unpaired id owner time
  AliasRecord.toAlias {
    id, owner, address, configuration
    createdAt := time
    changedAt := time
    revision := 0
    lifecycle := .active
    permission}

def id (a : Alias) : AliasId := a.record.id

def owner (a : Alias) : ProtocolIdentity := a.record.owner

def policy (a : Alias) : ReceivingPolicy := a.record.configuration.receiving

def revision (a : Alias) : U64 := a.record.revision

def changedAt (a : Alias) : CanonicalTime := a.record.changedAt

def lifecycle (a : Alias) : AliasLifecycle := a.record.lifecycle

def permission (a : Alias) : ReceivingPermission := a.record.permission

def isBondedRoute (a : Alias) : Bool :=
  a.policy = .bonded && match a.lifecycle with
    | .active | .restricted .. => true
    | .replaced .. | .retired _ => false

/-- Permission and address state have separate revisions. -/
def withPermission (a : Alias) (permission : ReceivingPermission) : Except AliasError Alias :=
  AliasRecord.toAlias {a.record with permission}

def update (a : Alias) (expected : U64) (now : CanonicalTime) (lifecycle : AliasLifecycle) :
    Except AliasError Alias := do
  refuseIf (a.revision ≠ expected) .conflict
  match a.lifecycle with
  | .retired _ | .replaced .. => .error .retired
  | .active | .restricted .. =>
    refuseIf (now < a.changedAt) .invalid
    let revision ← okOr (Checked.succ expected) .invalid
    AliasRecord.toAlias {a.record with revision, changedAt := now, lifecycle}

/-- The conversations already admitted on this route, from the evidence supplied. -/
def existing (a : Alias) (existing : List AdmittedConversation) (time : CanonicalTime) :
    Except AliasError Admitted := do
  let conversations := conversationMap existing
  refuseIf (existing.length ≠ conversations.entries.length ∨
    conversations.values.any (fun c => c.aliasId ≠ a.id ∨ time < c.admittedAt ∨
      c.admittedAt < a.record.createdAt ∨ c.sender = a.owner) = true) .invalid
  .ok conversations

def restrict (a : Alias) (expected : U64) (existing : List AdmittedConversation)
    (time : CanonicalTime) : Except AliasError Alias :=
  match a.lifecycle with
  | .active => do
    let conversations ← a.existing existing time
    a.update expected time (.restricted time conversations ∅)
  | .restricted .. | .replaced .. | .retired _ => .error .restricted

/-- What the entrance admits when it is replaced: what it was restricted to, if it was. -/
def keptConversations (a : Alias) (existing : List AdmittedConversation) (time : CanonicalTime) :
    Except AliasError Admitted :=
  match a.lifecycle with
  | .restricted _ conversations _ => .ok conversations
  | .active | .replaced .. | .retired _ => a.existing existing time

def keptApprovals (a : Alias) : Approvals :=
  match a.lifecycle with
  | .restricted _ _ approvals => approvals
  | .active | .replaced .. | .retired _ => ∅

/-- Replacement preserves the participant and old evidence; the new route inherits no senders. -/
def replace (a : Alias) (expected : U64) (replacement : Alias) (deadline : CanonicalTime)
    (existing : List AdmittedConversation) (time : CanonicalTime) : Except AliasError Alias := do
  refuseIf (replacement.owner ≠ a.owner ∨ replacement.id = a.id ∨
    replacement.record.address = a.record.address ∨
    replacement.record.configuration ≠ a.record.configuration ∨
    replacement.record.createdAt ≠ time ∨ replacement.revision ≠ 0 ∨
    replacement.lifecycle ≠ .active ∨ deadline ≤ time) .invalid
  let conversations ← a.keptConversations existing time
  a.update expected time (.replaced time replacement.id deadline conversations a.keptApprovals)

/-- The address stays reserved permanently. -/
def retire (a : Alias) (expected : U64) (time : CanonicalTime) : Except AliasError Alias :=
  match a.lifecycle with
  | .replaced .. => do
    refuseIf (a.revision ≠ expected ∨ time < a.changedAt) .conflict
    let revision ← okOr (Checked.succ expected) .invalid
    AliasRecord.toAlias {a.record with revision, changedAt := time, lifecycle := .retired time}
  | .active | .restricted .. | .retired _ => a.update expected time (.retired time)

/-- Authorizes one reviewed conversation; the admitted history stays as it was. -/
def approveConversation (a : Alias) (expected : U64) (sender : ProtocolIdentity)
    (conversation : ConversationId) (time : CanonicalTime) : Except AliasError Alias :=
  match a.lifecycle with
  | .restricted restrictedAt conversations approvals => do
    refuseIf (sender.val = 0 ∨ sender = a.owner ∨ conversations.contains conversation = true ∨
      approvals.contains conversation = true) .invalid
    let approval ← ConversationApproval.new sender time
    a.update expected time
      (.restricted restrictedAt conversations (approvals.insert conversation approval))
  | .active | .replaced .. | .retired _ => .error .restricted

/-- The conversations the entrance still admits, unless it admits all. -/
def admitting (a : Alias) (now : CanonicalTime) : Except AliasError (Option (Admitted × Approvals)) :=
  match a.lifecycle with
  | .active => .ok none
  | .restricted _ conversations approvals => .ok (some (conversations, approvals))
  | .replaced _ _ deadline conversations approvals =>
    if now < deadline then .ok (some (conversations, approvals)) else .error .retired
  | .retired _ => .error .retired

/-- Route status cannot be bypassed by standing or sender-lane permission. -/
def checkConversation (a : Alias) (sender : ProtocolIdentity) (conversation : ConversationId)
    (now : CanonicalTime) : Except AliasError Unit := do
  refuseIf (now < a.changedAt) .invalid
  match ← a.admitting now with
  | none => .ok ()
  | some (existing, approvals) =>
    refuseIf (¬((existing.get? conversation).any (·.sender = sender) = true ∨
      (approvals.get? conversation).any (fun a => a.sender = sender ∧ a.time ≤ now) = true)) .restricted

end Alias

end CsMail
