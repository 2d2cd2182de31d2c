import CsMail.Accounts.AliasProofs
import CsMail.Library.Machine

/-! An entrance over any run of its operations.

Only five moves change the lifecycle (`LifecycleStep`), each forward; a change of the
receiving permission leaves it as it is. So a conversation that an entrance still admits
after it closed was in the evidence it was closed with, or was approved since. -/
namespace CsMail
open Library

/-- A change of the receiving permission. -/
inductive PermissionChange
  | openAll (expected : PermissionRevision) (time : CanonicalTime)
  | remove (expected : PermissionRevision) (time : CanonicalTime)
  | restrict (expected : PermissionRevision) (existing : List AdmittedConversation) (time : CanonicalTime)
  | senders (expected : PermissionRevision) (lanes : List SenderScopedLane) (time : CanonicalTime)
  | consume (lane : SenderScopedLane)

namespace PermissionChange

def apply (p : ReceivingPermission) : PermissionChange → Except AliasError ReceivingPermission
  | openAll expected time => p.openAll expected time
  | remove expected time => p.remove expected time
  | restrict expected existing time => p.restrict expected existing time
  | senders expected lanes time => p.senders expected lanes time
  | consume lane => p.consume lane

/-- The use of an allowance is no new grant: it is not counted. -/
def counted : PermissionChange → Bool
  | openAll .. | remove .. | restrict .. | senders .. => true
  | consume _ => false

/-- What a change asks of the permission it starts from. -/
def Legitimate (p : ReceivingPermission) : PermissionChange → Prop
  | openAll expected time => p.Due expected time
  | remove expected time => p.Due expected time
  | restrict expected existing time =>
    (∃ grant, p.state = .broad grant) ∧ p.Due expected time ∧ p.Evidence existing time
  | senders expected lanes time => p.Due expected time ∧ LaneSet p.record.owner time lanes
  | consume lane => ∃ lanes current, p.state = .senders lanes ∧
      lanes.find? (·.grant.id = lane.grant.id) = some current ∧ current.grant = lane.grant ∧
      current.version.checkedNext = some lane.version

end PermissionChange

inductive AliasOperation
  | restrict (expected : U64) (existing : List AdmittedConversation) (time : CanonicalTime)
  | replace (expected : U64) (replacement : Alias) (deadline : CanonicalTime)
      (existing : List AdmittedConversation) (time : CanonicalTime)
  | retire (expected : U64) (time : CanonicalTime)
  | approveConversation (expected : U64) (sender : ProtocolIdentity) (conversation : ConversationId)
      (time : CanonicalTime)
  | change (change : PermissionChange)
  | withPermission (permission : ReceivingPermission)

namespace AliasOperation

def apply (a : Alias) : AliasOperation → Except AliasError Alias
  | restrict expected existing time => a.restrict expected existing time
  | replace expected replacement deadline existing time =>
    a.replace expected replacement deadline existing time
  | retire expected time => a.retire expected time
  | approveConversation expected sender conversation time =>
    a.approveConversation expected sender conversation time
  | change c => do
    let permission ← c.apply a.permission
    a.withPermission permission
  | withPermission permission => a.withPermission permission

/-- The admitted conversations the operation is given. -/
def evidence : AliasOperation → List AdmittedConversation
  | restrict _ existing _ | replace _ _ _ existing _ => existing
  | retire .. | approveConversation .. | change _ | withPermission _ => []

def movesLifecycle : AliasOperation → Bool
  | restrict .. | replace .. | retire .. | approveConversation .. => true
  | change _ | withPermission _ => false

end AliasOperation

/-- How far an entrance has come; it never goes back. -/
def AliasLifecycle.rank : AliasLifecycle → Nat
  | active => 0
  | restricted .. => 1
  | replaced .. => 2
  | retired _ => 3

/-- The moves of the lifecycle. -/
inductive LifecycleStep : AliasOperation → AliasLifecycle → AliasLifecycle → Prop
  | restrict {expected existing time} : (existing.map (·.conversation)).Nodup →
      LifecycleStep (.restrict expected existing time) .active
        (.restricted time (conversationMap existing) ∅)
  | replaceActive {expected replacement deadline existing time} :
      (existing.map (·.conversation)).Nodup →
      LifecycleStep (.replace expected replacement deadline existing time) .active
        (.replaced time replacement.id deadline (conversationMap existing) ∅)
  | replaceRestricted {expected replacement deadline existing time since conversations approvals} :
      LifecycleStep (.replace expected replacement deadline existing time)
        (.restricted since conversations approvals)
        (.replaced time replacement.id deadline conversations approvals)
  | approve {expected conversation since conversations approvals} (approval : ConversationApproval) :
      LifecycleStep (.approveConversation expected approval.sender conversation approval.time)
        (.restricted since conversations approvals)
        (.restricted since conversations (approvals.insert conversation approval))
  | retire {expected time lifecycle} : lifecycle.rank < 3 →
      LifecycleStep (.retire expected time) lifecycle (.retired time)

/-! ### One operation -/

namespace PermissionChange
variable {p p' : ReceivingPermission} {c : PermissionChange}

theorem apply_next (h : c.apply p = .ok p') : c.Legitimate p ∧
    p'.record.aliasId = p.record.aliasId ∧ p'.record.owner = p.record.owner ∧
    p.changedAt ≤ p'.changedAt ∧
    p'.revision.val.val = p.revision.val.val + (if c.counted then 1 else 0) ∧
    (p'.state.isAliasWide = true → p.state.isAliasWide = true ∨ ∃ expected time, c = .openAll expected time) := by
  have hnext : ∀ {expected time state}, p.Due expected time → p'.record = p.next state time →
      p'.record.aliasId = p.record.aliasId ∧ p'.record.owner = p.record.owner ∧
        p.changedAt ≤ p'.changedAt ∧ p'.revision.val.val = p.revision.val.val + 1 ∧ p'.state = state := by
    intro expected time state hdue hrecord
    unfold ReceivingPermission.changedAt ReceivingPermission.revision ReceivingPermission.state
    rw [hrecord]
    exact ⟨rfl, rfl, hdue.2.1, Checked.val_add_one hdue.2.2, rfl⟩
  cases c with
  | openAll expected time =>
    obtain ⟨hdue, hrecord⟩ := ReceivingPermission.openAll_eq_ok.mp h
    obtain ⟨hid, howner, htime, hrevision, -⟩ := hnext hdue hrecord
    exact ⟨hdue, hid, howner, htime, hrevision, fun _ => .inr ⟨expected, time, rfl⟩⟩
  | remove expected time =>
    obtain ⟨hdue, hrecord⟩ := ReceivingPermission.remove_eq_ok.mp h
    obtain ⟨hid, howner, htime, hrevision, hstate⟩ := hnext hdue hrecord
    exact ⟨hdue, hid, howner, htime, hrevision, fun hwide => by rw [hstate] at hwide; cases hwide⟩
  | restrict expected existing time =>
    obtain ⟨grant, hbroad, hdue, hevidence, hrecord⟩ := ReceivingPermission.restrict_eq_ok.mp h
    obtain ⟨hid, howner, htime, hrevision, -⟩ := hnext hdue hrecord
    exact ⟨⟨⟨grant, hbroad⟩, hdue, hevidence⟩, hid, howner, htime, hrevision,
      fun _ => .inl (by rw [hbroad]; rfl)⟩
  | senders expected lanes time =>
    obtain ⟨hdue, hlanes, hrecord⟩ := ReceivingPermission.senders_eq_ok.mp h
    obtain ⟨hid, howner, htime, hrevision, hstate⟩ := hnext hdue hrecord
    exact ⟨⟨hdue, hlanes⟩, hid, howner, htime, hrevision, fun hwide => by rw [hstate] at hwide; cases hwide⟩
  | consume lane =>
    obtain ⟨lanes, current, hstate, hfind, hgrant, hversion, hrecord⟩ :=
      ReceivingPermission.consume_eq_ok.mp h
    refine ⟨⟨lanes, current, hstate, hfind, hgrant, hversion⟩, ?_⟩
    unfold ReceivingPermission.changedAt ReceivingPermission.revision ReceivingPermission.state
    rw [hrecord]
    exact ⟨rfl, rfl, le_rfl, rfl, nofun⟩

/-- A change is accepted exactly when it asks for what it may. -/
theorem apply_accepts : (∃ p', c.apply p = .ok p') ↔ c.Legitimate p := by
  refine ⟨fun ⟨p', h⟩ => (apply_next h).1, fun h => ?_⟩
  cases c with
  | openAll expected time =>
    have hvalid : (p.next (.broad (p.grantAt time)) time).Valid := h.valid ⟨rfl, rfl, le_refl time⟩
    obtain ⟨p', hp⟩ := hvalid.permission
    exact ⟨p', ReceivingPermission.openAll_eq_ok.mpr ⟨h, hp⟩⟩
  | remove expected time =>
    have hvalid : (p.next .none time).Valid := h.valid trivial
    obtain ⟨p', hp⟩ := hvalid.permission
    exact ⟨p', ReceivingPermission.remove_eq_ok.mpr ⟨h, hp⟩⟩
  | restrict expected existing time =>
    obtain ⟨⟨grant, hbroad⟩, hdue, hevidence⟩ := h
    obtain ⟨p', hp⟩ := (hdue.valid (ReceivingPermission.restricted_valid hbroad hdue.2.1 hevidence)).permission
    exact ⟨p', ReceivingPermission.restrict_eq_ok.mpr ⟨grant, hbroad, hdue, hevidence, hp⟩⟩
  | senders expected lanes time =>
    obtain ⟨hdue, hlanes⟩ := h
    have hvalid : (p.next (.senders lanes) time).Valid := hdue.valid hlanes
    obtain ⟨p', hp⟩ := hvalid.permission
    exact ⟨p', ReceivingPermission.senders_eq_ok.mpr ⟨hdue, hlanes, hp⟩⟩
  | consume lane =>
    obtain ⟨lanes, current, hstate, hfind, hgrant, hversion⟩ := h
    obtain ⟨p', hp⟩ := (ReceivingPermission.consumed_valid hstate hfind hgrant).permission
    exact ⟨p', ReceivingPermission.consume_eq_ok.mpr
      ⟨lanes, current, hstate, hfind, hgrant, hversion, hp⟩⟩

end PermissionChange

namespace AliasOperation
variable {a a' : Alias} {op : AliasOperation}

/-- What an operation asks of the entrance it is applied to: its own rules on its input,
none on the record it would leave. -/
def Legitimate (a : Alias) : AliasOperation → Prop
  | restrict expected existing time =>
    a.lifecycle = .active ∧ a.Due expected time ∧ a.Evidence existing time
  | replace expected replacement deadline existing time =>
    a.Standing ∧ a.Succeeds replacement time ∧ time < deadline ∧ a.Due expected time ∧
      (a.lifecycle = .active → a.Evidence existing time)
  | retire expected time => (∀ t, a.lifecycle ≠ .retired t) ∧ a.Due expected time
  | approveConversation expected sender conversation time =>
    (∃ since conversations approvals, a.lifecycle = .restricted since conversations approvals ∧
      conversations.get? conversation = none ∧ approvals.get? conversation = none) ∧
      sender.val ≠ 0 ∧ sender ≠ a.owner ∧ a.Due expected time
  | change c => c.Legitimate a.permission ∧
      (a.policy = .bonded → ∀ expected time, c ≠ .openAll expected time)
  | withPermission permission => a.Fits permission

/-- What an accepted operation does: it moves the lifecycle and counts the move, or it
changes the permission and nothing else. -/
def Effect (op : AliasOperation) (a a' : Alias) : Prop :=
  (op.movesLifecycle = true ∧ a.revision.val + 1 < 2 ^ 64 ∧ ∃ lifecycle time,
    LifecycleStep op a.lifecycle lifecycle ∧ a'.record = a.next lifecycle time) ∨
  (op.movesLifecycle = false ∧ a'.record = {a.record with permission := a'.permission} ∧
    ∀ c, op = .change c → c.apply a.permission = .ok a'.permission)

theorem apply_effect (h : op.apply a = .ok a') : op.Effect a a' := by
  have hpermission : ∀ p : ReceivingPermission, a'.record = {a.record with permission := p} →
      a'.permission = p := fun p hrecord => by
    rw [Alias.permission, hrecord]
  cases op with
  | restrict expected existing time =>
    obtain ⟨hactive, hdue, hevidence, hrecord⟩ := Alias.restrict_eq_ok.mp h
    exact .inl ⟨rfl, hdue.2.2, _, _, hactive ▸ .restrict hevidence.1, hrecord⟩
  | replace expected replacement deadline existing time =>
    obtain ⟨hstanding, -, -, hdue, hevidence, hrecord⟩ := Alias.replace_eq_ok.mp h
    refine .inl ⟨rfl, hdue.2.2, _, _, ?_, hrecord⟩
    rcases hstanding with hactive | ⟨since, conversations, approvals, hrestricted⟩
    · have hnodup := (hevidence hactive).1
      simp only [Alias.kept, Alias.keptApprovals, hactive]
      exact .replaceActive hnodup
    · simp only [Alias.kept, Alias.keptApprovals, hrestricted]
      exact .replaceRestricted
  | retire expected time =>
    obtain ⟨hnot, hdue, hrecord⟩ := Alias.retire_eq_ok.mp h
    refine .inl ⟨rfl, hdue.2.2, _, _, .retire ?_, hrecord⟩
    cases hlifecycle : a.lifecycle with
    | retired t => exact absurd hlifecycle (hnot t)
    | active | restricted _ _ _ | replaced _ _ _ _ _ => simp [AliasLifecycle.rank]
  | approveConversation expected sender conversation time =>
    obtain ⟨since, conversations, approvals, hrestricted, -, -, -, hdue, approval, rfl, rfl, hrecord⟩ :=
      Alias.approveConversation_eq_ok.mp h
    exact .inl ⟨rfl, hdue.2.2, _, _, hrestricted ▸ .approve approval, hrecord⟩
  | change c =>
    obtain ⟨p, hp, hwith⟩ := bind_eq_ok.mp h
    obtain ⟨-, hrecord⟩ := Alias.withPermission_eq_ok.mp hwith
    rw [Effect, hpermission p hrecord]
    refine .inr ⟨rfl, hrecord, ?_⟩
    rintro _ ⟨⟩
    exact hp
  | withPermission p =>
    obtain ⟨-, hrecord⟩ := Alias.withPermission_eq_ok.mp h
    rw [Effect, hpermission p hrecord]
    refine .inr ⟨rfl, hrecord, fun c hc => ?_⟩
    simp only [reduceCtorEq] at hc

/-- An operation is accepted exactly when its input follows its own rules: the check of
the record it leaves refuses nothing more. -/
theorem apply_accepts : (∃ a', op.apply a = .ok a') ↔ op.Legitimate a := by
  cases op with
  | restrict expected existing time =>
    constructor
    · rintro ⟨a', h⟩
      obtain ⟨hactive, hdue, hevidence, -⟩ := Alias.restrict_eq_ok.mp h
      exact ⟨hactive, hdue, hevidence⟩
    · rintro ⟨hactive, hdue, hevidence⟩
      obtain ⟨a', ha⟩ := hdue.reaches (Alias.restricted_stage hactive hdue hevidence)
      exact ⟨a', Alias.restrict_eq_ok.mpr ⟨hactive, hdue, hevidence, ha⟩⟩
  | replace expected replacement deadline existing time =>
    constructor
    · rintro ⟨a', h⟩
      obtain ⟨hstanding, hsucceeds, hdeadline, hdue, hevidence, -⟩ := Alias.replace_eq_ok.mp h
      exact ⟨hstanding, hsucceeds, hdeadline, hdue, hevidence⟩
    · rintro ⟨hstanding, hsucceeds, hdeadline, hdue, hevidence⟩
      obtain ⟨a', ha⟩ := hdue.reaches
        (Alias.replaced_stage hstanding hsucceeds.id hdeadline hdue hevidence)
      exact ⟨a', Alias.replace_eq_ok.mpr ⟨hstanding, hsucceeds, hdeadline, hdue, hevidence, ha⟩⟩
  | retire expected time =>
    constructor
    · rintro ⟨a', h⟩
      obtain ⟨hnot, hdue, -⟩ := Alias.retire_eq_ok.mp h
      exact ⟨hnot, hdue⟩
    · rintro ⟨hnot, hdue⟩
      obtain ⟨a', ha⟩ := hdue.reaches (Alias.retired_stage hdue)
      exact ⟨a', Alias.retire_eq_ok.mpr ⟨hnot, hdue, ha⟩⟩
  | approveConversation expected sender conversation time =>
    constructor
    · rintro ⟨a', h⟩
      obtain ⟨since, conversations, approvals, hrestricted, hother, hadmitted, happroved, hdue, approval,
        rfl, -, -⟩ := Alias.approveConversation_eq_ok.mp h
      exact ⟨⟨since, conversations, approvals, hrestricted, hadmitted, happroved⟩, approval.named, hother, hdue⟩
    · rintro ⟨⟨since, conversations, approvals, hrestricted, hadmitted, happroved⟩, hnamed, hother, hdue⟩
      obtain ⟨approval, rfl, rfl⟩ : ∃ x : ConversationApproval, x.sender = sender ∧ x.time = time :=
        ⟨⟨sender, time, hnamed⟩, rfl, rfl⟩
      obtain ⟨a', ha⟩ := hdue.reaches (Alias.approved_stage hrestricted hother happroved hdue)
      exact ⟨a', Alias.approveConversation_eq_ok.mpr ⟨since, conversations, approvals, hrestricted, hother,
        hadmitted, happroved, hdue, approval, rfl, rfl, ha⟩⟩
  | change c =>
    have hfits : ∀ p, c.apply a.permission = .ok p →
        (a.Fits p ↔ (a.policy = .bonded → p.state.isAliasWide = false)) := fun p hp => by
      obtain ⟨-, hid, howner, htime, -, -⟩ := PermissionChange.apply_next hp
      refine ⟨fun h => h.2.2.2, fun h => ⟨?_, ?_, a.sound.permissionSince.trans htime, h⟩⟩
      · exact hid.trans a.sound.permissionAlias
      · exact howner.trans a.sound.permissionOwner
    constructor
    · rintro ⟨a', h⟩
      obtain ⟨p, hp, hwith⟩ := bind_eq_ok.mp h
      obtain ⟨hfit, -⟩ := Alias.withPermission_eq_ok.mp hwith
      refine ⟨(PermissionChange.apply_next hp).1, ?_⟩
      rintro hbonded expected time rfl
      obtain ⟨-, hrecord⟩ := ReceivingPermission.openAll_eq_ok.mp hp
      have hstate := hfit.2.2.2 hbonded
      rw [ReceivingPermission.state, hrecord] at hstate
      cases hstate
    · rintro ⟨hlegitimate, hbonded⟩
      obtain ⟨p, hp⟩ := PermissionChange.apply_accepts.mpr hlegitimate
      have hnarrow : a.policy = .bonded → p.state.isAliasWide = false := fun hpolicy => by
        by_contra hnot
        obtain ⟨-, -, -, -, -, hwide⟩ := PermissionChange.apply_next hp
        rcases hwide (Bool.eq_true_of_not_eq_false hnot) with h | ⟨expected, time, h⟩
        · have hkept : a.permission.state.isAliasWide = false := a.sound.bonded hpolicy
          rw [hkept] at h
          cases h
        · exact hbonded hpolicy expected time h
      have hfit := (hfits p hp).mpr hnarrow
      obtain ⟨a', ha⟩ := hfit.reaches
      exact ⟨a', bind_eq_ok.mpr ⟨p, hp, Alias.withPermission_eq_ok.mpr ⟨hfit, ha⟩⟩⟩
  | withPermission p =>
    constructor
    · rintro ⟨a', h⟩
      exact (Alias.withPermission_eq_ok.mp h).1
    · intro hfit
      obtain ⟨a', ha⟩ := hfit.reaches
      exact ⟨a', Alias.withPermission_eq_ok.mpr ⟨hfit, ha⟩⟩

end AliasOperation

/-! ### Runs -/

namespace Alias

/-- The entrance after the operations; one that is refused leaves it as it was. -/
def after (a : Alias) (operations : List AliasOperation) : Alias :=
  Machine.run (fun a op => op.apply a) a operations

theorem after_snoc (a : Alias) (operations : List AliasOperation) (op : AliasOperation) :
    a.after (operations ++ [op]) = Machine.advance (fun a op => op.apply a) (a.after operations) op :=
  Machine.run_append ..

theorem after_accepted {a b : Alias} {operations : List AliasOperation} {op : AliasOperation}
    (h : op.apply (a.after operations) = .ok b) : a.after (operations ++ [op]) = b := by
  rw [after_snoc, Machine.advance, h]

theorem after_refused {a : Alias} {operations : List AliasOperation} {op : AliasOperation}
    {e : AliasError} (h : op.apply (a.after operations) = .error e) :
    a.after (operations ++ [op]) = a.after operations := by
  rw [after_snoc, Machine.advance, h]

/-- **Every entrance can be stored, and none gets stuck.** After any operations the record
is read back as the entrance it came from, the permission in it likewise; and the next
operation is accepted exactly when its own rules allow it. -/
theorem stored_and_accepted (a : Alias) (operations : List AliasOperation) :
    (a.after operations).record.toAlias = .ok (a.after operations) ∧
    (a.after operations).permission.record.permission = .ok (a.after operations).permission ∧
    ∀ op : AliasOperation, (∃ b, op.apply (a.after operations) = .ok b) ↔
      op.Legitimate (a.after operations) := by
  refine ⟨toAlias_record _, ?_, fun op => AliasOperation.apply_accepts⟩
  exact PermissionRecord.permission_eq_ok.mpr ⟨(a.after operations).permission.sound, rfl⟩

end Alias

namespace AliasLifecycle

/-- The conversations a closed entrance keeps. -/
def snapshot : AliasLifecycle → Option Admitted
  | restricted _ conversations _ | replaced _ _ _ conversations _ => some conversations
  | active | retired _ => none

end AliasLifecycle

namespace Alias
variable {a : Alias} {operations : List AliasOperation} {sender : ProtocolIdentity}
  {conversation : ConversationId} {now : CanonicalTime}

theorem admitting_eq_ok {conversations : Admitted} {approvals : Approvals}
    (h : a.admitting now = .ok (some (conversations, approvals))) :
    a.lifecycle.snapshot = some conversations ∧ a.lifecycle.approvals = some approvals ∧
      (∀ t, a.lifecycle ≠ .retired t) ∧
      ∀ t replacement deadline m m', a.lifecycle = .replaced t replacement deadline m m' → now < deadline := by
  unfold admitting at h
  cases hlifecycle : a.lifecycle with
  | active => simp [hlifecycle] at h
  | restricted t m m' =>
    simp only [hlifecycle, Except.ok.injEq, Option.some.injEq, Prod.mk.injEq] at h
    obtain ⟨rfl, rfl⟩ := h
    exact ⟨rfl, rfl, by simp, by simp⟩
  | replaced t replacement deadline m m' =>
    simp only [hlifecycle] at h
    split_ifs at h with hopen
    simp only [Except.ok.injEq, Option.some.injEq, Prod.mk.injEq] at h
    obtain ⟨rfl, rfl⟩ := h
    refine ⟨rfl, rfl, by simp, fun t' r' deadline' n n' heq => ?_⟩
    cases heq
    exact hopen
  | retired t => simp [hlifecycle] at h

/-- A closed entrance passes a conversation it kept or approved, and no other. -/
theorem checkConversation_eq_ok (h : a.checkConversation sender conversation now = .ok ())
    (hclosed : a.lifecycle ≠ .active) : ∃ conversations approvals,
      a.admitting now = .ok (some (conversations, approvals)) ∧
      ((∃ c, conversations.get? conversation = some c ∧ c.sender = sender) ∨
        ∃ approval, approvals.get? conversation = some approval ∧ approval.sender = sender ∧
          approval.time ≤ now) := by
  unfold checkConversation at h
  obtain ⟨-, -, h⟩ := bind_eq_ok.mp h
  obtain ⟨admitted, hadmitting, h⟩ := bind_eq_ok.mp h
  cases admitted with
  | none =>
    unfold admitting at hadmitting
    cases hlifecycle : a.lifecycle with
    | active => exact absurd hlifecycle hclosed
    | restricted _ _ _ => simp [hlifecycle] at hadmitting
    | replaced _ _ _ _ _ =>
      simp only [hlifecycle] at hadmitting
      split_ifs at hadmitting
      simp at hadmitting
    | retired _ => simp [hlifecycle] at hadmitting
  | some admitted =>
    refine ⟨admitted.1, admitted.2, hadmitting, ?_⟩
    have hpass := not_not.mp (refuseIf_eq_ok.mp h)
    simpa only [Option.any_eq_true, decide_eq_true_eq] using hpass

/-- The pair was in the evidence of the operation that closed the entrance. -/
def ClosedWith (a : Alias) (operations : List AliasOperation) (sender : ProtocolIdentity)
    (conversation : ConversationId) : Prop :=
  ∃ before op rest, operations = before ++ op :: rest ∧ (a.after before).lifecycle = .active ∧
    (a.after (before ++ [op])).lifecycle ≠ .active ∧
    ∃ c ∈ op.evidence, c.conversation = conversation ∧ c.sender = sender

/-- The pair was approved, while the entrance was restricted, by the time. -/
def ApprovedBy (a : Alias) (operations : List AliasOperation) (sender : ProtocolIdentity)
    (conversation : ConversationId) (now : CanonicalTime) : Prop :=
  ∃ before expected time rest,
    operations = before ++ .approveConversation expected sender conversation time :: rest ∧
    (∃ b, (AliasOperation.approveConversation expected sender conversation time).apply (a.after before) = .ok b) ∧
    (a.after before).lifecycle.rank = 1 ∧ time ≤ now

theorem ClosedWith.snoc (h : a.ClosedWith operations sender conversation) (op : AliasOperation) :
    a.ClosedWith (operations ++ [op]) sender conversation := by
  obtain ⟨before, closing, rest, rfl, h⟩ := h
  exact ⟨before, closing, rest ++ [op], by simp, h⟩

theorem ApprovedBy.snoc (h : a.ApprovedBy operations sender conversation now) (op : AliasOperation) :
    a.ApprovedBy (operations ++ [op]) sender conversation now := by
  obtain ⟨before, expected, time, rest, rfl, h⟩ := h
  exact ⟨before, expected, time, rest ++ [op], by simp, h⟩

/-- Everything a closed entrance keeps has an origin in the run. -/
structure Traced (a : Alias) (operations : List AliasOperation) : Prop where
  snapshot : ∀ conversations conversation c, (a.after operations).lifecycle.snapshot = some conversations →
    conversations.get? conversation = some c → a.ClosedWith operations c.sender conversation
  approvals : ∀ approvals conversation approval,
    (a.after operations).lifecycle.approvals = some approvals →
    approvals.get? conversation = some approval →
    a.ApprovedBy operations approval.sender conversation approval.time

theorem lifecycle_of_effect {b b' : Alias} {op : AliasOperation} (h : op.Effect b b') :
    b'.lifecycle = b.lifecycle ∨ LifecycleStep op b.lifecycle b'.lifecycle := by
  rcases h with ⟨-, -, lifecycle, time, hstep, hrecord⟩ | ⟨-, hrecord, -⟩
  · right
    rw [show b'.lifecycle = lifecycle from congrArg AliasRecord.lifecycle hrecord]
    exact hstep
  · left
    show b'.record.lifecycle = b.record.lifecycle
    rw [hrecord]

theorem traced (hactive : a.lifecycle = .active) (operations : List AliasOperation) :
    a.Traced operations := by
  induction operations using List.reverseRecOn with
  | nil =>
    have hstart : (a.after []).lifecycle = .active := hactive
    refine ⟨fun _ _ _ h => ?_, fun _ _ _ h => ?_⟩ <;>
    · rw [hstart] at h
      cases h
  | append_singleton operations op ih =>
    have hkeep : (a.after (operations ++ [op])).lifecycle = (a.after operations).lifecycle →
        a.Traced (operations ++ [op]) := fun hsame =>
      ⟨fun m k c hm hc => (ih.snapshot m k c (hsame ▸ hm) hc).snoc op,
        fun m k approval hm happroval => (ih.approvals m k approval (hsame ▸ hm) happroval).snoc op⟩
    cases happly : op.apply (a.after operations) with
    | error e => exact hkeep (congrArg Alias.lifecycle (after_refused happly))
    | ok b =>
      have hnext := after_accepted happly
      rcases lifecycle_of_effect (AliasOperation.apply_effect happly) with hsame | hstep
      · exact hkeep (hnext ▸ hsame)
      · generalize hb : b.lifecycle = lifecycle at hstep
        generalize ha : (a.after operations).lifecycle = old at hstep
        have hafter : (a.after (operations ++ [op])).lifecycle = lifecycle := hnext ▸ hb
        have hclosed : ∀ {existing : List AdmittedConversation}, old = .active → lifecycle ≠ .active →
            op.evidence = existing → (existing.map (·.conversation)).Nodup →
            ∀ k c, (conversationMap existing).get? k = some c →
              a.ClosedWith (operations ++ [op]) c.sender k := by
          rintro existing rfl hmoved rfl hnodup k c hc
          obtain ⟨hin, hk⟩ := (conversationMap_get? hnodup).mp hc
          exact ⟨operations, op, [], rfl, ha, hafter ▸ hmoved, c, hin, hk, rfl⟩
        cases hstep with
        | restrict hnodup =>
          refine ⟨fun m k c hm hc => ?_, fun m k approval hm happroval => ?_⟩
          · rw [hafter] at hm
            cases hm
            exact hclosed rfl nofun rfl hnodup k c hc
          · rw [hafter] at hm
            cases hm
            cases happroval
        | replaceActive hnodup =>
          refine ⟨fun m k c hm hc => ?_, fun m k approval hm happroval => ?_⟩
          · rw [hafter] at hm
            cases hm
            exact hclosed rfl nofun rfl hnodup k c hc
          · rw [hafter] at hm
            cases hm
            cases happroval
        | replaceRestricted =>
          refine ⟨fun m k c hm hc => ?_, fun m k approval hm happroval => ?_⟩
          · rw [hafter] at hm
            cases hm
            exact (ih.snapshot _ k c (by rw [ha]; rfl) hc).snoc _
          · rw [hafter] at hm
            cases hm
            exact (ih.approvals _ k approval (by rw [ha]; rfl) happroval).snoc _
        | approve approval =>
          refine ⟨fun m k c hm hc => ?_, fun m k x hm hx => ?_⟩
          · rw [hafter] at hm
            cases hm
            exact (ih.snapshot _ k c (by rw [ha]; rfl) hc).snoc _
          · rw [hafter] at hm
            cases hm
            rw [SortedMap.get?_insert] at hx
            split_ifs at hx with heq
            · cases hx
              subst heq
              exact ⟨operations, _, _, [], rfl, ⟨b, happly⟩, by rw [ha]; rfl, le_rfl⟩
            · exact (ih.approvals _ k x (by rw [ha]; rfl) hx).snoc _
        | retire _ =>
          refine ⟨fun m k c hm hc => ?_, fun m k x hm hx => ?_⟩ <;>
          · rw [hafter] at hm
            cases hm

/-- Retired, or replaced with the deadline passed. -/
def Shut (a : Alias) (now : CanonicalTime) : Prop :=
  (∃ t, a.lifecycle = .retired t) ∨ ∃ t replacement deadline conversations approvals,
    a.lifecycle = .replaced t replacement deadline conversations approvals ∧ deadline ≤ now

theorem Shut.refuses (h : a.Shut now) : a.checkConversation sender conversation now ≠ .ok () := by
  intro hpass
  have hclosed : a.lifecycle ≠ .active := by
    rcases h with ⟨t, h⟩ | ⟨t, r, d, m, m', h, -⟩ <;> simp [h]
  obtain ⟨m, m', hadmitting, -⟩ := checkConversation_eq_ok hpass hclosed
  obtain ⟨-, -, hnot, hopen⟩ := admitting_eq_ok hadmitting
  rcases h with ⟨t, h⟩ | ⟨t, r, d, n, n', h, hdeadline⟩
  · exact hnot t h
  · exact absurd (hopen t r d n n' h) (not_lt.mpr hdeadline)

theorem Shut.kept {b b' : Alias} {op : AliasOperation} (h : b.Shut now) (heffect : op.Effect b b') :
    b'.Shut now := by
  rcases lifecycle_of_effect heffect with hsame | hstep
  · rw [Shut, hsame]
    exact h
  · rcases h with ⟨t, h⟩ | ⟨t, r, d, m, m', h, -⟩
    · rw [h] at hstep
      generalize b'.lifecycle = lifecycle at hstep
      cases hstep with
      | retire hrank => exact absurd hrank (lt_irrefl 3)
    · rw [h] at hstep
      generalize hnext : b'.lifecycle = lifecycle at hstep
      cases hstep with
      | retire _ => exact .inl ⟨_, hnext⟩

theorem rank_le_of_effect {b b' : Alias} {op : AliasOperation} (h : op.Effect b b') :
    b.lifecycle.rank ≤ b'.lifecycle.rank := by
  rcases lifecycle_of_effect h with hsame | hstep
  · exact hsame ▸ le_rfl
  · generalize b.lifecycle = old at hstep
    generalize b'.lifecycle = new at hstep
    cases hstep with
    | restrict _ => exact Nat.zero_le _
    | replaceActive _ => exact Nat.zero_le _
    | replaceRestricted => exact Nat.le_succ 1
    | approve _ => exact le_rfl
    | retire hrank => exact hrank.le

theorem revision_of_effect {b b' : Alias} {op : AliasOperation} (h : op.Effect b b') :
    if op.movesLifecycle then b'.revision.val = b.revision.val + 1 ∧ b'.permission = b.permission
    else b'.revision = b.revision ∧ b'.lifecycle = b.lifecycle ∧ ∀ c, op = .change c →
      b'.permission.revision.val.val = b.permission.revision.val.val + (if c.counted then 1 else 0) := by
  rcases h with ⟨hmoves, hbound, lifecycle, time, -, hrecord⟩ | ⟨hstays, hrecord, hchange⟩
  · rw [if_pos hmoves]
    unfold revision permission
    rw [hrecord]
    exact ⟨Checked.val_add_one hbound, rfl⟩
  · rw [if_neg (by simp [hstays])]
    have hrevision : b'.record.revision = b.record.revision := by rw [hrecord]
    have hlifecycle : b'.record.lifecycle = b.record.lifecycle := by rw [hrecord]
    refine ⟨hrevision, hlifecycle, fun c hc => ?_⟩
    obtain ⟨-, -, -, -, hrevision, -⟩ := PermissionChange.apply_next (hchange c hc)
    exact hrevision

/-- **A closed entrance never reopens.** Over every run of an entrance's operations:
what it still passes after it closed was in the evidence it was closed with or was
approved since, nothing passes once it is retired or its deadline is over, it only moves
forward, its replacement starts with no sender and no conversation, each accepted
operation counts once in the revision of what it changes, and a refused one changes nothing. -/
theorem never_reopens {id : AliasId} {owner : ProtocolIdentity} {address : MemberAddress}
    {configuration : AliasConfiguration} {created : CanonicalTime}
    (h : create id owner address configuration created = .ok a) :
    (∀ operations sender conversation now, (a.after operations).lifecycle ≠ .active →
      (a.after operations).checkConversation sender conversation now = .ok () →
      a.ClosedWith operations sender conversation ∨ a.ApprovedBy operations sender conversation now) ∧
    (∀ before rest sender conversation now, (a.after before).Shut now →
      (a.after (before ++ rest)).checkConversation sender conversation now ≠ .ok ()) ∧
    (∀ before rest, (a.after before).lifecycle.rank ≤ (a.after (before ++ rest)).lifecycle.rank) ∧
    (∀ operations expected replacement deadline existing time b,
      (a.after operations).replace expected replacement deadline existing time = .ok b →
      replacement.id ≠ (a.after operations).id ∧ replacement.lifecycle.snapshot = none ∧
      replacement.lifecycle.approvals = none ∧
      ∀ id owner address configuration, create id owner address configuration time = .ok replacement →
        ∀ sender conversation now, replacement.permission.authorizesAlias sender conversation now = false) ∧
    (∀ operations (op : AliasOperation) b, op.apply (a.after operations) = .ok b →
      if op.movesLifecycle then
        b.revision.val = (a.after operations).revision.val + 1 ∧ b.permission = (a.after operations).permission
      else b.revision = (a.after operations).revision ∧ b.lifecycle = (a.after operations).lifecycle ∧
        ∀ c, op = .change c → b.permission.revision.val.val =
          (a.after operations).permission.revision.val.val + (if c.counted then 1 else 0)) ∧
    (∀ operations (op : AliasOperation) e, op.apply (a.after operations) = .error e →
      a.after (operations ++ [op]) = a.after operations) := by
  have hactive : a.lifecycle = .active := by
    obtain ⟨-, p, -, hrecord⟩ := create_eq_ok.mp h
    exact congrArg AliasRecord.lifecycle hrecord
  refine ⟨fun operations sender conversation now hclosed hpass => ?_,
    fun before rest sender conversation now hshut => ?_, fun before rest => ?_,
    fun operations expected replacement deadline existing time b hreplace => ?_,
    fun operations op b happly => revision_of_effect (AliasOperation.apply_effect happly),
    fun operations op e hrefused => after_refused hrefused⟩
  · obtain ⟨m, m', hadmitting, hentry⟩ := checkConversation_eq_ok hpass hclosed
    obtain ⟨hsnapshot, happrovals, -, -⟩ := admitting_eq_ok hadmitting
    have htraced := traced hactive operations
    rcases hentry with ⟨c, hc, rfl⟩ | ⟨approval, happroval, rfl, htime⟩
    · exact .inl (htraced.snapshot m conversation c hsnapshot hc)
    · obtain ⟨before, expected, time, rest, hsplit, haccepted, hrank, hearlier⟩ :=
        htraced.approvals m' conversation approval happrovals happroval
      exact .inr ⟨before, expected, time, rest, hsplit, haccepted, hrank, hearlier.trans htime⟩
  · have hrest : (a.after (before ++ rest)).Shut now := by
      rw [after, Machine.run_append]
      exact Machine.run_preserves (P := fun b : Alias => b.Shut now)
        (fun b op b' hb happly => hb.kept (AliasOperation.apply_effect happly)) hshut rest
    exact hrest.refuses
  · rw [after, after, Machine.run_append]
    exact Machine.run_relates (P := fun _ => True) (R := fun b b' => b.lifecycle.rank ≤ b'.lifecycle.rank)
      (fun _ => le_rfl) (fun _ _ _ => le_trans)
      (fun b op b' _ happly => ⟨trivial, rank_le_of_effect (AliasOperation.apply_effect happly)⟩) trivial rest
  · obtain ⟨-, hsucceeds, -⟩ := replace_eq_ok.mp hreplace
    refine ⟨hsucceeds.id, by rw [hsucceeds.lifecycle]; rfl, by rw [hsucceeds.lifecycle]; rfl, ?_⟩
    intro id' owner' address' configuration' hcreate sender conversation now
    obtain ⟨-, p, hp, hrecord⟩ := create_eq_ok.mp hcreate
    have hstate : replacement.permission.state = .none := by
      rw [permission, hrecord]
      exact congrArg PermissionRecord.state hp
    rw [ReceivingPermission.authorizesAlias, hstate]
    exact ite_self false

end Alias

namespace Example

def entranceOwner : ProtocolIdentity := ⟨7⟩

def entranceId : AliasId := ⟨70, by decide⟩

def mailbox : MemberAddress :=
  ⟨"ann@mail.example".toList, "mail.example".toList, by decide +kernel, by decide +kernel⟩

def purpose : AliasDescription := ⟨"work".toList, by decide, by decide, by decide⟩

def unpairedPermission : ReceivingPermission :=
  ⟨⟨entranceId, entranceOwner, ⟨0⟩, ⟨100⟩, .none⟩, by decide⟩

def entrance : Alias :=
  ⟨⟨entranceId, entranceOwner, mailbox, ⟨purpose, .aliasScoped⟩, ⟨100⟩, ⟨100⟩, 0, .active,
    unpairedPermission⟩, by decide⟩

theorem entrance_created :
    Alias.create entranceId entranceOwner mailbox ⟨purpose, .aliasScoped⟩ ⟨100⟩ = .ok entrance :=
  Alias.create_eq_ok.mpr ⟨by decide, unpairedPermission, rfl, rfl⟩

def colleague : ProtocolIdentity := ⟨8⟩

def thread : ConversationId := ⟨80, by decide⟩

def admittedThread : AdmittedConversation := ⟨entranceId, thread, colleague, ⟨110⟩, by decide⟩

/-- The entrance is restricted to one conversation, and a second one is approved. -/
def closing : List AliasOperation :=
  [.restrict 0 [admittedThread] ⟨120⟩, .approveConversation 1 ⟨9⟩ ⟨90, by decide⟩ ⟨130⟩]

end Example

namespace Alias

/-- The conversation the restricted entrance still passes is the one it was restricted to. -/
theorem never_reopens_thread :
    (Example.entrance.after Example.closing).checkConversation Example.colleague Example.thread ⟨140⟩ = .ok () ∧
    (Example.entrance.ClosedWith Example.closing Example.colleague Example.thread ∨
      Example.entrance.ApprovedBy Example.closing Example.colleague Example.thread ⟨140⟩) :=
  ⟨by decide +kernel, (never_reopens Example.entrance_created).1 Example.closing Example.colleague
    Example.thread ⟨140⟩ (by decide +kernel) (by decide +kernel)⟩

/-- A change of the receiving permission is accepted and leaves the address at its revision. -/
theorem permission_not_counted : ¬∀ (op : AliasOperation) (b : Alias),
    op.apply Example.entrance = .ok b → b.revision.val = Example.entrance.revision.val + 1 := by
  intro hcounted
  have haccepted : ∃ b, (AliasOperation.change (.openAll ⟨0⟩ ⟨120⟩)).apply Example.entrance = .ok b :=
    AliasOperation.apply_accepts.mpr ⟨⟨rfl, by decide, by decide⟩, nofun⟩
  obtain ⟨b, hb⟩ := haccepted
  have hkept := revision_of_effect (AliasOperation.apply_effect hb)
  rw [if_neg (by decide)] at hkept
  have hnext := hcounted _ _ hb
  rw [hkept.1] at hnext
  exact absurd hnext (Nat.succ_ne_self _).symm

end Alias

end CsMail
