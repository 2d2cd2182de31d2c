import CsMail.Accounts.Alias

/-! What the checks of an entrance ask for, and when each operation is accepted.

The checks are inverted once (`PermissionRecord.validate_eq_ok`, `AliasRecord.validate_eq_ok`).
From there each operation has one lemma: it is accepted exactly when the conditions it
states hold, and then the next record is the one written out. The record check at the end
of an operation adds no condition of its own. -/
namespace CsMail
open Library

/-! ### Evidence -/

theorem conversationMap_length {existing : List AdmittedConversation} :
    (conversationMap existing).entries.length = existing.length ↔
      (existing.map (·.conversation)).Nodup := by
  have h := SortedMap.length_ofList_eq (l := existing.map fun c => (c.conversation, c))
  rwa [List.length_map, List.map_map] at h

theorem conversationMap_get? {existing : List AdmittedConversation} {k : ConversationId}
    {c : AdmittedConversation} (h : (existing.map (·.conversation)).Nodup) :
    (conversationMap existing).get? k = some c ↔ c ∈ existing ∧ c.conversation = k := by
  have hkeys : ((existing.map fun c => (c.conversation, c)).map Prod.fst).Nodup := by
    rwa [List.map_map]
  rw [conversationMap, SortedMap.get?_ofList hkeys]
  clear hkeys
  induction existing with
  | nil => simp [SortedMap.lookup]
  | cons head rest ih =>
    obtain ⟨hhead, hrest⟩ := List.nodup_cons.mp h
    rw [List.map_cons, SortedMap.lookup, List.mem_cons]
    split_ifs with heq
    · subst heq
      constructor
      · rintro ⟨⟩
        exact ⟨.inl rfl, rfl⟩
      · rintro ⟨rfl | hc, hk⟩
        · rfl
        · exact absurd (List.mem_map.mpr ⟨c, hc, hk⟩) hhead
    · refine (ih hrest).trans ⟨?_, ?_⟩
      · rintro ⟨hc, hk⟩
        exact ⟨.inr hc, hk⟩
      · rintro ⟨rfl | hc, hk⟩
        · exact absurd hk.symm heq
        · exact ⟨hc, hk⟩

/-! ### Permissions -/

theorem subjectRepeated_eq_false {lanes : List SenderScopedLane} :
    subjectRepeated lanes = false ↔ (lanes.map (·.grant.subject)).Nodup := by
  rw [List.Nodup, List.pairwise_map, List.pairwise_iff_getElem, subjectRepeated, List.any_eq_false]
  constructor
  · intro h i j hi hj hij heq
    refine h (lanes[j], j) (List.mem_zipIdx_iff_getElem?.mpr (List.getElem?_eq_getElem hj)) ?_
    refine List.any_eq_true.mpr ⟨lanes[i], ?_, decide_eq_true heq⟩
    exact List.mem_take_iff_getElem.mpr ⟨i, by omega, rfl⟩
  · rintro h ⟨l, j⟩ hl hany
    obtain ⟨hj, rfl⟩ : ∃ hj : j < lanes.length, lanes[j] = l :=
      List.getElem?_eq_some_iff.mp (List.mem_zipIdx_iff_getElem?.mp hl)
    obtain ⟨prior, hprior, heq⟩ := List.any_eq_true.mp hany
    obtain ⟨i, hi, rfl⟩ := List.mem_take_iff_getElem.mp hprior
    exact h i j (by omega) hj (by omega) (of_decide_eq_true heq)

/-- Lanes that can be granted together at a time. -/
structure LaneSet (owner : ProtocolIdentity) (time : CanonicalTime) (lanes : List SenderScopedLane) :
    Prop where
  nonempty : lanes ≠ []
  bounded : lanes.length ≤ 32
  ids : (lanes.map (·.grant.id)).Nodup
  subjects : (lanes.map (·.grant.subject)).Nodup
  own : ∀ l ∈ lanes, l.grant.recipient = owner ∧ l.grant.issuedAt ≤ time

namespace PermissionRecord
variable {r : PermissionRecord}

def Granted (r : PermissionRecord) (g : AliasScopedGrant) : Prop :=
  g.aliasId = r.aliasId ∧ g.recipient = r.owner ∧ g.establishedAt ≤ r.changedAt

def StateValid (r : PermissionRecord) : Prop :=
  match r.state with
  | .none => True
  | .broad g => r.Granted g
  | .restricted g conversations => r.Granted g ∧ ∀ id c, conversations.get? id = some c →
      c.conversation = id ∧ c.aliasId = r.aliasId ∧ c.sender ≠ r.owner ∧ c.admittedAt ≤ r.changedAt
  | .senders lanes => LaneSet r.owner r.changedAt lanes

structure Valid (r : PermissionRecord) : Prop where
  owned : r.owner.val ≠ 0
  stated : r.revision.val = 0 → r.state = .none
  state : r.StateValid

theorem validate_eq_ok : r.validate = .ok () ↔ r.Valid := by
  have hgranted : ∀ g : AliasScopedGrant, ¬(g.aliasId ≠ r.aliasId ∨ g.recipient ≠ r.owner ∨
      r.changedAt < g.establishedAt) ↔ r.Granted g := fun g => by
    simp only [Granted, not_or, not_not, not_lt]
  have hstate : ¬(r.state.grant.any (fun g => g.aliasId ≠ r.aliasId ∨ g.recipient ≠ r.owner ∨
      r.changedAt < g.establishedAt) = true) ∧ r.checkState = .ok () ↔ r.StateValid := by
    unfold checkState StateValid
    cases r.state with
    | none => simp [PermissionState.grant]
    | broad g => simpa [PermissionState.grant] using hgranted g
    | restricted g conversations =>
      simp only [PermissionState.grant, Option.any_some, decide_eq_true_eq, hgranted, refuseIf_eq_ok,
        List.any_eq_true, not_exists, not_and, Prod.forall, SortedMap.mem_entries, not_or, not_not,
        not_lt]
      refine and_congr_right fun _ => forall₂_congr fun id c => imp_congr_right fun _ => ?_
      rw [eq_comm]
    | senders lanes =>
      have hids : (SortedMap.ofList (lanes.map fun l => (l.grant.id, ()))).entries.length =
          lanes.length ↔ (lanes.map (·.grant.id)).Nodup := by
        have h := SortedMap.length_ofList_eq (l := lanes.map fun l => (l.grant.id, ()))
        rwa [List.length_map, List.map_map] at h
      simp only [PermissionState.grant, Option.any_none, Bool.false_eq_true, not_false_eq_true,
        true_and, refuseIf_eq_ok, not_or, not_not, not_lt, hids, Bool.not_eq_true,
        subjectRepeated_eq_false, List.any_eq_false, decide_eq_true_eq]
      constructor
      · rintro ⟨hnonempty, hbounded, hids, hsubjects, hown⟩
        exact ⟨hnonempty, hbounded, hids, hsubjects, hown⟩
      · intro h
        exact ⟨h.nonempty, h.bounded, h.ids, h.subjects, h.own⟩
  unfold validate
  simp only [bind_eq_ok, refuseIf_eq_ok, exists_const, hstate, not_or, not_and, not_not]
  constructor
  · rintro ⟨⟨howned, hstated⟩, hvalid⟩
    exact ⟨howned, hstated, hvalid⟩
  · intro h
    exact ⟨⟨h.owned, h.stated⟩, h.state⟩

theorem permission_eq_ok {p : ReceivingPermission} : r.permission = .ok p ↔ r.Valid ∧ p.record = r := by
  rw [← validate_eq_ok, permission]
  split
  · next h =>
    constructor
    · rintro ⟨⟩
      exact ⟨h, rfl⟩
    · rintro ⟨-, rfl⟩
      rfl
  · next e h => simp [h]

theorem Valid.permission (h : r.Valid) : ∃ p : ReceivingPermission, p.record = r :=
  ⟨⟨r, validate_eq_ok.mpr h⟩, rfl⟩

end PermissionRecord

namespace ReceivingPermission
variable {p p' : ReceivingPermission} {expected : PermissionRevision} {time : CanonicalTime}

theorem sound (p : ReceivingPermission) : p.record.Valid := PermissionRecord.validate_eq_ok.mp p.valid

/-- The change names the current revision, is not dated back, and can be counted. -/
def Due (p : ReceivingPermission) (expected : PermissionRevision) (time : CanonicalTime) : Prop :=
  p.revision = expected ∧ p.changedAt ≤ time ∧ p.revision.val.val + 1 < 2 ^ 64

/-- The record after a change to another state. -/
def next (p : ReceivingPermission) (state : PermissionState) (time : CanonicalTime) : PermissionRecord :=
  {p.record with state, revision := ⟨p.revision.val + 1⟩, changedAt := time}

theorem Due.valid {state : PermissionState} (h : p.Due expected time)
    (hstate : (p.next state time).StateValid) : (p.next state time).Valid := by
  refine ⟨p.sound.owned, fun hzero => ?_, hstate⟩
  have hnext := Checked.val_add_one h.2.2
  rw [show p.revision.val + 1 = 0 from hzero] at hnext
  exact absurd hnext (Nat.succ_ne_zero _).symm

theorem change_eq_ok {state : PermissionState} : p.change expected state time = .ok p' ↔
    p.Due expected time ∧ (p.next state time).StateValid ∧ p'.record = p.next state time := by
  unfold change
  simp only [bind_eq_ok, refuseIf_eq_ok, okOr_eq_ok, exists_const, not_not, not_lt,
    PermissionRecord.permission_eq_ok, PermissionRevision.checkedNext, Option.map_eq_some_iff,
    Checked.succ_eq_some_add_one]
  constructor
  · rintro ⟨rfl, htime, _, ⟨_, ⟨hbound, rfl⟩, rfl⟩, hvalid, hrecord⟩
    exact ⟨⟨rfl, htime, hbound⟩, hvalid.state, hrecord⟩
  · rintro ⟨⟨rfl, htime, hbound⟩, hstate, hrecord⟩
    have hdue : p.Due p.revision time := ⟨rfl, htime, hbound⟩
    exact ⟨rfl, htime, _, ⟨_, ⟨hbound, rfl⟩, rfl⟩, hdue.valid hstate, hrecord⟩

theorem remove_eq_ok : p.remove expected time = .ok p' ↔
    p.Due expected time ∧ p'.record = p.next .none time := by
  rw [remove, change_eq_ok]
  exact and_congr_right fun _ => and_iff_right trivial

/-- The grant that opens the entrance at a time. -/
def grantAt (p : ReceivingPermission) (time : CanonicalTime) : AliasScopedGrant :=
  ⟨p.record.aliasId, p.record.owner, time, p.sound.owned⟩

theorem openAll_eq_ok : p.openAll expected time = .ok p' ↔
    p.Due expected time ∧ p'.record = p.next (.broad (p.grantAt time)) time := by
  have hestablish : (AliasScopedGrant.establish p.record.aliasId p.record.owner time).mapError
      (fun _ => AliasError.invalid) = .ok (p.grantAt time) := by
    rw [mapError_eq_ok, AliasScopedGrant.establish, dif_neg p.sound.owned]
    rfl
  rw [openAll, hestablish, ok_bind, change_eq_ok]
  exact and_congr_right fun _ => and_iff_right ⟨rfl, rfl, le_refl time⟩

theorem senders_eq_ok {lanes : List SenderScopedLane} : p.senders expected lanes time = .ok p' ↔
    p.Due expected time ∧ LaneSet p.record.owner time lanes ∧
      p'.record = p.next (.senders lanes) time := by
  rw [senders, change_eq_ok]
  rfl

/-- Conversations of one entrance, each named once and admitted by the time. -/
def Evidence (p : ReceivingPermission) (existing : List AdmittedConversation) (time : CanonicalTime) :
    Prop :=
  (existing.map (·.conversation)).Nodup ∧ ∀ c ∈ existing,
    c.aliasId = p.record.aliasId ∧ c.sender ≠ p.record.owner ∧ c.admittedAt ≤ time

theorem restricted_valid {grant : AliasScopedGrant} {existing : List AdmittedConversation}
    (hstate : p.state = .broad grant) (htime : p.changedAt ≤ time) (h : p.Evidence existing time) :
    (p.next (.restricted grant (conversationMap existing)) time).StateValid := by
  have hold := p.sound.state
  rw [PermissionRecord.StateValid, show p.record.state = .broad grant from hstate] at hold
  refine ⟨⟨hold.1, hold.2.1, hold.2.2.trans htime⟩, fun id c hc => ?_⟩
  obtain ⟨hin, hid⟩ := (conversationMap_get? h.1).mp hc
  exact ⟨hid, h.2 c hin⟩

theorem restrict_eq_ok {existing : List AdmittedConversation} :
    p.restrict expected existing time = .ok p' ↔
      ∃ grant, p.state = .broad grant ∧ p.Due expected time ∧ p.Evidence existing time ∧
        p'.record = p.next (.restricted grant (conversationMap existing)) time := by
  unfold restrict
  split
  · next grant hstate =>
    simp only [hstate, bind_eq_ok, refuseIf_eq_ok, exists_const, not_not, change_eq_ok,
      conversationMap_length, PermissionState.broad.injEq, exists_eq_left']
    constructor
    · rintro ⟨hnodup, hdue, hvalid, hrecord⟩
      refine ⟨hdue, ⟨hnodup, fun c hc => ?_⟩, hrecord⟩
      exact (hvalid.2 c.conversation c ((conversationMap_get? hnodup).mpr ⟨hc, rfl⟩)).2
    · rintro ⟨hdue, hevidence, hrecord⟩
      exact ⟨hevidence.1, hdue, restricted_valid hstate hdue.2.1 hevidence, hrecord⟩
  all_goals
    next hstate => simp [hstate]

theorem replaceLane_map {α : Type} {lane current : SenderScopedLane} {f : SenderScopedLane → α}
    {lanes : List SenderScopedLane} (hfind : lanes.find? (·.grant.id = lane.grant.id) = some current)
    (h : f lane = f current) : (replaceLane lane lanes).map f = lanes.map f := by
  induction lanes with
  | nil => rfl
  | cons l rest ih =>
    rw [replaceLane]
    by_cases hid : l.grant.id = lane.grant.id
    · rw [List.find?_cons_of_pos (by simpa using hid)] at hfind
      cases hfind
      rw [if_pos hid, List.map_cons, List.map_cons, h]
    · rw [List.find?_cons_of_neg (by simpa using hid)] at hfind
      rw [if_neg hid, List.map_cons, List.map_cons, ih hfind]

theorem consumed_valid {lane current : SenderScopedLane} {lanes : List SenderScopedLane}
    (hstate : p.state = .senders lanes)
    (hfind : lanes.find? (·.grant.id = lane.grant.id) = some current) (hgrant : current.grant = lane.grant) :
    PermissionRecord.Valid {p.record with state := .senders (replaceLane lane lanes)} := by
  have hold := p.sound.state
  rw [PermissionRecord.StateValid, show p.record.state = .senders lanes from hstate] at hold
  have hids := replaceLane_map (f := fun l => l.grant) hfind hgrant.symm
  have hmap : ∀ {α : Type} (f : SenderScopedGrant → α),
      (replaceLane lane lanes).map (fun l => f l.grant) = lanes.map (fun l => f l.grant) := by
    intro α f
    have := congrArg (List.map f) hids
    rwa [List.map_map, List.map_map] at this
  refine ⟨p.sound.owned, fun hzero => ?_, fun hnil => hold.nonempty ?_, ?_, ?_, ?_, fun l hl => ?_⟩
  · have hnone : p.record.state = .none := p.sound.stated hzero
    rw [show p.record.state = .senders lanes from hstate] at hnone
    cases hnone
  · have := hmap id
    rw [hnil, List.map_nil] at this
    exact List.map_eq_nil_iff.mp this.symm
  · have := congrArg List.length (hmap id)
    rw [List.length_map, List.length_map] at this
    exact this.trans_le hold.bounded
  · exact (hmap (·.id)).symm ▸ hold.ids
  · exact (hmap (·.subject)).symm ▸ hold.subjects
  · have hin : l.grant ∈ lanes.map (fun l => l.grant) := hids ▸ List.mem_map.mpr ⟨l, hl, rfl⟩
    obtain ⟨l', hl', heq⟩ := List.mem_map.mp hin
    exact heq ▸ hold.own l' hl'

/-- Only the allowance of the one lane moves: the record the lanes stand in is as before. -/
theorem consume_eq_ok {lane : SenderScopedLane} : p.consume lane = .ok p' ↔
    ∃ lanes current, p.state = .senders lanes ∧
      lanes.find? (·.grant.id = lane.grant.id) = some current ∧ current.grant = lane.grant ∧
      current.version.checkedNext = some lane.version ∧
      p'.record = {p.record with state := .senders (replaceLane lane lanes)} := by
  unfold consume
  split
  · next lanes hstate =>
    simp only [hstate, bind_eq_ok, refuseIf_eq_ok, okOr_eq_ok, exists_const, not_or, not_not,
      PermissionRecord.permission_eq_ok, PermissionState.senders.injEq, exists_and_left,
      exists_eq_left']
    refine exists_congr fun current => and_congr_right fun hfind => ?_
    rw [and_assoc]
    exact and_congr_right fun hgrant => and_congr_right fun _ =>
      and_iff_right (consumed_valid hstate hfind hgrant)
  all_goals
    next hstate => simp [hstate]

end ReceivingPermission

/-! ### The record of an entrance -/

/-- The last of the times, or the start where there are none. -/
theorem max?_getD_eq {times : List CanonicalTime} {start last : CanonicalTime} (hstart : start ≤ last)
    (hmin : ∀ t ∈ times, start ≤ t) (hmax : ∀ t ∈ times, t ≤ last) :
    times.max?.getD start = last ↔ start = last ∨ last ∈ times := by
  cases h : times.max? with
  | none =>
    rw [List.max?_eq_none_iff] at h
    simp [h]
  | some m =>
    obtain ⟨hm, hle⟩ := List.max?_eq_some_iff.mp h
    rw [Option.getD_some]
    constructor
    · rintro rfl
      exact .inr hm
    · rintro (rfl | hlast)
      · exact le_antisymm (hmax m hm) (hmin m hm)
      · exact le_antisymm (hmax m hm) (hle last hlast)

namespace AliasRecord
variable {r : AliasRecord}

/-- Conversations admitted on the route from its creation up to a time. -/
def AdmittedBy (r : AliasRecord) (time : CanonicalTime) (conversations : Admitted) : Prop :=
  ∀ id c, conversations.get? id = some c → c.conversation = id ∧ c.aliasId = r.id ∧
    c.sender ≠ r.owner ∧ r.createdAt ≤ c.admittedAt ∧ c.admittedAt ≤ time

/-- Approvals of other participants, given since a time. -/
def ApprovedSince (r : AliasRecord) (time : CanonicalTime) (approvals : Approvals) : Prop :=
  ∀ approval ∈ approvals.values, approval.sender ≠ r.owner ∧ time ≤ approval.time ∧
    approval.time ≤ r.changedAt

def StageValid (r : AliasRecord) : Prop :=
  match r.lifecycle with
  | .active => r.revision = 0 ∧ r.changedAt = r.createdAt
  | .restricted time conversations approvals =>
    r.createdAt ≤ time ∧ time ≤ r.changedAt ∧ r.AdmittedBy time conversations ∧
      r.ApprovedSince time approvals ∧ r.revision.val = approvals.entries.length + 1 ∧
      (time = r.changedAt ∨ ∃ approval ∈ approvals.values, approval.time = r.changedAt)
  | .replaced time replacement deadline conversations approvals =>
    replacement ≠ r.id ∧ time < deadline ∧ r.createdAt ≤ time ∧ r.changedAt = time ∧
      r.AdmittedBy time conversations ∧ r.ApprovedSince r.createdAt approvals ∧
      approvals.entries.length + 2 < 2 ^ 64 ∧
      (r.revision.val = approvals.entries.length + 2 ∨ (approvals.entries = [] ∧ r.revision = 1))
  | .retired time => r.createdAt ≤ time ∧ time ≤ r.changedAt ∧ r.revision ≠ 0

structure Valid (r : AliasRecord) : Prop where
  owned : r.owner.val ≠ 0
  ordered : r.createdAt ≤ r.changedAt
  permissionAlias : r.permission.record.aliasId = r.id
  permissionOwner : r.permission.record.owner = r.owner
  permissionSince : r.createdAt ≤ r.permission.changedAt
  bonded : r.configuration.receiving = .bonded → r.permission.state.isAliasWide = false
  stage : r.StageValid

theorem admittedBy_iff {time : CanonicalTime} {conversations : Admitted} :
    ¬(conversations.entries.any (fun (id, c) => id ≠ c.conversation ∨ c.aliasId ≠ r.id ∨
      c.sender = r.owner ∨ c.admittedAt < r.createdAt ∨ time < c.admittedAt) = true) ↔
      r.AdmittedBy time conversations := by
  simp only [List.any_eq_true, not_exists, not_and, Prod.forall, SortedMap.mem_entries,
    decide_eq_true_eq, not_or, not_not, not_lt, AdmittedBy, @eq_comm _ _ (AdmittedConversation.conversation _)]

theorem approvedSince_iff {time : CanonicalTime} {approvals : Approvals} (h : r.createdAt ≤ time) :
    r.ApprovedSince time approvals ↔ (∀ a ∈ approvals.values, time ≤ a.time) ∧
      ¬(approvals.values.any (fun a => a.sender.val = 0 ∨ a.sender = r.owner ∨
        a.time < r.createdAt ∨ r.changedAt < a.time) = true) := by
  simp only [List.any_eq_true, not_exists, not_and, decide_eq_true_eq, not_or, not_lt]
  constructor
  · intro happroved
    exact ⟨fun a ha => (happroved a ha).2.1, fun a ha =>
      ⟨a.named, (happroved a ha).1, h.trans (happroved a ha).2.1, (happroved a ha).2.2⟩⟩
  · rintro ⟨hsince, hall⟩ a ha
    exact ⟨(hall a ha).2.1, hsince a ha, (hall a ha).2.2.2⟩

/-- No approval comes before the alias, so none has to be checked for that. -/
theorem approvedSinceCreation_iff {approvals : Approvals} : r.ApprovedSince r.createdAt approvals ↔
    ¬(approvals.values.any (fun a => a.sender.val = 0 ∨ a.sender = r.owner ∨
      a.time < r.createdAt ∨ r.changedAt < a.time) = true) := by
  rw [approvedSince_iff le_rfl]
  refine and_iff_right_of_imp fun h a ha => ?_
  simp only [List.any_eq_true, not_exists, not_and, decide_eq_true_eq, not_or, not_lt] at h
  exact (h a ha).2.2.1

/-- A restricted alias changed last when it was restricted, or when its last sender was approved. -/
theorem lastChange_eq_iff {time : CanonicalTime} {approvals : Approvals}
    (hmin : ∀ a ∈ approvals.values, time ≤ a.time) (hmax : ∀ a ∈ approvals.values, a.time ≤ r.changedAt)
    (hle : time ≤ r.changedAt) : ((approvals.values.map (·.time)).max?).getD time = r.changedAt ↔
      time = r.changedAt ∨ ∃ a ∈ approvals.values, a.time = r.changedAt := by
  rw [max?_getD_eq hle (List.forall_mem_map.mpr hmin) (List.forall_mem_map.mpr hmax), List.mem_map]

theorem exists_stage {α β ε : Type} {a : α} {b : β} {P : α → β → Prop} :
    (∃ x y, (Except.ok (a, b) : Except ε (α × β)) = .ok (x, y) ∧ P x y) ↔ P a b := by
  constructor
  · rintro ⟨_, _, ⟨⟩, h⟩
    exact h
  · exact fun h => ⟨a, b, rfl, h⟩

/-- An alias is replaced by another one, until a later time. -/
theorem exists_replaced {replacement : AliasId} {time deadline : CanonicalTime} {conversations : Admitted}
    {P : CanonicalTime → Option Admitted → Prop} :
    (∃ t c, (do
      refuseIf (replacement = r.id ∨ deadline ≤ time) AliasError.invalid
      .ok (time, some conversations) : Except AliasError _) = .ok (t, c) ∧ P t c) ↔
      replacement ≠ r.id ∧ time < deadline ∧ P time (some conversations) := by
  by_cases hbad : replacement = r.id ∨ deadline ≤ time
  · rw [refuseIf, if_pos hbad, error_bind]
    constructor
    · rintro ⟨_, _, h, -⟩
      cases h
    · rintro ⟨hother, hdeadline, -⟩
      rcases hbad with heq | hle
      · exact absurd heq hother
      · exact absurd hdeadline (not_lt.mpr hle)
  · rw [refuseIf, if_neg hbad, ok_bind, exists_stage]
    rw [not_or, not_le] at hbad
    tauto

/-- The part of the check that depends on the lifecycle. -/
theorem stageValid_iff : r.StageValid ↔ ∃ time conversations, r.stage = .ok (time, conversations) ∧
    ¬(time < r.createdAt ∨ r.changedAt < time ∨
      (r.lifecycle = .active ∧ (r.revision ≠ 0 ∨ r.changedAt ≠ r.createdAt)) ∨
      (r.lifecycle ≠ .active ∧ r.revision = 0) ∨
      conversations.any (fun m => m.entries.any fun (id, c) => id ≠ c.conversation ∨
        c.aliasId ≠ r.id ∨ c.sender = r.owner ∨ c.admittedAt < r.createdAt ∨ time < c.admittedAt) = true) ∧
    r.checkChanges = .ok () ∧
    ¬(r.lifecycle.approvals.any (fun m => m.values.any fun a => a.sender.val = 0 ∨
      a.sender = r.owner ∨ a.time < r.createdAt ∨ r.changedAt < a.time) = true) := by
  have hpositive : ∀ n : Nat, r.revision.val = n + 1 → r.revision ≠ 0 := fun n h hzero => by
    rw [hzero] at h
    exact absurd h (Nat.succ_ne_zero n).symm
  unfold StageValid stage checkChanges
  cases r.lifecycle with
  | active =>
    rw [exists_stage]
    simp only [AliasLifecycle.approvals, Option.any_none, not_or, not_and, not_not, not_lt]
    constructor
    · rintro ⟨hrevision, hchanged⟩
      exact ⟨⟨le_rfl, hchanged.ge, fun _ => ⟨hrevision, hchanged⟩, fun h => absurd rfl h, Bool.false_ne_true⟩,
        trivial, Bool.false_ne_true⟩
    · rintro ⟨⟨-, -, h, -⟩, -⟩
      exact h trivial
  | restricted time conversations approvals =>
    rw [exists_stage]
    have hsome : (AliasLifecycle.restricted time conversations approvals) ≠ .active := by
      simp only [ne_eq, reduceCtorEq, not_false_eq_true]
    have hany : ¬(approvals.values.any (fun a => a.time < time) = true) ↔
        ∀ a ∈ approvals.values, time ≤ a.time := by
      simp only [List.any_eq_true, not_exists, not_and, decide_eq_true_eq, not_lt]
    simp only [AliasLifecycle.approvals, Option.any_some, not_or, not_lt, bind_eq_ok, okOr_eq_ok,
      refuseIf_eq_ok, admittedBy_iff, Checked.ofNat_eq_some, Checked.add_eq_some, not_not, hany]
    constructor
    · rintro ⟨hcreated, hchanged, hadmitted, happroved, hrevision, hlast⟩
      obtain ⟨hsince, hall⟩ := (approvedSince_iff hcreated).mp happroved
      have hlength : approvals.entries.length < 2 ^ 64 := by
        have := r.revision.isLt
        omega
      refine ⟨⟨hcreated, hchanged, fun h => hsome h.1, fun h => hpositive _ hrevision h.2, hadmitted⟩,
        ⟨⟨_, hlength⟩, rfl, r.revision, hrevision, rfl, hsince, ?_⟩, hall⟩
      exact (lastChange_eq_iff hsince (fun a ha => (happroved a ha).2.2) hchanged).mpr hlast
    · rintro ⟨⟨hcreated, hchanged, -, -, hadmitted⟩,
        ⟨length, hlength, changes, hchanges, hrevision, hsince, hlast⟩, hall⟩
      have happroved := (approvedSince_iff hcreated).mpr ⟨hsince, hall⟩
      refine ⟨hcreated, hchanged, hadmitted, happroved, ?_, ?_⟩
      · rw [hrevision, hchanges, hlength]
        rfl
      · exact (lastChange_eq_iff hsince (fun a ha => (happroved a ha).2.2) hchanged).mp hlast
  | replaced time replacement deadline conversations approvals =>
    have hsome : (AliasLifecycle.replaced time replacement deadline conversations approvals) ≠ .active := by
      simp only [ne_eq, reduceCtorEq, not_false_eq_true]
    dsimp only
    rw [approvedSinceCreation_iff, exists_replaced]
    simp only [AliasLifecycle.approvals, Option.any_some, not_or, not_lt, bind_eq_ok, okOr_eq_ok,
      refuseIf_eq_ok, admittedBy_iff, Checked.ofNat_eq_some, Checked.add_eq_some, not_not, not_and]
    constructor
    · rintro ⟨hother, hdeadline, hcreated, hchanged, hadmitted, hall, hlength, hrevision⟩
      have hcount : r.revision ≠ 0 := by
        rcases hrevision with h | ⟨-, h⟩
        · exact hpositive _ h
        · rw [h]
          decide
      refine ⟨hother, hdeadline, ⟨hcreated, hchanged.ge, fun h => absurd h hsome, fun _ => hcount, hadmitted⟩,
        ⟨⟨approvals.entries.length, by omega⟩, rfl, ⟨approvals.entries.length + 2, hlength⟩, rfl, hchanged,
          fun hne => ?_⟩, hall⟩
      rcases hrevision with h | h
      · exact absurd (Fin.ext h) hne
      · exact fun hnone => hnone h.1 h.2
    · rintro ⟨hother, hdeadline, ⟨hcreated, hchanged, -, -, hadmitted⟩,
        ⟨length, hlength, changes, hchanges, htime, hrevision⟩, hall⟩
      have htotal : changes.val = approvals.entries.length + 2 := by
        rw [hchanges, hlength]
        rfl
      refine ⟨hother, hdeadline, hcreated, htime, hadmitted, hall, htotal ▸ changes.isLt, ?_⟩
      by_cases h : r.revision = changes
      · exact .inl (h ▸ htotal)
      · exact .inr (by_contra fun hnone => hrevision h fun hempty hone => hnone ⟨hempty, hone⟩)
  | retired time =>
    have hsome : (AliasLifecycle.retired time) ≠ .active := by
      simp only [ne_eq, reduceCtorEq, not_false_eq_true]
    rw [exists_stage]
    simp only [AliasLifecycle.approvals, Option.any_none, not_or, not_and, not_lt]
    constructor
    · rintro ⟨hcreated, hchanged, hrevision⟩
      exact ⟨⟨hcreated, hchanged, fun h => absurd h hsome, fun _ => hrevision, Bool.false_ne_true⟩, trivial,
        Bool.false_ne_true⟩
    · rintro ⟨⟨hcreated, hchanged, -, h, -⟩, -⟩
      exact ⟨hcreated, hchanged, h hsome⟩

theorem validate_eq_ok : r.validate = .ok () ↔ r.Valid := by
  have hsplit : r.validate = .ok () ↔ ¬(r.owner.val = 0 ∨ r.changedAt < r.createdAt ∨
      r.permission.record.aliasId ≠ r.id ∨ r.permission.record.owner ≠ r.owner ∨
      r.permission.changedAt < r.createdAt ∨
      (r.configuration.receiving = .bonded ∧ r.permission.state.isAliasWide = true)) ∧ r.StageValid := by
    rw [stageValid_iff, validate]
    simp only [bind_eq_ok, refuseIf_eq_ok, Unique.exists_iff, PUnit.default_eq_unit, Prod.exists]
  rw [hsplit]
  simp only [not_or, not_not, not_lt, not_and, Bool.not_eq_true]
  constructor
  · rintro ⟨⟨howned, hordered, halias, howner, hsince, hbonded⟩, hstage⟩
    exact ⟨howned, hordered, halias, howner, hsince, hbonded, hstage⟩
  · intro h
    exact ⟨⟨h.owned, h.ordered, h.permissionAlias, h.permissionOwner, h.permissionSince, h.bonded⟩, h.stage⟩

theorem toAlias_eq_ok {a : Alias} : r.toAlias = .ok a ↔ r.Valid ∧ a.record = r := by
  rw [← validate_eq_ok, toAlias]
  split
  · next h =>
    constructor
    · rintro ⟨⟩
      exact ⟨h, rfl⟩
    · rintro ⟨-, rfl⟩
      rfl
  · next e h => simp [h]

end AliasRecord

/-! ### Operations -/

namespace Alias
variable {a a' : Alias} {expected : U64} {time : CanonicalTime} {existing : List AdmittedConversation}

theorem sound (a : Alias) : a.record.Valid := AliasRecord.validate_eq_ok.mp a.valid

/-- **Storage.** An entrance is read back from its record as it was. -/
theorem toAlias_record (a : Alias) : a.record.toAlias = .ok a :=
  AliasRecord.toAlias_eq_ok.mpr ⟨a.sound, rfl⟩

theorem unpaired_eq_ok {id : AliasId} {owner : ProtocolIdentity} {p : ReceivingPermission} :
    ReceivingPermission.unpaired id owner time = .ok p ↔
      owner.val ≠ 0 ∧ p.record = ⟨id, owner, ⟨0⟩, time, .none⟩ := by
  rw [ReceivingPermission.unpaired, PermissionRecord.permission_eq_ok]
  exact and_congr_left fun _ => ⟨fun h => h.owned, fun h => ⟨h, fun _ => rfl, trivial⟩⟩

theorem create_eq_ok {id : AliasId} {owner : ProtocolIdentity} {address : MemberAddress}
    {configuration : AliasConfiguration} : create id owner address configuration time = .ok a ↔
      owner.val ≠ 0 ∧ ∃ p : ReceivingPermission, p.record = ⟨id, owner, ⟨0⟩, time, .none⟩ ∧
        a.record = ⟨id, owner, address, configuration, time, time, 0, .active, p⟩ := by
  unfold create
  simp only [bind_eq_ok, unpaired_eq_ok, AliasRecord.toAlias_eq_ok]
  constructor
  · rintro ⟨p, ⟨howner, hp⟩, -, hrecord⟩
    exact ⟨howner, p, hp, hrecord⟩
  · rintro ⟨howner, p, hp, hrecord⟩
    refine ⟨p, ⟨howner, hp⟩, ⟨howner, le_rfl, ?_, ?_, ?_, fun _ => ?_, rfl, rfl⟩, hrecord⟩
    · exact congrArg PermissionRecord.aliasId hp
    · exact congrArg PermissionRecord.owner hp
    · exact (congrArg PermissionRecord.changedAt hp).ge
    · have hstate : p.state = .none := congrArg PermissionRecord.state hp
      rw [hstate]
      rfl

/-- A permission of this entrance, none of another's and none that a bonded one cannot have. -/
def Fits (a : Alias) (p : ReceivingPermission) : Prop :=
  p.record.aliasId = a.id ∧ p.record.owner = a.owner ∧ a.record.createdAt ≤ p.changedAt ∧
    (a.policy = .bonded → p.state.isAliasWide = false)

theorem fits_iff {p : ReceivingPermission} :
    a.Fits p ↔ AliasRecord.Valid {a.record with permission := p} := by
  refine ⟨fun ⟨hid, howner, hsince, hbonded⟩ => ?_, fun h => ?_⟩
  · exact ⟨a.sound.owned, a.sound.ordered, hid, howner, hsince, hbonded, a.sound.stage⟩
  · exact ⟨h.permissionAlias, h.permissionOwner, h.permissionSince, h.bonded⟩

theorem Fits.reaches {p : ReceivingPermission} (h : a.Fits p) :
    ∃ a' : Alias, a'.record = {a.record with permission := p} :=
  ⟨⟨_, AliasRecord.validate_eq_ok.mpr (fits_iff.mp h)⟩, rfl⟩

theorem withPermission_eq_ok {p : ReceivingPermission} : a.withPermission p = .ok a' ↔
    a.Fits p ∧ a'.record = {a.record with permission := p} := by
  rw [withPermission, AliasRecord.toAlias_eq_ok, fits_iff]

/-- The operation names the current revision, is not dated back, and can be counted. -/
def Due (a : Alias) (expected : U64) (time : CanonicalTime) : Prop :=
  a.revision = expected ∧ a.changedAt ≤ time ∧ a.revision.val + 1 < 2 ^ 64

/-- The record after a move to another stage. -/
def next (a : Alias) (lifecycle : AliasLifecycle) (time : CanonicalTime) : AliasRecord :=
  {a.record with revision := a.revision + 1, changedAt := time, lifecycle}

/-- Active or restricted. -/
def Standing (a : Alias) : Prop :=
  a.lifecycle = .active ∨ ∃ since conversations approvals,
    a.lifecycle = .restricted since conversations approvals

theorem next_valid {lifecycle : AliasLifecycle} (htime : a.changedAt ≤ time) :
    (a.next lifecycle time).Valid ↔ (a.next lifecycle time).StageValid :=
  ⟨fun h => h.stage, fun h => ⟨a.sound.owned, a.sound.ordered.trans htime, a.sound.permissionAlias,
    a.sound.permissionOwner, a.sound.permissionSince, a.sound.bonded, h⟩⟩

theorem update_eq_ok {lifecycle : AliasLifecycle} : a.update expected time lifecycle = .ok a' ↔
    a.Standing ∧ a.Due expected time ∧ (a.next lifecycle time).StageValid ∧
      a'.record = a.next lifecycle time := by
  have hmove : (do
      refuseIf (time < a.changedAt) AliasError.invalid
      let revision ← okOr (Checked.succ expected) .invalid
      AliasRecord.toAlias {a.record with revision, changedAt := time, lifecycle}) = .ok a' ↔
      a.changedAt ≤ time ∧ expected.val + 1 < 2 ^ 64 ∧
        AliasRecord.Valid {a.record with revision := expected + 1, changedAt := time, lifecycle} ∧
        a'.record = {a.record with revision := expected + 1, changedAt := time, lifecycle} := by
    simp only [bind_eq_ok, refuseIf_eq_ok, okOr_eq_ok, exists_const, not_lt, AliasRecord.toAlias_eq_ok,
      Checked.succ_eq_some_add_one]
    constructor
    · rintro ⟨htime, _, ⟨hbound, rfl⟩, hvalid, hrecord⟩
      exact ⟨htime, hbound, hvalid, hrecord⟩
    · rintro ⟨htime, hbound, hvalid, hrecord⟩
      exact ⟨htime, _, ⟨hbound, rfl⟩, hvalid, hrecord⟩
  have hstanding : a.Standing → (a.update expected time lifecycle = .ok a' ↔
      a.Due expected time ∧ (a.next lifecycle time).StageValid ∧ a'.record = a.next lifecycle time) := by
    intro hstage
    have hupdate : a.update expected time lifecycle = .ok a' ↔ a.revision = expected ∧
        a.changedAt ≤ time ∧ expected.val + 1 < 2 ^ 64 ∧
        AliasRecord.Valid {a.record with revision := expected + 1, changedAt := time, lifecycle} ∧
        a'.record = {a.record with revision := expected + 1, changedAt := time, lifecycle} := by
      rw [← hmove, update]
      rcases hstage with h | ⟨since, conversations, approvals, h⟩ <;>
        simp only [h, bind_eq_ok, refuseIf_eq_ok, exists_const, not_not]
    rw [hupdate, Due]
    constructor
    · rintro ⟨rfl, htime, hbound, hvalid, hrecord⟩
      exact ⟨⟨rfl, htime, hbound⟩, hvalid.stage, hrecord⟩
    · rintro ⟨⟨rfl, htime, hbound⟩, hstate, hrecord⟩
      exact ⟨rfl, htime, hbound, (next_valid htime).mpr hstate, hrecord⟩
  constructor
  · intro h
    have hstage : a.Standing := by
      unfold update at h
      cases hlifecycle : a.lifecycle with
      | active => exact .inl hlifecycle
      | restricted since conversations approvals => exact .inr ⟨since, conversations, approvals, hlifecycle⟩
      | replaced _ _ _ _ _ => simp [hlifecycle] at h
      | retired _ => simp [hlifecycle] at h
    exact ⟨hstage, (hstanding hstage).mp h⟩
  · rintro ⟨hstage, h⟩
    exact (hstanding hstage).mpr h

/-- Conversations admitted on this route, each named once. -/
def Evidence (a : Alias) (existing : List AdmittedConversation) (time : CanonicalTime) : Prop :=
  (existing.map (·.conversation)).Nodup ∧ ∀ c ∈ existing, c.aliasId = a.id ∧ c.sender ≠ a.owner ∧
    a.record.createdAt ≤ c.admittedAt ∧ c.admittedAt ≤ time

theorem existing_eq_ok {m : Admitted} : a.existing existing time = .ok m ↔
    a.Evidence existing time ∧ m = conversationMap existing := by
  unfold Alias.existing Evidence
  simp only [bind_eq_ok, refuseIf_eq_ok, exists_const, not_or, not_not, List.any_eq_true, not_exists,
    not_and, decide_eq_true_eq, not_lt, Except.ok.injEq, @eq_comm _ existing.length,
    conversationMap_length, @eq_comm _ (conversationMap existing)]
  refine and_congr_left fun _ => and_congr_right fun hnodup => ?_
  constructor
  · intro h c hc
    have hvalue := SortedMap.mem_values.mpr ⟨_, (conversationMap_get? hnodup).mpr ⟨hc, rfl⟩⟩
    obtain ⟨hid, htime, hsince, hsender⟩ := h c hvalue
    exact ⟨hid, hsender, hsince, htime⟩
  · intro h c hc
    obtain ⟨k, hk⟩ := SortedMap.mem_values.mp hc
    obtain ⟨hid, hsender, hsince, htime⟩ := h c ((conversationMap_get? hnodup).mp hk).1
    exact ⟨hid, htime, hsince, hsender⟩

theorem Evidence.admitted (h : a.Evidence existing time) (lifecycle : AliasLifecycle) :
    (a.next lifecycle time).AdmittedBy time (conversationMap existing) := fun id c hc => by
  obtain ⟨hin, hid⟩ := (conversationMap_get? h.1).mp hc
  exact ⟨hid, h.2 c hin⟩

theorem next_revision (h : a.Due expected time) (lifecycle : AliasLifecycle) :
    (a.next lifecycle time).revision.val = a.revision.val + 1 := Checked.val_add_one h.2.2

theorem stage_active (h : a.lifecycle = .active) :
    a.revision = 0 ∧ a.changedAt = a.record.createdAt := by
  have hstage := a.sound.stage
  rwa [AliasRecord.StageValid, show a.record.lifecycle = .active from h] at hstage

theorem stage_restricted {since : CanonicalTime} {conversations : Admitted} {approvals : Approvals}
    (h : a.lifecycle = .restricted since conversations approvals) :
    a.record.createdAt ≤ since ∧ since ≤ a.changedAt ∧ a.record.AdmittedBy since conversations ∧
      a.record.ApprovedSince since approvals ∧ a.revision.val = approvals.entries.length + 1 ∧
      (since = a.changedAt ∨ ∃ approval ∈ approvals.values, approval.time = a.changedAt) := by
  have hstage := a.sound.stage
  rwa [AliasRecord.StageValid,
    show a.record.lifecycle = .restricted since conversations approvals from h] at hstage

/-- The next record is one the check lets through. -/
theorem Due.reaches {lifecycle : AliasLifecycle} (h : a.Due expected time)
    (hstage : (a.next lifecycle time).StageValid) : ∃ a' : Alias, a'.record = a.next lifecycle time :=
  ⟨⟨_, AliasRecord.validate_eq_ok.mpr ((next_valid h.2.1).mpr hstage)⟩, rfl⟩

theorem restricted_stage (hactive : a.lifecycle = .active) (hdue : a.Due expected time)
    (h : a.Evidence existing time) :
    (a.next (.restricted time (conversationMap existing) ∅) time).StageValid := by
  obtain ⟨hrevision, hchanged⟩ := stage_active hactive
  refine ⟨hchanged ▸ hdue.2.1, le_rfl, h.admitted _, fun _ => nofun, ?_, .inl rfl⟩
  rw [next_revision hdue, hrevision]
  rfl

theorem restrict_eq_ok : a.restrict expected existing time = .ok a' ↔
    a.lifecycle = .active ∧ a.Due expected time ∧ a.Evidence existing time ∧
      a'.record = a.next (.restricted time (conversationMap existing) ∅) time := by
  unfold restrict
  split
  · next hactive =>
    simp only [hactive, bind_eq_ok, existing_eq_ok, update_eq_ok, true_and]
    constructor
    · rintro ⟨_, ⟨hevidence, rfl⟩, -, hdue, -, hrecord⟩
      exact ⟨hdue, hevidence, hrecord⟩
    · rintro ⟨hdue, hevidence, hrecord⟩
      exact ⟨_, ⟨hevidence, rfl⟩, .inl hactive, hdue, restricted_stage hactive hdue hevidence, hrecord⟩
  all_goals
    next hother => simp [hother]

/-- The conversations a replacement leaves to the old entrance. -/
def kept (a : Alias) (existing : List AdmittedConversation) : Admitted :=
  match a.lifecycle with
  | .restricted _ conversations _ => conversations
  | .active | .replaced .. | .retired _ => conversationMap existing

/-- A new entrance of the same participant, made for the occasion. -/
structure Succeeds (a replacement : Alias) (time : CanonicalTime) : Prop where
  owner : replacement.owner = a.owner
  id : replacement.id ≠ a.id
  address : replacement.record.address ≠ a.record.address
  configuration : replacement.record.configuration = a.record.configuration
  created : replacement.record.createdAt = time
  revision : replacement.revision = 0
  lifecycle : replacement.lifecycle = .active

theorem replaced_stage {replacement : Alias} {deadline : CanonicalTime} (hstanding : a.Standing)
    (hother : replacement.id ≠ a.id) (hdeadline : time < deadline) (hdue : a.Due expected time)
    (hevidence : a.lifecycle = .active → a.Evidence existing time) :
    (a.next (.replaced time replacement.id deadline (a.kept existing) a.keptApprovals) time).StageValid := by
  have hcreated : a.record.createdAt ≤ time := a.sound.ordered.trans hdue.2.1
  have hbound := hdue.2.2
  have hnext := next_revision hdue
  rcases hstanding with h | ⟨since, conversations, approvals, h⟩
  · obtain ⟨hrevision, -⟩ := stage_active h
    have hempty : a.keptApprovals = ∅ := by simp only [keptApprovals, h]
    have hmap : a.kept existing = conversationMap existing := by simp only [kept, h]
    rw [hempty, hmap]
    refine ⟨hother, hdeadline, hcreated, rfl, (hevidence h).admitted _, fun _ => nofun, by decide, ?_⟩
    refine .inr ⟨rfl, Fin.ext ?_⟩
    rw [hnext, hrevision]
    rfl
  · obtain ⟨hstart, hsince, hadmitted, happroved, hrevision, -⟩ := stage_restricted h
    have hsame : a.keptApprovals = approvals := by simp only [keptApprovals, h]
    have hmap : a.kept existing = conversations := by simp only [kept, h]
    rw [hsame, hmap]
    refine ⟨hother, hdeadline, hcreated, rfl, fun id c hc => ?_, fun approval hin => ?_, by omega, ?_⟩
    · obtain ⟨hid, hown, hsender, hafter, hbefore⟩ := hadmitted id c hc
      exact ⟨hid, hown, hsender, hafter, hbefore.trans (hsince.trans hdue.2.1)⟩
    · obtain ⟨hsender, hafter, hbefore⟩ := happroved approval hin
      exact ⟨hsender, hstart.trans hafter, hbefore.trans hdue.2.1⟩
    · left
      rw [hnext, hrevision]

theorem replace_eq_ok {replacement : Alias} {deadline : CanonicalTime} :
    a.replace expected replacement deadline existing time = .ok a' ↔
      a.Standing ∧ a.Succeeds replacement time ∧ time < deadline ∧ a.Due expected time ∧
      (a.lifecycle = .active → a.Evidence existing time) ∧ a'.record =
        a.next (.replaced time replacement.id deadline (a.kept existing) a.keptApprovals) time := by
  have hguard : ¬(replacement.owner ≠ a.owner ∨ replacement.id = a.id ∨
      replacement.record.address = a.record.address ∨
      replacement.record.configuration ≠ a.record.configuration ∨
      replacement.record.createdAt ≠ time ∨ replacement.revision ≠ 0 ∨
      replacement.lifecycle ≠ .active ∨ deadline ≤ time) ↔ a.Succeeds replacement time ∧ time < deadline := by
    simp only [not_or, not_not, not_le]
    exact ⟨fun ⟨h1, h2, h3, h4, h5, h6, h7, h8⟩ => ⟨⟨h1, h2, h3, h4, h5, h6, h7⟩, h8⟩,
      fun ⟨h, h8⟩ => ⟨h.owner, h.id, h.address, h.configuration, h.created, h.revision, h.lifecycle, h8⟩⟩
  have hkept : a.Standing → ∀ m, a.keptConversations existing time = .ok m ↔
      (a.lifecycle = .active → a.Evidence existing time) ∧ m = a.kept existing := by
    rintro (h | ⟨since, conversations, approvals, h⟩) m
    · simp only [keptConversations, kept, h, existing_eq_ok, forall_const]
    · simp only [keptConversations, kept, h, Except.ok.injEq, reduceCtorEq, IsEmpty.forall_iff, true_and]
      exact eq_comm
  unfold replace
  simp only [bind_eq_ok, refuseIf_eq_ok, exists_const, hguard, update_eq_ok]
  constructor
  · rintro ⟨⟨hsucceeds, hdeadline⟩, m, hm, hstanding, hdue, -, hrecord⟩
    obtain ⟨hevidence, rfl⟩ := (hkept hstanding m).mp hm
    exact ⟨hstanding, hsucceeds, hdeadline, hdue, hevidence, hrecord⟩
  · rintro ⟨hstanding, hsucceeds, hdeadline, hdue, hevidence, hrecord⟩
    exact ⟨⟨hsucceeds, hdeadline⟩, _, (hkept hstanding _).mpr ⟨hevidence, rfl⟩, hstanding, hdue,
      replaced_stage hstanding hsucceeds.id hdeadline hdue hevidence, hrecord⟩

theorem retired_stage (hdue : a.Due expected time) : (a.next (.retired time) time).StageValid := by
  refine ⟨a.sound.ordered.trans hdue.2.1, le_rfl, fun hzero => ?_⟩
  have hnext := next_revision hdue (.retired time)
  rw [hzero] at hnext
  exact absurd hnext (Nat.succ_ne_zero _).symm

theorem retire_eq_ok : a.retire expected time = .ok a' ↔ (∀ t, a.lifecycle ≠ .retired t) ∧
    a.Due expected time ∧ a'.record = a.next (.retired time) time := by
  have hupdate : a.Standing → (a.update expected time (.retired time) = .ok a' ↔
      a.Due expected time ∧ a'.record = a.next (.retired time) time) := fun h => by
    rw [update_eq_ok, and_iff_right h]
    exact and_congr_right fun hdue => and_iff_right (retired_stage hdue)
  unfold retire
  cases hlifecycle : a.lifecycle with
  | active =>
    simp only [hupdate (.inl hlifecycle), ne_eq, reduceCtorEq, not_false_eq_true, implies_true, true_and]
  | restricted since conversations approvals =>
    simp only [hupdate (.inr ⟨_, _, _, hlifecycle⟩), ne_eq, reduceCtorEq, not_false_eq_true,
      implies_true, true_and]
  | replaced since replacement deadline conversations approvals =>
    simp only [bind_eq_ok, refuseIf_eq_ok, okOr_eq_ok, exists_const, not_or, not_not, not_lt,
      AliasRecord.toAlias_eq_ok, Checked.succ_eq_some_add_one, ne_eq, reduceCtorEq, not_false_eq_true,
      implies_true, true_and]
    constructor
    · rintro ⟨⟨rfl, htime⟩, _, ⟨hbound, rfl⟩, -, hrecord⟩
      exact ⟨⟨rfl, htime, hbound⟩, hrecord⟩
    · rintro ⟨⟨rfl, htime, hbound⟩, hrecord⟩
      have hdue : a.Due a.revision time := ⟨rfl, htime, hbound⟩
      exact ⟨⟨rfl, htime⟩, _, ⟨hbound, rfl⟩, (next_valid htime).mpr (retired_stage hdue), hrecord⟩
  | retired since =>
    have hnot : ¬a.Standing := by
      simp [Standing, hlifecycle]
    simp [update_eq_ok, hnot]

theorem approved_stage {since : CanonicalTime} {conversations : Admitted} {approvals : Approvals}
    {approval : ConversationApproval} {conversation : ConversationId}
    (h : a.lifecycle = .restricted since conversations approvals) (hother : approval.sender ≠ a.owner)
    (hnew : approvals.get? conversation = none) (hdue : a.Due expected approval.time) :
    (a.next (.restricted since conversations (approvals.insert conversation approval))
      approval.time).StageValid := by
  obtain ⟨hcreated, hsince, hkept, hsigned, hrevision, -⟩ := stage_restricted h
  have hlength := SortedMap.length_insert_new approval hnew
  have hnext := next_revision hdue
  refine ⟨hcreated, hsince.trans hdue.2.1, hkept, fun x hx => ?_, ?_, .inr ⟨approval, ?_, rfl⟩⟩
  · obtain ⟨k, hk⟩ := SortedMap.mem_values.mp hx
    rw [SortedMap.get?_insert] at hk
    split_ifs at hk with heq
    · cases hk
      exact ⟨hother, hsince.trans hdue.2.1, le_rfl⟩
    · obtain ⟨hsender, hafter, hbefore⟩ := hsigned x (SortedMap.mem_values.mpr ⟨k, hk⟩)
      exact ⟨hsender, hafter, hbefore.trans hdue.2.1⟩
  · rw [hnext, hlength, hrevision]
  · exact SortedMap.mem_values.mpr ⟨conversation, SortedMap.get?_insert_self ..⟩

theorem approveConversation_eq_ok {sender : ProtocolIdentity} {conversation : ConversationId} :
    a.approveConversation expected sender conversation time = .ok a' ↔
      ∃ since conversations approvals, a.lifecycle = .restricted since conversations approvals ∧
        sender ≠ a.owner ∧ conversations.get? conversation = none ∧
        approvals.get? conversation = none ∧ a.Due expected time ∧
        ∃ approval : ConversationApproval, approval.sender = sender ∧ approval.time = time ∧
          a'.record = a.next (.restricted since conversations (approvals.insert conversation approval)) time := by
  have happroval : ∀ approval, ConversationApproval.new sender time = .ok approval ↔
      approval.sender = sender ∧ approval.time = time := fun approval => by
    rw [ConversationApproval.new]
    split_ifs with hzero
    · simp only [false_iff, not_and]
      rintro rfl
      exact absurd hzero approval.named
    · cases approval
      simp [eq_comm]
  unfold approveConversation
  split
  · next since conversations approvals h =>
    simp only [h, bind_eq_ok, refuseIf_eq_ok, exists_const, not_or, happroval, update_eq_ok,
      Bool.not_eq_true, SortedMap.contains_eq_false, AliasLifecycle.restricted.injEq]
    constructor
    · rintro ⟨⟨hnamed, hother, hadmitted, happroved⟩, approval, ⟨hsender, htime⟩, -, hdue, -, hrecord⟩
      exact ⟨_, _, _, ⟨rfl, rfl, rfl⟩, hother, hadmitted, happroved, hdue, approval, hsender, htime, hrecord⟩
    · rintro ⟨_, _, _, ⟨rfl, rfl, rfl⟩, hother, hadmitted, happroved, hdue, approval, rfl, rfl, hrecord⟩
      exact ⟨⟨approval.named, hother, hadmitted, happroved⟩, approval, ⟨rfl, rfl⟩,
        .inr ⟨_, _, _, h⟩, hdue, approved_stage h hother happroved hdue, hrecord⟩
  all_goals
    next h => simp [h]

end Alias

end CsMail
