import CsMail.Capabilities.LaneRuns

/-! A lane as it is stored, and read back.

The reader checks again every relation the lane's fields should stand in; they are those
that every method keeps (`SenderScopedLane.Sound`). -/
namespace CsMail
open Library

structure LaneRecord where
  authority : LaneAuthority
  grant : SenderScopedGrant
  state : LaneState
  lastActivity : CanonicalTime
  horizonAt : CanonicalTime
  rateWindowStartedAt : CanonicalTime
  messagesInRateWindow : U32
  version : Version
  admittedMessages : SortedMap MessageId Unit
  deriving DecidableEq

def SenderScopedLane.record (l : SenderScopedLane) : LaneRecord where
  authority := l.authority
  grant := l.grant
  state := l.state
  lastActivity := l.lastActivity
  horizonAt := l.horizonAt
  rateWindowStartedAt := l.rateWindowStartedAt
  messagesInRateWindow := l.messagesInRateWindow
  version := l.version
  admittedMessages := l.admittedMessages

namespace LaneRecord

/-- `u64::try_from` of the number of admitted messages. -/
def admitted (r : LaneRecord) : Option U64 :=
  if h : r.admittedMessages.entries.length < 2 ^ 64 then some ⟨_, h⟩ else none

/-- Reads a lane back, and checks that its fields fit together. -/
def lane (r : LaneRecord) : Except CapabilityError SenderScopedLane := do
  r.grant.validate
  refuseIf (r.authority.unidentified = true) .invalidGrant
  let lives ← okOr (r.lastActivity.checkedAdd r.grant.lifetime) .arithmeticOverflow
  let activityHorizon := min lives r.grant.notAfter
  let admitted ← okOr r.admitted .invalidGrant
  refuseIf (r.lastActivity < r.grant.issuedAt ∨ r.grant.notAfter ≤ r.lastActivity ∨
    r.rateWindowStartedAt < r.grant.issuedAt ∨ r.lastActivity < r.rateWindowStartedAt ∨
    r.rateWindowStartedAt.checkedAdd r.grant.rateLimit.interval = none ∨
    r.horizonAt < activityHorizon ∨ r.grant.notAfter < r.horizonAt ∨
    (r.grant.mode = .expiring ∧ r.horizonAt ≠ activityHorizon) ∨
    (r.state = .awaitingReconfirmation ∧ r.grant.mode ≠ .expiring) ∨
    (r.state ≠ .active ∧ r.version.val = 0) ∨
    r.grant.rateLimit.maxMessages < r.messagesInRateWindow ∨
    admitted.val < r.messagesInRateWindow.val ∨ (0 < admitted ∧ r.messagesInRateWindow = 0) ∨
    r.version.val < admitted ∨ r.admittedMessages.keys.any (fun m => m.val = 0) = true) .invalidGrant
  .ok {
    authority := r.authority
    grant := r.grant
    state := r.state
    lastActivity := r.lastActivity
    horizonAt := r.horizonAt
    rateWindowStartedAt := r.rateWindowStartedAt
    messagesInRateWindow := r.messagesInRateWindow
    version := r.version
    admittedMessages := r.admittedMessages}

end LaneRecord

namespace SenderScopedLane
variable {l : SenderScopedLane}

/-- A lane whose fields fit together is read back as it was. -/
theorem Sound.stored (h : l.Sound) : l.record.lane = .ok l := by
  obtain ⟨lives, hlives, hhorizon, hexpiring⟩ := h.lives
  obtain ⟨closes, hcloses⟩ := h.closes
  have hlength : l.admittedMessages.entries.length < 2 ^ 64 := h.versioned.trans_lt l.version.val.isLt
  have hadmitted : l.record.admitted = some ⟨_, hlength⟩ := dif_pos hlength
  have hidentified : l.admittedMessages.keys.any (fun m => m.val = 0) = false := by
    refine List.any_eq_false.mpr fun m hm => ?_
    obtain ⟨u, hu⟩ := SortedMap.mem_keys.mp hm
    simpa using h.identified m u hu
  refine bind_eq_ok.mpr ⟨⟨⟩, h.grant, bind_eq_ok.mpr ⟨⟨⟩, refuseIf_eq_ok.mpr ?_, ?_⟩⟩
  · show ¬l.authority.unidentified = true
    simp [h.authority]
  refine bind_eq_ok.mpr ⟨lives, okOr_eq_ok.mpr hlives, bind_eq_ok.mpr ⟨_, okOr_eq_ok.mpr hadmitted, ?_⟩⟩
  refine bind_eq_ok.mpr ⟨⟨⟩, refuseIf_eq_ok.mpr ?_, rfl⟩
  simp only [not_or, not_and, not_lt, not_le, ne_eq, not_not]
  refine ⟨h.since, h.before, h.opened, h.current, ?_, hhorizon, h.fixed, hexpiring, h.awaiting, ?_,
    h.allowed, h.counted, ?_, h.versioned, ?_⟩
  · show ¬l.rateWindowStartedAt.checkedAdd l.grant.rateLimit.interval = none
    simp [hcloses]
  · exact fun hstate hzero => h.changed hstate (congrArg Fin.val hzero)
  · exact fun hsome hzero => h.used hsome (congrArg Fin.val hzero)
  · show ¬l.admittedMessages.keys.any (fun m => m.val = 0) = true
    simp [hidentified]

end SenderScopedLane

/-- **A lane can always be stored and loaded.** Whatever calls a lane has gone through since
it was granted or accepted, its record is read back as the lane it was. -/
theorem LaneLog.lane_stored [Crypto] {l : SenderScopedLane} (h : l.Created)
    (cs : List (LaneCall × CanonicalTime)) :
    ((⟨l, []⟩ : LaneLog).calls cs).lane.record.lane = .ok ((⟨l, []⟩ : LaneLog).calls cs).lane :=
  ((LaneLog.kept_new h.new).calls cs).tells.sound.stored

/-- The revoked lane that admitted three messages is read back. -/
theorem LaneLog.lane_stored_windows : ((⟨Example.lane, []⟩ : LaneLog).calls Example.calls).lane.record.lane =
    .ok ((⟨Example.lane, []⟩ : LaneLog).calls Example.calls).lane ∧
    ((⟨Example.lane, []⟩ : LaneLog).calls Example.calls).lane.admittedMessages.keys = [⟨1⟩, ⟨2⟩, ⟨3⟩] := by
  have hcreated : @SenderScopedLane.Created Example.crypto Example.lane :=
    @SenderScopedLane.Created.granted Example.crypto Example.grant Example.lane (by decide +kernel)
  exact ⟨@LaneLog.lane_stored Example.crypto Example.lane hcreated Example.calls, by decide +kernel⟩

end CsMail
