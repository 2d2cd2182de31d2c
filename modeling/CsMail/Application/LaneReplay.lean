import CsMail.Capabilities.LaneRuns
import CsMail.Requests.Agreement

/-! A lane that was accepted, and its grant presented again.

The lane the grant gives is compared with the stored one, which every message moves on.
What protects the settlement is the version: no grant is accepted over the lane of an
equal or newer one. -/
namespace CsMail
open Library

/-- An event that left the lane as it was: a message seen before, or a horizon not due. -/
def LaneEvent.idle : LaneEvent → Bool
  | repeated _ | horizon .none => true
  | _ => false

namespace LaneLog
variable {l l' : SenderScopedLane} {now : CanonicalTime} {event : LaneEvent} {b : LaneLog}

theorem apply_idle {c : LaneCall} (h : c.apply now l = .ok (l', event)) (hidle : event.idle = true) :
    l' = l := by
  cases c with
  | consume message capability declarations evidence =>
    obtain ⟨⟨l', repeated⟩, hconsume, heq⟩ := map_eq_ok.mp h
    cases heq
    rcases SenderScopedLane.consume_eq_ok hconsume with ⟨-, hkept, -⟩ | ⟨rfl, -⟩
    · exact hkept
    · cases hidle
  | reachHorizon =>
    obtain ⟨⟨l', effect⟩, hreach, heq⟩ := map_eq_ok.mp h
    cases heq
    cases SenderScopedLane.reachHorizon_eq_ok hreach with
    | nothing => rfl
    | ended => cases hidle
    | awaited => cases hidle
    | reminded => cases hidle
  | reconfirm =>
    obtain ⟨l', -, heq⟩ := map_eq_ok.mp h
    cases heq
    cases hidle
  | revoke =>
    obtain ⟨l', -, heq⟩ := map_eq_ok.mp h
    cases heq
    cases hidle

/-- While nothing happens to a lane it stays the same. -/
theorem calls_idle (cs : List (LaneCall × CanonicalTime))
    (hidle : ∀ e ∈ ((⟨l, []⟩ : LaneLog).calls cs).events, e.2.idle = true) :
    ((⟨l, []⟩ : LaneLog).calls cs).lane = l := by
  revert hidle
  rw [calls_eq]
  refine Machine.run_preserves (P := fun b : LaneLog => (∀ e ∈ b.events, e.2.idle = true) → b.lane = l)
    (fun b c b' hb hc hall => ?_) (fun _ => rfl) cs
  obtain ⟨⟨l', event⟩, happly, rfl⟩ := map_eq_ok.mp hc
  have hsame : l' = b.lane := apply_idle happly (hall _ List.mem_cons_self)
  exact hsame.trans (hb fun e he => hall e (List.mem_cons_of_mem _ he))

end LaneLog

theorem SenderScopedLane.fromGrant_grant {g : SenderScopedGrant} {l : SenderScopedLane}
    (h : fromGrant g = .ok l) : l.grant = g := by
  simp only [fromGrant, bind_eq_ok, okOr_eq_ok, Except.ok.injEq] at h
  obtain ⟨⟨⟩, -, horizon, -, closes, -, rfl⟩ := h
  rfl

namespace LaneAcceptance
variable {s s' : SettlementSnapshot} {granted other : SenderScopedGrant} {context : TransitionContext}
  {a : LaneAcceptance} {l : SenderScopedLane}

/-- What an accepted lane was accepted from. -/
structure Accepted (s : SettlementSnapshot) (granted : SenderScopedGrant) (l : SenderScopedLane) :
    Prop where
  lane : SenderScopedLane.fromGrant granted = .ok l
  sender : granted.sender = s.state.relationship.key.sender
  recipient : granted.recipient = s.state.relationship.key.recipient

theorem accepted_of_decide (h : decide s granted context = .ok (some a)) :
    Accepted s granted a.lane := by
  simp only [decide, bind_eq_ok, mapError_eq_ok, refuseIf_eq_ok, exists_const, not_or,
    Decidable.not_not] at h
  obtain ⟨l, hlane, -, ⟨hsender, hrecipient⟩, h⟩ := h
  rw [SenderScopedLane.fromGrant_grant hlane] at hsender hrecipient
  split_ifs at h
  · cases h
  · simp only [bind_eq_ok, Except.ok.injEq, Option.some.injEq] at h
    obtain ⟨⟨⟩, -, ⟨⟩, -, settlement, -, rfl⟩ := h
    exact ⟨hlane, hsender, hrecipient⟩

/-- A grant is accepted over a lane only if it is for that lane and newer than its grant. -/
theorem decide_over (hlane : s.lane = some l) (h : decide s other context = .ok (some a)) :
    other.id = l.grant.id ∧ l.grant.version < other.version := by
  simp only [decide, bind_eq_ok, mapError_eq_ok, refuseIf_eq_ok, exists_const] at h
  obtain ⟨l', hgrant, -, -, h⟩ := h
  split_ifs at h
  · cases h
  obtain ⟨⟨⟩, hnewer, -⟩ := bind_eq_ok.mp h
  have hnewer := refuseIf_eq_ok.mp hnewer
  rw [hlane, SenderScopedLane.fromGrant_grant hgrant] at hnewer
  simp only [Option.any_some, decide_eq_true_eq, not_or, not_le, ne_eq, Decidable.not_not] at hnewer
  exact ⟨hnewer.1.symm, hnewer.2⟩

/-- Only the grant of the stored lane is taken for a replay. -/
theorem decide_none (hlane : s.lane = some l) (h : decide s other context = .ok none) :
    other = l.grant := by
  simp only [decide, bind_eq_ok, mapError_eq_ok, refuseIf_eq_ok, exists_const] at h
  obtain ⟨l', hgrant, -, -, h⟩ := h
  split_ifs at h with hsame
  · rw [hlane, Option.some.injEq] at hsame
    rw [hsame, SenderScopedLane.fromGrant_grant hgrant]
  · obtain ⟨⟨⟩, -, h⟩ := bind_eq_ok.mp h
    obtain ⟨⟨⟩, -, h⟩ := bind_eq_ok.mp h
    obtain ⟨settlement, -, h⟩ := bind_eq_ok.mp h
    cases h

/-- What is answered when grants are presented over the lane that `granted` gave. -/
structure Replayed (granted : SenderScopedGrant) (s : SettlementSnapshot) (context : TransitionContext)
    (events : List (CanonicalTime × LaneEvent)) : Prop where
  /-- The grant is not settled a second time, and does not replace the lane. -/
  once : ∀ a, decide s granted context ≠ .ok (some a)
  noop : (∀ e ∈ events, e.2.idle = true) → s.state.relationship.state ≠ .blocked →
    decide s granted context = .ok none
  changed : ∀ other, other ≠ granted → (other.id = granted.id → other.version ≤ granted.version) →
    ∃ e, decide s other context = .error e

/-- **A lane is accepted once.** Whatever happened to an accepted lane, its grant presented
again is neither settled again nor put in the lane's place; it is a no-op while nothing
happened to the lane, and a changed grant needs a new version. -/
theorem decide_replayed {context' : TransitionContext} (h : decide s granted context = .ok (some a))
    (cs : List (LaneCall × CanonicalTime))
    (hlane : s'.lane = some ((⟨a.lane, []⟩ : LaneLog).calls cs).lane)
    (hkey : s'.state.relationship.key = s.state.relationship.key) :
    Replayed granted s' context' ((⟨a.lane, []⟩ : LaneLog).calls cs).events := by
  obtain ⟨hgranted, hsender, hrecipient⟩ := accepted_of_decide h
  have hnew := SenderScopedLane.fromGrant_eq_ok hgranted
  have hgrant : ((⟨a.lane, []⟩ : LaneLog).calls cs).lane.grant = granted :=
    ((LaneLog.kept_new hnew).calls cs).tells.grant.trans (SenderScopedLane.fromGrant_grant hgranted)
  refine ⟨fun a' hagain => ?_, fun hidle hblocked => ?_, fun other hne hversion => ?_⟩
  · have hnewer := (decide_over hlane hagain).2
    rw [hgrant] at hnewer
    exact lt_irrefl _ hnewer
  · rw [LaneLog.calls_idle cs hidle] at hlane
    refine bind_eq_ok.mpr ⟨a.lane, mapError_eq_ok.mpr hgranted, bind_eq_ok.mpr ⟨⟨⟩,
      refuseIf_eq_ok.mpr hblocked, bind_eq_ok.mpr ⟨⟨⟩, refuseIf_eq_ok.mpr ?_, if_pos hlane⟩⟩⟩
    rw [SenderScopedLane.fromGrant_grant hgranted, hkey, hsender, hrecipient]
    simp
  · cases hdecide : decide s' other context' with
    | error e => exact ⟨e, rfl⟩
    | ok answer =>
      cases answer with
      | none => exact absurd ((decide_none hlane hdecide).trans hgrant) hne
      | some a' =>
        obtain ⟨hid, hnewer⟩ := decide_over hlane hdecide
        rw [hgrant] at hid hnewer
        exact absurd (hversion hid) (not_le.mpr hnewer)

/-! ### A grant presented again -/

namespace Example
open LaneLog.Example (grant)
open CsMail.Example (relationship history unit)

/-- The grant's relationship, without requests, in a given state and with a given lane. -/
def snapshot (state : ProtocolState) (lane : Option SenderScopedLane) : SettlementSnapshot :=
  (EngineState.new state unit).snapshot (.new history grant.recipient ⟨5⟩) lane

def unknown : ProtocolState :=
  .initialScoped relationship history grant.sender grant.recipient ⟨5⟩

/-- The grant is accepted while the relationship is unknown. -/
@[irreducible] def accepted : LaneAcceptance :=
  (decide (snapshot unknown none) grant (CsMail.Example.context ⟨11⟩ ⟨1⟩)).toOption.join.get
    (by decide +kernel)

theorem accepted_eq :
    decide (snapshot unknown none) grant (CsMail.Example.context ⟨11⟩ ⟨1⟩) = .ok (some accepted) := by
  decide +kernel

/-- One message has passed the lane. -/
def used : LaneLog := (⟨accepted.lane, []⟩ : LaneLog).calls [(LaneLog.Example.consume ⟨1⟩, ⟨20⟩)]

/-- The same grant, signed anew with another version. -/
def regrant : SenderScopedGrant := {grant with version := ⟨2⟩}

@[irreducible] def reaccepted : LaneAcceptance :=
  (decide (snapshot accepted.settlement.nextState (some used.lane)) regrant
    (CsMail.Example.context ⟨21⟩ ⟨2⟩)).toOption.join.get (by decide +kernel)

end Example

/-- After one message the grant is refused as a conflicting duplicate, and another grant for
the lane is accepted if its version is new. -/
theorem decide_replay_conflicts :
    (decide (Example.snapshot Example.unknown none) LaneLog.Example.grant
        (CsMail.Example.context ⟨11⟩ ⟨1⟩) = .ok (some Example.accepted) ∧
      Example.used.events = [(⟨20⟩, .admitted ⟨1⟩)] ∧
      decide (Example.snapshot Example.accepted.settlement.nextState (some Example.used.lane))
        LaneLog.Example.grant (CsMail.Example.context ⟨21⟩ ⟨2⟩) =
          .error (.protocol .duplicateConflict)) ∧
    (Example.regrant ≠ LaneLog.Example.grant ∧ Example.regrant.id = LaneLog.Example.grant.id ∧
      decide (Example.snapshot Example.accepted.settlement.nextState (some Example.used.lane))
        Example.regrant (CsMail.Example.context ⟨21⟩ ⟨2⟩) = .ok (some Example.reaccepted)) := by
  decide +kernel

/-- One message later the grant is not settled again, and neither is a changed one of the
same version. -/
theorem decide_replayed_used :
    Replayed LaneLog.Example.grant
      (Example.snapshot Example.accepted.settlement.nextState (some Example.used.lane))
      (CsMail.Example.context ⟨21⟩ ⟨2⟩) Example.used.events :=
  decide_replayed Example.accepted_eq [(LaneLog.Example.consume ⟨1⟩, ⟨20⟩)] rfl (by decide +kernel)

end LaneAcceptance
end CsMail
