import CsMail.External.Replies

/-! What a receiving decision authorizes.

A message is authorized by one thing only: the entrance's own permission, one of its paired
lanes, or the relationship, by standing access while it is accepted and by its lane while it
has one. -/
namespace CsMail
open Library

namespace RouteContext

/-- What a message is authorized by, with the lane of the entrance it uses, if it uses one. -/
inductive Grants (c : RouteContext) : RouteBasis → Option (SenderScopedLane × LaneEvidence) → Prop
  | aliasLane : Grants c (.aliasLane c.entrance.permission.revision) none
  | pairedSender {lanes : List SenderScopedLane} {lane : SenderScopedLane} {evidence : LaneEvidence}
      (hstate : c.entrance.permission.state = .senders lanes) (hlane : lane ∈ lanes) :
      Grants c (.pairedSender lane.grant.id lane.version c.entrance.permission.revision)
        (some (lane, evidence))
  | standing {r : Relationship} (hr : c.relationship = some r) (haccepted : r.state = .accepted) :
      Grants c (.standing r.version) none
  | senderLane {r : Relationship} {lane : SenderScopedLane} (hr : c.relationship = some r)
      (hstate : r.state = .expressLane lane.grant.id) (hlane : c.lane = some lane) :
      Grants c (.senderLane lane.grant.id lane.version) none

/-- What an authorization repeats of the facts it was given on. -/
structure Authorizes (c : RouteContext) (time : CanonicalTime) (a : ReceivingAuthorization) : Prop where
  entrance : a.receivingAlias = c.entrance.id
  recipient : a.recipient = c.entrance.owner
  sender : c.authentication = .authenticated a.sender
  conversation : a.conversation = c.conversation
  time : a.authorizedAt = time
  related : ∀ r, c.relationship = some r →
    r.key.sender = a.sender ∧ r.key.recipient = c.entrance.owner ∧ r.state ≠ .blocked
  grants : c.Grants a.basis a.paired

variable {c : RouteContext} {sender : ProtocolIdentity} {time : CanonicalTime} {basis : RouteBasis}

theorem pairedSender_eq_some {lane : SenderScopedLane} {evidence : LaneEvidence}
    (h : c.pairedSender sender time = some (lane, evidence)) :
    ∃ lanes, c.entrance.permission.state = .senders lanes ∧ lane ∈ lanes := by
  unfold pairedSender at h
  split at h
  next lanes hstate =>
    obtain ⟨l, hl, h⟩ := List.exists_of_findSome?_eq_some h
    obtain ⟨e, -, h⟩ := Option.bind_eq_some_iff.mp h
    split_ifs at h
    cases h
    exact ⟨lanes, hstate, hl⟩
  all_goals cases h

theorem relationshipBasis_eq_ok (h : c.relationshipBasis sender time = .ok (some basis)) :
    c.Grants basis none := by
  unfold relationshipBasis at h
  split at h
  next r scope hr _ =>
    by_cases hversion : r.version ≠ scope.record.relationshipVersion
    · rw [if_pos hversion] at h
      cases h
    · rw [if_neg hversion] at h
      cases hstate : r.state with
      | accepted =>
        rw [hstate] at h
        by_cases hlane : scope.record.lane = none
        · rw [if_pos hlane] at h
          cases h
          exact .standing hr hstate
        · rw [if_neg hlane] at h
          cases h
      | expressLane id =>
        rw [hstate] at h
        obtain ⟨lane, hfound, h⟩ := bind_eq_ok.mp h
        obtain ⟨hlane, hscope⟩ := Option.filter_eq_some_iff.mp (okOr_eq_ok.mp hfound)
        obtain ⟨-, rfl⟩ := of_decide_eq_true hscope
        obtain ⟨_, -, h⟩ := bind_eq_ok.mp h
        obtain ⟨_, -, h⟩ := bind_eq_ok.mp h
        cases h
        exact .senderLane hr hstate hlane
      | blocked | unknown | rejected | revoked =>
        rw [hstate] at h
        cases h
  · cases h

theorem basis_eq_ok {paired : Option (SenderScopedLane × LaneEvidence)}
    (h : c.basis sender time = .ok (some (basis, paired))) : c.Grants basis paired := by
  unfold RouteContext.basis at h
  dsimp only at h
  split_ifs at h
  · cases h
    exact .aliasLane
  · split at h
    next lane evidence hpaired =>
      cases h
      obtain ⟨lanes, hstate, hlane⟩ := pairedSender_eq_some hpaired
      exact .pairedSender hstate hlane
    · obtain ⟨found, hrelationship, h⟩ := bind_eq_ok.mp h
      cases found with
      | none => cases h
      | some found =>
        cases h
        exact relationshipBasis_eq_ok hrelationship

theorem admission_eq_ok {a : ReceivingAuthorization} (h : c.admission time = .ok (.authorize a)) :
    c.Authorizes time a := by
  obtain ⟨_, -, h⟩ := bind_eq_ok.mp h
  obtain ⟨_, -, h⟩ := bind_eq_ok.mp h
  obtain ⟨_, hforeign, h⟩ := bind_eq_ok.mp h
  obtain ⟨_, hblocked, h⟩ := bind_eq_ok.mp h
  cases hauthentication : c.authentication with
  | uncertain =>
    rw [hauthentication] at h
    dsimp only at h
    split_ifs at h
    cases h
  | authenticated sender =>
    rw [hauthentication] at h
    obtain ⟨_, hstranger, h⟩ := bind_eq_ok.mp h
    obtain ⟨_, -, h⟩ := bind_eq_ok.mp h
    by_cases hreview : c.reviewRequired = true
    · rw [if_pos hreview] at h
      split_ifs at h
      cases h
    · rw [if_neg hreview] at h
      obtain ⟨found, hbasis, h⟩ := bind_eq_ok.mp h
      cases found with
      | none =>
        dsimp only at h
        split_ifs at h
        cases h
      | some found =>
        cases h
        refine ⟨rfl, rfl, hauthentication, rfl, rfl, fun r hr => ?_, basis_eq_ok hbasis⟩
        simp only [refuseIf_eq_ok, not_or, hr, Option.any_some, decide_eq_true_eq, ne_eq,
          Decidable.not_not] at hforeign hblocked hstranger
        exact ⟨hstranger.2.2, hforeign, hblocked⟩

end RouteContext
end CsMail
