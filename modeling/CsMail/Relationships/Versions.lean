import CsMail.Protocol.KernelProofs

/-! The version of a relationship counts its decisions.

A handler either leaves the status of the relationship and its version as they were, or sets
a status under a higher version; so no version comes back. -/
namespace CsMail
open Library

namespace Relationship

/-- The relationship is about the same pair, and its status is the same unless its version
has grown. -/
structure Advances (r r' : Relationship) : Prop where
  key : r'.key = r.key
  version : r'.version = r.version ∧ r'.state = r.state ∨ r.version < r'.version

namespace Advances
variable {r r' r'' : Relationship}

theorem refl (r : Relationship) : r.Advances r := ⟨rfl, .inl ⟨rfl, rfl⟩⟩

theorem of_eq (h : r' = r) : r.Advances r' := h ▸ refl r

theorem le (h : r.Advances r') : r.version ≤ r'.version := by
  rcases h.version with ⟨hsame, -⟩ | hlt
  · exact hsame.ge
  · exact hlt.le

theorem trans (h : r.Advances r') (h' : r'.Advances r'') : r.Advances r'' := by
  refine ⟨h'.key.trans h.key, ?_⟩
  rcases h.version with ⟨hversion, hstate⟩ | hlt
  · rcases h'.version with ⟨hversion', hstate'⟩ | hlt'
    · exact .inl ⟨hversion'.trans hversion, hstate'.trans hstate⟩
    · exact .inr (hversion ▸ hlt')
  · exact .inr (hlt.trans_le h'.le)

end Advances
end Relationship

section
variable [Crypto] {m m' : ManifestBuilder} {id : RequestId}

/-- What a handler makes of the relationship. -/
abbrev ManifestBuilder.Advances (m m' : ManifestBuilder) : Prop :=
  m.next.relationship.Advances m'.next.relationship

omit [Crypto] in
theorem setRelationshipState_advances {state : RelationshipState}
    (h : m.setRelationshipState state = .ok m') : m.Advances m' := by
  obtain ⟨version, hversion, rfl⟩ := ManifestBuilder.setRelationshipState_eq_ok h
  refine ⟨rfl, .inr ?_⟩
  show m.next.relationship.version.val.val < version.val.val
  rw [Counter.checkedNext_eq_some.mp hversion]
  exact Nat.lt_succ_self _

omit [Crypto] in
/-- Withdrawing the reply terms is no decision. -/
theorem terminateLane_advances (h : terminateLane m = .ok m') : m.Advances m' := by
  obtain ⟨-, -, -, -, -, epoch, hrelationship⟩ := terminateLane_spec h
  exact ⟨by rw [hrelationship], .inl (by rw [hrelationship]; exact ⟨rfl, rfl⟩)⟩

theorem relationshipDecision_advances {v : Version} {d : Decision} (hkeyed : m.next.Keyed)
    (h : relationshipDecision m v d = .ok m') : m.Advances m' := by
  obtain ⟨-, m₁, m₂, m₃, hstate, hlane, hrequest, rfl⟩ := relationshipDecision_eq_ok h
  have hkeyed₂ : m₂.next.Keyed := fun id r hr =>
    hkeyed id r ((decisionState_spec hstate hlane).2.2.2.2.1 ▸ hr)
  have hlane' : m₁.Advances m₂ := by
    split_ifs at hlane
    · exact terminateLane_advances hlane
    · cases hlane
      exact .refl _
  have hrequest' : m₂.Advances m₃ := .of_eq (decideRequest_moves hkeyed₂ hrequest).relationship
  exact ((setRelationshipState_advances hstate).trans hlane').trans hrequest'

theorem applyCommand_advances {context : TransitionContext} {actor : ActorRef} {key : OperationalKeyRef}
    {c : ProtocolCommand} (hnow : context.now = m.now) (hkeyed : m.next.Keyed)
    (h : applyCommand m context actor key c = .ok m') : m.Advances m' := by
  cases c with
  | recordPayment request receipt => exact .of_eq (recordPayment_moves hkeyed h).relationship
  | setFollowupPolicy v policy => exact .of_eq (setFollowupPolicy_moves h).relationship
  | admitFollowup => exact .of_eq (admitFollowup_spec h).2.2.1
  | issueRequestTerms => exact .of_eq (issueTerms_spec h).1.relationship
  | createRequest =>
    obtain ⟨-, -, -, -, generation, hrelationship⟩ := createRequest_spec h
    exact ⟨by rw [hrelationship], .inl (by rw [hrelationship]; exact ⟨rfl, rfl⟩)⟩
  | submitRequestToRecipient => exact .of_eq (submitRequestToRecipient_spec hnow hkeyed h).2.2
  | cancelRequestSubmission request v reason =>
    exact .of_eq (cancelRequestSubmission_moves hkeyed h).relationship
  | acceptRelationship v => exact relationshipDecision_advances hkeyed h
  | rejectRelationship v => exact relationshipDecision_advances hkeyed h
  | blockRelationship v => exact relationshipDecision_advances hkeyed h
  | unblockRelationship v =>
    simp only [applyCommand, unblock, bind_eq_ok, refuseIf_eq_ok, exists_const] at h
    obtain ⟨-, -, m₁, hstate, h⟩ := h
    cases h
    have hadvances : m.Advances m₁ := setRelationshipState_advances hstate
    exact hadvances
  | expireRequest request v => exact .of_eq (expireRequest_moves hkeyed h).relationship
  | revokeRelationship v =>
    simp only [applyCommand, revoke, bind_eq_ok, refuseIf_eq_ok, exists_const] at h
    obtain ⟨-, m₁, hlane, m₂, hstate, h⟩ := h
    cases h
    have hadvances : m.Advances m₂ := (terminateLane_advances hlane).trans (setRelationshipState_advances hstate)
    exact hadvances

end

/-! ### The kernel -/

section
variable [Crypto] {s : SettlementSnapshot} {context : TransitionContext} {manifest : TransitionManifest}

/-- What a manifest makes of the relationship. -/
abbrev SettlementSnapshot.Advances (s : SettlementSnapshot) (manifest : TransitionManifest) : Prop :=
  s.state.relationship.Advances manifest.nextState.relationship

/-- **No version comes back.** Whatever a command decides, it decides under a higher version. -/
theorem transition_advances {command : KernelCommand ProtocolCommand}
    (h : transition s command context = .ok manifest) : s.Advances manifest := by
  simp only [transition, bind_eq_ok] at h
  obtain ⟨⟨⟩, hvalid, -, -, m, happly, hfinish⟩ := h
  have hadvances : (ManifestBuilder.new s context).Advances m :=
    applyCommand_advances rfl (keyed_of_validateSnapshot hvalid) happly
  rw [SettlementSnapshot.Advances, finish_next hfinish]
  exact hadvances

/-- A request submitted in the opposite direction decides nothing. -/
theorem receiveNativeRequest_advances {incoming : RelationshipRequest}
    (h : receiveNativeRequest s incoming context = .ok (some manifest)) : s.Advances manifest := by
  simp only [receiveNativeRequest, bind_eq_ok, refuseIf_eq_ok, exists_const] at h
  obtain ⟨⟨⟩, hvalid, -, h⟩ := h
  split at h
  · cases h
  · split at h
    · cases h
    · simp only [bind_eq_ok, Except.ok.injEq, Option.some.injEq] at h
      obtain ⟨m, hcancel, manifest', hfinish, rfl⟩ := h
      rw [SettlementSnapshot.Advances, finish_next hfinish]
      exact .of_eq (cancelSubmission_moves (m := ManifestBuilder.new s context)
        (keyed_of_validateSnapshot hvalid) hcancel).relationship

theorem acceptExpressLane_advances {lane : LaneId}
    (h : acceptExpressLane s lane context = .ok manifest) : s.Advances manifest := by
  simp only [acceptExpressLane, bind_eq_ok, refuseIf_eq_ok, exists_const] at h
  obtain ⟨⟨⟩, hvalid, -, m₁, hstate, m₂, hsettle, hfinish⟩ := h
  have hadvances : (ManifestBuilder.new s context).Advances m₁ := setRelationshipState_advances hstate
  have hkeyed : m₁.next.Keyed := by
    obtain ⟨version, -, rfl⟩ := ManifestBuilder.setRelationshipState_eq_ok hstate
    exact keyed_of_validateSnapshot hvalid
  rw [SettlementSnapshot.Advances, finish_next hfinish]
  exact hadvances.trans (.of_eq (settleForLane_moves hkeyed hsettle).relationship)

end
end CsMail
