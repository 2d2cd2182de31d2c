import CsMail.Requests.Lifecycle

/-! How long a block lasts.

While a relationship is blocked nothing reaches its recipient: no request is submitted, no
message admitted, no lane accepted. The recipient lifts the block with
`UnblockRelationship`. `RevokeRelationship` lifts it too: it ends permission whatever the
status was, and leaves the relationship revoked, where new requests are open again. -/
namespace CsMail
open Library

namespace StoreState

def Blocked (w : StoreState) (R : RelationshipRef) : Prop :=
  ∃ e, w.relationships.get? R = some e ∧ e.protocol.relationship.state = .blocked

instance (w : StoreState) (R : RelationshipRef) : Decidable (w.Blocked R) :=
  decidable_of_iff
    ((w.relationships.get? R).any (fun e => e.protocol.relationship.state = .blocked) = true)
    (by simp [Blocked, Option.any_eq_true])

end StoreState

namespace StoreInput

/-- The command that is meant to lift a block. -/
def Unblocks (i : StoreInput) (R : RelationshipRef) : Prop :=
  ∃ lane v actor key idempotencyKey context,
    i = .execute R lane ⟨.unblockRelationship v, actor, key, idempotencyKey⟩ context

/-- The recipient revokes the relationship at its current version. -/
def Revokes (i : StoreInput) (w : StoreState) (R : RelationshipRef) : Prop :=
  ∃ e lane v key idempotencyKey context, w.relationships.get? R = some e ∧
    e.protocol.relationship.version = v.into ∧ i = .execute R lane ⟨.revokeRelationship v,
      .recipient e.protocol.relationship.key.recipient, key, idempotencyKey⟩ context

end StoreInput

section
variable [Crypto] {w w' : StoreState} {R : RelationshipRef} {i : StoreInput}

/-- What one input leaves of a block. -/
structure KeepsBlock (w : StoreState) (i : StoreInput) (w' : StoreState) (R : RelationshipRef) :
    Prop where
  blocked : w'.Blocked R
  messages : ∀ e e', w.relationships.get? R = some e → w'.relationships.get? R = some e' →
    e'.messages = e.messages
  submission : ∀ r r', Becomes w w' R r r' → r'.lifecycle.isAwaitingRecipientDecision = false
  lanes : ∀ lane grant context, i = .acceptLane R lane grant context →
    ∃ error, w.step i = .error error

/-! ### What a blocked relationship refuses -/

theorem planFreeAdmission_unblocked {state : ProtocolState} {request : BondFreeAdmission}
    {record : Option EncryptedContentRecord} {lane : Option SenderScopedLane} {now : CanonicalTime}
    {policy : AdmissionPolicy} {plan : FreeAdmissionPlan}
    (h : planFreeAdmission state request record lane now policy = .ok plan) :
    state.relationship.state ≠ .blocked := by
  simp only [planFreeAdmission, bind_eq_ok, refuseIf_eq_ok, exists_const] at h
  exact h.1

theorem blocked_refuses_lane (hblocked : w.Blocked R) (lane : Option SenderScopedLane)
    (grant : SenderScopedGrant) (context : TransitionContext) :
    ∃ error, w.step (.acceptLane R lane grant context) = .error error := by
  cases hstep : w.step (.acceptLane R lane grant context) with
  | error error => exact ⟨error, rfl⟩
  | ok w' =>
    simp only [StoreState.step, bind_eq_ok, Prod.exists] at hstep
    obtain ⟨e, h, hread, a, hdecide, -⟩ := hstep
    obtain ⟨e', he', hstate⟩ := hblocked
    cases he'.symm.trans (StoreState.read_eq_ok hread).1
    exact absurd hstate (StoreState.decide_unblocked hdecide)

/-- An input that leaves the relationship as it was. -/
theorem KeepsBlock.untouched (hblocked : w.Blocked R)
    (hsame : w'.relationships.get? R = w.relationships.get? R) : KeepsBlock w i w' R where
  blocked := by
    obtain ⟨e, he, hstate⟩ := hblocked
    exact ⟨e, hsame.trans he, hstate⟩
  messages := fun e e' he he' => by
    cases he.symm.trans (hsame.symm.trans he')
    rfl
  submission := fun r r' ⟨⟨e, he, hr⟩, ⟨e', he', hr'⟩, hmoved⟩ => by
    cases he.symm.trans (hsame.symm.trans he')
    cases hr.symm.trans hr'
    exact absurd rfl hmoved
  lanes := fun lane grant context hi => hi ▸ blocked_refuses_lane hblocked lane grant context

/-! ### Commands -/

theorem transition_revoke {s : SettlementSnapshot} {v : Version} {actor : ActorRef}
    {key : OperationalKeyRef} {idempotencyKey : IdempotencyKey} {context : TransitionContext}
    {m : TransitionManifest}
    (h : transition s ⟨.revokeRelationship v, actor, key, idempotencyKey⟩ context = .ok m) :
    actor = .recipient s.state.relationship.key.recipient ∧
      s.state.relationship.version = v.into := by
  simp only [transition, authorize, authorized, applyCommand, revoke, bind_eq_ok, refuseIf_eq_ok,
    exists_const, decide_eq_false_iff_not, Decidable.not_not] at h
  obtain ⟨-, -, hactor, m₀, ⟨hversion, -⟩, -⟩ := h
  exact ⟨hactor, hversion⟩

/-- A command carried out for a blocked relationship neither unblocks nor revokes it, or
keeps the block and delivers nothing. -/
theorem transition_blocked {s : SettlementSnapshot} {command : KernelCommand ProtocolCommand}
    {context : TransitionContext} {m : TransitionManifest}
    (h : transition s command context = .ok m) (hblocked : s.state.relationship.state = .blocked)
    (hunblock : ∀ v, command.command ≠ .unblockRelationship v)
    (hrevoke : ∀ v, command.command ≠ .revokeRelationship v) :
    m.nextState.relationship.state = .blocked ∧ m.nextMessages = s.messages ∧
      m.book.submissions = [] := by
  obtain ⟨hconsequence, hcontact, hmessages, hquiet⟩ := transition_spec h
  have hclosed : command.command.needsContact = false := by
    by_contra hneeds
    exact hcontact (Bool.not_eq_false _ ▸ hneeds) hblocked
  have hstate := hconsequence.state
  rw [hblocked] at hstate
  cases hc : command.command with
  | unblockRelationship v => exact absurd hc (hunblock v)
  | revokeRelationship v => exact absurd hc (hrevoke v)
  | admitFollowup | issueRequestTerms | createRequest | submitRequestToRecipient
  | acceptRelationship | rejectRelationship =>
    rw [hc] at hclosed
    cases hclosed
  | recordPayment | setFollowupPolicy | cancelRequestSubmission | blockRelationship
  | expireRequest =>
    rw [hc] at hstate hmessages hquiet
    exact ⟨hstate, hmessages rfl, hquiet rfl⟩

/-! ### One input -/

theorem keepsBlock_of_commit {e : EngineState} {m : TransitionManifest}
    {extra : List ScheduleChange} {h : RequestHistory} {lane : Option SenderScopedLane}
    {context : TransitionContext} {state : RelationshipState}
    (hblocked : w.Blocked R) (he : w.relationships.get? R = some e)
    (hconsequence : Consequence (e.snapshot h lane) context state m)
    (hstate : m.nextState.relationship.state = .blocked)
    (hmessages : m.nextMessages = e.messages) (hquiet : m.book.submissions = [])
    (hcommit : w.commit R e m extra = .ok w') : KeepsBlock w i w' R := by
  obtain ⟨revision, ledger, -, rfl⟩ := StoreState.commit_eq_ok hcommit
  refine ⟨⟨_, SortedMap.get?_insert_self .., hstate⟩, ?_, ?_, ?_⟩
  · intro e₀ e' he₀ he'
    cases he.symm.trans he₀
    rw [SortedMap.get?_insert_self] at he'
    cases he'
    exact hmessages
  · rintro r r' ⟨⟨e₀, he₀, hr⟩, ⟨e', he', hr'⟩, hmoved⟩
    cases he.symm.trans he₀
    rw [SortedMap.get?_insert_self] at he'
    cases he'
    exact hconsequence.move.not_submitted hquiet hr hr' hmoved
  · exact fun lane grant context hi => hi ▸ blocked_refuses_lane hblocked lane grant context

/-- **A blocked relationship stays blocked**, unless it is unblocked or revoked. -/
theorem blocked_step (hblocked : w.Blocked R) (hunblock : ¬i.Unblocks R) (hrevoke : ¬i.Revokes w R)
    (hstep : w.step i = .ok w') : KeepsBlock w i w' R := by
  have hother : ∀ (R' : RelationshipRef) (e' : EngineState), R ≠ R' →
      (w.relationships.insert R' e').get? R = w.relationships.get? R := fun R' e' hR =>
    SortedMap.get?_insert_ne _ _ hR
  obtain ⟨e, he, hstate⟩ := id hblocked
  cases i with
  | register R' H sender recipient now unit =>
    simp only [StoreState.step, StoreState.register, bind_eq_ok, refuseIf_eq_ok, exists_const,
      not_or, Bool.not_eq_true] at hstep
    obtain ⟨⟨hnew, -⟩, -, hstep⟩ := hstep
    cases hstep
    refine .untouched hblocked (hother _ _ ?_)
    rintro rfl
    cases (SortedMap.contains_eq_false.mp hnew).symm.trans he
  | execute R' lane command context =>
    simp only [StoreState.step, bind_eq_ok, mapError_eq_ok, Prod.exists] at hstep
    obtain ⟨e', h, hread, m, htransition, hcommit⟩ := hstep
    obtain ⟨he', -⟩ := StoreState.read_eq_ok hread
    by_cases hR : R = R'
    · cases hR
      cases he.symm.trans he'
      obtain ⟨command, actor, key, idempotencyKey⟩ := command
      obtain ⟨hnext, hmessages, hquiet⟩ := transition_blocked htransition hstate
        (fun v hc => hunblock ⟨lane, v, actor, key, idempotencyKey, context, by cases hc; rfl⟩)
        (fun v hc => by
          cases hc
          obtain ⟨hactor, hversion⟩ := transition_revoke htransition
          cases hactor
          exact hrevoke ⟨e, lane, v, key, idempotencyKey, context, he, hversion, rfl⟩)
      exact keepsBlock_of_commit hblocked he (transition_spec htransition).1 hnext hmessages hquiet
        hcommit
    · obtain ⟨revision, ledger, -, rfl⟩ := StoreState.commit_eq_ok hcommit
      exact .untouched hblocked (hother _ _ hR)
  | receiveNative R' lane incoming context =>
    simp only [StoreState.step, bind_eq_ok, mapError_eq_ok, Prod.exists] at hstep
    obtain ⟨e', h, hread, m, hreceive, hstep⟩ := hstep
    obtain ⟨he', -⟩ := StoreState.read_eq_ok hread
    cases m with
    | none =>
      cases hstep
      exact .untouched hblocked rfl
    | some m =>
      by_cases hR : R = R'
      · cases hR
        cases he.symm.trans he'
        exact absurd hstate (receiveNativeRequest_spec hreceive).2.1
      · obtain ⟨revision, ledger, -, rfl⟩ := StoreState.commit_eq_ok hstep
        exact .untouched hblocked (hother _ _ hR)
  | acceptLane R' lane grant context =>
    by_cases hR : R = R'
    · cases hR
      obtain ⟨error, herror⟩ := blocked_refuses_lane hblocked lane grant context
      rw [herror] at hstep
      cases hstep
    · simp only [StoreState.step, bind_eq_ok, Prod.exists] at hstep
      obtain ⟨e', h, hread, a, hdecide, hstep⟩ := hstep
      cases a with
      | none =>
        cases hstep
        exact .untouched hblocked rfl
      | some a =>
        obtain ⟨revision, ledger, -, rfl⟩ := StoreState.commit_eq_ok hstep
        exact .untouched hblocked (hother _ _ hR)
  | admitFree R' lane request record policy now =>
    simp only [StoreState.step, StoreState.admitFree, bind_eq_ok, mapError_eq_ok, okOr_eq_ok,
      refuseIf_eq_ok, exists_const, Prod.exists] at hstep
    obtain ⟨e', h, hread, plan, hplan, -, revision, -, hstep⟩ := hstep
    cases hstep
    by_cases hR : R = R'
    · cases hR
      cases he.symm.trans (StoreState.read_eq_ok hread).1
      exact absurd hstate (planFreeAdmission_unblocked hplan)
    · exact .untouched hblocked (hother _ _ hR)

/-- A revocation that is carried out lifts the block. -/
theorem revocation_lifts_block (hrevoke : i.Revokes w R) (hstep : w.step i = .ok w') :
    ¬w'.Blocked R := by
  obtain ⟨e, lane, v, key, idempotencyKey, context, he, -, rfl⟩ := hrevoke
  simp only [StoreState.step, bind_eq_ok, mapError_eq_ok, Prod.exists] at hstep
  obtain ⟨e₀, h, hread, m, htransition, hcommit⟩ := hstep
  obtain ⟨revision, ledger, -, rfl⟩ := StoreState.commit_eq_ok hcommit
  rintro ⟨e', he', hblocked⟩
  rw [SortedMap.get?_insert_self] at he'
  cases he'
  have hstate : m.nextState.relationship.state = .revoked := (transition_spec htransition).1.state
  cases hstate.symm.trans hblocked

/-! ### Every run -/

/-- The run holds no revocation that comes while the relationship is blocked. -/
def Unrevoked (inputs rest : List StoreInput) (R : RelationshipRef) : Prop :=
  ∀ before i after, rest = before ++ i :: after →
    (StoreState.run (inputs ++ before)).Blocked R →
    ¬i.Revokes (StoreState.run (inputs ++ before)) R

theorem blocked_run {inputs rest : List StoreInput} (hblocked : (StoreState.run inputs).Blocked R)
    (hunblock : ∀ i ∈ rest, ¬i.Unblocks R) (hrevoke : Unrevoked inputs rest R) :
    (StoreState.run (inputs ++ rest)).Blocked R := by
  induction rest using List.reverseRecOn with
  | nil => simpa using hblocked
  | append_singleton rest i ih =>
    have hbefore := ih (fun i hi => hunblock i (List.mem_append_left _ hi))
      (fun a j b hrest => hrevoke a j (b ++ [i]) (by simp [hrest]))
    rw [← List.append_assoc, StoreState.run_concat]
    rcases Machine.advance_cases StoreState.step (StoreState.run (inputs ++ rest)) i with
      hsame | hstep
    · exact hsame.symm ▸ hbefore
    · exact (blocked_step hbefore (hunblock i (by simp)) (hrevoke rest i [] rfl hbefore) hstep).blocked

/-- **A block lasts until it is lifted**, in every run without a revocation of the blocked
relationship: every input before an unblocking keeps the relationship blocked, admits no
message, submits no request and accepts no lane for it. -/
theorem block_lasts (inputs rest : List StoreInput) (R : RelationshipRef)
    (hblocked : (StoreState.run inputs).Blocked R) (hunblock : ∀ i ∈ rest, ¬i.Unblocks R)
    (hrevoke : Unrevoked inputs rest R) :
    ∀ before i after, rest = before ++ i :: after →
      KeepsBlock (StoreState.run (inputs ++ before)) i (StoreState.run (inputs ++ before ++ [i])) R := by
  rintro before i after rfl
  have hbefore : (StoreState.run (inputs ++ before)).Blocked R := by
    refine blocked_run hblocked (fun j hj => hunblock j (by simp [hj])) fun a j b hrest => ?_
    exact hrevoke a j (b ++ i :: after) (by simp [hrest])
  rw [StoreState.run_concat]
  rcases Machine.advance_cases StoreState.step (StoreState.run (inputs ++ before)) i with
    hsame | hstep
  · rw [hsame]
    exact .untouched hbefore rfl
  · exact blocked_step hbefore (hunblock i (by simp)) (hrevoke before i after rfl hbefore) hstep

end

/-! ### A block, and what lifts it -/

namespace Example

/-- The relationship is registered and its recipient blocks it. -/
def block : List StoreInput := [
  .register relationship history sender recipient ⟨100⟩ unit,
  .execute relationship none (command (.recipient recipient) (.blockRelationship .initial))
    (context ⟨101⟩ ⟨1⟩)]

/-- The recipient accepts the blocked relationship: refused. -/
def acceptance : StoreInput :=
  .execute relationship none (command (.recipient recipient) (.acceptRelationship ⟨1⟩))
    (context ⟨102⟩ ⟨2⟩)

/-- The recipient revokes the blocked relationship: carried out. -/
def revocation : StoreInput :=
  .execute relationship none (command (.recipient recipient) (.revokeRelationship ⟨1⟩))
    (context ⟨102⟩ ⟨2⟩)

end Example

/-- The refused acceptance keeps the block. -/
theorem block_lasts_acceptance :
    @KeepsBlock Example.crypto (@StoreState.run Example.crypto Example.block) Example.acceptance
      (@StoreState.run Example.crypto (Example.block ++ [Example.acceptance]))
      Example.relationship := by
  refine @block_lasts Example.crypto Example.block [Example.acceptance] Example.relationship
    (by decide +kernel) ?_ ?_ [] Example.acceptance [] rfl
  · rintro i hi ⟨lane, v, actor, key, idempotencyKey, context, rfl⟩
    simp [Example.acceptance, Example.command] at hi
  · rintro before i after hrest - ⟨e, lane, v, key, idempotencyKey, context, -, -, rfl⟩
    cases before with
    | nil => simp [Example.acceptance, Example.command] at hrest
    | cons j before => simp at hrest

/-- The revocation ends the block, though it does not unblock. -/
theorem block_not_kept : ¬∀ (inputs : List StoreInput) (R : RelationshipRef) (i : StoreInput),
    (@StoreState.run Example.crypto inputs).Blocked R → ¬i.Unblocks R →
      (@StoreState.run Example.crypto (inputs ++ [i])).Blocked R := by
  intro h
  have hcommand : ¬Example.revocation.Unblocks Example.relationship := by
    rintro ⟨lane, v, actor, key, idempotencyKey, context, hi⟩
    simp [Example.revocation, Example.command] at hi
  have hkept := h Example.block Example.relationship Example.revocation (by decide +kernel) hcommand
  have hlifted : ¬(@StoreState.run Example.crypto (Example.block ++ [Example.revocation])).Blocked
      Example.relationship := by
    decide +kernel
  exact hlifted hkept

end CsMail
