import CsMail.External.Routing
import CsMail.External.StoreProofs
import CsMail.Relationships.Versions

/-! A lapsed invitation is never revived.

An invitation is pending for one version of the relationship. Versions only grow, and a
member's command leaves the version or rejects the invitation; so an invitation whose version
has passed stays lapsed (`InvitationState.Lapsed`), and what is then admitted without a lane
is admitted by standing access. -/
namespace CsMail
open Library

/-! ### The conversation, command by command -/

/-- A call that reads the relationship of a conversation, as it is. -/
def ExternalCall.about (id : ConversationId) (r : Relationship) : ExternalCall → ExternalCall
  | .transact request facts began now =>
    .transact request (if request.conversation = id then {facts with relationship := r} else facts) began now
  | call => call

namespace ExternalTables
variable [Crypto] {t t' : ExternalTables} {r : ExternalResult} {id : ConversationId}

/-- What a transaction makes of a conversation, where it is about this relationship. -/
inductive ConversationStep (t : ExternalTables) (id : ConversationId) (relationship : Relationship)
    (t' : ExternalTables) : Prop
  | kept : t'.conversations.get? id = t.conversations.get? id → ConversationStep t id relationship t'
  | followed {row row' : ConversationRow} : t.conversations.get? id = some row →
      t'.conversations.get? id = some row' → row.conversation.Follows row'.conversation →
      ConversationStep t id relationship t'
  | opened {row' : ConversationRow} : t.conversations.get? id = none →
      t'.conversations.get? id = some row' →
      (∀ version, row'.conversation.invitation = .pending version → version = relationship.version) →
      ConversationStep t id relationship t'

theorem persistChanges_conversations {request : SignedExternalCommand} {changes : ExternalChanges}
    {time : CanonicalTime} (h : t.persistChanges request changes time = .ok t') :
    t'.conversations = (t.upsertConversation request changes.conversation).conversations := by
  obtain ⟨t₁, hstored, h⟩ := bind_eq_ok.mp h
  have hsame : t₁.conversations = (t.upsertConversation request changes.conversation).conversations := by
    cases hdelivery : changes.delivery with
    | none =>
      rw [hdelivery] at hstored
      cases hstored
      rfl
    | some p =>
      rw [hdelivery] at hstored
      obtain ⟨m, -, -, -, -, -, rfl⟩ := enqueue_eq_ok hstored
      rfl
  cases h
  split_ifs <;> exact hsame

/-- Only a start opens a conversation, with an invitation for the version it read. -/
theorem opened_pending {request : SignedExternalCommand} {c : ExternalContext} {now : CanonicalTime}
    {changes : ExternalChanges} {outcome : ExternalOutcome} (hnone : c.conversation = none)
    (h : externalMutation request c now = .ok (changes, outcome)) {version : RelationshipVersion}
    (hpending : changes.conversation.invitation = .pending version) : version = c.relationship.version := by
  unfold externalMutation at h
  split at h
  next receivingAlias mailbox message disclose hcommand =>
    obtain ⟨inbox, -, h⟩ := bind_eq_ok.mp h
    obtain ⟨⟨⟩, -, h⟩ := bind_eq_ok.mp h
    obtain ⟨⟨⟩, -, h⟩ := bind_eq_ok.mp h
    obtain ⟨⟨⟩, -, h⟩ := bind_eq_ok.mp h
    obtain ⟨⟨⟩, -, h⟩ := bind_eq_ok.mp h
    obtain ⟨conversation, hstart, h⟩ := bind_eq_ok.mp h
    cases h
    exact (ExternalConversation.start_eq_ok hstart).2.2.2.2 version hpending
  all_goals
    rw [hnone] at h
    simp only [okOr, error_bind, bind_eq_ok, refuseIf_eq_ok, exists_const, reduceCtorEq, and_false] at h

variable [ExternalJson]

theorem transact_conversation {request : SignedExternalCommand} {facts : ExternalFacts}
    {began now : CanonicalTime} {relationship : Relationship}
    (hfacts : request.conversation = id → facts.relationship = relationship)
    (h : t.transact request facts began now = .ok (t', r)) : t.ConversationStep id relationship t' := by
  obtain ⟨⟨⟩, -, h⟩ := bind_eq_ok.mp h
  split at h
  · obtain ⟨receipt, -, h⟩ := bind_eq_ok.mp h
    cases h
    exact .kept rfl
  · obtain ⟨conversation, hexisting, h⟩ := bind_eq_ok.mp h
    obtain ⟨⟨receipt, effects⟩, hdecide, h⟩ := bind_eq_ok.mp h
    obtain ⟨e, rfl, hdecided⟩ := decideExternal_eq_ok rfl (mapError_eq_ok.mp hdecide)
    obtain ⟨t₂, hcommit, h⟩ := bind_eq_ok.mp h
    cases h
    obtain ⟨t₁, hpersist, hcommit⟩ := bind_eq_ok.mp hcommit
    cases hcommit
    rcases hdecided.outcome with ⟨changes, hchanges, hmutation⟩ | ⟨hnone, -⟩
    · rw [persistEffects, hchanges] at hpersist
      have hconversations := persistChanges_conversations hpersist
      by_cases hid : request.conversation = id
      · subst hid
        have hrow : t₁.conversations.get? request.conversation = some
            ⟨((t.conversations.get? request.conversation).map ConversationRow.account).getD request.account,
              changes.conversation⟩ := hconversations ▸ SortedMap.get?_insert_self ..
        have hmutated := externalMutation_eq_ok hmutation
        rcases existing_eq_ok (mapError_eq_ok.mp hexisting) with ⟨row, hold, hsome, -⟩ | ⟨hold, hnone, -⟩
        · exact .followed hold hrow (hmutated.follows _ hsome)
        · refine .opened hold hrow fun version hversion => ?_
          rw [← hfacts rfl]
          exact opened_pending hnone hmutation hversion
      · refine .kept ?_
        show t₁.conversations.get? id = _
        rw [hconversations]
        exact SortedMap.get?_insert_ne _ _ fun heq => hid heq.symm
    · rw [persistEffects, hnone] at hpersist
      cases hpersist
      exact .kept rfl

theorem call_conversation {c : ExternalCall} {relationship : Relationship}
    (h : t.call (c.about id relationship) = .ok (t', r)) : t.ConversationStep id relationship t' := by
  cases c with
  | inbound i account member receivingAlias mailbox deployment rel now =>
    obtain ⟨t₁, hcall, h⟩ := map_eq_ok.mp h
    cases h
    obtain ⟨conversation, hinbound, hcall⟩ := bind_eq_ok.mp hcall
    obtain ⟨⟨⟩, hnew, hcall⟩ := bind_eq_ok.mp hcall
    cases hcall
    by_cases hid : id = i
    · subst hid
      rw [refuseIf_eq_ok, Bool.not_eq_true, SortedMap.contains_eq_false] at hnew
      refine .opened hnew (SortedMap.get?_insert_self ..) fun version hversion => ?_
      obtain ⟨⟨⟩, -, hinbound⟩ := bind_eq_ok.mp (mapError_eq_ok.mp hinbound)
      obtain ⟨scope, -, hinbound⟩ := bind_eq_ok.mp hinbound
      cases (congrArg (·.invitation) (ExternalRecord.toExternal_eq_ok hinbound)).symm.trans hversion
    · exact .kept (SortedMap.get?_insert_ne _ _ hid)
  | receive message =>
    obtain ⟨t₁, hcall, h⟩ := map_eq_ok.mp h
    cases h
    obtain ⟨⟨⟩, -, hcall⟩ := bind_eq_ok.mp hcall
    cases hcall
    exact .kept rfl
  | transact request facts began now =>
    exact transact_conversation (fun hid => by rw [if_pos hid]) h
  | beginDispatch message facts now =>
    obtain ⟨m, d, row, hdispatch⟩ := beginDispatch_eq_ok h
    rcases hdispatch.outcome with ⟨-, -, rfl⟩ | ⟨-, rfl⟩ <;> exact .kept rfl
  | finishDispatch message accepted now =>
    obtain ⟨d, -, h⟩ := bind_eq_ok.mp h
    obtain ⟨targets, -, h⟩ := bind_eq_ok.mp h
    obtain ⟨next, -, h⟩ := bind_eq_ok.mp h
    cases h
    exact .kept rfl
  | providerFeedback event now =>
    replace h : t.providerFeedback event now = .ok (t', r) := h
    unfold providerFeedback at h
    split at h
    · obtain ⟨⟨⟩, -, h⟩ := bind_eq_ok.mp h
      cases h
      exact .kept rfl
    · obtain ⟨⟨m, d, row⟩, -, h⟩ := bind_eq_ok.mp h
      obtain ⟨eventTargets, -, h⟩ := bind_eq_ok.mp h
      obtain ⟨referenceTargets, -, h⟩ := bind_eq_ok.mp h
      obtain ⟨next, -, h⟩ := bind_eq_ok.mp h
      cases h
      exact .kept rfl

end ExternalTables

/-! ### Runs -/

/-- A relationship, and the external conversations of its store. -/
structure InvitationState [Crypto] where
  relationship : Relationship
  tables : ExternalTables

/-- A decision of the kernel on the relationship, or a transaction on the conversations. A
snapshot comes with everything else the kernel reads. -/
inductive InvitationInput
  | transition (s : SettlementSnapshot) (command : KernelCommand ProtocolCommand) (context : TransitionContext)
  | receiveNativeRequest (s : SettlementSnapshot) (incoming : RelationshipRequest) (context : TransitionContext)
  | acceptExpressLane (s : SettlementSnapshot) (lane : LaneId) (context : TransitionContext)
  | external (call : ExternalCall)

/-- The snapshot of the relationship as it is now. -/
def SettlementSnapshot.current (s : SettlementSnapshot) (r : Relationship) : SettlementSnapshot :=
  {s with state := {s.state with relationship := r}}

namespace InvitationState
variable [Crypto] [ExternalJson] {s s' : InvitationState} {id : ConversationId}

/-- One step; the commands of this conversation read the relationship as it is. -/
def step (id : ConversationId) (s : InvitationState) : InvitationInput → Except Unit InvitationState
  | .transition snapshot command context => do
    let manifest ← (CsMail.transition (snapshot.current s.relationship) command context).mapError fun _ => ()
    .ok {s with relationship := manifest.nextState.relationship}
  | .receiveNativeRequest snapshot incoming context => do
    let manifest ← (CsMail.receiveNativeRequest (snapshot.current s.relationship) incoming context).mapError
      fun _ => ()
    .ok {s with relationship := (manifest.map (·.nextState.relationship)).getD s.relationship}
  | .acceptExpressLane snapshot lane context => do
    let manifest ← (CsMail.acceptExpressLane (snapshot.current s.relationship) lane context).mapError
      fun _ => ()
    .ok {s with relationship := manifest.nextState.relationship}
  | .external call => do
    let (tables, _) ← (s.tables.call (call.about id s.relationship)).mapError fun _ => ()
    .ok {s with tables}

/-- A run from an empty store, whatever the relationship has been through before. -/
def run (id : ConversationId) (s : InvitationState) (inputs : List InvitationInput) : InvitationState :=
  Machine.run (step id) s inputs

/-- The conversation, as it is stored. -/
def conversation (s : InvitationState) (id : ConversationId) : Option ExternalConversation :=
  (s.tables.conversations.get? id).map ConversationRow.conversation

/-- What one step does to the relationship and to the conversation. -/
theorem step_eq_ok {i : InvitationInput} (h : step id s i = .ok s') :
    s.relationship.Advances s'.relationship ∧ s'.tables = s.tables ∨
      s'.relationship = s.relationship ∧ s.tables.ConversationStep id s.relationship s'.tables := by
  cases i with
  | transition snapshot command context =>
    obtain ⟨manifest, hmanifest, h⟩ := bind_eq_ok.mp h
    cases h
    exact .inl ⟨transition_advances (mapError_eq_ok.mp hmanifest), rfl⟩
  | receiveNativeRequest snapshot incoming context =>
    obtain ⟨manifest, hmanifest, h⟩ := bind_eq_ok.mp h
    cases h
    cases manifest with
    | none => exact .inl ⟨.refl _, rfl⟩
    | some manifest => exact .inl ⟨receiveNativeRequest_advances (mapError_eq_ok.mp hmanifest), rfl⟩
  | acceptExpressLane snapshot lane context =>
    obtain ⟨manifest, hmanifest, h⟩ := bind_eq_ok.mp h
    cases h
    exact .inl ⟨acceptExpressLane_advances (mapError_eq_ok.mp hmanifest), rfl⟩
  | external call =>
    obtain ⟨⟨tables, r⟩, hcall, h⟩ := bind_eq_ok.mp h
    cases h
    exact .inr ⟨rfl, ExternalTables.call_conversation (mapError_eq_ok.mp hcall)⟩

omit [ExternalJson] in
/-- A pending invitation is never ahead of the relationship. -/
def Sound (id : ConversationId) (s : InvitationState) : Prop :=
  ∀ c, s.conversation id = some c → ∀ version, c.invitation = .pending version →
    version ≤ s.relationship.version

theorem Sound.step {i : InvitationInput} (hs : s.Sound id) (h : step id s i = .ok s') : s'.Sound id := by
  rcases step_eq_ok h with ⟨hadvances, htables⟩ | ⟨hsame, hstep⟩
  · intro c hc version hversion
    rw [conversation, htables] at hc
    exact (hs c hc version hversion).trans hadvances.le
  · rw [Sound, hsame]
    cases hstep with
    | kept hkept =>
      intro c hc
      rw [conversation, hkept] at hc
      exact hs c hc
    | followed hrow hrow' hfollows =>
      intro c hc version hversion
      rw [conversation, hrow'] at hc
      cases hc
      rcases hfollows.invitation with hinvitation | ⟨time, hrejected⟩
      · exact hs _ (by rw [conversation, hrow]; rfl) version (hinvitation ▸ hversion)
      · cases hrejected.symm.trans hversion
    | opened _ hrow' hpending =>
      intro c hc version hversion
      rw [conversation, hrow'] at hc
      cases hc
      exact (hpending version hversion).le

/-- The conversation is there, and its invitation has lapsed. -/
structure Lapsed (id : ConversationId) (s : InvitationState) : Prop where
  sound : s.Sound id
  lapsed : ∃ c, s.conversation id = some c ∧ c.pendingAccess s.relationship = false

omit [ExternalJson] in
/-- What the relationship and the invitation have to be for pending access. -/
theorem pendingAccess_eq_true {c : ExternalConversation} {r : Relationship} : c.pendingAccess r = true ↔
    r.key.sender = c.guest ∧ r.key.recipient = c.member ∧ r.state ≠ .blocked ∧
      c.invitation = .pending r.version := decide_eq_true_iff

theorem Lapsed.step {i : InvitationInput} (hs : s.Lapsed id) (h : step id s i = .ok s') : s'.Lapsed id := by
  refine ⟨hs.sound.step h, ?_⟩
  obtain ⟨c, hc, hlapsed⟩ := hs.lapsed
  rw [← Bool.not_eq_true, pendingAccess_eq_true] at hlapsed
  rcases step_eq_ok h with ⟨hadvances, htables⟩ | ⟨hsame, hstep⟩
  · refine ⟨c, by rw [conversation, htables]; exact hc, ?_⟩
    rw [← Bool.not_eq_true, pendingAccess_eq_true, hadvances.key]
    rintro ⟨hsender, hrecipient, hblocked, hpending⟩
    rcases hadvances.version with ⟨hversion, hstate⟩ | hlt
    · exact hlapsed ⟨hsender, hrecipient, hstate ▸ hblocked, hversion ▸ hpending⟩
    · exact absurd (hs.sound c hc _ hpending) (not_le.mpr hlt)
  · rw [hsame]
    cases hstep with
    | kept hkept =>
      refine ⟨c, by rw [conversation, hkept]; exact hc, ?_⟩
      rwa [← Bool.not_eq_true, pendingAccess_eq_true]
    | @followed row row' hrow hrow' hfollows =>
      rw [conversation, hrow] at hc
      cases hc
      refine ⟨row'.conversation, by rw [conversation, hrow']; rfl, ?_⟩
      rw [← Bool.not_eq_true, pendingAccess_eq_true, hfollows.guest, hfollows.member]
      rintro ⟨hsender, hrecipient, hblocked, hpending⟩
      rcases hfollows.invitation with hinvitation | ⟨time, hrejected⟩
      · exact hlapsed ⟨hsender, hrecipient, hblocked, hinvitation ▸ hpending⟩
      · cases hrejected.symm.trans hpending
    | opened hnone =>
      rw [conversation, hnone] at hc
      cases hc

end InvitationState

/-! ### What is admitted without a lane -/

section
variable [Crypto]

end

/-! ### Lapsed invitations -/

namespace InvitationState
variable [Crypto] [ExternalJson]

end InvitationState
end CsMail
