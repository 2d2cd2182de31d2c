import CsMail.External.Store
import CsMail.Library.Machine

/-! What one transaction does to the messages and deliveries of external conversations.

A message is stored once and never changes; a delivery moves along its lifecycle, and each
move shows in the result of the transaction (`ExternalDelivery.Change`). -/
namespace CsMail
open Library

/-! ### Results -/

namespace ExternalResult
variable [Crypto]

/-- The message that was handed over. -/
def handedMessage : ExternalResult → Option MessageId
  | handed dispatch => some dispatch.message.message
  | _ => none

/-- The message that was queued, in its conversation. -/
def queued : ExternalResult → Option (ConversationId × MessageId)
  | recorded request ⟨_, _, _, _, .queued message⟩ => some (request.conversation, message)
  | _ => none

/-- The conversation whose disclosure was withdrawn. -/
def withdrawn : ExternalResult → Option ConversationId
  | recorded request ⟨_, _, _, _, .disclosureWithdrawn⟩ => some request.conversation
  | _ => none

end ExternalResult

/-! ### Deliveries -/

/-- The delivery is over, one way or another. -/
def DeliveryState.isFinal : DeliveryState → Bool
  | cancelled _ | accepted _ _ | failed _ => true
  | waiting | dispatchBegun _ => false

namespace DeliveryState
variable {d d' : DeliveryState} {reference : Option ProviderReference} {now : CanonicalTime}

theorem cancel_of_ne (h : d ≠ waiting) : d.cancel now = d := if_neg h

theorem begin_eq_ok (h : d.begin now = .ok d') : d = waiting ∧ d' = dispatchBegun now := by
  unfold begin at h
  split_ifs at h with hwaiting
  cases h
  exact ⟨not_not.mp hwaiting, rfl⟩

/-- A handoff finishes once; finishing it again the same way changes nothing. -/
theorem finish_eq_ok (h : d.finish reference now = .ok d') :
    (∃ time, d = dispatchBegun time) ∧ d'.isFinal = true ∨ d' = d ∧ d.isFinal = true := by
  unfold finish at h
  split at h
  · split_ifs at h
    cases h
    exact .inl ⟨⟨_, rfl⟩, rfl⟩
  · split_ifs at h
    cases h
    exact .inl ⟨⟨_, rfl⟩, rfl⟩
  · split_ifs at h
    cases h
    exact .inr ⟨rfl, rfl⟩
  · split_ifs at h
    cases h
    exact .inr ⟨rfl, rfl⟩
  · cases h

end DeliveryState

/-! ### Conversations -/

/-- What a member's command leaves of a conversation: between whom it is, and its invitation
unless the command rejects it. -/
structure ExternalConversation.Follows [Crypto] (c c' : ExternalConversation) : Prop where
  conversation : c'.record.conversation = c.record.conversation
  member : c'.member = c.member
  guest : c'.guest = c.guest
  receivingAlias : c'.record.receivingAlias = c.record.receivingAlias
  mailbox : c'.record.mailbox = c.record.mailbox
  invitation : c'.invitation = c.invitation ∨ ∃ time, c'.invitation = .rejected time

namespace ExternalConversation
variable [Crypto] {c c' : ExternalConversation} {actor : ProtocolIdentity} {now : CanonicalTime}

theorem Follows.refl (c : ExternalConversation) : c.Follows c := ⟨rfl, rfl, rfl, rfl, rfl, .inl rfl⟩

theorem grantDisclosure_eq_ok (h : c.grantDisclosure actor now = .ok c') : c.Follows c' ∧ actor = c.member := by
  unfold grantDisclosure at h
  split_ifs at h with hallowed
  split at h
  · cases h
  · cases h
    exact ⟨⟨rfl, rfl, rfl, rfl, rfl, .inl rfl⟩, not_not.mp fun hne => hallowed (.inl hne)⟩

theorem reject_eq_ok {relationship : Relationship} (h : c.reject actor relationship now = .ok c') :
    c.Follows c' ∧ c'.invitation = .rejected now := by
  unfold reject at h
  split_ifs at h
  cases h
  exact ⟨⟨rfl, rfl, rfl, rfl, rfl, .inr ⟨now, rfl⟩⟩, rfl⟩

theorem withdraw_eq_ok (h : c.withdraw actor now = .ok c') :
    c.Follows c' ∧ c'.disclosure.permitsDispatch = false := by
  unfold withdraw at h
  split_ifs at h
  split at h
  · cases h
  · next disclosure hdisclosure =>
    cases h
    refine ⟨⟨rfl, rfl, rfl, rfl, rfl, .inl rfl⟩, ?_⟩
    show disclosure.permitsDispatch = false
    unfold DisclosureConsent.withdraw at hdisclosure
    split_ifs at hdisclosure
    cases hc : c.disclosure <;> rw [hc] at hdisclosure <;> cases hdisclosure <;> rfl

theorem disclosing_eq_ok {disclose : Bool} (h : c.disclosing disclose actor now = .ok c') : c.Follows c' := by
  unfold disclosing at h
  split_ifs at h
  · exact (grantDisclosure_eq_ok h).1
  · cases h
    exact .refl c

theorem start_eq_ok {id : ConversationId} {member : ProtocolIdentity} {receivingAlias : AliasId}
    {mailbox : GuestMailbox} {deployment : Bytes32} {relationship : Relationship}
    (h : start id member receivingAlias mailbox deployment relationship now = .ok c) :
    c.id = id ∧ c.member = member ∧ c.guest = relationship.key.sender ∧ relationship.key.recipient = member ∧
      ∀ version, c.invitation = .pending version → version = relationship.version := by
  obtain ⟨⟨⟩, hallowed, h⟩ := bind_eq_ok.mp h
  obtain ⟨scope, -, h⟩ := bind_eq_ok.mp h
  have hrecord := ExternalRecord.toExternal_eq_ok h
  obtain ⟨hsender, hrecipient, -⟩ := not_or.mp (refuseIf_eq_ok.mp hallowed) |>.imp_right not_or.mp
  refine ⟨congrArg (·.conversation.id) hrecord, congrArg (·.member) hrecord, ?_, not_not.mp hrecipient,
    fun version hversion => ?_⟩
  · show c.record.guest = _
    rw [hrecord]
    exact (not_not.mp hsender).symm
  · have hinvitation := (congrArg (·.invitation) hrecord).symm.trans hversion
    dsimp only at hinvitation
    split at hinvitation <;> cases hinvitation
    all_goals rfl

end ExternalConversation

/-! ### Mutations -/

/-- What a mutation has decided. -/
structure ExternalMutated [Crypto] (request : SignedExternalCommand) (c : ExternalContext)
    (changes : ExternalChanges) (outcome : ExternalOutcome) : Prop where
  delivery : changes.delivery = request.command.message
  queued : ∀ id, outcome = .queued id ↔ ∃ p, request.command.message = some p ∧ p.manifest.message = id
  withdrawn : outcome = .disclosureWithdrawn ↔ changes.cancelWaiting = true
  follows : ∀ old, c.conversation = some old → old.Follows changes.conversation
  opened : c.conversation = none → changes.conversation.member = request.persona

/-- A command on a conversation that is there. -/
theorem ExternalMutated.of_existing [Crypto] {request : SignedExternalCommand} {c : ExternalContext}
    {changes : ExternalChanges} {outcome : ExternalOutcome} {old : ExternalConversation}
    (hold : okOr c.conversation CorrespondenceError.unavailable = .ok old)
    (hfollows : old.Follows changes.conversation) (hdelivery : changes.delivery = request.command.message)
    (hqueued : ∀ id, outcome = .queued id ↔ ∃ p, request.command.message = some p ∧ p.manifest.message = id)
    (hwithdrawn : outcome = .disclosureWithdrawn ↔ changes.cancelWaiting = true) :
    ExternalMutated request c changes outcome where
  delivery := hdelivery
  queued := hqueued
  withdrawn := hwithdrawn
  follows := fun old' hold' => by
    cases (okOr_eq_ok.mp hold).symm.trans hold'
    exact hfollows
  opened := fun hnone => by cases (okOr_eq_ok.mp hold).symm.trans hnone

theorem externalMutation_eq_ok [Crypto] {request : SignedExternalCommand} {c : ExternalContext}
    {now : CanonicalTime} {changes : ExternalChanges} {outcome : ExternalOutcome}
    (h : externalMutation request c now = .ok (changes, outcome)) :
    ExternalMutated request c changes outcome := by
  unfold externalMutation at h
  split at h
  next receivingAlias mailbox message disclose hcommand =>
    obtain ⟨inbox, -, h⟩ := bind_eq_ok.mp h
    obtain ⟨⟨⟩, -, h⟩ := bind_eq_ok.mp h
    obtain ⟨⟨⟩, -, h⟩ := bind_eq_ok.mp h
    obtain ⟨⟨⟩, hnew, h⟩ := bind_eq_ok.mp h
    obtain ⟨⟨⟩, -, h⟩ := bind_eq_ok.mp h
    obtain ⟨conversation, hstart, h⟩ := bind_eq_ok.mp h
    cases h
    refine ⟨by rw [hcommand]; rfl, fun id => ?_, by simp, fun old hold => ?_, fun _ => ?_⟩
    · simp [hcommand, ExternalCommand.message]
    · exact absurd (by rw [hold]; rfl) (refuseIf_eq_ok.mp hnew)
    · exact (ExternalConversation.start_eq_ok hstart).2.1
  next message disclose hcommand =>
    obtain ⟨old, hold, h⟩ := bind_eq_ok.mp h
    obtain ⟨conversation, hdisclosing, h⟩ := bind_eq_ok.mp h
    obtain ⟨⟨⟩, -, h⟩ := bind_eq_ok.mp h
    obtain ⟨⟨⟩, -, h⟩ := bind_eq_ok.mp h
    cases h
    refine .of_existing hold (ExternalConversation.disclosing_eq_ok hdisclosing) (by rw [hcommand]; rfl)
      (fun id => ?_) (by simp)
    simp [hcommand, ExternalCommand.message]
  next hcommand =>
    obtain ⟨old, hold, h⟩ := bind_eq_ok.mp h
    obtain ⟨conversation, hreject, h⟩ := bind_eq_ok.mp h
    cases h
    refine .of_existing hold (ExternalConversation.reject_eq_ok hreject).1 (by rw [hcommand]; rfl)
      (fun id => ?_) (by simp)
    simp [hcommand, ExternalCommand.message]
  next hcommand =>
    obtain ⟨old, hold, h⟩ := bind_eq_ok.mp h
    obtain ⟨conversation, hwithdraw, h⟩ := bind_eq_ok.mp h
    cases h
    refine .of_existing hold (ExternalConversation.withdraw_eq_ok hwithdraw).1 (by rw [hcommand]; rfl)
      (fun id => ?_) (by simp)
    simp [hcommand, ExternalCommand.message]
  next hcommand =>
    obtain ⟨⟨⟩, -, h⟩ := bind_eq_ok.mp h
    obtain ⟨old, hold, h⟩ := bind_eq_ok.mp h
    obtain ⟨conversation, hgrant, h⟩ := bind_eq_ok.mp h
    cases h
    refine .of_existing hold (ExternalConversation.grantDisclosure_eq_ok hgrant).1 (by rw [hcommand]; rfl)
      (fun id => ?_) (by simp)
    simp [hcommand, ExternalCommand.message]

/-- What a transaction does to the delivery of a message. -/
inductive ExternalDelivery.Change [Crypto] (id : MessageId) (r : ExternalResult) (d : ExternalDelivery) :
    ExternalDelivery → Prop
  | kept : r.handedMessage ≠ some id → Change id r d d
  | cancelled {time : CanonicalTime} : d.state = .waiting → r.handedMessage ≠ some id →
      Change id r d {d with state := .cancelled time}
  | handed {time : CanonicalTime} : d.state = .waiting → r.handedMessage = some id →
      Change id r d {d with state := .dispatchBegun time}
  | finished {time : CanonicalTime} {state : DeliveryState} : d.state = .dispatchBegun time →
      state.isFinal = true → r.handedMessage ≠ some id → Change id r d {d with state}

namespace ExternalDelivery.Change
variable [Crypto] {id : MessageId} {r : ExternalResult} {d d' : ExternalDelivery}

/-- Nothing waits again. -/
theorem not_waiting (h : d.Change id r d') (hd : d.state ≠ .waiting) : d'.state ≠ .waiting := by
  cases h with
  | kept => exact hd
  | cancelled hwaiting | handed hwaiting => exact absurd hwaiting hd
  | finished _ hfinal =>
    rintro ⟨⟩
    cases hfinal

theorem of_handed (h : d.Change id r d') (hr : r.handedMessage = some id) :
    d.state = .waiting ∧ d'.state ≠ .waiting := by
  cases h with
  | kept hnot | cancelled _ hnot | finished _ _ hnot => exact absurd hr hnot
  | handed hwaiting => exact ⟨hwaiting, DeliveryState.noConfusion⟩

theorem same (h : d.Change id r d') : d'.account = d.account ∧ d'.key = d.key ∧ d'.relayCopy = d.relayCopy := by
  cases h <;> exact ⟨rfl, rfl, rfl⟩

end ExternalDelivery.Change

/-! ### Transactions -/

namespace ExternalTables
variable [Crypto] {t t' : ExternalTables} {r : ExternalResult}

/-- A delivery that was not there: a message a recorded command has queued. -/
structure New (t : ExternalTables) (r : ExternalResult) (t' : ExternalTables) (id : MessageId)
    (d : ExternalDelivery) : Prop where
  waits : d.state = .waiting
  fresh : t.messages.get? id = none
  recorded : ∃ request receipt p, r = .recorded request receipt ∧ receipt.outcome = .queued id ∧
    request.command.message = some p ∧ d.account = request.account ∧ d.key = request.key ∧
    d.relayCopy = p.relayCopy ∧
    ∃ m row, t'.messages.get? id = some m ∧ m.fields.manifest = p.manifest ∧
      m.fields.memberCopy = p.memberCopy ∧ m.fields.manifest.conversation = request.conversation ∧
      t'.conversations.get? request.conversation = some row ∧ row.conversation.member = request.persona

/-- What a transaction does to the tables. -/
structure Change (t : ExternalTables) (r : ExternalResult) (t' : ExternalTables) : Prop where
  conversations : ∀ id row, t.conversations.get? id = some row →
    ∃ row', t'.conversations.get? id = some row' ∧ row'.account = row.account ∧
      row'.conversation.member = row.conversation.member
  messages : ∀ id m, t.messages.get? id = some m → t'.messages.get? id = some m
  deliveries : ∀ id d, t.deliveries.get? id = some d → ∃ d', t'.deliveries.get? id = some d' ∧ d.Change id r d'
  added : ∀ id d, t.deliveries.get? id = none → t'.deliveries.get? id = some d → t.New r t' id d
  queued : ∀ c id, r.queued = some (c, id) → t.deliveries.get? id = none ∧
    (∃ d, t'.deliveries.get? id = some d) ∧ t'.belongs c id = true
  handed : ∀ id, r.handedMessage = some id → ∃ d, t.deliveries.get? id = some d
  withdrawn : ∀ c id d, r.withdrawn = some c → t'.belongs c id = true → t'.deliveries.get? id = some d →
    d.state ≠ .waiting

/-- A transaction that leaves messages and deliveries alone. -/
theorem Change.of_untouched (hmessages : t'.messages = t.messages) (hdeliveries : t'.deliveries = t.deliveries)
    (hconversations : ∀ id row, t.conversations.get? id = some row →
      ∃ row', t'.conversations.get? id = some row' ∧ row'.account = row.account ∧
        row'.conversation.member = row.conversation.member)
    (hqueued : r.queued = none) (hhanded : r.handedMessage = none) (hwithdrawn : r.withdrawn = none) :
    Change t r t' where
  conversations := hconversations
  messages := fun id m h => hmessages ▸ h
  deliveries := fun id d h => ⟨d, hdeliveries ▸ h, .kept (hhanded ▸ (Option.some_ne_none id).symm)⟩
  added := fun id d hnone hsome => by
    rw [hdeliveries, hnone] at hsome
    cases hsome
  queued := fun c id h => by rw [hqueued] at h; cases h
  handed := fun id h => by rw [hhanded] at h; cases h
  withdrawn := fun c id d h => by rw [hwithdrawn] at h; cases h

theorem inbound_change {id : ConversationId} {account : AccountId} {member : ProtocolIdentity}
    {receivingAlias : AliasId} {mailbox : GuestMailbox} {deployment : Bytes32}
    {relationship : Relationship} {now : CanonicalTime}
    (h : t.inbound id account member receivingAlias mailbox deployment relationship now = .ok t') :
    Change t (.opened id) t' := by
  obtain ⟨conversation, -, h⟩ := bind_eq_ok.mp h
  obtain ⟨⟨⟩, hnew, h⟩ := bind_eq_ok.mp h
  cases h
  refine .of_untouched rfl rfl (fun i row hrow => ⟨row, ?_, rfl, rfl⟩) rfl rfl rfl
  refine (SortedMap.get?_insert_ne _ _ fun heq => ?_).trans hrow
  exact refuseIf_eq_ok.mp hnew (SortedMap.contains_eq_true.mpr ⟨row, heq ▸ hrow⟩)

theorem receive_change {message : ExternalMessage} (h : t.receive message = .ok t') :
    Change t (.received message.message) t' := by
  obtain ⟨⟨⟩, hnew, h⟩ := bind_eq_ok.mp h
  cases h
  have hmessages : ∀ id m, t.messages.get? id = some m →
      (t.messages.insert message.message message).get? id = some m := fun id m hm => by
    refine (SortedMap.get?_insert_ne _ _ fun heq => ?_).trans hm
    exact refuseIf_eq_ok.mp hnew (.inr (SortedMap.contains_eq_true.mpr ⟨m, heq ▸ hm⟩))
  exact {
    conversations := fun id row hrow => ⟨row, hrow, rfl, rfl⟩
    messages := hmessages
    deliveries := fun id d hd => ⟨d, hd, .kept (Option.some_ne_none id).symm⟩
    added := fun id d hnone hsome => by
      rw [hnone] at hsome
      cases hsome
    queued := fun c id h => by cases h
    handed := fun id h => by cases h
    withdrawn := fun c id d h => by cases h}

/-- A transaction that moves one delivery. -/
theorem Change.of_setState {id : MessageId} {d : ExternalDelivery} {state : DeliveryState}
    (hd : t.deliveries.get? id = some d) (hchange : d.Change id r {d with state})
    (hothers : ∀ i, i ≠ id → r.handedMessage ≠ some i) (hqueued : r.queued = none)
    (hwithdrawn : r.withdrawn = none) (hconversations : t'.conversations = t.conversations)
    (hmessages : t'.messages = t.messages)
    (hdeliveries : t'.deliveries = (t.setState id d state).deliveries) : Change t r t' where
  conversations := fun i row hrow => ⟨row, hconversations ▸ hrow, rfl, rfl⟩
  messages := fun i m hm => hmessages ▸ hm
  deliveries := fun i di hi => by
    rw [hdeliveries]
    by_cases heq : i = id
    · subst heq
      cases hd.symm.trans hi
      exact ⟨_, SortedMap.get?_insert_self .., hchange⟩
    · exact ⟨di, (SortedMap.get?_insert_ne _ _ heq).trans hi, .kept (hothers i heq)⟩
  added := fun i di hnone hsome => by
    rw [hdeliveries] at hsome
    have hne : i ≠ id := fun heq => by
      rw [heq, hd] at hnone
      cases hnone
    rw [setState, SortedMap.get?_insert_ne _ _ hne, hnone] at hsome
    cases hsome
  queued := fun c i h => by
    rw [hqueued] at h
    cases h
  handed := fun i h => by
    by_cases heq : i = id
    · exact ⟨d, heq ▸ hd⟩
    · exact absurd h (hothers i heq)
  withdrawn := fun c i di h => by
    rw [hwithdrawn] at h
    cases h

/-! ### Deliveries -/

theorem delivery_eq_ok {id : MessageId} {m : ExternalMessage} {d : ExternalDelivery} {row : ConversationRow}
    (h : t.delivery id = .ok (m, d, row)) : t.messages.get? id = some m ∧ t.deliveries.get? id = some d ∧
      t.conversations.get? m.fields.manifest.conversation = some row := by
  obtain ⟨m', hm, h⟩ := bind_eq_ok.mp h
  obtain ⟨d', hd, h⟩ := bind_eq_ok.mp h
  obtain ⟨row', hrow, h⟩ := bind_eq_ok.mp h
  cases h
  exact ⟨okOr_eq_ok.mp hm, okOr_eq_ok.mp hd, okOr_eq_ok.mp hrow⟩

end ExternalTables

/-- A hand-over is decided once, for waiting work whose authority is live. -/
theorem DispatchContext.beginDispatch_eq_ok [Crypto] {c : DispatchContext} {now : CanonicalTime}
    {next : DeliveryState} {dispatch : Option ExternalDispatch}
    (h : c.beginDispatch now = .ok (next, dispatch)) : c.state = .waiting ∧
      (c.live now = true ∧ next = .dispatchBegun now ∧ dispatch = some ⟨c.conversation, c.message, c.relayCopy⟩ ∨
        next = .cancelled now ∧ dispatch = none) := by
  obtain ⟨⟨⟩, hstate, h⟩ := bind_eq_ok.mp h
  obtain ⟨⟨⟩, -, h⟩ := bind_eq_ok.mp h
  obtain ⟨⟨⟩, -, h⟩ := bind_eq_ok.mp h
  obtain ⟨⟨⟩, -, h⟩ := bind_eq_ok.mp h
  have hwaiting : c.state = .waiting := not_not.mp (refuseIf_eq_ok.mp hstate)
  refine ⟨hwaiting, ?_⟩
  by_cases hlive : c.live now = true
  · rw [if_pos hlive] at h
    obtain ⟨state, hbegin, h⟩ := bind_eq_ok.mp h
    cases h
    exact .inl ⟨hlive, (DeliveryState.begin_eq_ok hbegin).2, rfl⟩
  · rw [if_neg hlive] at h
    cases h
    exact .inr ⟨if_pos hwaiting, rfl⟩

namespace ExternalTables
variable [Crypto] {t t' : ExternalTables} {r : ExternalResult}

/-- What a transaction at the dispatch boundary found. -/
structure Dispatching (t : ExternalTables) (id : MessageId) (facts : ExternalFacts) (now : CanonicalTime)
    (r : ExternalResult) (t' : ExternalTables) (m : ExternalMessage) (d : ExternalDelivery)
    (row : ConversationRow) : Prop where
  message : t.messages.get? id = some m
  delivery : t.deliveries.get? id = some d
  conversation : t.conversations.get? m.fields.manifest.conversation = some row
  named : m.message = id
  waits : d.state = .waiting
  outcome : (dispatchContext facts m d row).live now = true ∧
      r = .handed ⟨row.conversation, m, d.relayCopy⟩ ∧ t' = t.setState id d (.dispatchBegun now) ∨
    r = .withheld id ∧ t' = t.setState id d (.cancelled now)

theorem beginDispatch_eq_ok {id : MessageId} {facts : ExternalFacts} {now : CanonicalTime}
    (h : t.beginDispatch id facts now = .ok (t', r)) : ∃ m d row, t.Dispatching id facts now r t' m d row := by
  obtain ⟨⟨m, d, row⟩, hdelivery, h⟩ := bind_eq_ok.mp h
  obtain ⟨⟨⟩, -, h⟩ := bind_eq_ok.mp h
  obtain ⟨⟨⟩, hnamed, h⟩ := bind_eq_ok.mp h
  obtain ⟨⟨next, dispatch⟩, hbegin, h⟩ := bind_eq_ok.mp h
  obtain ⟨hm, hd, hrow⟩ := delivery_eq_ok (mapError_eq_ok.mp hdelivery)
  obtain ⟨hwaiting, houtcome⟩ := DispatchContext.beginDispatch_eq_ok (mapError_eq_ok.mp hbegin)
  refine ⟨m, d, row, hm, hd, hrow, not_not.mp (refuseIf_eq_ok.mp hnamed), hwaiting, ?_⟩
  rcases houtcome with ⟨hlive, rfl, rfl⟩ | ⟨rfl, rfl⟩ <;> cases h
  · exact .inl ⟨hlive, rfl, rfl⟩
  · exact .inr ⟨rfl, rfl⟩

theorem beginDispatch_change {id : MessageId} {facts : ExternalFacts} {now : CanonicalTime}
    (h : t.beginDispatch id facts now = .ok (t', r)) : Change t r t' := by
  obtain ⟨m, d, row, hdispatch⟩ := beginDispatch_eq_ok h
  rcases hdispatch.outcome with ⟨-, rfl, rfl⟩ | ⟨rfl, rfl⟩
  · refine .of_setState hdispatch.delivery (.handed hdispatch.waits ?_) (fun i hne heq => ?_) rfl rfl rfl rfl rfl
    · exact congrArg some hdispatch.named
    · exact hne (Option.some.inj (heq.symm.trans (congrArg some hdispatch.named)))
  · exact .of_setState hdispatch.delivery (.cancelled hdispatch.waits (Option.some_ne_none id).symm)
      (fun i _ => (Option.some_ne_none i).symm) rfl rfl rfl rfl rfl

/-- A handoff that was reconciled. -/
theorem Change.of_finish {id : MessageId} {d : ExternalDelivery} {state : DeliveryState}
    {reference : Option ProviderReference} {now : CanonicalTime} (hd : t.deliveries.get? id = some d)
    (hfinish : d.state.finish reference now = .ok state) (hconversations : t'.conversations = t.conversations)
    (hmessages : t'.messages = t.messages)
    (hdeliveries : t'.deliveries = (t.setState id d state).deliveries) :
    Change t (.finished id reference) t' := by
  refine .of_setState hd ?_ (fun i _ => (Option.some_ne_none i).symm) rfl rfl hconversations hmessages hdeliveries
  rcases DeliveryState.finish_eq_ok hfinish with ⟨⟨time, hbegun⟩, hfinal⟩ | ⟨rfl, -⟩
  · exact .finished hbegun hfinal (Option.some_ne_none id).symm
  · exact .kept (Option.some_ne_none id).symm

theorem finishDispatch_change {id : MessageId} {accepted : Option ProviderReference} {now : CanonicalTime}
    (h : t.finishDispatch id accepted now = .ok (t', r)) : Change t r t' := by
  obtain ⟨d, hd, h⟩ := bind_eq_ok.mp h
  obtain ⟨targets, -, h⟩ := bind_eq_ok.mp h
  obtain ⟨next, hfinish, h⟩ := bind_eq_ok.mp h
  cases h
  exact .of_finish (okOr_eq_ok.mp hd) (mapError_eq_ok.mp hfinish) rfl rfl rfl

theorem providerFeedback_change {event : ProviderEvent} {now : CanonicalTime}
    (h : t.providerFeedback event now = .ok (t', r)) : Change t r t' := by
  unfold providerFeedback at h
  split at h
  · obtain ⟨⟨⟩, -, h⟩ := bind_eq_ok.mp h
    cases h
    exact .of_untouched rfl rfl (fun id row hrow => ⟨row, hrow, rfl, rfl⟩) rfl rfl rfl
  · obtain ⟨⟨m, d, row⟩, hdelivery, h⟩ := bind_eq_ok.mp h
    obtain ⟨eventTargets, -, h⟩ := bind_eq_ok.mp h
    obtain ⟨referenceTargets, -, h⟩ := bind_eq_ok.mp h
    obtain ⟨next, hfeedback, h⟩ := bind_eq_ok.mp h
    cases h
    obtain ⟨⟨⟩, -, hfinish⟩ := bind_eq_ok.mp (mapError_eq_ok.mp hfeedback)
    exact .of_finish (delivery_eq_ok (mapError_eq_ok.mp hdelivery)).2.1 hfinish rfl rfl rfl

end ExternalTables

/-! ### Commands -/

theorem recordedMutation_eq_ok [Crypto]
    {mutation : Except CorrespondenceError (ExternalChanges × ExternalOutcome)}
    {changes : Option ExternalChanges} {outcome : ExternalOutcome}
    (h : recordedMutation mutation = .ok (changes, outcome)) :
    (∃ c, changes = some c ∧ mutation = .ok (c, outcome)) ∨
      changes = none ∧ ∃ e, mutation = .error e ∧ outcome = .refused e := by
  unfold recordedMutation at h
  split at h <;> cases h
  · exact .inl ⟨_, rfl, rfl⟩
  · exact .inr ⟨rfl, _, rfl, rfl⟩

/-- What a decision without a prior receipt has stored. -/
structure ExternalDecided [Crypto] (request : SignedExternalCommand) (c : ExternalContext) (now : CanonicalTime)
    (receipt : ExternalReceipt) (effects : ExternalEffects) : Prop where
  stored : effects.receipt = receipt
  time : receipt.time = now
  own : ∀ conversation, c.conversation = some conversation → conversation.member = request.persona
  outcome : (∃ changes, effects.changes = some changes ∧
      externalMutation request c now = .ok (changes, receipt.outcome)) ∨
    effects.changes = none ∧ ∃ e, receipt.outcome = .refused e

theorem decideExternal_eq_ok [Crypto] [ExternalJson] {request : SignedExternalCommand} {c : ExternalContext}
    {now : CanonicalTime} {receipt : ExternalReceipt} {effects : Option ExternalEffects}
    (hprior : c.prior = none) (h : decideExternal request c now = .ok (receipt, effects)) :
    ∃ e, effects = some e ∧ ExternalDecided request c now receipt e := by
  obtain ⟨⟨⟩, -, h⟩ := bind_eq_ok.mp h
  rw [hprior] at h
  obtain ⟨⟨⟩, hown, h⟩ := bind_eq_ok.mp h
  obtain ⟨⟨changes, outcome⟩, hrecorded, h⟩ := bind_eq_ok.mp h
  obtain ⟨digest, -, h⟩ := bind_eq_ok.mp h
  cases h
  refine ⟨_, rfl, rfl, rfl, fun conversation hconversation => ?_, ?_⟩
  · by_contra hne
    refine refuseIf_eq_ok.mp hown ?_
    rw [hconversation]
    exact decide_eq_true hne
  · rcases recordedMutation_eq_ok hrecorded with ⟨changes, rfl, hmutation⟩ | ⟨rfl, e, -, rfl⟩
    · exact .inl ⟨changes, rfl, hmutation⟩
    · exact .inr ⟨rfl, e, rfl⟩

namespace ExternalTables
variable [Crypto] {t t' : ExternalTables} {r : ExternalResult}

theorem existing_eq_ok {request : SignedExternalCommand} {conversation : Option ExternalConversation}
    (h : t.existing request = .ok conversation) :
    (∃ row, t.conversations.get? request.conversation = some row ∧ conversation = some row.conversation ∧
      row.conversation.member = request.persona ∧ row.account = request.account) ∨
    t.conversations.get? request.conversation = none ∧ conversation = none ∧ request.command.isStart = true := by
  unfold existing at h
  split at h
  next row hrow =>
    split_ifs at h with hown
    cases h
    exact .inl ⟨row, hrow, rfl, hown⟩
  next hrow =>
    split_ifs at h with hstart
    cases h
    exact .inr ⟨hrow, rfl, hstart⟩

/-- A conversation stays its member's and its account's when a command stores it again. -/
theorem upsertConversation_row {request : SignedExternalCommand} {conversation : ExternalConversation}
    {id : ConversationId} {row : ConversationRow} (hrow : t.conversations.get? id = some row)
    (hfollows : id = request.conversation → row.conversation.Follows conversation) :
    ∃ row', (t.upsertConversation request conversation).conversations.get? id = some row' ∧
      row'.account = row.account ∧ row'.conversation.member = row.conversation.member := by
  by_cases heq : id = request.conversation
  · refine ⟨⟨row.account, conversation⟩, ?_, rfl, (hfollows heq).member⟩
    subst heq
    rw [upsertConversation, SortedMap.get?_insert_self, hrow]
    rfl
  · exact ⟨row, (SortedMap.get?_insert_ne _ _ heq).trans hrow, rfl, rfl⟩

/-- What was queued is a new message, waiting under the request's key. -/
theorem enqueue_eq_ok {request : SignedExternalCommand} {p : PreparedMessage} {time : CanonicalTime}
    (h : t.enqueue request p time = .ok t') : ∃ m : ExternalMessage, m.fields.manifest = p.manifest ∧
      m.fields.memberCopy = p.memberCopy ∧ t.messages.get? p.manifest.message = none ∧
      t.deliveries.get? p.manifest.message = none ∧ p.manifest.conversation = request.conversation ∧
      t' = {t with
        messages := t.messages.insert p.manifest.message m
        deliveries := t.deliveries.insert p.manifest.message ⟨request.account, request.key, p.relayCopy, .waiting⟩} := by
  obtain ⟨m, hm, h⟩ := bind_eq_ok.mp h
  obtain ⟨⟨⟩, hnew, h⟩ := bind_eq_ok.mp h
  cases h
  have hfields := ExternalMessage.new_eq_ok (mapError_eq_ok.mp hm)
  have hid : m.message = p.manifest.message := congrArg (·.manifest.message) hfields
  have hmanifest : m.fields.manifest = p.manifest := congrArg (·.manifest) hfields
  rw [refuseIf_eq_ok, not_or, not_or, hid, hmanifest, Bool.not_eq_true, Bool.not_eq_true,
    SortedMap.contains_eq_false, SortedMap.contains_eq_false, not_not] at hnew
  obtain ⟨hmessage, hdelivery, hconversation⟩ := hnew
  exact ⟨m, hmanifest, congrArg (·.memberCopy) hfields, hmessage, hdelivery, hconversation, by rw [hid]⟩

/-- A command that has nothing to hand over. -/
theorem quiet_change {request : SignedExternalCommand} {changes : ExternalChanges} {receipt : ExternalReceipt}
    (hconversations : ∀ id row, t.conversations.get? id = some row →
      ∃ row', (t.upsertConversation request changes.conversation).conversations.get? id = some row' ∧
        row'.account = row.account ∧ row'.conversation.member = row.conversation.member)
    (hdelivery : changes.delivery = none) (hqueued : ∀ id, receipt.outcome ≠ .queued id)
    (hwithdrawn : receipt.outcome = .disclosureWithdrawn ↔ changes.cancelWaiting = true)
    (h : t.persistChanges request changes receipt.time = .ok t') : Change t (.recorded request receipt) t' := by
  obtain ⟨t₁, hstored, h⟩ := bind_eq_ok.mp h
  rw [hdelivery] at hstored
  cases hstored
  obtain ⟨digest, key, signature, time, outcome⟩ := receipt
  have hnot : (ExternalResult.recorded request ⟨digest, key, signature, time, outcome⟩).queued = none := by
    cases outcome with
    | queued id => exact absurd rfl (hqueued id)
    | rejected | disclosureWithdrawn | disclosureGranted | refused => rfl
  by_cases hcancel : changes.cancelWaiting = true
  · rw [if_pos hcancel] at h
    cases h
    have hbelongs : ∀ c id, (t.upsertConversation request changes.conversation).belongs c id = t.belongs c id :=
      fun _ _ => rfl
    refine {
      conversations := hconversations
      messages := fun id m hm => hm
      deliveries := fun id d hd => ?_
      added := fun id d hnone hsome => ?_
      queued := fun c id hc => ?_
      handed := fun id hid => by cases hid
      withdrawn := fun c id d hc hin hd => ?_}
    · refine ⟨_, (SortedMap.get?_map _ _ id).trans (congrArg _ hd), ?_⟩
      dsimp only
      split_ifs with hin
      · by_cases hwaiting : d.state = .waiting
        · rw [hwaiting]
          exact .cancelled hwaiting (Option.some_ne_none id).symm
        · rw [DeliveryState.cancel_of_ne hwaiting]
          exact .kept (Option.some_ne_none id).symm
      · exact .kept (Option.some_ne_none id).symm
    · rw [cancelWaiting, SortedMap.get?_map, upsertConversation, hnone] at hsome
      cases hsome
    · rw [hnot] at hc
      cases hc
    · cases hwithdrawn.mpr hcancel
      cases hc
      obtain ⟨d₀, -, hd⟩ := Option.map_eq_some_iff.mp ((SortedMap.get?_map _ _ id).symm.trans hd)
      rw [← hd]
      have hin' : t.belongs request.conversation id = true := hin
      rw [if_pos (show (t.upsertConversation request changes.conversation).belongs _ id = true from hin')]
      show d₀.state.cancel time ≠ .waiting
      by_cases hwaiting : d₀.state = .waiting
      · rw [hwaiting]
        exact DeliveryState.noConfusion
      · rwa [DeliveryState.cancel_of_ne hwaiting]
  · rw [if_neg hcancel] at h
    cases h
    refine .of_untouched rfl rfl hconversations hnot rfl ?_
    cases outcome with
    | disclosureWithdrawn => exact absurd (hwithdrawn.mp rfl) hcancel
    | queued | rejected | disclosureGranted | refused => rfl

/-- A command that queues a message. -/
theorem queueing_change {request : SignedExternalCommand} {changes : ExternalChanges} {receipt : ExternalReceipt}
    {p : PreparedMessage} (hconversations : ∀ id row, t.conversations.get? id = some row →
      ∃ row', (t.upsertConversation request changes.conversation).conversations.get? id = some row' ∧
        row'.account = row.account ∧ row'.conversation.member = row.conversation.member)
    (hdelivery : changes.delivery = some p) (hmessage : request.command.message = some p)
    (hmember : changes.conversation.member = request.persona)
    (houtcome : receipt.outcome = .queued p.manifest.message) (hcancel : changes.cancelWaiting = false)
    (h : t.persistChanges request changes receipt.time = .ok t') : Change t (.recorded request receipt) t' := by
  obtain ⟨t₁, hstored, h⟩ := bind_eq_ok.mp h
  rw [hdelivery] at hstored
  obtain ⟨m, hmanifest, hcopy, hnew, hnone, hown, rfl⟩ := enqueue_eq_ok hstored
  rw [hcancel] at h
  cases h
  obtain ⟨digest, key, signature, time, outcome⟩ := receipt
  cases houtcome
  have hbefore : ∀ {id} {m' : ExternalMessage}, t.messages.get? id = some m' → id ≠ p.manifest.message :=
    fun hm heq => by
      rw [heq] at hm
      cases hnew.symm.trans hm
  have hrow : (t.upsertConversation request changes.conversation).conversations.get? request.conversation =
      some ⟨((t.conversations.get? request.conversation).map ConversationRow.account).getD request.account,
        changes.conversation⟩ := SortedMap.get?_insert_self ..
  exact {
    conversations := hconversations
    messages := fun id m' hm => (SortedMap.get?_insert_ne _ _ (hbefore hm)).trans hm
    deliveries := fun id d hd => by
      refine ⟨d, (SortedMap.get?_insert_ne _ _ fun heq => ?_).trans hd, .kept (Option.some_ne_none id).symm⟩
      rw [heq] at hd
      cases hnone.symm.trans hd
    added := fun id d hwas hd => by
      rcases SortedMap.get?_insert_eq_some.mp hd with ⟨rfl, rfl⟩ | ⟨-, hd⟩
      · exact ⟨rfl, hnew, request, _, p, rfl, rfl, hmessage, rfl, rfl, rfl, m, _, SortedMap.get?_insert_self ..,
          hmanifest, hcopy, (congrArg (·.conversation) hmanifest).trans hown, hrow, hmember⟩
      · cases hwas.symm.trans hd
    queued := fun c id hq => by
      cases hq
      refine ⟨hnone, ⟨_, SortedMap.get?_insert_self ..⟩, ?_⟩
      show Option.any _ ((t.messages.insert p.manifest.message m).get? p.manifest.message) = true
      rw [SortedMap.get?_insert_self]
      exact decide_eq_true ((congrArg (·.conversation) hmanifest).trans hown)
    handed := fun id hid => by cases hid
    withdrawn := fun c id d hc => by cases hc}

theorem persistChanges_change {request : SignedExternalCommand} {c : ExternalContext} {changes : ExternalChanges}
    {receipt : ExternalReceipt} (hexisting : t.existing request = .ok c.conversation)
    (hown : ∀ conversation, c.conversation = some conversation → conversation.member = request.persona)
    (hmutated : ExternalMutated request c changes receipt.outcome)
    (h : t.persistChanges request changes receipt.time = .ok t') : Change t (.recorded request receipt) t' := by
  have hconversations : ∀ id row, t.conversations.get? id = some row →
      ∃ row', (t.upsertConversation request changes.conversation).conversations.get? id = some row' ∧
        row'.account = row.account ∧ row'.conversation.member = row.conversation.member := fun id row hrow => by
    refine upsertConversation_row hrow fun heq => ?_
    rcases existing_eq_ok hexisting with ⟨row', hrow', hconversation, -⟩ | ⟨hnone, -⟩
    · rw [heq, hrow'] at hrow
      cases hrow
      exact hmutated.follows _ hconversation
    · rw [heq, hnone] at hrow
      cases hrow
  have hmember : changes.conversation.member = request.persona := by
    cases hconversation : c.conversation with
    | some old => exact (hmutated.follows old hconversation).member.trans (hown old hconversation)
    | none => exact hmutated.opened hconversation
  cases hmessage : request.command.message with
  | some p =>
    have houtcome := (hmutated.queued _).mpr ⟨p, hmessage, rfl⟩
    refine queueing_change hconversations (hmutated.delivery.trans hmessage) hmessage hmember houtcome ?_ h
    rw [← Bool.not_eq_true, ← hmutated.withdrawn, houtcome]
    exact ExternalOutcome.noConfusion
  | none =>
    refine quiet_change hconversations (hmutated.delivery.trans hmessage) (fun id hid => ?_) hmutated.withdrawn h
    obtain ⟨p, hp, -⟩ := (hmutated.queued id).mp hid
    cases hmessage.symm.trans hp

variable [ExternalJson]

theorem transact_change {request : SignedExternalCommand} {facts : ExternalFacts} {began now : CanonicalTime}
    (h : t.transact request facts began now = .ok (t', r)) : Change t r t' := by
  have hsame : ∀ receipt, Change t (.replayed receipt) t := fun receipt =>
    .of_untouched rfl rfl (fun id row hrow => ⟨row, hrow, rfl, rfl⟩) rfl rfl rfl
  obtain ⟨⟨⟩, -, h⟩ := bind_eq_ok.mp h
  split at h
  · obtain ⟨receipt, -, h⟩ := bind_eq_ok.mp h
    cases h
    exact hsame receipt
  · obtain ⟨conversation, hexisting, h⟩ := bind_eq_ok.mp h
    obtain ⟨⟨receipt, effects⟩, hdecide, h⟩ := bind_eq_ok.mp h
    obtain ⟨e, rfl, hdecided⟩ := decideExternal_eq_ok rfl (mapError_eq_ok.mp hdecide)
    obtain ⟨t₂, hcommit, h⟩ := bind_eq_ok.mp h
    cases h
    obtain ⟨t₁, hpersist, hcommit⟩ := bind_eq_ok.mp hcommit
    cases hcommit
    have hchange : Change t (.recorded request receipt) t₁ := by
      rcases hdecided.outcome with ⟨changes, hchanges, hmutation⟩ | ⟨hnone, failure, hrefused⟩
      · rw [persistEffects, hchanges] at hpersist
        rw [hdecided.stored] at hpersist
        exact persistChanges_change (mapError_eq_ok.mp hexisting) hdecided.own
          (externalMutation_eq_ok hmutation) hpersist
      · rw [persistEffects, hnone] at hpersist
        cases hpersist
        obtain ⟨digest, key, signature, time, outcome⟩ := receipt
        cases hrefused
        exact .of_untouched rfl rfl (fun id row hrow => ⟨row, hrow, rfl, rfl⟩) rfl rfl rfl
    exact ⟨hchange.conversations, hchange.messages, hchange.deliveries, fun id d hnone hsome =>
      have hnew := hchange.added id d hnone hsome
      ⟨hnew.waits, hnew.fresh, hnew.recorded⟩, hchange.queued, hchange.handed, hchange.withdrawn⟩

/-- **One step.** What a transaction does to messages and deliveries shows in its result. -/
theorem call_change {c : ExternalCall} (h : t.call c = .ok (t', r)) : Change t r t' := by
  cases c with
  | inbound id account member receivingAlias mailbox deployment relationship now =>
    obtain ⟨t₁, hcall, h⟩ := map_eq_ok.mp h
    cases h
    exact inbound_change hcall
  | receive message =>
    obtain ⟨t₁, hcall, h⟩ := map_eq_ok.mp h
    cases h
    exact receive_change hcall
  | transact request facts began now => exact transact_change h
  | beginDispatch message facts now => exact beginDispatch_change h
  | finishDispatch message accepted now => exact finishDispatch_change h
  | providerFeedback event now => exact providerFeedback_change h

end ExternalTables
end CsMail
