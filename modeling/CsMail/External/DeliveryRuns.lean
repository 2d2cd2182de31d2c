import CsMail.External.StoreProofs

/-! External mail is handed over once, and only under live consent.

Whatever the order of commands, dispatches and reports, a queued message waits until it is
handed over or cancelled, and never again; a withdrawal leaves nothing of its conversation
waiting (`ExternalLog.Sound`). So a later grant releases only what is queued after it. -/
namespace CsMail
open Library

namespace ExternalLog
variable [Crypto] {b b' : ExternalLog} {id : MessageId}

/-- The messages handed over, the newest first. -/
def handedMessages (b : ExternalLog) : List MessageId := b.results.filterMap ExternalResult.handedMessage

/-- The signed command a delivery comes from, and what it prepared. -/
structure Signed (b : ExternalLog) (id : MessageId) (d : ExternalDelivery) (request : SignedExternalCommand)
    (p : PreparedMessage) : Prop where
  recorded : ∃ receipt, .recorded request receipt ∈ b.results ∧ receipt.outcome = .queued id
  prepared : request.command.message = some p
  account : d.account = request.account
  key : d.key = request.key
  relayCopy : d.relayCopy = p.relayCopy
  message : ∃ m, b.tables.messages.get? id = some m ∧ m.fields.manifest = p.manifest ∧
    m.fields.memberCopy = p.memberCopy ∧ m.fields.manifest.conversation = request.conversation
  member : ∃ row, b.tables.conversations.get? request.conversation = some row ∧
    row.conversation.member = request.persona

/-- The message was queued in the conversation by one of the results. -/
def QueuedIn (results : List ExternalResult) (c : ConversationId) (id : MessageId) : Prop :=
  ∃ q ∈ results, q.queued = some (c, id)

/-- What the tables owe the results so far. -/
structure Sound (b : ExternalLog) : Prop where
  queued : ∀ c id, QueuedIn b.results c id →
    b.tables.belongs c id = true ∧ ∃ d, b.tables.deliveries.get? id = some d
  handed : ∀ id ∈ b.handedMessages, ∃ d, b.tables.deliveries.get? id = some d ∧ d.state ≠ .waiting
  once : b.handedMessages.Nodup
  withdrawn : ∀ later w earlier c id, b.results = later ++ w :: earlier → w.withdrawn = some c →
    QueuedIn earlier c id → id ∉ later.filterMap ExternalResult.handedMessage ∧
      ∃ d, b.tables.deliveries.get? id = some d ∧ d.state ≠ .waiting
  signed : ∀ id d, b.tables.deliveries.get? id = some d → ∃ request p, b.Signed id d request p

variable [ExternalJson]

omit [ExternalJson] in
theorem new_sound : new.Sound where
  queued := fun c id h => by
    obtain ⟨q, hq, -⟩ := h
    cases hq
  handed := fun id h => by cases h
  once := List.nodup_nil
  withdrawn := fun later w earlier c id h => by cases later <;> cases h
  signed := fun id d h => by cases h

/-! ### One transaction -/

/-- What one more transaction has changed. -/
theorem call_eq_ok {c : ExternalCall} (h : b.call c = .ok b') : ∃ r, b'.results = r :: b.results ∧
    b.tables.call c = .ok (b'.tables, r) ∧ b.tables.Change r b'.tables := by
  obtain ⟨⟨t', r⟩, hcall, rfl⟩ := map_eq_ok.mp h
  exact ⟨r, rfl, hcall, ExternalTables.call_change hcall⟩

omit [ExternalJson] in
theorem belongs_mono {t t' : ExternalTables} {r : ExternalResult} {c : ConversationId} (h : t.Change r t')
    (hin : t.belongs c id = true) : t'.belongs c id = true := by
  obtain ⟨m, hm, hc⟩ := Option.any_eq_true .. |>.mp hin
  rw [ExternalTables.belongs, h.messages id m hm]
  exact hc

omit [ExternalJson] in
/-- What does not wait does not wait later. -/
theorem settled_mono {t t' : ExternalTables} {r : ExternalResult} (h : t.Change r t')
    (hd : ∃ d, t.deliveries.get? id = some d ∧ d.state ≠ .waiting) :
    ∃ d, t'.deliveries.get? id = some d ∧ d.state ≠ .waiting := by
  obtain ⟨d, hd, hstate⟩ := hd
  obtain ⟨d', hd', hchange⟩ := h.deliveries id d hd
  exact ⟨d', hd', hchange.not_waiting hstate⟩

omit [ExternalJson] in
/-- Only what waited is handed over, and then it waits no more. -/
theorem handed_once {t t' : ExternalTables} {r : ExternalResult} (h : t.Change r t')
    (hr : r.handedMessage = some id) : (∃ d, t.deliveries.get? id = some d ∧ d.state = .waiting) ∧
      ∃ d, t'.deliveries.get? id = some d ∧ d.state ≠ .waiting := by
  obtain ⟨d, hd⟩ := h.handed id hr
  obtain ⟨d', hd', hchange⟩ := h.deliveries id d hd
  obtain ⟨hwaiting, hnot⟩ := hchange.of_handed hr
  exact ⟨⟨d, hd, hwaiting⟩, d', hd', hnot⟩

omit [ExternalJson] in
theorem not_handed_of_settled {t t' : ExternalTables} {r : ExternalResult} (h : t.Change r t')
    (hd : ∃ d, t.deliveries.get? id = some d ∧ d.state ≠ .waiting) : r.handedMessage ≠ some id := by
  intro hr
  obtain ⟨⟨d, hd', hwaiting⟩, -⟩ := handed_once h hr
  obtain ⟨d₀, hd₀, hnot⟩ := hd
  cases hd'.symm.trans hd₀
  exact hnot hwaiting

omit [ExternalJson] in
theorem Signed.mono {d d' : ExternalDelivery} {r : ExternalResult} {request : SignedExternalCommand}
    {p : PreparedMessage} (h : b.Signed id d request p) (hresults : b'.results = r :: b.results)
    (hchange : b.tables.Change r b'.tables) (hd : d.Change id r d') : b'.Signed id d' request p := by
  obtain ⟨receipt, hmem, houtcome⟩ := h.recorded
  obtain ⟨m, hm, hmanifest⟩ := h.message
  obtain ⟨row, hrow, hmember⟩ := h.member
  obtain ⟨row', hrow', -, hmember'⟩ := hchange.conversations _ row hrow
  obtain ⟨haccount, hkey, hcopy⟩ := hd.same
  exact {
    recorded := ⟨receipt, hresults ▸ List.mem_cons_of_mem _ hmem, houtcome⟩
    prepared := h.prepared
    account := haccount.trans h.account
    key := hkey.trans h.key
    relayCopy := hcopy.trans h.relayCopy
    message := ⟨m, hchange.messages id m hm, hmanifest⟩
    member := ⟨row', hrow', hmember'.trans hmember⟩}

omit [ExternalJson] in
theorem Signed.of_new {d : ExternalDelivery} {r : ExternalResult} (h : b.tables.New r b'.tables id d)
    (hresults : b'.results = r :: b.results) : ∃ request p, b'.Signed id d request p := by
  obtain ⟨request, receipt, p, rfl, houtcome, hprepared, haccount, hkey, hcopy, m, row, hm, hmanifest,
    hmember, hconversation, hrow, hpersona⟩ := h.recorded
  exact ⟨request, p, ⟨receipt, hresults ▸ List.mem_cons_self .., houtcome⟩, hprepared, haccount, hkey, hcopy,
    ⟨m, hm, hmanifest, hmember, hconversation⟩, row, hrow, hpersona⟩

theorem Sound.call {c : ExternalCall} (h : b.Sound) (hcall : b.call c = .ok b') : b'.Sound := by
  obtain ⟨r, hresults, -, hchange⟩ := call_eq_ok hcall
  have hqueued : ∀ c id, QueuedIn b'.results c id →
      b'.tables.belongs c id = true ∧ ∃ d, b'.tables.deliveries.get? id = some d := by
    rintro c id ⟨q, hq, hqueued⟩
    rw [hresults] at hq
    rcases List.mem_cons.mp hq with rfl | hq
    · obtain ⟨-, hd, hin⟩ := hchange.queued c id hqueued
      exact ⟨hin, hd⟩
    · obtain ⟨hin, d, hd⟩ := h.queued c id ⟨q, hq, hqueued⟩
      obtain ⟨d', hd', -⟩ := hchange.deliveries id d hd
      exact ⟨belongs_mono hchange hin, d', hd'⟩
  have hhanded : b'.handedMessages = (r.handedMessage.toList ++ b.handedMessages) := by
    rw [handedMessages, hresults, List.filterMap_cons]
    cases r.handedMessage <;> rfl
  refine ⟨hqueued, fun id hid => ?_, ?_, fun later w earlier c id hsplit hw hq => ?_, fun id d hd => ?_⟩
  · rw [hhanded] at hid
    rcases List.mem_append.mp hid with hid | hid
    · exact (handed_once hchange (Option.mem_toList.mp hid)).2
    · exact settled_mono hchange (h.handed id hid)
  · rw [hhanded, List.nodup_append]
    refine ⟨by cases r.handedMessage <;> simp, h.once, fun id hid id' hid' heq => ?_⟩
    exact not_handed_of_settled hchange (h.handed id' hid') (heq ▸ Option.mem_toList.mp hid)
  · rw [hresults] at hsplit
    cases later with
    | nil =>
      obtain ⟨rfl, rfl⟩ := List.cons.inj hsplit
      obtain ⟨hin, d, hd⟩ := h.queued c id hq
      obtain ⟨d', hd', -⟩ := hchange.deliveries id d hd
      exact ⟨List.not_mem_nil, d', hd', hchange.withdrawn c id d' hw (belongs_mono hchange hin) hd'⟩
    | cons newest later =>
      obtain ⟨rfl, hrest⟩ := List.cons.inj hsplit
      obtain ⟨hlater, hsettled⟩ := h.withdrawn later w earlier c id hrest hw hq
      refine ⟨fun hid => ?_, settled_mono hchange hsettled⟩
      rw [List.filterMap_cons] at hid
      cases hr : r.handedMessage with
      | none => exact hlater (by simpa only [hr] using hid)
      | some handed =>
        rw [hr] at hid
        rcases List.mem_cons.mp hid with rfl | hid
        · exact not_handed_of_settled hchange hsettled hr
        · exact hlater hid
  · cases hbefore : b.tables.deliveries.get? id with
    | none => exact Signed.of_new (hchange.added id d hbefore hd) hresults
    | some d₀ =>
      obtain ⟨d', hd', hmoved⟩ := hchange.deliveries id d₀ hbefore
      cases hd'.symm.trans hd
      obtain ⟨request, p, hsigned⟩ := h.signed id d₀ hbefore
      exact ⟨request, p, hsigned.mono hresults hchange hmoved⟩

/-! ### Runs -/

/-- A run of transactions; one that fails changes nothing. -/
def calls (b : ExternalLog) (cs : List ExternalCall) : ExternalLog := Machine.run call b cs

theorem Sound.calls (h : b.Sound) (cs : List ExternalCall) : (b.calls cs).Sound :=
  Machine.run_preserves (P := Sound) (fun _ _ _ hb hcall => hb.call hcall) h cs

/-- What holds at the time a message is handed over. -/
structure Live (b : ExternalLog) (facts : ExternalFacts) (now : CanonicalTime) (dispatch : ExternalDispatch) :
    Prop where
  conversation : ∃ row, b.tables.conversations.get? dispatch.message.fields.manifest.conversation = some row ∧
    row.conversation = dispatch.conversation
  disclosed : dispatch.conversation.disclosure.permitsDispatch = true
  notBlocked : facts.relationship.state ≠ .blocked
  covered : facts.billing.covers now = true
  unexpired : now < dispatch.relayCopy.expiresAt ∧ now < dispatch.relayCopy.binding.messageValidUntil.time
  /-- The key that signed the message for the member is still active. -/
  authored : ∃ request receipt p key, .recorded request receipt ∈ b.results ∧
    receipt.outcome = .queued dispatch.message.message ∧ request.command.message = some p ∧
    dispatch.message.fields.manifest = p.manifest ∧ dispatch.relayCopy = p.relayCopy ∧
    request.persona = dispatch.conversation.member ∧
    facts.authority.personaKey facts.authority.product request.persona request.key now = .ok key

omit [ExternalJson] in
theorem Sound.live {facts : ExternalFacts} {now : CanonicalTime} {t' : ExternalTables}
    {dispatch : ExternalDispatch} (h : b.Sound)
    (hcall : b.tables.beginDispatch id facts now = .ok (t', .handed dispatch)) : b.Live facts now dispatch := by
  obtain ⟨m, d, row, hdispatch⟩ := ExternalTables.beginDispatch_eq_ok hcall
  rcases hdispatch.outcome with ⟨hlive, hhanded, -⟩ | ⟨hwithheld, -⟩
  · cases hhanded
    obtain ⟨hcovered, hdisclosed, hblocked, hkey, hexpires, hvalid⟩ := of_decide_eq_true hlive
    obtain ⟨request, p, hsigned⟩ := h.signed id d hdispatch.delivery
    obtain ⟨receipt, hrecorded, houtcome⟩ := hsigned.recorded
    obtain ⟨m', hm', hmanifest, -, hconversation⟩ := hsigned.message
    cases hdispatch.message.symm.trans hm'
    obtain ⟨row', hrow', hmember⟩ := hsigned.member
    rw [← hconversation, hdispatch.conversation] at hrow'
    cases hrow'
    refine ⟨⟨row, hdispatch.conversation, rfl⟩, hdisclosed, hblocked, hcovered, ⟨hexpires, hvalid⟩, ?_⟩
    have hactive : ∃ key, facts.authority.personaKey facts.authority.product row.conversation.member d.key now = .ok key := by
      change (facts.authority.personaKey facts.authority.product row.conversation.member d.key now).isOk = true at hkey
      cases hresult : facts.authority.personaKey facts.authority.product row.conversation.member d.key now with
      | ok key => exact ⟨key, rfl⟩
      | error e =>
        rw [hresult] at hkey
        cases hkey
    obtain ⟨key, hkey⟩ := hactive
    refine ⟨request, receipt, p, key, hrecorded, houtcome.trans ?_, hsigned.prepared, hmanifest,
      hsigned.relayCopy, hmember.symm, ?_⟩
    · rw [show (ExternalDispatch.mk row.conversation m d.relayCopy).message.message = id from hdispatch.named]
    · rw [← hmember, ← hsigned.key]
      exact hkey
  · cases hwithheld

end ExternalLog
end CsMail
