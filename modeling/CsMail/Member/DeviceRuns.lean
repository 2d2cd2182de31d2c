import CsMail.Member.StorageProofs

/-! What a device saved, it can open again, as long as the server repeats nothing.

Every page that is taken over keeps the checks the opening makes, except for two it does not
look at: whether a native message is in the mailbox already, and whether the messages of earlier
pages fit the conversation the page brings. Where neither is the case (`Device.Fits`), every state
of a run is opened as it was saved (`device_reopens`). -/
namespace CsMail
open Library

/-! ### The native mailbox -/

namespace Mailbox

/-- The participants of the conversation of a header are those the header names. -/
def Consistent (me : ProtocolIdentity) (participants : SortedMap U128 ProtocolIdentity)
    (e : U64 × MessageRecord) : Prop :=
  ∃ other, participants.get? e.2.conversation = some other ∧
    ¬((e.2.author = me ∧ e.2.recipient ≠ other) ∨
      (e.2.author ≠ me ∧ (e.2.author ≠ other ∨ e.2.recipient ≠ me)))

/-- The headers of the pages that are read, from an offset on. -/
def readEntries (after : U64) : List (Except MemberError MailboxPage) → List (U64 × MessageRecord)
  | [] | .error _ :: _ => []
  | .ok page :: rest => page.entries.map (fun e => (e.sequence, e.record)) ++
      if page.nextAfter ≤ after then [] else readEntries page.nextAfter rest

/-- What pushing headers does to a mailbox. -/
structure Grows (me : ProtocolIdentity) (m : Mailbox) (added : List (U64 × MessageRecord)) (m' : Mailbox) : Prop where
  after : m'.after = m.after
  records : m'.records = m.records ++ added
  participants : ∀ id other, m.participants.get? id = some other → m'.participants.get? id = some other
  consistent : ∀ e ∈ added, Consistent me m'.participants e

variable {me : ProtocolIdentity} {m m' : Mailbox}

theorem learn_eq_ok {e : MailboxEntry} {participants : SortedMap U128 ProtocolIdentity}
    (h : m.learn me e = .ok participants) (id : U128) (other : ProtocolIdentity)
    (hid : m.participants.get? id = some other) : participants.get? id = some other := by
  unfold learn at h
  cases hknown : m.participants.get? e.record.conversation with
  | some known =>
    rw [hknown] at h
    cases h
    exact hid
  | none =>
    have hne : id ≠ e.record.conversation := by
      rintro rfl
      cases hid.symm.trans hknown
    rw [hknown] at h
    by_cases hauthor : e.record.author = me
    · simp only [if_pos hauthor] at h
      obtain ⟨scope, -, h⟩ := bind_eq_ok.mp h
      obtain ⟨found, -, h⟩ := bind_eq_ok.mp h
      cases h
      rw [SortedMap.get?_insert_ne _ _ hne]
      exact hid
    · simp only [if_neg hauthor] at h
      cases h
      rw [SortedMap.get?_insert_ne _ _ hne]
      exact hid

theorem push_eq_ok {e : MailboxEntry} (h : m.push me e = .ok m') : Grows me m [(e.sequence, e.record)] m' := by
  obtain ⟨⟨⟩, hmine, h⟩ := bind_eq_ok.mp h
  obtain ⟨participants, hlearn, h⟩ := bind_eq_ok.mp h
  obtain ⟨other, hother, h⟩ := bind_eq_ok.mp h
  obtain ⟨⟨⟩, hfits, h⟩ := bind_eq_ok.mp h
  cases h
  rw [refuseIf_eq_ok] at hmine hfits
  refine ⟨rfl, rfl, learn_eq_ok hlearn, List.forall_mem_singleton.mpr ⟨other, okOr_eq_ok.mp hother, ?_⟩⟩
  rintro (hbad | ⟨hauthor, hbad | hbad⟩)
  · exact hfits (.inl hbad)
  · exact hfits (.inr ⟨hauthor, hbad⟩)
  · exact hmine ⟨hauthor, hbad⟩

theorem Grows.trans {m'' : Mailbox} {a b : List (U64 × MessageRecord)} (h : Grows me m a m') (h' : Grows me m' b m'') :
    Grows me m (a ++ b) m'' where
  after := h'.after.trans h.after
  records := by rw [h'.records, h.records, List.append_assoc]
  participants id other hid := h'.participants id other (h.participants id other hid)
  consistent := List.forall_mem_append.mpr ⟨fun e he =>
    (h.consistent e he).imp fun _ hother => ⟨h'.participants _ _ hother.1, hother.2⟩, h'.consistent⟩

theorem foldlM_push {entries : List MailboxEntry} (h : entries.foldlM (push me) m = .ok m') :
    Grows me m (entries.map fun e => (e.sequence, e.record)) m' := by
  induction entries generalizing m with
  | nil =>
    cases h
    exact ⟨rfl, (List.append_nil _).symm, fun _ _ hid => hid, by simp⟩
  | cons e rest ih =>
    obtain ⟨next, hnext, h⟩ := bind_eq_ok.mp h
    exact (push_eq_ok hnext).trans (ih h)

/-- A synchronized mailbox has the headers of the pages that were read behind its own. -/
theorem sync_eq_ok {pages : List (Except MemberError MailboxPage)} (h : m.sync me pages = .ok m')
    (hm : ∀ e ∈ m.records, Consistent me m.participants e) :
    m'.records = m.records ++ readEntries m.after pages ∧ ∀ e ∈ m'.records, Consistent me m'.participants e := by
  induction pages generalizing m with
  | nil => cases h
  | cons answer rest ih =>
    obtain ⟨page, hpage, hread⟩ := bind_eq_ok.mp h
    subst hpage
    clear h
    obtain ⟨next, hnext, h⟩ := bind_eq_ok.mp hread
    have hgrows := foldlM_push hnext
    have hall : ∀ e ∈ next.records, Consistent me next.participants e := by
      rw [hgrows.records]
      exact List.forall_mem_append.mpr ⟨fun e he =>
        (hm e he).imp fun _ hother => ⟨hgrows.participants _ _ hother.1, hother.2⟩, hgrows.consistent⟩
    rw [readEntries]
    by_cases hlast : page.nextAfter ≤ m.after
    · rw [if_pos hlast] at h
      cases h
      rw [if_pos hlast, List.append_nil]
      exact ⟨hgrows.records, hall⟩
    · rw [if_neg hlast] at h
      obtain ⟨hrecords, hconsistent⟩ := ih h hall
      refine ⟨?_, hconsistent⟩
      rw [if_neg hlast, hrecords, hgrows.records, List.append_assoc]

end Mailbox

section
variable [Crypto] {Rest : Type}

/-! ### External conversations -/

omit [Crypto] in
theorem mergeMessage_eq_ok {messages messages' : List MessageView} {entry : MessageView}
    (h : mergeMessage messages entry = .ok messages') :
    (messages'.map MessageView.id = messages.map MessageView.id ∨ entry.id ∉ messages.map MessageView.id ∧
      messages'.map MessageView.id = messages.map MessageView.id ++ [entry.id]) ∧
    ∀ m ∈ messages', m = entry ∨ m ∈ messages := by
  induction messages generalizing messages' with
  | nil =>
    cases h
    exact ⟨.inr ⟨List.not_mem_nil, rfl⟩, fun m hm => .inl (List.mem_singleton.mp hm)⟩
  | cons old rest ih =>
    rw [mergeMessage] at h
    by_cases hid : old.id = entry.id
    · rw [if_pos hid] at h
      obtain ⟨⟨⟩, -, h⟩ := bind_eq_ok.mp h
      cases h
      refine ⟨.inl (by rw [List.map_cons, List.map_cons, hid]), fun m hm => ?_⟩
      exact (List.mem_cons.mp hm).imp_right (List.mem_cons_of_mem old)
    · rw [if_neg hid] at h
      obtain ⟨rest', hrest, h⟩ := bind_eq_ok.mp h
      cases h
      obtain ⟨hids, hmem⟩ := ih hrest
      rw [List.map_cons, List.map_cons]
      refine ⟨hids.imp (congrArg _) fun hnew => ⟨?_, by rw [hnew.2]; rfl⟩, fun m hm => ?_⟩
      · exact fun hin => (List.mem_cons.mp hin).elim (fun hsame => hid hsame.symm) hnew.1
      · rcases List.mem_cons.mp hm with rfl | hm
        · exact .inr (List.mem_cons_self ..)
        · exact (hmem m hm).imp_right (List.mem_cons_of_mem old)

omit [Crypto] in
/-- Merged into the messages of a conversation, a page keeps them distinct. -/
theorem foldlM_mergeMessage {entries messages messages' : List MessageView}
    (h : entries.foldlM mergeMessage messages = .ok messages') (hnodup : (messages.map MessageView.id).Nodup) :
    (messages'.map MessageView.id).Nodup ∧ ∀ m ∈ messages', m ∈ entries ∨ m ∈ messages := by
  induction entries generalizing messages with
  | nil =>
    cases h
    exact ⟨hnodup, fun m hm => .inr hm⟩
  | cons entry rest ih =>
    obtain ⟨next, hnext, h⟩ := bind_eq_ok.mp h
    obtain ⟨hids, hmem⟩ := mergeMessage_eq_ok hnext
    have hnext' : (next.map MessageView.id).Nodup := by
      rcases hids with hsame | ⟨hnew, hsame⟩
      · rw [hsame]
        exact hnodup
      · rw [hsame]
        rw [← List.concat_eq_append]
        exact hnodup.concat hnew
    obtain ⟨hnodup', hmem'⟩ := ih h hnext'
    refine ⟨hnodup', fun m hm => ?_⟩
    rcases hmem' m hm with hrest | hm
    · exact .inl (List.mem_cons_of_mem entry hrest)
    · rcases hmem m hm with rfl | hold
      · exact .inl (List.mem_cons_self ..)
      · exact .inr hold

namespace ExternalPage

theorem foldlM_checkMessage {p : ExternalPage} {entries : List MessageView} {seen seen' : List MessageId}
    (h : entries.foldlM p.checkMessage seen = .ok seen') :
    ∀ e ∈ entries, e.message.validate p.conversation p.relationship = .ok () := by
  induction entries generalizing seen with
  | nil => simp
  | cons entry rest ih =>
    obtain ⟨next, hnext, h⟩ := bind_eq_ok.mp h
    obtain ⟨_, hvalid, -⟩ := bind_eq_ok.mp hnext
    exact List.forall_mem_cons.mpr ⟨mapError_eq_ok.mp hvalid, ih h⟩

/-- The messages that stay fit the conversation and the relationship of the page. -/
def Fits (p : ExternalPage) (known : Option WorkspaceRecord) (now : MessageId → CanonicalTime) : Prop :=
  ∀ r, known = some r → ∀ m ∈ r.messages, now m.id < m.expiresAt →
    m.message.validate p.conversation p.relationship = .ok ()

end ExternalPage

namespace MemberState
variable {s s' : MemberState Rest}

theorem validateNative_eq_ok {e : U64 × MessageRecord} :
    s.validateNative e = .ok ⟨⟩ ↔ Mailbox.Consistent s.persona s.mailbox.participants e := by
  rw [validateNative, Mailbox.Consistent, bind_eq_ok]
  exact exists_congr fun other => by rw [okOr_eq_ok, refuseIf_eq_ok]

/-- A synchronized mailbox is opened again if it repeats no message. -/
theorem Openable.sync (hs : s.Openable) {pages : List (Except MemberError MailboxPage)} {m : Mailbox}
    (h : s.mailbox.sync s.persona pages = .ok m)
    (hnodup : (s.mailbox.records ++ Mailbox.readEntries s.mailbox.after pages).Nodup) :
    Openable {s with mailbox := m} := by
  obtain ⟨hrecords, hconsistent⟩ := Mailbox.sync_eq_ok h fun e he => validateNative_eq_ok.mp (hs.native e he)
  exact ⟨hs.format, hrecords ▸ hnodup, fun e he => validateNative_eq_ok.mpr (hconsistent e he), hs.external,
    hs.distinct⟩

/-- A page of a conversation is opened again if it fits the messages that stay. -/
theorem Openable.readPage (hs : s.Openable) {id : ConversationId} {after : U64} {through : Option U64}
    {p : ExternalPage} {now : MessageId → CanonicalTime} (h : s.readPage id after through p now = .ok s')
    (hfits : p.Fits (s.externalRecord id.val) now) : s'.Openable := by
  obtain ⟨⟨⟩, hscope, h⟩ := bind_eq_ok.mp h
  obtain ⟨seen, hchecked, h⟩ := bind_eq_ok.mp h
  obtain ⟨record, hread, h⟩ := bind_eq_ok.mp h
  cases h
  obtain ⟨messages, hmerged, hread⟩ := bind_eq_ok.mp hread
  have hknown : (((s.externalRecord id.val).map WorkspaceRecord.messages).getD [] |>.map MessageView.id).Nodup := by
    cases hrecord : s.externalRecord id.val with
    | none => exact List.nodup_nil
    | some r => exact hs.distinct id.val r hrecord
  obtain ⟨hnodup, hmem⟩ := foldlM_mergeMessage hmerged hknown
  have hvalid := ExternalPage.foldlM_checkMessage hchecked
  rw [ExternalPage.checkScope, refuseIf_eq_ok] at hscope
  simp only [not_or, not_not] at hscope
  have hget : ∀ id' r, (SortedMap.insert (s.external.getD .empty).records id.val record).get? id' = some r →
      id' = id.val ∧ r = record ∨ s.externalRecord id' = some r := by
    intro id' r hr
    rcases SortedMap.get?_insert_eq_some.mp hr with ⟨rfl, rfl⟩ | ⟨-, hold⟩
    · exact .inl ⟨rfl, rfl⟩
    · refine .inr ?_
      cases hexternal : s.external with
      | none =>
        rw [hexternal] at hold
        cases hold
      | some w =>
        rw [hexternal] at hold
        rw [externalRecord, hexternal]
        exact hold
  have hrecord : s.validateExternal (id.val, record) = .ok ⟨⟩ ∧ (record.messages.map MessageView.id).Nodup := by
    cases hread
    refine ⟨bind_eq_ok.mpr ⟨⟨⟩, refuseIf_eq_ok.mpr ?_, forM_eq_ok.mpr fun m hm => mapError_eq_ok.mpr ?_⟩, ?_⟩
    · rintro (hbad | hbad)
      · exact hbad hscope.2.1
      · exact hbad (congrArg NamedId.val hscope.1)
    · rw [List.mem_filter, List.mem_insertionSort, decide_eq_true_eq] at hm
      rcases hmem m hm.1 with hpage | hold
      · exact hvalid m hpage
      · cases hrecord : s.externalRecord id.val with
        | none =>
          rw [hrecord] at hold
          cases hold
        | some r =>
          rw [hrecord] at hold
          exact hfits r hrecord m hold hm.2
    · have hsorted := (List.perm_insertionSort (·.sequence ≤ ·.sequence) messages).map MessageView.id
      exact (hsorted.nodup_iff.mpr hnodup).sublist (List.filter_sublist.map _)
  refine ⟨hs.format, hs.nodup, hs.native, fun id' r hr => ?_, fun id' r hr => ?_⟩
  · rcases hget id' r hr with ⟨rfl, rfl⟩ | hold
    · exact hrecord.1
    · exact hs.external id' r hold
  · rcases hget id' r hr with ⟨rfl, rfl⟩ | hold
    · exact hrecord.2
    · exact hs.distinct id' r hold

theorem enrolled_openable (persona : ProtocolIdentity) (rest : Rest) : (enrolled persona rest).Openable := by
  refine ⟨rfl, List.nodup_nil, ?_, ?_, ?_⟩
  · intro e he
    cases he
  · intro id r hr
    cases hr
  · intro id r hr
    cases hr

end MemberState

/-! ### Runs -/

namespace Device
variable [DeviceCodec Rest] {d d' : Device Rest}

/-- What the checks of the client leave to the server: it repeats no native message, and a page
of a conversation fits the messages that stay. -/
def Fits (d : Device Rest) : DeviceCall Rest → Prop
  | .syncMailbox pages _ => ∀ s, d.saved = some s →
    (s.mailbox.records ++ Mailbox.readEntries s.mailbox.after pages).Nodup
  | .answer (.ok page) now _ => ∀ l, d.loop = some l → page.Fits (l.state.externalRecord l.id.val) now
  | .enroll .. | .fetchExternal _ | .answer (.error _) .. => True

/-- Every reference of the saved head names a record that is stored. -/
def Referenced (d : Device Rest) : Prop :=
  ∀ bytes state references, d.store.head = some bytes →
    DeviceCodec.openHead bytes = some (Snapshot.active state references) →
      ∀ id ∈ references, d.store.records id ≠ none

/-- What holds of a device between its calls. -/
structure Sound (d : Device Rest) : Prop where
  sealed : (DeviceCodec.scheme Rest).Sound d.store.records
  referenced : d.Referenced
  fresh : d.saved = none → d.store.head = none
  saved : ∀ s, d.saved = some s → s.Openable ∧ d.store.openDevice = .ok s
  loop : ∀ l, d.loop = some l → d.saved = some l.state

theorem empty_sound : (empty : Device Rest).Sound where
  sealed _ _ h := by cases h
  referenced _ _ _ h := by cases h
  fresh _ := rfl
  saved _ h := by cases h
  loop _ h := by cases h

theorem save_eq_ok {s : MemberState Rest} {nonces : ℕ → DeviceCodec.Nonce Rest} (h : d.save s nonces = .ok d') :
    ∃ change, d.store.stateCommit s nonces = .ok change ∧ d' = ⟨d.store.commit change, some s, none⟩ := by
  obtain ⟨change, hchange, h⟩ := bind_eq_ok.mp h
  cases h
  exact ⟨change, hchange, rfl⟩

theorem Sound.save (hd : d.Sound) {s : MemberState Rest} (hs : s.Openable)
    {nonces : ℕ → DeviceCodec.Nonce Rest} (h : d.save s nonces = .ok d') : d'.Sound := by
  obtain ⟨change, hchange, rfl⟩ := save_eq_ok h
  obtain ⟨hplaced, hhead⟩ := DeviceStore.stateCommit_eq_ok hchange
  refine ⟨ContentStore.Scheme.apply_sound hplaced hd.sealed, ?_, fun hnone => (by cases hnone), ?_,
    fun _ hl => (by cases hl)⟩
  · intro bytes state references hbytes hopen id hid
    cases hbytes
    cases hhead.symm.trans hopen
    exact ContentStore.Scheme.apply_ne_none hplaced hid
  · intro s' hs'
    cases hs'
    exact ⟨hs, DeviceStore.open_commit hs hd.sealed hchange⟩

/-- What a device opens is the state it saved. -/
theorem Sound.saved_of_open (hd : d.Sound) {s : MemberState Rest} (h : d.store.openDevice = .ok s) :
    d.saved = some s ∧ s.Openable := by
  cases hsaved : d.saved with
  | none =>
    rw [DeviceStore.openDevice, hd.fresh hsaved] at h
    cases h
  | some s' =>
    obtain ⟨hs', hopen⟩ := hd.saved s' hsaved
    cases hopen.symm.trans h
    exact ⟨rfl, hs'⟩

theorem readPage_eq_ok {l : FetchLoop Rest} {answer : Except MemberError ExternalPage}
    {now : MessageId → CanonicalTime} {nonces : ℕ → DeviceCodec.Nonce Rest}
    (h : d.readPage l answer now nonces = .ok d') : ∃ page state saved, answer = .ok page ∧
      l.state.readPage l.id l.after l.through page now = .ok state ∧ d.save state nonces = .ok saved ∧
      d'.store = saved.store ∧ d'.saved = some state ∧ ∀ l', d'.loop = some l' → l'.state = state := by
  obtain ⟨page, hpage, h⟩ := bind_eq_ok.mp h
  obtain ⟨state, hstate, h⟩ := bind_eq_ok.mp h
  obtain ⟨saved, hsaved, h⟩ := bind_eq_ok.mp h
  cases h
  obtain ⟨change, -, rfl⟩ := save_eq_ok hsaved
  refine ⟨page, state, _, hpage, hstate, hsaved, rfl, rfl, fun l' hl' => ?_⟩
  dsimp only at hl'
  split_ifs at hl'
  cases hl'
  rfl

theorem Sound.call (hd : d.Sound) {c : DeviceCall Rest} (hfits : d.Fits c) (h : d.call c = .ok d') : d'.Sound := by
  cases c with
  | enroll persona rest nonces =>
    obtain ⟨⟨⟩, -, h⟩ := bind_eq_ok.mp h
    exact hd.save (MemberState.enrolled_openable persona rest) h
  | syncMailbox pages nonces =>
    obtain ⟨state, hopen, h⟩ := bind_eq_ok.mp h
    obtain ⟨mailbox, hsync, h⟩ := bind_eq_ok.mp h
    obtain ⟨hsaved, hstate⟩ := hd.saved_of_open hopen
    exact hd.save (hstate.sync hsync (hfits state hsaved)) h
  | fetchExternal id =>
    obtain ⟨state, hopen, h⟩ := bind_eq_ok.mp h
    cases h
    refine ⟨hd.sealed, hd.referenced, hd.fresh, hd.saved, fun l hl => ?_⟩
    cases hl
    exact (hd.saved_of_open hopen).1
  | answer answer now nonces =>
    obtain ⟨l, hl, h⟩ := bind_eq_ok.mp h
    rw [okOr_eq_ok] at hl
    cases hread : d.readPage l answer now nonces with
    | error e =>
      rw [hread] at h
      cases h
      exact ⟨hd.sealed, hd.referenced, hd.fresh, hd.saved, fun _ hl => (by cases hl)⟩
    | ok next =>
      rw [hread] at h
      cases h
      obtain ⟨page, state, saved, rfl, hstate, hsave, hstore, hsaved, hloop⟩ := readPage_eq_ok hread
      have hnext := hd.save ((hd.saved l.state (hd.loop l hl)).1.readPage hstate (hfits l hl)) hsave
      have hstate' : saved.saved = some state := by
        obtain ⟨change, -, rfl⟩ := save_eq_ok hsave
        rfl
      refine ⟨hstore ▸ hnext.sealed, ?_, fun hnone => (by cases hsaved.symm.trans hnone), ?_,
        fun l' hl' => hsaved.trans (congrArg some (hloop l' hl').symm)⟩
      · rw [Referenced, hstore]
        exact hnext.referenced
      · rw [hsaved, hstore, ← hstate']
        exact hnext.saved

/-- A call keeps a stored record as it is, or drops it. -/
theorem call_unwritten {c : DeviceCall Rest} (h : d.call c = .ok d') {id : DeviceCodec.Id Rest}
    {cipher cipher' : DeviceCodec.Cipher Rest} (hstored : d.store.records id = some cipher)
    (hstored' : d'.store.records id = some cipher') : cipher' = cipher := by
  have hsave : ∀ {s : MemberState Rest} {nonces : ℕ → DeviceCodec.Nonce Rest} {saved : Device Rest},
      d.save s nonces = .ok saved → saved.store.records id = some cipher' → cipher' = cipher := by
    intro s nonces saved hsave hstored'
    obtain ⟨change, hchange, rfl⟩ := save_eq_ok hsave
    exact ContentStore.Scheme.apply_unwritten (DeviceStore.stateCommit_eq_ok hchange).1 hstored hstored'
  cases c with
  | enroll persona rest nonces =>
    obtain ⟨⟨⟩, -, h⟩ := bind_eq_ok.mp h
    exact hsave h hstored'
  | syncMailbox pages nonces =>
    obtain ⟨state, -, h⟩ := bind_eq_ok.mp h
    obtain ⟨mailbox, -, h⟩ := bind_eq_ok.mp h
    exact hsave h hstored'
  | fetchExternal id =>
    obtain ⟨state, -, h⟩ := bind_eq_ok.mp h
    cases h
    exact Option.some.inj (hstored'.symm.trans hstored)
  | answer answer now nonces =>
    obtain ⟨l, -, h⟩ := bind_eq_ok.mp h
    cases hread : d.readPage l answer now nonces with
    | error e =>
      rw [hread] at h
      cases h
      exact Option.some.inj (hstored'.symm.trans hstored)
    | ok next =>
      rw [hread] at h
      cases h
      obtain ⟨page, state, saved, -, -, hsaved, hstore, -⟩ := readPage_eq_ok hread
      exact hsave hsaved (hstore ▸ hstored')

/-- What a device owes its owner: it opens what it saved, nothing that the saved head refers to is
missing, and no call writes a stored record again. -/
structure Durable (d : Device Rest) : Prop where
  reopens : ∀ s, d.saved = some s → d.store.openDevice = .ok s
  referenced : d.Referenced
  unwritten : ∀ c d', d.call c = .ok d' → ∀ id cipher cipher', d.store.records id = some cipher →
    d'.store.records id = some cipher' → cipher' = cipher

/-- **The device opens what it saved**, in every run in which the server repeats no native message
and no page of a conversation leaves messages behind that it does not fit. -/
theorem device_reopens (calls : List (DeviceCall Rest)) (hfits : Machine.Along call Fits (empty : Device Rest) calls) :
    (Machine.run call (empty : Device Rest) calls).Durable := by
  have hsound : (Machine.run call (empty : Device Rest) calls).Sound :=
    Machine.run_preserves_along (P := Sound) (fun _ _ _ hfits hd h => hd.call hfits h) empty_sound hfits
  exact ⟨fun s hs => (hsound.saved s hs).2, hsound.referenced,
    fun c d' h id cipher cipher' hstored hstored' => call_unwritten h hstored hstored'⟩

end Device
end

/-! ### A mailbox with one message -/

namespace Device.Example

@[reducible] def crypto : Crypto := ⟨fun _ => zero32, fun _ => true, fun _ _ _ => true⟩

/-- Records are written as they are, and are their own addresses. -/
@[reducible] def codec : @DeviceCodec crypto Unit :=
  letI := crypto
  { Plain := MailboxRecord
    Cipher := Snapshot Unit MailboxRecord ⊕ MailboxRecord
    Nonce := Unit
    Id := MailboxRecord
    decEq := inferInstance
    records := {
      write := some
      read := some
      address := id
      encrypt := fun _ _ plain => some (.inr plain)
      decrypt := fun _ cipher => cipher.getRight?
      read_write := Eq.symm
      address_injective := Function.injective_id
      decrypt_encrypt := fun h => congrArg Sum.getRight? (Option.some.inj h).symm}
    sealHead := fun _ snapshot => some (.inl snapshot)
    openHead := fun cipher => cipher.getLeft?
    openHead_sealHead := fun h => congrArg Sum.getLeft? (Option.some.inj h).symm }

def manifest : MessageManifest :=
  ⟨⟨none, ⟨7⟩, ⟨59, by decide⟩, ⟨zero32⟩, [.text 4], []⟩, rfl⟩

/-- A message that the other participant sent. -/
def entry : MailboxEntry where
  sequence := 1
  record := {
    fields := {
      receiving := ⟨.native, ⟨7⟩, ⟨3, by decide⟩, 1, ⟨2⟩, ⟨1⟩, ⟨59, by decide⟩, ⟨10⟩,
        .native (.acceptedRelationship ⟨1⟩), by decide, by decide⟩
      senderKey := ⟨⟨1⟩, zero32⟩
      manifest := manifest
      author := ⟨2⟩
      admission := .acceptedRelationship ⟨1⟩
      committedAt := ⟨10⟩}
    bound := rfl}
  policy := .error .unavailable

/-- A device that is enrolled and reads one page of its mailbox. -/
def calls (entries : List MailboxEntry) : List (@DeviceCall crypto Unit codec) :=
  [@DeviceCall.enroll crypto Unit codec ⟨1⟩ () fun _ => (),
    @DeviceCall.syncMailbox crypto Unit codec [.ok ⟨entries, 0⟩] fun _ => ()]

/-- The device after the calls. -/
def device (entries : List MailboxEntry) : @Device crypto Unit codec :=
  Machine.run (@Device.call crypto Unit codec) (@Device.empty crypto Unit codec) (calls entries)

end Device.Example

namespace Device

/-- The message is read once. -/
theorem device_reopens_once : @Durable Example.crypto Unit Example.codec (Example.device [Example.entry]) := by
  refine @device_reopens Example.crypto Unit Example.codec (Example.calls [Example.entry])
    ⟨trivial, fun s hs => ?_, trivial⟩
  cases hs
  exact List.nodup_singleton _

/-- The message is read twice, and the device no longer opens what it saved. -/
theorem reopening_refused : ¬∀ (_ : Crypto) (_ : DeviceCodec Unit) (calls : List (DeviceCall Unit)),
    (Machine.run call (empty : Device Unit) calls).Durable := by
  intro h
  have hdurable := h Example.crypto Example.codec (Example.calls [Example.entry, Example.entry])
  have hrefused : @DeviceStore.openDevice Example.crypto Unit Example.codec
      (@store Example.crypto Unit Example.codec (Example.device [Example.entry, Example.entry])) = .error .invalidData := rfl
  cases hrefused.symm.trans (@Durable.reopens Example.crypto Unit Example.codec _ hdurable _ rfl)

end Device
end CsMail
