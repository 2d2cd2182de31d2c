import CsMail.Member.Storage

/-! What is saved is what is opened again.

Joining the messages of a state to its head gives the state back (`joinAll_head`), so a commit is
opened as the state it was made of, if no message occurs twice and the state passes validation
(`open_commit`). The two loops that take over from the server keep this up where the server
repeats no native message and every page of a conversation fits the messages that stay. -/
namespace CsMail
open Library

section
variable [Crypto] {Rest : Type}

/-! ### Heads and messages -/

namespace ExternalWorkspace
variable {w w' : ExternalWorkspace}

/-- The messages of a list that belong to a conversation. -/
def messagesOf (l : List (U128 × MessageView)) (id : U128) : List MessageView :=
  (l.filter fun e => e.1 = id).map Prod.snd

omit [Crypto] in
theorem messagesOf_cons (e : U128 × MessageView) (l : List (U128 × MessageView)) (id : U128) :
    messagesOf (e :: l) id = (if e.1 = id then [e.2] else []) ++ messagesOf l id := by
  unfold messagesOf
  by_cases hid : e.1 = id
  · rw [if_pos hid, List.filter_cons_of_pos (by simpa using hid)]
    rfl
  · rw [if_neg hid, List.filter_cons_of_neg (by simpa using hid)]
    rfl

/-- Pushed one by one, messages are appended to their conversations. -/
theorem foldlM_push (l : List (U128 × MessageView)) (hknown : ∀ e ∈ l, w.records.get? e.1 ≠ none) :
    ∃ w', l.foldlM (fun w e => w.push e.1 e.2) w = .ok w' ∧ w'.pending = w.pending ∧
      ∀ id, w'.records.get? id =
        (w.records.get? id).map fun r => {r with messages := r.messages ++ messagesOf l id} := by
  induction l generalizing w with
  | nil =>
    refine ⟨w, rfl, rfl, fun id => ?_⟩
    cases w.records.get? id with
    | none => rfl
    | some r => simp [messagesOf]
  | cons e rest ih =>
    rw [List.forall_mem_cons] at hknown
    obtain ⟨record, hrecord⟩ := Option.ne_none_iff_exists'.mp hknown.1
    obtain ⟨pushed, hpushed⟩ : ∃ r, r = {record with messages := record.messages ++ [e.2]} := ⟨_, rfl⟩
    have hpush : w.push e.1 e.2 = .ok {w with records := w.records.insert e.1 pushed} := by
      rw [hpushed]
      exact bind_eq_ok.mpr ⟨record, okOr_eq_ok.mpr hrecord, rfl⟩
    have hknown' : ∀ e' ∈ rest, (w.records.insert e.1 pushed).get? e'.1 ≠ none := by
      intro e' he'
      rw [SortedMap.get?_insert]
      split_ifs
      · exact Option.some_ne_none _
      · exact hknown.2 e' he'
    obtain ⟨w', hfold, hpending, hget⟩ :=
      ih (w := {w with records := w.records.insert e.1 pushed}) hknown'
    refine ⟨w', bind_eq_ok.mpr ⟨_, hpush, hfold⟩, hpending, fun id => ?_⟩
    rw [hget, SortedMap.get?_insert, messagesOf_cons]
    by_cases hid : id = e.1
    · rw [if_pos hid, hid, hrecord, hpushed, Option.map_some, Option.map_some, if_pos rfl]
      simp only [List.append_assoc]
    · rw [if_neg hid, if_neg (Ne.symm hid), List.nil_append]

/-- The messages of a conversation, among those of all of them. -/
theorem messagesOf_messages (w : ExternalWorkspace) (id : U128) :
    messagesOf w.messages id = ((w.records.get? id).map WorkspaceRecord.messages).getD [] := by
  suffices ∀ entries : List (U128 × WorkspaceRecord), (entries.map Prod.fst).Nodup →
      messagesOf (entries.flatMap fun e => e.2.messages.map (e.1, ·)) id =
        ((SortedMap.lookup id entries).map WorkspaceRecord.messages).getD [] from
    this w.records.entries w.records.keys_nodup
  intro entries hnodup
  induction entries with
  | nil => rfl
  | cons e rest ih =>
    obtain ⟨key, r⟩ := e
    rw [List.map_cons, List.nodup_cons] at hnodup
    have hsplit : messagesOf ((⟨key, r⟩ :: rest).flatMap fun e => e.2.messages.map (e.1, ·)) id =
        messagesOf (r.messages.map (key, ·)) id ++
          messagesOf (rest.flatMap fun e => e.2.messages.map (e.1, ·)) id := by
      rw [List.flatMap_cons, messagesOf, List.filter_append, List.map_append]
      rfl
    rw [hsplit, ih hnodup.2, SortedMap.lookup]
    by_cases hid : id = key
    · subst hid
      rw [if_pos rfl, SortedMap.lookup_eq_none_of_notMem hnodup.1]
      simp [messagesOf, List.filter_map, Function.comp_def]
    · rw [if_neg hid]
      simp [messagesOf, List.filter_map, Function.comp_def, Ne.symm hid]

/-- The messages of a workspace, pushed to the workspace without them, give it back. -/
theorem foldlM_push_messages (w : ExternalWorkspace) :
    w.messages.foldlM (fun w e => w.push e.1 e.2) w.withoutMessages = .ok w := by
  have hknown : ∀ e ∈ w.messages, w.withoutMessages.records.get? e.1 ≠ none := by
    intro e he
    obtain ⟨⟨id, r⟩, hentry, he⟩ := List.mem_flatMap.mp he
    obtain ⟨view, -, rfl⟩ := List.mem_map.mp he
    rw [withoutMessages, SortedMap.get?_map, SortedMap.mem_entries.mp hentry]
    exact Option.some_ne_none _
  obtain ⟨w', hfold, hpending, hget⟩ := foldlM_push w.messages hknown
  have hrecords : w'.records = w.records := by
    apply SortedMap.ext_get
    intro id
    rw [hget, messagesOf_messages, withoutMessages, SortedMap.get?_map]
    cases w.records.get? id with
    | none => rfl
    | some r => rfl
  rw [hfold]
  cases w
  cases w'
  cases hpending
  cases hrecords
  rfl

end ExternalWorkspace

namespace MemberState

theorem foldlM_join_native (s : MemberState Rest) (l : List (U64 × MessageRecord)) :
    (l.map fun e => MailboxRecord.native e.1 e.2).foldlM join s =
      .ok {s with mailbox := {s.mailbox with records := s.mailbox.records ++ l}} := by
  induction l generalizing s with
  | nil => rw [List.append_nil]; rfl
  | cons e rest ih =>
    rw [List.map_cons, List.foldlM_cons]
    show (join s (.native e.1 e.2) >>= _) = _
    rw [join, ok_bind, ih]
    simp only [List.append_assoc, List.singleton_append]

theorem foldlM_join_external {s : MemberState Rest} {w w' : ExternalWorkspace} {l : List (U128 × MessageView)}
    (hw : s.external = some w) (h : l.foldlM (fun w e => w.push e.1 e.2) w = .ok w') :
    (l.map fun e => MailboxRecord.external e.1 e.2).foldlM join s = .ok {s with external := some w'} := by
  induction l generalizing s w with
  | nil =>
    cases h
    rw [← hw]
    rfl
  | cons e rest ih =>
    obtain ⟨next, hnext, h⟩ := bind_eq_ok.mp h
    refine bind_eq_ok.mpr ⟨{s with external := some next}, ?_, ih rfl h⟩
    exact bind_eq_ok.mpr ⟨w, okOr_eq_ok.mpr hw, bind_eq_ok.mpr ⟨next, hnext, rfl⟩⟩

/-- **Joined to its head, the messages of a state give it back**, in their order. -/
theorem joinAll_head (s : MemberState Rest) : s.items.foldlM join s.head = .ok s := by
  rw [items, List.foldlM_append, foldlM_join_native, ok_bind]
  obtain ⟨format, persona, ⟨after, records, participants⟩, external, rest⟩ := s
  cases external with
  | none => rfl
  | some w =>
    exact foldlM_join_external rfl (ExternalWorkspace.foldlM_push_messages w)

/-! ### Saved states -/

/-- The state passes validation, and no message of it occurs twice. -/
structure Openable (s : MemberState Rest) : Prop where
  format : s.format = 6
  nodup : s.mailbox.records.Nodup
  native : ∀ e ∈ s.mailbox.records, s.validateNative e = .ok ⟨⟩
  external : ∀ id r, s.externalRecord id = some r → s.validateExternal (id, r) = .ok ⟨⟩
  distinct : ∀ id r, s.externalRecord id = some r → (r.messages.map MessageView.id).Nodup

theorem messages_nodup {w : ExternalWorkspace}
    (h : ∀ id r, w.records.get? id = some r → (r.messages.map MessageView.id).Nodup) : w.messages.Nodup := by
  rw [ExternalWorkspace.messages, List.nodup_flatMap]
  refine ⟨fun e he => ?_, ?_⟩
  · refine (List.Nodup.of_map _ (h e.1 e.2 (SortedMap.mem_entries.mp he))).map fun a b hab => ?_
    exact congrArg Prod.snd hab
  · refine w.records.sorted.imp fun {e e'} hlt x hx hx' => ?_
    obtain ⟨view, -, rfl⟩ := List.mem_map.mp hx
    obtain ⟨view', -, hsame⟩ := List.mem_map.mp hx'
    exact absurd (congrArg Prod.fst hsame) (ne_of_gt hlt)

theorem Openable.items_nodup {s : MemberState Rest} (hs : s.Openable) : s.items.Nodup := by
  rw [items, List.nodup_append]
  refine ⟨hs.nodup.map fun a b hab => ?_, ?_, fun a ha b hb => ?_⟩
  · cases a
    cases b
    cases hab
    rfl
  · refine List.Nodup.map (fun a b hab => ?_) ?_
    · cases a
      cases b
      cases hab
      rfl
    · rw [externalMessages]
      cases hexternal : s.external with
      | none => exact List.nodup_nil
      | some w => exact messages_nodup fun id r hr => hs.distinct id r (by rw [externalRecord, hexternal]; exact hr)
  · obtain ⟨e, -, rfl⟩ := List.mem_map.mp ha
    obtain ⟨e', -, rfl⟩ := List.mem_map.mp hb
    exact MailboxRecord.noConfusion

theorem Openable.validateMailbox {s : MemberState Rest} (hs : s.Openable) : s.validateMailbox = .ok ⟨⟩ := by
  refine bind_eq_ok.mpr ⟨⟨⟩, forM_eq_ok.mpr hs.native, forM_eq_ok.mpr fun e he => ?_⟩
  cases hexternal : s.external with
  | none =>
    rw [hexternal] at he
    cases he
  | some w =>
    rw [hexternal] at he
    refine hs.external e.1 e.2 ?_
    rw [externalRecord, hexternal]
    exact SortedMap.mem_entries.mp he

theorem isHead_head {s : MemberState Rest} (hformat : s.format = 6) : s.head.isHead = true := by
  rw [isHead, decide_eq_true_eq]
  refine ⟨hformat, rfl, ?_⟩
  rw [head]
  cases s.external with
  | none => rfl
  | some w => simp [ExternalWorkspace.withoutMessages, SortedMap.map, SortedMap.values]

end MemberState

namespace DeviceStore
variable [DeviceCodec Rest] {store : DeviceStore Rest}

/-- Opened reference by reference, the records are joined in their order. -/
theorem foldlM_openRecord (store : DeviceStore Rest) {items : List MailboxRecord} {ids : List (DeviceCodec.Id Rest)}
    (haddresses : List.Forall₂ (DeviceCodec.scheme Rest).Addresses items ids) (hnodup : ids.Nodup)
    (hrecall : ∀ item id, (DeviceCodec.scheme Rest).Addresses item id → id ∈ ids →
      (DeviceCodec.scheme Rest).recollect store.records id = some item)
    (seen : List (DeviceCodec.Id Rest)) (hseen : ∀ id ∈ ids, id ∉ seen) {s s' : MemberState Rest}
    (h : items.foldlM MemberState.join s = .ok s') :
    ids.foldlM store.openRecord (seen, s) = .ok (seen ++ ids, s') := by
  induction haddresses generalizing seen s with
  | nil =>
    cases h
    rw [List.append_nil]
    rfl
  | @cons item id items ids hitem _ ih =>
    obtain ⟨next, hnext, h⟩ := bind_eq_ok.mp h
    rw [List.nodup_cons] at hnodup
    rw [List.forall_mem_cons] at hseen
    have hopen : store.openRecord (seen, s) id = .ok (seen ++ [id], next) :=
      bind_eq_ok.mpr ⟨⟨⟩, refuseIf_eq_ok.mpr hseen.1,
        bind_eq_ok.mpr ⟨item, okOr_eq_ok.mpr (hrecall item id hitem (List.mem_cons_self ..)),
          bind_eq_ok.mpr ⟨next, hnext, rfl⟩⟩⟩
    have hrest := ih hnodup.2 (fun item' id' hitem' hid' => hrecall item' id' hitem' (List.mem_cons_of_mem id hid'))
      (seen ++ [id]) (fun id' hid' hmem => ?_) h
    · rw [List.append_assoc] at hrest
      exact bind_eq_ok.mpr ⟨_, hopen, hrest⟩
    · rcases List.mem_append.mp hmem with hold | hnew
      · exact hseen.2 id' hid' hold
      · exact hnodup.1 (List.mem_singleton.mp hnew ▸ hid')

/-- What a commit does: it saves the head of the state under the references of its messages. -/
theorem stateCommit_eq_ok {s : MemberState Rest} {nonces : ℕ → DeviceCodec.Nonce Rest} {change : CacheCommit Rest}
    (h : store.stateCommit s nonces = .ok change) :
    (DeviceCodec.scheme Rest).Placed store.records change.records s.items ∧
      DeviceCodec.openHead change.head = some (Snapshot.active s.head change.records.keep) := by
  obtain ⟨placement, hplace, h⟩ := bind_eq_ok.mp h
  obtain ⟨bytes, hbytes, h⟩ := bind_eq_ok.mp h
  cases h
  have hplaced := ContentStore.Scheme.placed_foldlM (okOr_eq_ok.mp hplace)
  rw [List.map_map] at hplaced
  refine ⟨?_, DeviceCodec.openHead_sealHead (okOr_eq_ok.mp hbytes)⟩
  change (DeviceCodec.scheme Rest).Placed store.records placement (s.items.zipIdx.map Prod.fst) at hplaced
  rw [List.zipIdx_map_fst] at hplaced
  exact hplaced

/-- **A saved state is opened as it was**, if it is valid and repeats no message. -/
theorem open_commit {s : MemberState Rest} (hs : s.Openable) (hsound : (DeviceCodec.scheme Rest).Sound store.records)
    {nonces : ℕ → DeviceCodec.Nonce Rest} {change : CacheCommit Rest} (h : store.stateCommit s nonces = .ok change) :
    (store.commit change).openDevice = .ok s := by
  obtain ⟨hplaced, hhead⟩ := stateCommit_eq_ok h
  have hfold := foldlM_openRecord (store.commit change) hplaced.keep
    (ContentStore.Scheme.Addresses.nodup hplaced.keep hs.items_nodup)
    (fun item id hitem hid => ContentStore.Scheme.recall_apply hplaced hsound hitem hid)
    [] (fun _ _ => List.not_mem_nil) s.joinAll_head
  refine bind_eq_ok.mpr ⟨change.head, rfl, bind_eq_ok.mpr ⟨_, okOr_eq_ok.mpr hhead, ?_⟩⟩
  exact bind_eq_ok.mpr ⟨⟨⟩, refuseIf_eq_ok.mpr (by simp [MemberState.isHead_head hs.format]),
    bind_eq_ok.mpr ⟨_, hfold, bind_eq_ok.mpr ⟨⟨⟩, hs.validateMailbox, rfl⟩⟩⟩

end DeviceStore
end
end CsMail
