import CsMail.Library.Machine
import CsMail.Member.DeviceRuns
import CsMail.Member.Retained

/-! The headers a retained index has observed, and those the device holds.

An index looks at the headers again only if the device holds more or fewer of them than when it
last looked. That is enough as long as no external message has been dropped in between: then the
messages have only become more, and as long as they are as many they are the same
(`headers_coherent`). A message that takes the place of a dropped one goes unnoticed
(`replaced_unnoticed`). -/
namespace CsMail
open Library

variable {Values : Type}

/-! ### Forgetting a key -/

namespace Headers
variable {known known' : CopyKey → Bool} {key : CopyKey}

theorem erase_insert_self {V : Type*} (m : SortedMap CopyKey V) (v : V) :
    (m.insert key v).erase key = m.erase key := by
  apply SortedMap.ext_get
  intro k
  by_cases hk : k = key <;> simp [SortedMap.get?_erase, SortedMap.get?_insert, hk]

theorem erase_insert_ne {V : Type*} (m : SortedMap CopyKey V) (v : V) {k : CopyKey} (h : k ≠ key) :
    (m.insert k v).erase key = (m.erase key).insert k v := by
  apply SortedMap.ext_get
  intro k'
  simp only [SortedMap.get?_erase, SortedMap.get?_insert]
  by_cases hk : k' = key
  · simp [hk, h.symm]
  · simp [hk]

theorem forget_add (hknown : ∀ k, known' k = (known k || k = key)) (h : Headers) (x : Header) :
    (h.add known x).forget key = (h.forget key).add known' x := by
  have hmissing : ∀ {V : Type} (m : SortedMap CopyKey V) (v : V),
      (if known x.key then m else m.insert x.key v).erase key =
        if known' x.key then m.erase key else (m.erase key).insert x.key v := by
    intro V m v
    rw [hknown]
    by_cases hkey : x.key = key
    · cases known x.key <;> simp [hkey, erase_insert_self]
    · cases known x.key <;> simp [hkey, erase_insert_ne]
  obtain ⟨xkey, version, received, place⟩ := x
  cases place with
  | native position => simp only [add, forget, hmissing]
  | external id position => simp only [add, forget, hmissing]

theorem forget_foldl_add (hknown : ∀ k, known' k = (known k || k = key)) (l : List Header) (h : Headers) :
    (l.foldl (add known) h).forget key = l.foldl (add known') (h.forget key) := by
  induction l generalizing h with
  | nil => rfl
  | cons x rest ih => rw [List.foldl_cons, List.foldl_cons, ih, forget_add hknown]

end Headers

/-! ### What the headers list -/

namespace Headers
variable {known : CopyKey → Bool} {key : CopyKey}

/-- A copy is listed as missing at a place. -/
def ListedAt (h : Headers) (key : CopyKey) : Place → Prop
  | .native position => h.missingNative.get? key = some position
  | .external id position => h.missingExternal.get? key = some (id, position)

/-- A copy listed as missing is of a header that stands where the list says. -/
theorem place_of_listed {l : List Header} {h : Headers} {place : Place}
    (hmissing : (l.foldl (add known) h).ListedAt key place) :
    (known key = false ∧ ∃ x ∈ l, x.key = key ∧ x.place = place) ∨ h.ListedAt key place := by
  induction l generalizing h with
  | nil => exact .inr hmissing
  | cons x rest ih =>
    rcases ih hmissing with ⟨hunknown, y, hy, hrest⟩ | hadd
    · exact .inl ⟨hunknown, y, List.mem_cons_of_mem x hy, hrest⟩
    · cases hknown : known x.key with
      | true =>
        right
        cases place <;> cases hplace : x.place <;> simpa [ListedAt, add, hplace, hknown] using hadd
      | false =>
        cases place <;> cases hplace : x.place <;> simp only [ListedAt, add, hplace, hknown] at hadd
        case native.external => exact .inr hadd
        case external.native => exact .inr hadd
        all_goals
          rcases SortedMap.get?_insert_eq_some.mp hadd with ⟨rfl, hvalue⟩ | ⟨-, hold⟩
          · cases hvalue
            exact .inl ⟨hknown, x, List.mem_cons_self .., rfl, hplace⟩
          · exact .inr hold

/-- Whether a copy is listed as missing, by where its header stands. -/
def lists (h : Headers) (x : Header) : Bool :=
  match x.place with
  | .native _ => h.missingNative.contains x.key
  | .external _ _ => h.missingExternal.contains x.key

theorem contains_insert {V : Type*} {m : SortedMap CopyKey V} {k : CopyKey} {v : V}
    (h : m.contains key = true ∨ k = key) : (m.insert k v).contains key = true := by
  rw [SortedMap.contains, SortedMap.get?_insert]
  split_ifs with hk
  · rfl
  · exact h.resolve_right fun heq => hk heq.symm

theorem lists_add {h : Headers} {x y : Header} (hy : h.lists y = true ∨ x = y ∧ known x.key = false) :
    (h.add known x).lists y = true := by
  unfold lists at hy ⊢
  rcases hy with hold | ⟨rfl, hunknown⟩
  · cases hplace : y.place <;> rw [hplace] at hold <;> simp only [add] <;> cases x.place <;>
      simp only [] <;> first
      | exact hold
      | split_ifs
        · exact hold
        · exact contains_insert (.inl hold)
  · cases hplace : x.place <;> simp only [add, hplace, hunknown] <;> exact contains_insert (.inr rfl)

/-- Every header whose copy is not known is listed. -/
theorem lists_foldl_add {l : List Header} {h : Headers} {y : Header}
    (hy : h.lists y = true ∨ y ∈ l ∧ known y.key = false) : (l.foldl (add known) h).lists y = true := by
  induction l generalizing h with
  | nil => exact hy.resolve_right fun hmem => List.not_mem_nil hmem.1
  | cons x rest ih =>
    apply ih
    rcases hy with hold | ⟨hmem, hunknown⟩
    · exact .inl (lists_add (.inl hold))
    · rcases List.mem_cons.mp hmem with rfl | hrest
      · exact .inl (lists_add (.inr ⟨rfl, hunknown⟩))
      · exact .inr ⟨hrest, hunknown⟩

end Headers

namespace Retained
variable (r : Retained Values) (record : IndexRecord Values)

theorem publish_headers : (r.publish record).headers = r.headers.forget record.key := by
  cases record <;> rfl

theorem publish_observed : (r.publish record).observed = r.observed := by
  cases record <;> rfl

theorem publish_owner : (r.publish record).owner = r.owner := by
  cases record <;> rfl

/-- A published key is known, and every other is as before. -/
theorem publish_known (key : CopyKey) :
    (r.publish record).known key = (r.known key || key = record.key) := by
  cases record with
  | available v =>
    by_cases hkey : key = v.key
    · simp [known, publish, IndexRecord.key, SortedMap.contains, hkey]
    · simp [known, publish, IndexRecord.key, SortedMap.contains, SortedMap.get?_insert, SortedMap.get?_erase, hkey]
  | excluded k =>
    by_cases hkey : key = k
    · simp [known, publish, IndexRecord.key, SortedMap.contains, hkey]
    · simp [known, publish, IndexRecord.key, SortedMap.contains, SortedMap.get?_insert, SortedMap.get?_erase, hkey]

end Retained

/-! ### Headers of a growing mailbox -/

/-- What of an external message never changes. -/
def MessageView.fixed (v : MessageView) : ExternalMessage × U64 := (v.message, v.sequence)

namespace Mailbox

/-- A mailbox only grows. -/
theorem sync_grows {me : ProtocolIdentity} {m m' : Mailbox} {pages : List (Except MemberError MailboxPage)}
    (h : m.sync me pages = .ok m') : ∃ added, m'.records = m.records ++ added := by
  induction pages generalizing m with
  | nil => cases h
  | cons answer rest ih =>
    obtain ⟨page, hpage, hread⟩ := bind_eq_ok.mp h
    subst hpage
    clear h
    obtain ⟨next, hnext, h⟩ := bind_eq_ok.mp hread
    have hgrows := foldlM_push hnext
    by_cases hlast : page.nextAfter ≤ m.after
    · rw [if_pos hlast] at h
      cases h
      exact ⟨_, hgrows.records⟩
    · rw [if_neg hlast] at h
      obtain ⟨added, hadded⟩ := ih h
      exact ⟨_, hadded.trans (by rw [hgrows.records, List.append_assoc])⟩

end Mailbox

theorem mergeMessage_fixed {messages messages' : List MessageView} {entry : MessageView}
    (h : mergeMessage messages entry = .ok messages') :
    messages.map MessageView.fixed <+: messages'.map MessageView.fixed := by
  induction messages generalizing messages' with
  | nil => exact List.nil_prefix
  | cons old rest ih =>
    rw [mergeMessage] at h
    by_cases hid : old.id = entry.id
    · rw [if_pos hid] at h
      obtain ⟨⟨⟩, hsame, h⟩ := bind_eq_ok.mp h
      cases h
      rw [refuseIf_eq_ok, not_or, not_not, not_not] at hsame
      rw [List.map_cons, List.map_cons, show old.fixed = entry.fixed from Prod.ext hsame.1 hsame.2]
    · rw [if_neg hid] at h
      obtain ⟨rest', hrest, h⟩ := bind_eq_ok.mp h
      cases h
      exact List.cons_prefix_cons.mpr ⟨rfl, ih hrest⟩

theorem foldlM_mergeMessage_fixed {entries messages messages' : List MessageView}
    (h : entries.foldlM mergeMessage messages = .ok messages') :
    messages.map MessageView.fixed <+: messages'.map MessageView.fixed := by
  induction entries generalizing messages with
  | nil =>
    cases h
    exact List.prefix_refl _
  | cons entry rest ih =>
    obtain ⟨next, hnext, h⟩ := bind_eq_ok.mp h
    exact (mergeMessage_fixed hnext).trans (ih h)

/-- No message of a conversation is missing from what it has become. -/
def Kept (messages messages' : List MessageView) : Prop :=
  ∀ m ∈ messages, ∃ m' ∈ messages', m'.id = m.id

instance (messages messages' : List MessageView) : Decidable (Kept messages messages') :=
  inferInstanceAs (Decidable (∀ m ∈ messages, ∃ m' ∈ messages', m'.id = m.id))

/-- Messages in the order of their sequence, each once. -/
structure InSequence (messages : List MessageView) : Prop where
  ordered : messages.Pairwise fun a b => a.sequence ≤ b.sequence
  distinct : (messages.map MessageView.id).Nodup

section
variable [Crypto] {Rest : Type} {known : Option WorkspaceRecord} {p : ExternalPage}
  {now : MessageId → CanonicalTime} {record : WorkspaceRecord}

/-- The messages known of a conversation. -/
def WorkspaceRecord.knownMessages (known : Option WorkspaceRecord) : List MessageView :=
  (known.map messages).getD []

theorem WorkspaceRecord.read_inSequence (h : WorkspaceRecord.read known p now = .ok record)
    (hknown : InSequence (knownMessages known)) : InSequence record.messages := by
  obtain ⟨merged, hmerged, h⟩ := bind_eq_ok.mp h
  cases h
  constructor
  · exact (List.pairwise_insertionSort (fun a b : MessageView => a.sequence ≤ b.sequence) merged).filter _
  · have hperm := (List.perm_insertionSort (fun a b : MessageView => a.sequence ≤ b.sequence) merged).map MessageView.id
    have hnodup := (foldlM_mergeMessage hmerged hknown.distinct).1
    exact (hperm.nodup_iff.mpr hnodup).sublist (List.filter_sublist.map _)

/-- If no message is dropped, the messages known before stand among the new ones in the same
order, as they were. -/
theorem WorkspaceRecord.read_sublist (h : WorkspaceRecord.read known p now = .ok record)
    (hknown : InSequence (knownMessages known)) (hkept : Kept (knownMessages known) record.messages) :
    ((knownMessages known).map MessageView.fixed).Sublist (record.messages.map MessageView.fixed) := by
  obtain ⟨merged, hmerged, h⟩ := bind_eq_ok.mp h
  cases h
  have hdistinct := (foldlM_mergeMessage hmerged hknown.distinct).1
  obtain ⟨t, ht⟩ := foldlM_mergeMessage_fixed hmerged
  obtain ⟨kept, added, rfl, hsame, -⟩ := List.map_eq_append_iff.mp ht.symm
  have hids : kept.map MessageView.id = (knownMessages known).map MessageView.id := by
    have hcongr := congrArg (List.map fun e : ExternalMessage × U64 => e.1.message) hsame
    rwa [List.map_map, List.map_map] at hcongr
  -- every message known before passes the filter: what has its identifier is the message itself
  have hpasses : ∀ m ∈ kept, now m.id < m.expiresAt := by
    intro m hm
    have hid : m.id ∈ (knownMessages known).map MessageView.id := hids ▸ List.mem_map_of_mem hm
    obtain ⟨old, hold, hsameid⟩ := List.mem_map.mp hid
    obtain ⟨m', hm', hid'⟩ := hkept old hold
    rw [List.mem_filter, List.mem_insertionSort, decide_eq_true_eq] at hm'
    have heq : m' = m := List.inj_on_of_nodup_map hdistinct hm'.1 (List.mem_append_left added hm)
      (hid'.trans hsameid)
    exact heq ▸ hm'.2
  have hordered : kept.Pairwise fun a b => a.sequence ≤ b.sequence := by
    have hmap : (kept.map MessageView.fixed).Pairwise fun a b => a.2 ≤ b.2 := by
      rw [hsame, List.pairwise_map]
      exact hknown.ordered
    rw [List.pairwise_map] at hmap
    exact hmap
  have hsort := List.sublist_insertionSort hordered (List.sublist_append_left kept added)
  have hfilter := hsort.filter fun m => decide (now m.id < m.expiresAt)
  rw [List.filter_eq_self.mpr fun m hm => decide_eq_true (hpasses m hm)] at hfilter
  exact hsame ▸ hfilter.map MessageView.fixed

/-! ### Headers of a state -/

omit [Crypto] in
theorem MessageView.header_congr {id : U128} {c c' : ConversationId} {position : ℕ} {v v' : MessageView}
    (hid : c = c') (hfixed : v.fixed = v'.fixed) : v.header id c position = v'.header id c' position := by
  obtain ⟨hmessage, -⟩ := Prod.mk.inj hfixed
  unfold MessageView.header MessageView.id
  rw [hid, hmessage]

/-- Which headers a conversation contributes is fixed by what never changes of its messages. -/
theorem MemberState.recordHeaders_congr {id : U128} {r r' : WorkspaceRecord}
    (hid : r.conversation.id = r'.conversation.id)
    (hfixed : r.messages.map MessageView.fixed = r'.messages.map MessageView.fixed) :
    recordHeaders id r = recordHeaders id r' := by
  have hlength : r.messages.length = r'.messages.length := by
    simpa using congrArg List.length hfixed
  unfold recordHeaders
  refine List.ext_getElem (by simpa using hlength) fun position hp hp' => ?_
  rw [List.length_map, List.length_zipIdx] at hp hp'
  have hsame : r.messages[position].fixed = r'.messages[position].fixed := by
    simpa [List.getElem?_eq_getElem, hp, hp'] using congrArg (fun l => l[position]?) hfixed
  simp only [List.getElem_map, List.getElem_zipIdx, Nat.zero_add]
  exact MessageView.header_congr hid hsame

/-- Nothing has been dropped from one state to another: the messages have become more, or they
are the same. -/
structure MemberState.Grown (s s' : MemberState Rest) : Prop where
  native : s.headerCounts.1 ≤ s'.headerCounts.1
  external : s.headerCounts.2 ≤ s'.headerCounts.2
  same : s.headerCounts = s'.headerCounts → ∀ me, s.headers me = s'.headers me

/-- The records of the external conversations of a state are filed under their conversations,
each with its messages in sequence. -/
structure MemberState.Arranged (s : MemberState Rest) : Prop where
  filed : ∀ id r, s.externalRecords.get? id = some r → r.conversation.id.val = id
  inSequence : ∀ id r, s.externalRecords.get? id = some r → InSequence r.messages

namespace MemberState
variable {s s' s'' : MemberState Rest}

theorem Grown.refl (s : MemberState Rest) : s.Grown s := ⟨le_rfl, le_rfl, fun _ _ => rfl⟩

theorem Grown.trans (h : s.Grown s') (h' : s'.Grown s'') : s.Grown s'' where
  native := h.native.trans h'.native
  external := h.external.trans h'.external
  same heq me := by
    have hnative := h.native
    have hnative' := h'.native
    have hexternal := h.external
    have hexternal' := h'.external
    have hfirst : s.headerCounts = s'.headerCounts := by
      refine Prod.ext (le_antisymm hnative ?_) (le_antisymm hexternal ?_)
      · exact hnative'.trans_eq (congrArg Prod.fst heq).symm
      · exact hexternal'.trans_eq (congrArg Prod.snd heq).symm
    exact (h.same hfirst me).trans (h'.same (hfirst.symm.trans heq) me)

/-- Only what is neither the mailbox nor an external record differs. -/
theorem Grown.of_eq (hmailbox : s'.mailbox.records = s.mailbox.records)
    (hexternal : s'.externalRecords = s.externalRecords) : s.Grown s' := by
  have hcounts : s'.headerCounts = s.headerCounts := by rw [headerCounts, headerCounts, hmailbox, hexternal]
  refine ⟨by rw [hcounts], by rw [hcounts], fun _ me => ?_⟩
  rw [headers, headers, nativeHeaders, nativeHeaders, externalHeaders, externalHeaders, hmailbox, hexternal]

theorem Grown.of_records {added : List (U64 × MessageRecord)}
    (hmailbox : s'.mailbox.records = s.mailbox.records ++ added)
    (hexternal : s'.externalRecords = s.externalRecords) : s.Grown s' := by
  refine ⟨?_, ?_, fun heq me => ?_⟩
  · simp [headerCounts, hmailbox]
  · simp [headerCounts, hexternal]
  · have hlength := congrArg Prod.fst heq
    simp only [headerCounts, hmailbox, List.length_append] at hlength
    have hnone : added = [] := List.eq_nil_of_length_eq_zero (by omega)
    rw [hnone, List.append_nil] at hmailbox
    exact (Grown.of_eq hmailbox hexternal).same heq me

/-- One conversation is read again. -/
theorem Grown.of_insert {id : U128} {record : WorkspaceRecord} (hs : s.Arranged)
    (hmailbox : s'.mailbox.records = s.mailbox.records)
    (hexternal : s'.externalRecords = s.externalRecords.insert id record)
    (hid : record.conversation.id.val = id)
    (hfixed : ((WorkspaceRecord.knownMessages (s.externalRecords.get? id)).map MessageView.fixed).Sublist
      (record.messages.map MessageView.fixed)) : s.Grown s' := by
  have hcount := SortedMap.sumBy_insert s.externalRecords id record fun r => r.messages.length
  have hshare : ((s.externalRecords.get? id).map fun r => r.messages.length).getD 0 =
      (WorkspaceRecord.knownMessages (s.externalRecords.get? id)).length := by
    cases s.externalRecords.get? id <;> rfl
  have hlength := hfixed.length_le
  rw [List.length_map, List.length_map] at hlength
  rw [← hexternal, hshare] at hcount
  refine ⟨by simp [headerCounts, hmailbox], ?_, fun heq me => ?_⟩
  · show s.externalRecords.sumBy _ ≤ s'.externalRecords.sumBy _
    omega
  · have hsum : s.externalRecords.sumBy (fun r => r.messages.length) =
        s'.externalRecords.sumBy fun r => r.messages.length := congrArg Prod.snd heq
    have hsame := hfixed.eq_of_length (by rw [List.length_map, List.length_map]; omega)
    have hheaders : s'.externalHeaders = s.externalHeaders := by
      rw [externalHeaders, externalHeaders, hexternal]
      apply SortedMap.flatMap_insert
      cases hold : s.externalRecords.get? id with
      | none =>
        rw [hold] at hsame
        have hempty : record.messages = [] := List.map_eq_nil_iff.mp hsame.symm
        simp [recordHeaders, hempty]
      | some old =>
        rw [hold] at hsame
        exact recordHeaders_congr (NamedId.val_injective ((hs.filed id old hold).trans hid.symm)) hsame
    rw [headers, headers, nativeHeaders, nativeHeaders, hmailbox, hheaders]

/-- Some external message the state holds is no longer held. -/
def dropsTo (s s' : MemberState Rest) : Bool :=
  !decide (∀ e ∈ s.externalRecords.entries,
    Kept e.2.messages (WorkspaceRecord.knownMessages (s'.externalRecords.get? e.1)))

end MemberState

/-! ### Runs -/

/-- A device and its retained index, between two operations; and whether an external message has
been dropped since the index last looked at the headers. -/
structure HeaderRun (Values : Type) where
  state : ClientState
  index : Retained Values
  dropped : Bool

inductive HeaderCall (Values : Type)
  | sync (pages : List (Except MemberError MailboxPage))
  | read (id : ConversationId) (after : U64) (through : Option U64) (page : ExternalPage)
    (now : MessageId → CanonicalTime)
  | edit (deletion : Option ConversationId)
  | publish (record : IndexRecord Values)
  | reload (records : List (IndexRecord Values))
  | observe

namespace HeaderRun

/-- A device that has just been enrolled, and an index that has looked at nothing. -/
def enrolled (persona : ProtocolIdentity) : HeaderRun Values :=
  ⟨.enrolled persona none, .empty persona, false⟩

def call (x : HeaderRun Values) : HeaderCall Values → Except MemberError (HeaderRun Values)
  | .sync pages => do
    let mailbox ← x.state.mailbox.sync x.state.persona pages
    .ok {x with state := {x.state with mailbox}}
  | .read id after through page now => do
    let state ← x.state.readPage id after through page now
    .ok {x with state, dropped := x.dropped || x.state.dropsTo state}
  | .edit deletion => .ok {x with state := {x.state with rest := deletion}}
  | .publish record => .ok {x with index := x.index.publish record}
  | .reload records => .ok {x with index := .ofRecords x.index.owner records}
  | .observe => .ok {x with index := x.index.observeHeaders x.state, dropped := false}

/-- When the index looks at as many headers as before, none has been dropped in between. -/
def Settled (x : HeaderRun Values) (c : HeaderCall Values) : Prop :=
  c = .observe → x.index.observed = some x.state.headerCounts → x.dropped = false

/-- The headers an index would observe if it started over. -/
def recomputed (x : HeaderRun Values) : Headers :=
  (x.state.headers x.index.owner).foldl (Headers.add x.index.known) .empty

/-- What the index has observed is what it would observe if it started over. A copy listed as
missing is neither indexed nor excluded and stands at the place listed; and every such copy is
listed. -/
structure Coherent (x : HeaderRun Values) : Prop where
  recomputed : x.index.headers = x.recomputed
  native : ∀ key position, x.index.headers.missingNative.get? key = some position →
    x.index.known key = false ∧ ∃ e, x.state.mailbox.records[position]? = some e ∧
      (e.2.header x.index.owner position).key = key
  external : ∀ key id position, x.index.headers.missingExternal.get? key = some (id, position) →
    x.index.known key = false ∧ ∃ r view, x.state.externalRecords.get? id = some r ∧
      r.messages[position]? = some view ∧ (view.header id r.conversation.id position).key = key
  listed : ∀ h ∈ x.state.headers x.index.owner, x.index.known h.key = false →
    x.index.headers.lists h = true

/-- What the index has observed are the headers of the state it last looked at, which has only
grown since if nothing was dropped. -/
structure Tracks (x : HeaderRun Values) : Prop where
  arranged : x.state.Arranged
  last : x.index.observed = none ∨ ∃ s₀ : ClientState, x.index.observed = some s₀.headerCounts ∧
    x.index.headers = (s₀.headers x.index.owner).foldl (Headers.add x.index.known) .empty ∧
    (x.dropped = false → s₀.Grown x.state)

variable {x x' : HeaderRun Values}

theorem coherent_of_recomputed (h : x.index.headers = x.recomputed) : x.Coherent := by
  have hlisted : ∀ key place, x.index.headers.ListedAt key place → x.index.known key = false ∧
      ∃ y ∈ x.state.headers x.index.owner, y.key = key ∧ y.place = place := by
    intro key place hmissing
    rw [h] at hmissing
    rcases Headers.place_of_listed hmissing with hfound | hempty
    · exact hfound
    · cases place <;> cases hempty
  constructor
  case recomputed => exact h
  case native =>
    intro key position hmissing
    obtain ⟨hunknown, y, hy, rfl, hplace⟩ := hlisted key (.native position) hmissing
    refine ⟨hunknown, ?_⟩
    rcases List.mem_append.mp hy with hnative | hexternal
    · obtain ⟨⟨e, position'⟩, he, rfl⟩ := List.mem_map.mp hnative
      cases hplace
      exact ⟨e, List.mem_zipIdx_iff_getElem?.mp he, rfl⟩
    · obtain ⟨⟨id, r⟩, -, hrecord⟩ := List.mem_flatMap.mp hexternal
      obtain ⟨⟨v, position'⟩, -, rfl⟩ := List.mem_map.mp hrecord
      cases hplace
  case external =>
    intro key id position hmissing
    obtain ⟨hunknown, y, hy, rfl, hplace⟩ := hlisted key (.external id position) hmissing
    refine ⟨hunknown, ?_⟩
    rcases List.mem_append.mp hy with hnative | hexternal
    · obtain ⟨⟨e, position'⟩, -, rfl⟩ := List.mem_map.mp hnative
      cases hplace
    · obtain ⟨⟨id', r⟩, hr, hrecord⟩ := List.mem_flatMap.mp hexternal
      obtain ⟨⟨v, position'⟩, hv, rfl⟩ := List.mem_map.mp hrecord
      cases hplace
      exact ⟨r, v, SortedMap.mem_entries.mp hr, List.mem_zipIdx_iff_getElem?.mp hv, rfl⟩
  case listed =>
    intro y hy hunknown
    rw [h]
    exact Headers.lists_foldl_add (.inr ⟨hy, hunknown⟩)

end HeaderRun

namespace Retained
variable (r : Retained Values) (s : ClientState)

theorem observeHeaders_owner : (r.observeHeaders s).owner = r.owner := by
  unfold observeHeaders
  cases s.rest <;> simp only [] <;> split_ifs <;> rfl

theorem observeHeaders_known : (r.observeHeaders s).known = r.known := by
  unfold observeHeaders
  cases s.rest <;> simp only [] <;> split_ifs <;> rfl

theorem observeHeaders_observed : (r.observeHeaders s).observed = some s.headerCounts := by
  unfold observeHeaders
  cases s.rest <;> simp only [] <;> split_ifs with h <;> first | rfl | exact not_not.mp h

theorem observeHeaders_headers : (r.observeHeaders s).headers =
    if r.observed ≠ some s.headerCounts then (s.headers r.owner).foldl (Headers.add r.known) .empty
    else r.headers := by
  unfold observeHeaders
  cases s.rest <;> simp only [] <;> split_ifs <;> first | rfl | contradiction

omit [Crypto] in
theorem ofRecords_observed (owner : ProtocolIdentity) (records : List (IndexRecord Values)) :
    (ofRecords owner records).observed = none := by
  have hfold : ∀ r : Retained Values, (records.foldl publish r).observed = r.observed := by
    induction records with
    | nil => exact fun _ => rfl
    | cons record rest ih => exact fun r => (ih (r.publish record)).trans (publish_observed r record)
  exact hfold (.empty owner)

end Retained

namespace MemberState
variable {s s' : MemberState Rest}

/-- What a page does to the external records. -/
theorem readPage_records {id : ConversationId} {after : U64} {through : Option U64} {page : ExternalPage}
    {now : MessageId → CanonicalTime} (h : s.readPage id after through page now = .ok s') :
    ∃ record, WorkspaceRecord.read (s.externalRecords.get? id.val) page now = .ok record ∧
      record.conversation.id = id ∧ s'.mailbox = s.mailbox ∧
      s'.externalRecords = s.externalRecords.insert id.val record := by
  obtain ⟨⟨⟩, hscope, h⟩ := bind_eq_ok.mp h
  obtain ⟨seen, -, h⟩ := bind_eq_ok.mp h
  obtain ⟨record, hread, h⟩ := bind_eq_ok.mp h
  cases h
  rw [ExternalPage.checkScope, refuseIf_eq_ok, not_or, not_not] at hscope
  have hknown : s.externalRecord id.val = s.externalRecords.get? id.val := by
    unfold externalRecord externalRecords
    cases s.external <;> rfl
  refine ⟨record, hknown ▸ hread, ?_, rfl, ?_⟩
  · obtain ⟨messages, -, hread⟩ := bind_eq_ok.mp hread
    cases hread
    exact hscope.1
  · unfold externalRecords
    cases s.external <;> rfl

theorem Arranged.readPage (hs : s.Arranged) {id : ConversationId} {after : U64} {through : Option U64}
    {page : ExternalPage} {now : MessageId → CanonicalTime}
    (h : s.readPage id after through page now = .ok s') :
    s'.Arranged ∧ (s.dropsTo s' = false → s.Grown s') := by
  obtain ⟨record, hread, hid, hmailbox, hexternal⟩ := readPage_records h
  have hknown : InSequence (WorkspaceRecord.knownMessages (s.externalRecords.get? id.val)) := by
    cases hold : s.externalRecords.get? id.val with
    | none => exact ⟨List.Pairwise.nil, List.nodup_nil⟩
    | some old => exact hs.inSequence _ old hold
  refine ⟨⟨fun id' r hr => ?_, fun id' r hr => ?_⟩, fun hkept => ?_⟩
  · rw [hexternal] at hr
    rcases SortedMap.get?_insert_eq_some.mp hr with ⟨rfl, rfl⟩ | ⟨-, hold⟩
    · rw [hid]
    · exact hs.filed id' r hold
  · rw [hexternal] at hr
    rcases SortedMap.get?_insert_eq_some.mp hr with ⟨rfl, rfl⟩ | ⟨-, hold⟩
    · exact WorkspaceRecord.read_inSequence hread hknown
    · exact hs.inSequence id' r hold
  · have hall : ∀ e ∈ s.externalRecords.entries,
        Kept e.2.messages (WorkspaceRecord.knownMessages (s'.externalRecords.get? e.1)) := by
      simpa [dropsTo] using hkept
    refine .of_insert hs (congrArg Mailbox.records hmailbox) hexternal (congrArg NamedId.val hid)
      (WorkspaceRecord.read_sublist hread hknown ?_)
    cases hold : s.externalRecords.get? id.val with
    | none => exact fun m hm => absurd hm List.not_mem_nil
    | some old =>
      have hkeeps := hall _ (SortedMap.mem_entries.mpr hold)
      rw [hexternal, SortedMap.get?_insert_self] at hkeeps
      exact hkeeps

end MemberState

namespace HeaderRun
variable {x x' : HeaderRun Values}

theorem enrolled_tracks (persona : ProtocolIdentity) : (enrolled persona : HeaderRun Values).Tracks where
  arranged := ⟨fun _ _ hr => (by cases hr), fun _ _ hr => (by cases hr)⟩
  last := .inl rfl

/-- At the moment the index looks, it has observed the headers of the state. -/
theorem Tracks.recomputed (h : x.Tracks) (hsettled : x.Settled .observe) :
    (x.index.observeHeaders x.state).headers =
      (x.state.headers x.index.owner).foldl (Headers.add x.index.known) .empty := by
  rw [Retained.observeHeaders_headers]
  split_ifs with hcounts
  · rfl
  · rw [not_not] at hcounts
    rcases h.last with hnone | ⟨s₀, hobserved, hheaders, hgrown⟩
    · cases hnone.symm.trans hcounts
    · have hsame := (hgrown (hsettled rfl hcounts)).same (Option.some.inj (hobserved.symm.trans hcounts))
      rw [hheaders, hsame]

theorem Tracks.call {c : HeaderCall Values} (h : x.Tracks) (hsettled : x.Settled c)
    (hcall : x.call c = .ok x') : x'.Tracks := by
  cases c with
  | sync pages =>
    obtain ⟨mailbox, hsync, hcall⟩ := bind_eq_ok.mp hcall
    cases hcall
    obtain ⟨added, hadded⟩ := Mailbox.sync_grows hsync
    refine ⟨⟨h.arranged.filed, h.arranged.inSequence⟩, h.last.imp_right ?_⟩
    exact fun ⟨s₀, hobserved, hheaders, hgrown⟩ => ⟨s₀, hobserved, hheaders, fun hdropped =>
      (hgrown hdropped).trans (.of_records hadded rfl)⟩
  | read id after through page now =>
    obtain ⟨state, hread, hcall⟩ := bind_eq_ok.mp hcall
    cases hcall
    obtain ⟨harranged, hgrown'⟩ := h.arranged.readPage hread
    refine ⟨harranged, h.last.imp_right ?_⟩
    rintro ⟨s₀, hobserved, hheaders, hgrown⟩
    refine ⟨s₀, hobserved, hheaders, fun hdropped => ?_⟩
    obtain ⟨hbefore, hpage⟩ := Bool.or_eq_false_iff.mp hdropped
    exact (hgrown hbefore).trans (hgrown' hpage)
  | edit deletion =>
    cases hcall
    refine ⟨⟨h.arranged.filed, h.arranged.inSequence⟩, h.last.imp_right ?_⟩
    exact fun ⟨s₀, hobserved, hheaders, hgrown⟩ => ⟨s₀, hobserved, hheaders, fun hdropped =>
      (hgrown hdropped).trans (.of_eq rfl rfl)⟩
  | publish record =>
    cases hcall
    refine ⟨h.arranged, ?_⟩
    rw [Retained.publish_observed, Retained.publish_owner, Retained.publish_headers]
    refine h.last.imp_right ?_
    rintro ⟨s₀, hobserved, hheaders, hgrown⟩
    refine ⟨s₀, hobserved, ?_, hgrown⟩
    rw [hheaders, Headers.forget_foldl_add (Retained.publish_known x.index record)]
    rfl
  | reload records =>
    cases hcall
    exact ⟨h.arranged, .inl (Retained.ofRecords_observed x.index.owner records)⟩
  | observe =>
    cases hcall
    refine ⟨h.arranged, .inr ⟨x.state, Retained.observeHeaders_observed x.index x.state, ?_, fun _ => .refl x.state⟩⟩
    rw [h.recomputed hsettled, Retained.observeHeaders_owner, Retained.observeHeaders_known]

/-- **A settled index is coherent.** Whatever is appended, observed anew, dropped, published and
reloaded, an index that looks at the headers afterwards has observed those of the state, if
whenever it looks at as many as before none has been dropped in between. -/
theorem headers_coherent (persona : ProtocolIdentity) (calls : List (HeaderCall Values))
    (h : Machine.Along call Settled (enrolled persona) (calls ++ [.observe])) :
    (Machine.run call (enrolled persona) (calls ++ [.observe])).Coherent := by
  obtain ⟨hbefore, hlast, -⟩ := Machine.along_append.mp h
  have htracks := Machine.run_preserves_along (fun _ _ _ hC hP => Tracks.call hP hC)
    (enrolled_tracks persona) hbefore
  rw [Machine.run_append]
  apply coherent_of_recomputed
  show (Retained.observeHeaders _ _).headers = _
  rw [htracks.recomputed hlast]
  show _ = List.foldl (Headers.add (Retained.observeHeaders _ _).known) .empty
    (MemberState.headers _ (Retained.observeHeaders _ _).owner)
  rw [Retained.observeHeaders_owner, Retained.observeHeaders_known]
  rfl

end HeaderRun
end

/-! ### A message in the place of another -/

namespace HeaderRun.Example
open Device.Example (crypto)

/-- The identity of the mailbox. -/
def guest : ProtocolIdentity := ⟨1⟩

def member : ProtocolIdentity := ⟨2⟩

def thread : ConversationId := ⟨57, by decide⟩

/-- A conversation of the member with the mailbox. -/
def conversation : @ExternalConversation crypto :=
  @ExternalConversation.mk crypto {
    conversation := .new thread ⟨guest, member, by decide, by decide⟩
    member
    receivingAlias := ⟨13, by decide⟩
    mailbox := ⟨[], ⟨[]⟩⟩
    deployment := zero32
    invitation := .notRequired
    disclosure := .notGranted
    createdAt := ⟨0⟩} (by decide +kernel)

def relationship : Relationship where
  replyEpoch := ⟨0⟩
  key := ⟨⟨1, zero32⟩, guest, member⟩
  history := ⟨1, zero32⟩
  generation := 0
  state := .accepted
  version := ⟨0⟩
  lastEvent := none
  changedAt := ⟨0⟩

def senderKey : EndpointPublicKey := ⟨⟨8⟩, Vector.replicate 32 1⟩

/-- A copy of a message the member wrote. -/
def copy (message : MessageId) (expires : CanonicalTime) : SealedRecord where
  binding := {
    contentRef := ⟨1⟩
    message
    sender := member
    recipient := member
    protocolVersion := ⟨2⟩
    relationship := ⟨1, zero32⟩
    declarations := ⟨.unspecified, ⟨.humanInitiated, .nativeSender ⟨1⟩⟩, none⟩
    messageValidUntil := ⟨⟨300⟩⟩
    capability := none
    wireVersion := ⟨1⟩
    contentScope := ⟨1, zero32⟩
    senderCertificate := zero32}
  envelope := ⟨⟨8⟩, ⟨9⟩, List.replicate 32 0, List.replicate 16 0⟩
  createdAt := ⟨10⟩
  expiresAt := expires

def written (message : MessageId) (hmessage : ManifestRecord.validate
    ⟨none, message, thread, ⟨zero32⟩, [.text 1], []⟩ = .ok ()) (expires : CanonicalTime) : ExternalMessage where
  fields := {
    manifest := ⟨⟨none, message, thread, ⟨zero32⟩, [.text 1], []⟩, hmessage⟩
    senderKey
    memberCopy := copy message expires
    direction := .memberToGuest
    committedAt := ⟨10⟩}
  bound := by simp [MessageFields.bound, copy]

def earlier : MessageView := ⟨1, written ⟨7⟩ (by decide) ⟨100⟩, none, []⟩

def later : MessageView := ⟨2, written ⟨8⟩ (by decide) ⟨200⟩, none, []⟩

def page (messages : List MessageView) (revision : U64) : @ExternalPage crypto :=
  @ExternalPage.mk crypto conversation relationship messages revision revision

/-- The first message is read while it can be opened. -/
def first : List (@HeaderCall crypto Unit) :=
  [@HeaderCall.read crypto Unit thread 0 none (page [earlier] 1) fun _ => ⟨50⟩]

/-- The second is read when the first has expired. -/
def replaced : List (@HeaderCall crypto Unit) :=
  first ++ [@HeaderCall.observe crypto Unit,
    @HeaderCall.read crypto Unit thread 1 none (page [later] 2) fun _ => ⟨150⟩]

/-- The device and the index after the calls, once the index has looked. -/
def after (calls : List (@HeaderCall crypto Unit)) : @HeaderRun crypto Unit :=
  letI := crypto
  Machine.run HeaderRun.call (HeaderRun.enrolled member) (calls ++ [.observe])

/-- Where the index lists the first message as missing, and where it would if it started over. -/
def listed (calls : List (@HeaderCall crypto Unit)) : Option (U128 × ℕ) × Option (U128 × ℕ) :=
  letI := crypto
  ((after calls).index.headers.missingExternal.get? ⟨.external thread, ⟨7⟩⟩,
    (after calls).recomputed.missingExternal.get? ⟨.external thread, ⟨7⟩⟩)

theorem listed_replaced : listed replaced = (some (57, 0), none) := by
  decide +kernel

end HeaderRun.Example

namespace HeaderRun

/-- A message read before it expires is listed where it stands. -/
theorem headers_coherent_first : @Coherent Unit Device.Example.crypto (Example.after Example.first) := by
  refine @headers_coherent Unit Device.Example.crypto Example.member Example.first ⟨?_, ?_, trivial⟩
  · exact fun hread => by cases hread
  · exact fun _ hobserved => by cases hobserved

/-- When a message takes the place of one that has expired, the index does not look again, and
still lists the old one where the new one stands. -/
theorem replaced_unnoticed : ¬∀ (_ : Crypto) (persona : ProtocolIdentity) (calls : List (HeaderCall Unit)),
    (Machine.run call (enrolled persona) (calls ++ [.observe])).Coherent := by
  intro h
  have hcoherent := h Device.Example.crypto Example.member Example.replaced
  have hsame := congrArg (fun x => x.missingExternal.get? ⟨.external Example.thread, ⟨7⟩⟩)
    (@Coherent.recomputed Unit Device.Example.crypto _ hcoherent)
  have hfirst := congrArg Prod.fst Example.listed_replaced
  have hsecond := congrArg Prod.snd Example.listed_replaced
  cases hfirst.symm.trans (hsame.trans hsecond)

end HeaderRun
end CsMail
