import CsMail.Member.RetentionProofs

/-! Hidden copies and deleted copies.

Only the rebuild of the index excludes what it finds hidden. Where it meets no copy that a pending
deletion hides and that has not expired, copies are removed for final reasons only, and a deletion
that is refused leaves every other copy readable (`copies_kept`). -/
namespace CsMail
open Library
variable {Values : Type}

section
variable [Crypto] [Embedding Values]

/-! ### Runs -/

/-- A client between two checkpoints, and the conversations whose deletion has been confirmed. -/
structure RetentionRun (Values : Type) where
  client : MemberClient Values
  confirmed : List ConversationId

/-- An index in memory is the one of the store. It hides what a pending deletion asks it to, and
nothing else but what has been deleted. -/
structure LoadedIndex.Sound (l : LoadedIndex Values) (x : RetentionRun Values) : Prop where
  owner : l.retained.owner = x.client.state.persona
  pending : l.retained.pending = ∅
  mirrors : l.retained.Mirrors x.client.store.records
  suspended : ∀ id, l.retained.suspended.contains id = true → x.client.state.rest = some id ∨ id ∈ x.confirmed
  hidden : ∀ id, x.client.state.rest = some id → l.retained.suspended.contains id = true

namespace RetentionRun

structure Sound (x : RetentionRun Values) : Prop where
  store : x.client.store.Sound x.client.state.persona
  index : ∀ l, x.client.index = some l → l.Sound x

omit [Embedding Values] in
theorem suspended_observed (r : Retained Values) (s : ClientState) (id : ConversationId) :
    (r.observeHeaders s).suspended.contains id = true ↔ s.rest = some id ∨ r.suspended.contains id = true := by
  have hsuspend : ∀ id', (r.suspend id').suspended.contains id = true ↔
      some id' = some id ∨ r.suspended.contains id = true := by
    intro id'
    rw [SortedMap.contains_eq_true, SortedMap.contains_eq_true]
    show (∃ u, (r.suspended.insert id' ()).get? id = some u) ↔ _
    by_cases hid : id = id'
    · subst hid
      exact iff_of_true ⟨(), SortedMap.get?_insert_self ..⟩ (.inl rfl)
    · rw [SortedMap.get?_insert_ne _ _ hid]
      exact (or_iff_right fun heq => hid (Option.some.inj heq).symm).symm
  unfold Retained.observeHeaders
  cases s.rest with
  | none => simp only [reduceCtorEq, false_or]; split_ifs <;> rfl
  | some id' =>
    rw [← hsuspend id']
    dsimp only
    split_ifs <;> rfl

omit [Embedding Values] in
theorem observeHeaders_frame (r : Retained Values) (s : ClientState) :
    (r.observeHeaders s).entries = r.entries ∧ (r.observeHeaders s).deadlines = r.deadlines ∧
      (r.observeHeaders s).pending = r.pending := by
  unfold Retained.observeHeaders
  cases s.rest <;> dsimp only <;> split_ifs <;> exact ⟨rfl, rfl, rfl⟩

omit [Embedding Values] in
/-- Looking at the headers lists nothing as missing that is available. -/
theorem mirrors_observe {r : Retained Values} {records : SortedMap CopyKey (IndexRecord Values)}
    (h : r.Mirrors records) (s : ClientState) : (r.observeHeaders s).Mirrors records := by
  obtain ⟨hentries, hdeadlines, -⟩ := observeHeaders_frame r s
  refine ⟨fun key => ?_, fun key t hdue => ?_, fun key place hmissing => ?_⟩
  · rw [hentries]
    exact h.entries key
  · rw [hentries]
    rw [hdeadlines] at hdue
    exact h.due key t hdue
  · rw [hentries]
    rw [Retained.observeHeaders_headers] at hmissing
    split_ifs at hmissing
    · have hlisted : ((s.headers r.owner).foldl (Headers.add r.known) .empty).ListedAt key (.external place.1 place.2) :=
        hmissing
      rcases Headers.place_of_listed hlisted with ⟨hunknown, -⟩ | hempty
      · unfold Retained.known at hunknown
        rw [Bool.or_eq_false_iff, Bool.or_eq_false_iff] at hunknown
        exact SortedMap.contains_eq_false.mp hunknown.1.1
      · cases hempty
    · exact h.missing key place hmissing

variable {x : RetentionRun Values}

theorem Sound.held (h : x.Sound) : ∃ l, x.client.held = .ok l ∧ l.retained.owner = x.client.state.persona ∧
    l.retained.pending = ∅ ∧ l.retained.Mirrors x.client.store.records ∧
    ∀ id, l.retained.suspended.contains id = true → x.client.state.rest = some id ∨ id ∈ x.confirmed := by
  unfold MemberClient.held
  cases hindex : x.client.index with
  | some l =>
    have hl := h.index l hindex
    exact ⟨l, rfl, hl.owner, hl.pending, hl.mirrors, hl.suspended⟩
  | none =>
    obtain ⟨hread, hmirrors⟩ := h.store.read
    obtain ⟨howner, hpending, hsuspended⟩ := MemberClient.publishAll_frame x.client.store.records.values
      (.empty x.client.state.persona)
    refine ⟨_, hread, howner, hpending, hmirrors, fun id hid => ?_⟩
    rw [Retained.ofRecords, hsuspended] at hid
    cases hid

/-- An index that is loaded is the one of the store, and hides what is pending. -/
theorem Sound.load (h : x.Sound) {session : Option U64} {l : LoadedIndex Values}
    (hl : x.client.load session = .ok l) : l.Sound x := by
  obtain ⟨held, hheld, howner, hpending, hmirrors, hsuspended⟩ := h.held
  obtain ⟨current, -, hl⟩ := bind_eq_ok.mp hl
  obtain ⟨⟨⟩, -, hl⟩ := bind_eq_ok.mp hl
  obtain ⟨l', hl', hl⟩ := bind_eq_ok.mp hl
  cases hheld.symm.trans hl'
  obtain ⟨⟨⟩, -, hl⟩ := bind_eq_ok.mp hl
  cases hl
  obtain ⟨-, -, hkept⟩ := observeHeaders_frame held.retained x.client.state
  refine ⟨(held.retained.observeHeaders_owner _).trans howner, hkept.trans hpending, mirrors_observe hmirrors _,
    fun id hid => ?_, fun id hid => (suspended_observed ..).mpr (.inl hid)⟩
  exact ((suspended_observed ..).mp hid).elim .inl (hsuspended id)

/-- While the search lifetime is open, the index of a sound client can be loaded. -/
theorem Sound.load_succeeds (h : x.Sound) {current : U64} (hcurrent : x.client.searchSession = .ok current) :
    ∃ l, x.client.load none = .ok l := by
  obtain ⟨held, hheld, howner, -⟩ := h.held
  refine ⟨{held with retained := held.retained.observeHeaders x.client.state}, ?_⟩
  refine bind_eq_ok.mpr ⟨current, hcurrent, bind_eq_ok.mpr ⟨⟨⟩, refuseIf_eq_ok.mpr (by simp), ?_⟩⟩
  exact bind_eq_ok.mpr ⟨held, hheld, bind_eq_ok.mpr ⟨⟨⟩, refuseIf_eq_ok.mpr (not_not.mpr howner), rfl⟩⟩

/-- A checkpoint keeps a client sound, and removes what it has a reason to. -/
theorem Sound.checkpoint (h : x.Sound) {session : Option U64}
    {prepare : Retained Values → Except MemberError (Option (Retained Values))} {Out : CopyKey → Prop}
    (hprepare : ∀ (l : LoadedIndex Values) r, l.Sound x → prepare l.retained = .ok (some r) → l.retained.Changes Out r)
    (answer : CommitAnswer) :
    (x.client.checkpoint session prepare answer).1.state = x.client.state ∧
      (⟨(x.client.checkpoint session prepare answer).1, x.confirmed⟩ : RetentionRun Values).Sound ∧
      ∀ key v, x.client.store.available key = some v →
        (x.client.checkpoint session prepare answer).1.store.available key = none → Out key := by
  have hfollows : (x.client.checkpoint session prepare answer).1 = x.client ∨ ∃ l : LoadedIndex Values, l.Sound x ∧
      x.client.Follows l.retained Out (x.client.checkpoint session prepare answer).1 := by
    unfold MemberClient.checkpoint
    cases hload : x.client.load session with
    | error e => exact .inl rfl
    | ok l =>
      have hl := h.load hload
      have hunsaved : x.client.Follows l.retained Out {x.client with index := some l} := by
        refine .unsaved h.store fun l' hl' => ?_
        cases hl'
        exact ⟨hl.mirrors, rfl, hl.pending, rfl⟩
      right
      refine ⟨l, hl, ?_⟩
      dsimp only
      split
      · rename_i r hr
        exact MemberClient.save_follows h.store hl.mirrors hl.owner (hprepare l r hl hr) answer
      · exact hunsaved
      · exact hunsaved
  rcases hfollows with hsame | ⟨l, hl, hfollows⟩
  · rw [hsame]
    exact ⟨rfl, h, fun key v hv hlost => by cases hv.symm.trans hlost⟩
  · refine ⟨hfollows.state, ⟨?_, fun l' hl' => ?_⟩, hfollows.lost⟩
    · rw [hfollows.state]
      exact hfollows.store
    · obtain ⟨hmirrors, howner, hpending, hsuspended⟩ := hfollows.index l' hl'
      refine ⟨?_, hpending, hmirrors, ?_, ?_⟩
      · rw [hfollows.state]
        exact howner.trans hl.owner
      · rw [hfollows.state, hsuspended]
        exact hl.suspended
      · rw [hfollows.state, hsuspended]
        exact hl.hidden

end RetentionRun

/-! ### Why a copy is removed -/

namespace RetentionCall

/-- The times a call reads when it looks at a copy. -/
def readings : RetentionCall Values → CopyKey → List CanonicalTime
  | upgradeText clock .., key | indexMissing _ _ clock .., key | rebuild clock .., key => [clock key]
  | indexSources _ _ now clock .., key => [now, clock key]
  | retainFetched _ _ _ _ now _, _ | retainBatch _ _ _ _ now _, _ | publishProjection _ _ _ _ _ now _, _ => [now]
  | _, _ => []

/-- The server answers that the copy is unavailable. -/
def unavailable : RetentionCall Values → CopyKey → Bool
  | retainFetched _ key _ .unavailable _ _, k | retainBatch _ key _ .unavailable _ _, k => k = key
  | _, _ => false

end RetentionCall

omit [Embedding Values] in
/-- The conversation whose deletion the server confirms. -/
def MemberClient.confirms (x : MemberClient Values) (c : RetentionCall Values) : List ConversationId :=
  match x.state.rest, c with
  | some id, .transmit .copiesDeleted _ _ => [id]
  | _, _ => []

namespace RetentionRun
variable {x : RetentionRun Values} {c : RetentionCall Values}

/-- Why a call may remove a copy for good. A deletion that was confirmed goes on hiding what is
fetched of its conversation later, as long as the index is in memory. -/
inductive Final (x : RetentionRun Values) (c : RetentionCall Values) (key : CopyKey) (v : Indexed Values) : Prop
  | expired {t : CanonicalTime} (hread : t ∈ c.readings key) (hexpired : v.expires ≤ t)
  | unavailable (h : c.unavailable key = true)
  | deleted {id : ConversationId} (hkey : key.thread = .native id) (h : id ∈ x.client.confirms c)
  | deletedBefore {id : ConversationId} (hkey : key.thread = .native id) (h : id ∈ x.confirmed)
    (hrest : x.client.state.rest ≠ some id)

/-- A rebuild finds no copy that a pending deletion hides, unless it has expired. -/
def Spared (x : RetentionRun Values) (c : RetentionCall Values) : Prop :=
  ∀ clock texts answer, c = .rebuild clock texts answer → ∀ key v id, x.client.store.available key = some v →
    key.thread = .native id → x.client.state.rest = some id → v.expires ≤ clock key

/-- What is not available any more had a reason to go. -/
def Excused (x : RetentionRun Values) (c : RetentionCall Values) (key : CopyKey) : Prop :=
  ∀ v, x.client.store.available key = some v → x.Final c key v

/-- A client after a call, where what has been removed has a reason. -/
structure Keeps (x : RetentionRun Values) (c : RetentionCall Values) (y : RetentionRun Values) : Prop where
  sound : y.Sound
  lost : ∀ key v, x.client.store.available key = some v → y.client.store.available key = none → x.Final c key v

theorem Sound.confirm (h : x.Sound) (ids : List ConversationId) : (⟨x.client, x.confirmed ++ ids⟩ : RetentionRun Values).Sound where
  store := h.store
  index l hl :=
    have hl := h.index l hl
    ⟨hl.owner, hl.pending, hl.mirrors, fun id hid => (hl.suspended id hid).imp_right (List.mem_append_left ids),
      hl.hidden⟩

theorem Sound.withState (h : x.Sound) {state : ClientState} (hpersona : state.persona = x.client.state.persona)
    (hrest : state.rest = x.client.state.rest) :
    (⟨{x.client with state}, x.confirmed⟩ : RetentionRun Values).Sound where
  store := hpersona ▸ h.store
  index l hl :=
    have hl := h.index l hl
    ⟨hl.owner.trans hpersona.symm, hl.pending, hl.mirrors, hrest ▸ hl.suspended, hrest ▸ hl.hidden⟩

theorem Sound.unloaded (h : x.Sound) (epoch : U64) :
    (⟨{x.client with index := none, epoch}, x.confirmed⟩ : RetentionRun Values).Sound where
  store := h.store
  index l hl := by cases hl

/-- Where the store is as it was, nothing has been removed. -/
theorem Keeps.of_store {y : RetentionRun Values} (hy : y.Sound) (hstore : y.client.store = x.client.store) : x.Keeps c y :=
  ⟨hy, fun key v hv hlost => by
    rw [hstore] at hlost
    cases hv.symm.trans hlost⟩

theorem Sound.keeps_checkpoint (h : x.Sound) {session : Option U64}
    {prepare : Retained Values → Except MemberError (Option (Retained Values))}
    (hprepare : ∀ (l : LoadedIndex Values) r, l.Sound x → prepare l.retained = .ok (some r) →
      l.retained.Changes (x.Excused c) r) (answer : CommitAnswer) :
    x.Keeps c ⟨(x.client.checkpoint session prepare answer).1, x.confirmed⟩ := by
  obtain ⟨-, hsound, hlost⟩ := h.checkpoint hprepare answer
  exact ⟨hsound, fun key v hv hnone => hlost key v hv hnone v hv⟩

theorem Sound.enrolled (persona : ProtocolIdentity) : (⟨.enrolled persona, []⟩ : RetentionRun Values).Sound where
  store := ⟨fun key record hrecord => (by cases hrecord), fun key v hv => by cases hv⟩
  index l hl := by cases hl

/-- Journaling a deletion hides the copies of its conversation. -/
theorem Sound.deleteCopies (h : x.Sound) (id : ConversationId) :
    (⟨x.client.deleteCopies id, x.confirmed⟩ : RetentionRun Values).Sound ∧
      (x.client.deleteCopies id).store = x.client.store := by
  unfold MemberClient.deleteCopies
  split_ifs with hidle
  · exact ⟨h, rfl⟩
  · refine ⟨⟨h.store, fun l hl => ?_⟩, rfl⟩
    obtain ⟨l₀, hl₀, rfl⟩ := Option.map_eq_some_iff.mp hl
    have hsound := h.index l₀ hl₀
    have hrest : x.client.state.rest = none := by
      simpa using (not_or.mp hidle).1
    refine ⟨hsound.owner, hsound.pending, ⟨hsound.mirrors.entries, hsound.mirrors.due, hsound.mirrors.missing⟩,
      fun id' hid => ?_, fun id' hid => ?_⟩
    · obtain ⟨u, hu⟩ := SortedMap.contains_eq_true.mp hid
      rcases SortedMap.get?_insert_eq_some.mp hu with ⟨rfl, -⟩ | ⟨-, hold⟩
      · exact .inl rfl
      · rcases hsound.suspended id' (SortedMap.contains_eq_true.mpr ⟨u, hold⟩) with hpending | hconfirmed
        · cases hrest.symm.trans hpending
        · exact .inr hconfirmed
    · cases hid
      exact SortedMap.contains_eq_true.mpr ⟨(), SortedMap.get?_insert_self ..⟩

/-- A deletion that is not pending any more leaves nothing hidden but what has been deleted. -/
theorem Sound.settled (h : x.Sound) (hconfirmed : ∀ id, x.client.state.rest = some id → id ∈ x.confirmed) :
    (⟨x.client.settled, x.confirmed⟩ : RetentionRun Values).Sound where
  store := h.store
  index l hl := by
    have hsound := h.index l hl
    refine ⟨hsound.owner, hsound.pending, hsound.mirrors, fun id hid => ?_, fun id hid => by cases hid⟩
    exact .inr ((hsound.suspended id hid).elim (hconfirmed id) fun hold => hold)

/-- A deletion that was refused hides nothing any more. -/
theorem Sound.resumed (h : x.Sound) {id : ConversationId} (hrest : x.client.state.rest = some id) :
    (⟨{x.client.settled with index := x.client.index.map fun l => {l with retained := l.retained.resume id}},
      x.confirmed⟩ : RetentionRun Values).Sound where
  store := h.store
  index l hl := by
    obtain ⟨l₀, hl₀, rfl⟩ := Option.map_eq_some_iff.mp hl
    have hsound := h.index l₀ hl₀
    refine ⟨hsound.owner, hsound.pending, ⟨hsound.mirrors.entries, hsound.mirrors.due, hsound.mirrors.missing⟩,
      fun id' hid => ?_, fun id' hid => by cases hid⟩
    have hresumed : (l₀.retained.suspended.erase id).contains id' = true := hid
    obtain ⟨u, hu⟩ := SortedMap.contains_eq_true.mp hresumed
    rw [SortedMap.get?_erase] at hu
    split_ifs at hu with hne
    rcases hsound.suspended id' (SortedMap.contains_eq_true.mpr ⟨u, hu⟩) with hpending | hconfirmed
    · exact absurd (Option.some.inj (hpending.symm.trans hrest)) hne
    · exact .inr hconfirmed

/-! ### Steps -/

section
variable [Html] [MailParser] [DocumentJson] [RetainedContent]

def enrolled (persona : ProtocolIdentity) : RetentionRun Values := ⟨.enrolled persona, []⟩

def next (x : RetentionRun Values) (c : RetentionCall Values) : RetentionRun Values :=
  ⟨x.client.step c, x.confirmed ++ x.client.confirms c⟩

def call (x : RetentionRun Values) (c : RetentionCall Values) : Except MemberError (RetentionRun Values) := .ok (x.next c)

/-- What a call that confirms nothing leads to. -/
theorem next_of_unconfirmed (hconfirms : x.client.confirms c = []) : x.next c = ⟨x.client.step c, x.confirmed⟩ := by
  show (⟨_, x.confirmed ++ _⟩ : RetentionRun Values) = _
  rw [hconfirms, List.append_nil]

omit [Embedding Values] [Html] [MailParser] [DocumentJson] [RetainedContent] in
theorem confirms_of_rested (hrest : x.client.state.rest = none) (response : DeletionResponse) (answer : CommitAnswer)
    (finishes : Bool) : x.client.confirms (.transmit response answer finishes) = [] := by
  unfold MemberClient.confirms
  rw [hrest]

omit [Embedding Values] [Html] [MailParser] [DocumentJson] [RetainedContent] in
theorem confirms_of_kept {response : DeletionResponse} (hresponse : response ≠ .copiesDeleted) (answer : CommitAnswer)
    (finishes : Bool) : x.client.confirms (.transmit response answer finishes) = [] := by
  unfold MemberClient.confirms
  cases hrest : x.client.state.rest with
  | none => rfl
  | some id =>
    cases response with
    | copiesDeleted => exact absurd rfl hresponse
    | refused | other => rfl

omit [Html] [MailParser] [DocumentJson] in
theorem transmit_rested (hrest : x.client.state.rest = none) (response : DeletionResponse) (answer : CommitAnswer)
    (finishes : Bool) : x.client.transmit response answer finishes = x.client := by
  unfold MemberClient.transmit
  rw [hrest]

omit [Html] [MailParser] [DocumentJson] in
theorem transmit_refused {id : ConversationId} (hrest : x.client.state.rest = some id) (answer : CommitAnswer)
    (finishes : Bool) : x.client.transmit .refused answer finishes = if finishes = true then
      {x.client.settled with index := x.client.index.map fun l => {l with retained := l.retained.resume id}}
      else x.client := by
  unfold MemberClient.transmit
  rw [hrest]

omit [Html] [MailParser] [DocumentJson] in
theorem transmit_copiesDeleted {id : ConversationId} (hrest : x.client.state.rest = some id) (answer : CommitAnswer)
    (finishes : Bool) : x.client.transmit .copiesDeleted answer finishes =
      if ((x.client.checkpoint none (fun r => .ok (some (r.excludeConversation x.client.state id))) answer).2 &&
          finishes) = true
        then (x.client.checkpoint none (fun r => .ok (some (r.excludeConversation x.client.state id))) answer).1.settled
        else (x.client.checkpoint none (fun r => .ok (some (r.excludeConversation x.client.state id))) answer).1 := by
  unfold MemberClient.transmit
  rw [hrest]

theorem Sound.keeps_copiesDeleted (h : x.Sound) {id : ConversationId} (hrest : x.client.state.rest = some id)
    (answer : CommitAnswer) (finishes : Bool) :
    x.Keeps (.transmit .copiesDeleted answer finishes) (x.next (.transmit .copiesDeleted answer finishes)) := by
  have hconfirms : x.client.confirms (.transmit .copiesDeleted answer finishes) = [id] := by
    unfold MemberClient.confirms
    rw [hrest]
  have hprepare : ∀ (l : LoadedIndex Values) r, l.Sound x →
      (.ok (some (l.retained.excludeConversation x.client.state id)) :
        Except MemberError (Option (Retained Values))) = .ok (some r) →
      l.retained.Changes (x.Excused (.transmit .copiesDeleted answer finishes)) r := by
    intro l r hl hr
    cases hr
    refine Retained.excludeConversation_changes hl.pending fun key hkey v _ => .deleted hkey ?_
    rw [hconfirms]
    exact List.mem_singleton_self id
  obtain ⟨hstate, hsound, hlost⟩ := @Sound.checkpoint _ _ _ x h none
    (fun r => .ok (some (r.excludeConversation x.client.state id))) _ hprepare answer
  have hconfirmed := hsound.confirm [id]
  constructor
  · show (⟨x.client.transmit .copiesDeleted answer finishes, _⟩ : RetentionRun Values).Sound
    rw [transmit_copiesDeleted hrest, hconfirms]
    split_ifs
    · refine hconfirmed.settled fun id' hid => ?_
      have hsame : some id = some id' := hrest.symm.trans ((congrArg MemberState.rest hstate).symm.trans hid)
      cases hsame
      exact List.mem_append_right _ (List.mem_singleton_self id)
    · exact hconfirmed
  · intro key v hv hnone
    refine hlost key v hv ?_ v hv
    have hnone : (x.client.transmit .copiesDeleted answer finishes).store.available key = none := hnone
    rw [transmit_copiesDeleted hrest] at hnone
    split_ifs at hnone <;> exact hnone

theorem Sound.keeps_transmit (h : x.Sound) (response : DeletionResponse) (answer : CommitAnswer) (finishes : Bool) :
    x.Keeps (.transmit response answer finishes) (x.next (.transmit response answer finishes)) := by
  cases hrest : x.client.state.rest with
  | none =>
    rw [next_of_unconfirmed (confirms_of_rested hrest ..)]
    show x.Keeps _ ⟨x.client.transmit response answer finishes, _⟩
    rw [transmit_rested hrest]
    exact .of_store h rfl
  | some id =>
    cases response with
    | copiesDeleted => exact h.keeps_copiesDeleted hrest answer finishes
    | refused =>
      rw [next_of_unconfirmed (confirms_of_kept (fun hof => by cases hof) ..)]
      show x.Keeps _ ⟨x.client.transmit .refused answer finishes, _⟩
      rw [transmit_refused hrest]
      split_ifs
      · exact .of_store (h.resumed hrest) rfl
      · exact .of_store h rfl
    | other =>
      rw [next_of_unconfirmed (confirms_of_kept (fun hof => by cases hof) ..)]
      have hsame : x.client.transmit .other answer finishes = x.client := by
        unfold MemberClient.transmit
        rw [hrest]
      show x.Keeps _ ⟨x.client.transmit .other answer finishes, _⟩
      rw [hsame]
      exact .of_store h rfl

omit [Embedding Values] [Html] [MailParser] [DocumentJson] [RetainedContent] in
theorem confirms_eq_nil (h : ∀ response answer finishes, c ≠ .transmit response answer finishes) :
    x.client.confirms c = [] := by
  unfold MemberClient.confirms
  split
  · exact absurd rfl (h _ _ _)
  · rfl

omit [Embedding Values] [Html] [MailParser] [DocumentJson] [RetainedContent] in
/-- What an index has of a copy is what the store has. -/
theorem available_of_index {l : LoadedIndex Values} (hl : l.Sound x) (key : CopyKey) :
    l.retained.entries.get? key = x.client.store.available key := hl.mirrors.entries key

omit [Embedding Values] [Html] [MailParser] [DocumentJson] [RetainedContent] in
/-- A hidden copy belongs to a pending deletion, or to one that has been confirmed. -/
theorem of_hidden {l : LoadedIndex Values} (hl : l.Sound x) {thread : MailKey}
    (h : l.retained.hides thread = true) :
    ∃ id, thread = .native id ∧ (x.client.state.rest = some id ∨ id ∈ x.confirmed) := by
  cases thread with
  | native id => exact ⟨id, rfl, hl.suspended id h⟩
  | external id => cases h

theorem Sound.keeps_rebuild (h : x.Sound) {clock : CopyKey → CanonicalTime} {texts : CopyKey → Except MemberError Text}
    {answer : CommitAnswer} (hspared : x.Spared (.rebuild clock texts answer)) :
    x.Keeps (.rebuild clock texts answer) ⟨x.client.step (.rebuild clock texts answer), x.confirmed⟩ := by
  refine h.keeps_checkpoint (fun l r hl hr => Retained.rebuild_changes hl.pending (fun key hnone v hv => ?_) hr) answer
  rw [← available_of_index hl key] at hv
  by_cases hexpired : v.expires ≤ clock key
  · exact .expired (List.mem_singleton_self _) hexpired
  cases hhides : l.retained.hides key.thread with
  | false =>
    have hentry := Retained.entry_eq_some.mpr ⟨hhides, hv, not_le.mp hexpired⟩
    cases hnone.symm.trans hentry
  | true =>
    obtain ⟨id, hthread, hhidden⟩ := of_hidden hl hhides
    by_cases hpending : x.client.state.rest = some id
    · rw [available_of_index hl key] at hv
      exact absurd (hspared clock texts answer rfl key v id hv hthread hpending) hexpired
    · exact .deletedBefore hthread (hhidden.resolve_left hpending) hpending

theorem Sound.keeps_indexSources (h : x.Sound) (session : U64) (limit : ℕ) (now : CanonicalTime)
    (clock : CopyKey → CanonicalTime) (texts : CopyKey → Except MemberError Text) (answer : CommitAnswer) :
    x.Keeps (.indexSources session limit now clock texts answer)
      ⟨x.client.step (.indexSources session limit now clock texts answer), x.confirmed⟩ := by
  show x.Keeps _ ⟨if _ then _ else _, _⟩
  split_ifs
  · exact .of_store h rfl
  · refine h.keeps_checkpoint (fun l r hl hr => ?_) answer
    obtain ⟨indexed, hindexed, hr⟩ := bind_eq_ok.mp hr
    split_ifs at hr
    · cases hr
      refine Retained.indexExternal_changes
        (Retained.expire_changes hl.pending hl.mirrors fun key v hv hexpired u hu => ?_)
        (fun key place hplace u hu => ?_) hindexed
      · rw [← available_of_index hl key, hv] at hu
        cases hu
        exact .expired (List.mem_cons_self ..) hexpired
      · rw [← available_of_index hl key, hl.mirrors.missing key place hplace] at hu
        cases hu
    · cases hr

theorem Sound.keeps_indexMissing (h : x.Sound) (session : Option U64) (limit : ℕ)
    (clock : CopyKey → CanonicalTime) (texts : CopyKey → Except MemberError Text) (answer : CommitAnswer) :
    x.Keeps (.indexMissing session limit clock texts answer)
      ⟨x.client.step (.indexMissing session limit clock texts answer), x.confirmed⟩ := by
  refine h.keeps_checkpoint (fun l r hl hr => ?_) answer
  obtain ⟨indexed, hindexed, hr⟩ := bind_eq_ok.mp hr
  split_ifs at hr
  · cases hr
    refine Retained.indexExternal_changes (.start hl.pending) (fun key place hplace u hu => ?_) hindexed
    rw [← available_of_index hl key, hl.mirrors.missing key place hplace] at hu
    cases hu
  · cases hr

/-- What a fetch answers is retained, or excludes the copy if it is unavailable. -/
theorem Sound.keeps_response (h : x.Sound) {session : U64} {key : CopyKey} {response : FetchResponse}
    {record : MessageRecord} {now : CanonicalTime}
    {prepare : Retained Values → Except MemberError (Option (Retained Values))}
    (hunavailable : response = .unavailable → c.unavailable key = true)
    (hprepare : ∀ r r', prepare r = .ok (some r') →
      r.retainResponse x.client.state key record now response = .ok r') (answer : CommitAnswer) :
    x.Keeps c ⟨(x.client.checkpoint (some session) prepare answer).1, x.confirmed⟩ :=
  h.keeps_checkpoint (fun l r hl hr => Retained.retainResponse_changes hl.pending hl.owner
    (fun hresponse _ _ => .unavailable (hunavailable hresponse)) (hprepare l.retained r hr)) answer

theorem Sound.keeps_retainFetched (h : x.Sound) (session : U64) (key : CopyKey) (position : ℕ)
    (response : FetchResponse) (now : CanonicalTime) (answer : CommitAnswer) :
    x.Keeps (.retainFetched session key position response now answer)
      ⟨x.client.step (.retainFetched session key position response now answer), x.confirmed⟩ := by
  unfold MemberClient.step
  dsimp only
  split
  · rename_i e he
    split_ifs
    · exact .of_store h rfl
    · refine @Sound.keeps_response _ _ _ x _ _ _ _ _ h session key response e.2 now _ (fun hresponse => ?_) (fun r r' hr => ?_) answer
      · subst hresponse
        exact decide_eq_true rfl
      · unfold Retained.retainFetched at hr
        split_ifs at hr
        · cases hr
        · obtain ⟨r₁, hretain, hsome⟩ := map_eq_ok.mp hr
          cases hsome
          exact hretain
  · exact .of_store h rfl

theorem Sound.keeps_retainBatch (h : x.Sound) (session : U64) (key : CopyKey) (position : ℕ)
    (response : FetchResponse) (now : CanonicalTime) (answer : CommitAnswer) :
    x.Keeps (.retainBatch session key position response now answer)
      ⟨x.client.step (.retainBatch session key position response now answer), x.confirmed⟩ := by
  unfold MemberClient.step
  dsimp only
  split
  · rename_i e he
    refine @Sound.keeps_response _ _ _ x _ _ _ _ _ h session key response e.2 now _ (fun hresponse => ?_) (fun r r' hr => ?_) answer
    · subst hresponse
      exact decide_eq_true rfl
    · obtain ⟨r₁, hretain, hsome⟩ := map_eq_ok.mp hr
      cases hsome
      exact hretain
  · exact .of_store h rfl

theorem Sound.keeps_publishProjection (h : x.Sound) (session : U64) (key : CopyKey) (original : Text)
    (expires : CanonicalTime) (projection : Projection Values) (now : CanonicalTime) (answer : CommitAnswer) :
    x.Keeps (.publishProjection session key original expires projection now answer)
      ⟨x.client.step (.publishProjection session key original expires projection now answer), x.confirmed⟩ := by
  refine h.keeps_checkpoint (fun l r hl hr => Retained.publishProjection_changes hl.pending (fun v hv => ?_) hr) answer
  rw [available_of_index hl key] at hv
  exact (h.store.row_of_available hv).1

theorem Sound.keeps_upgradeText (h : x.Sound) (clock : CopyKey → CanonicalTime)
    (texts : CopyKey → Except MemberError Text) (answer : CommitAnswer) (finishes : Bool) :
    x.Keeps (.upgradeText clock texts answer finishes)
      ⟨x.client.step (.upgradeText clock texts answer finishes), x.confirmed⟩ := by
  have hkeeps : x.Keeps (.upgradeText clock texts answer finishes) ⟨(x.client.checkpoint none
      (fun r => r.upgradeText clock texts x.client.store.copies) answer).1, x.confirmed⟩ :=
    h.keeps_checkpoint (fun l r hl hr => Retained.upgradeText_changes hl.pending hr) answer
  show x.Keeps _ ⟨if _ then _ else _, _⟩
  split_ifs
  · exact .of_store h rfl
  · refine ⟨⟨hkeeps.sound.store, fun l hl => ?_⟩, hkeeps.lost⟩
    have hsound := hkeeps.sound.index l hl
    exact ⟨hsound.owner, hsound.pending, hsound.mirrors, hsound.suspended, hsound.hidden⟩
  · exact hkeeps

omit [Html] [MailParser] [DocumentJson] [RetainedContent] in
theorem Sound.keeps_invalidateSession (h : x.Sound) : x.Keeps c ⟨x.client.invalidateSession, x.confirmed⟩ := by
  unfold MemberClient.invalidateSession
  split
  · exact .of_store (h.unloaded _) rfl
  · exact .of_store h rfl

omit [Embedding Values] [Html] [MailParser] [DocumentJson] [RetainedContent] in
theorem readPage_frame {s s' : ClientState} {id : ConversationId} {after : U64} {through : Option U64}
    {page : ExternalPage} {now : MessageId → CanonicalTime} (h : s.readPage id after through page now = .ok s') :
    s'.persona = s.persona ∧ s'.rest = s.rest := by
  obtain ⟨⟨⟩, -, h⟩ := bind_eq_ok.mp h
  obtain ⟨_, -, h⟩ := bind_eq_ok.mp h
  obtain ⟨_, -, h⟩ := bind_eq_ok.mp h
  cases h
  exact ⟨rfl, rfl⟩

/-- A call keeps a client sound, and removes copies for final reasons only. -/
theorem Sound.keeps (h : x.Sound) (hspared : x.Spared c) : x.Keeps c (x.next c) := by
  have hnext : (∀ response answer finishes, c ≠ .transmit response answer finishes) →
      x.next c = ⟨x.client.step c, x.confirmed⟩ :=
    fun hc => next_of_unconfirmed (confirms_eq_nil hc)
  cases c with
  | transmit response answer finishes => exact h.keeps_transmit response answer finishes
  | sync pages =>
    rw [hnext fun _ _ _ hc => by cases hc]
    unfold MemberClient.step
    dsimp only
    split
    · exact .of_store (h.withState rfl rfl) rfl
    · exact .of_store h rfl
  | read id after through page now =>
    rw [hnext fun _ _ _ hc => by cases hc]
    unfold MemberClient.step
    dsimp only
    split
    · rename_i state hread
      obtain ⟨hpersona, hrest⟩ := readPage_frame hread
      exact .of_store (h.withState hpersona hrest) rfl
    · exact .of_store h rfl
  | openSession =>
    rw [hnext fun _ _ _ hc => by cases hc]
    show x.Keeps _ ⟨x.client.openSession, _⟩
    unfold MemberClient.openSession
    split
    · split_ifs
      · exact .of_store (h.unloaded _) rfl
      · exact .of_store h rfl
    · exact .of_store h rfl
  | closeSession session =>
    rw [hnext fun _ _ _ hc => by cases hc]
    show x.Keeps _ ⟨if _ then _ else _, _⟩
    split_ifs
    · exact h.keeps_invalidateSession
    · exact .of_store h rfl
  | invalidateSession =>
    rw [hnext fun _ _ _ hc => by cases hc]
    exact h.keeps_invalidateSession
  | observe session =>
    rw [hnext fun _ _ _ hc => by cases hc]
    exact h.keeps_checkpoint (fun l r hl hr => by cases hr) .committed
  | upgradeText clock texts answer finishes =>
    rw [hnext fun _ _ _ hc => by cases hc]
    exact h.keeps_upgradeText clock texts answer finishes
  | indexSources session limit now clock texts answer =>
    rw [hnext fun _ _ _ hc => by cases hc]
    exact h.keeps_indexSources session limit now clock texts answer
  | indexMissing session limit clock texts answer =>
    rw [hnext fun _ _ _ hc => by cases hc]
    exact h.keeps_indexMissing session limit clock texts answer
  | retainFetched session key position response now answer =>
    rw [hnext fun _ _ _ hc => by cases hc]
    exact h.keeps_retainFetched session key position response now answer
  | retainBatch session key position response now answer =>
    rw [hnext fun _ _ _ hc => by cases hc]
    exact h.keeps_retainBatch session key position response now answer
  | publishProjection session key original expires projection now answer =>
    rw [hnext fun _ _ _ hc => by cases hc]
    exact h.keeps_publishProjection session key original expires projection now answer
  | rebuild clock texts answer =>
    rw [hnext fun _ _ _ hc => by cases hc]
    exact h.keeps_rebuild hspared
  | deleteCopies id =>
    rw [hnext fun _ _ _ hc => by cases hc]
    obtain ⟨hsound, hstore⟩ := h.deleteCopies id
    exact .of_store hsound hstore

theorem Sound.run (h : x.Sound) {calls : List (RetentionCall Values)} (hspared : Machine.Along call Spared x calls) :
    (Machine.run call x calls).Sound :=
  Machine.run_preserves_along (P := Sound) (fun y c y' hc hy hnext => by
    cases hnext
    exact (hy.keeps hc).sound) h hspared

/-- Over calls none of which has a final reason to remove it, a copy stays. -/
theorem Sound.stays (h : x.Sound) {key : CopyKey} {calls : List (RetentionCall Values)}
    (hspared : Machine.Along call Spared x calls)
    (hreasons : Machine.Along call (fun y c => ∀ v, y.client.store.available key = some v → ¬y.Final c key v) x calls)
    {v : Indexed Values} (hv : x.client.store.available key = some v) :
    ∃ v', (Machine.run call x calls).client.store.available key = some v' := by
  induction calls generalizing x v with
  | nil => exact ⟨v, hv⟩
  | cons c rest ih =>
    have hkeeps := h.keeps hspared.1
    cases hnext : (x.next c).client.store.available key with
    | none => exact absurd (hkeeps.lost key v hv hnext) (hreasons.1 v hv)
    | some v' => exact ih hkeeps.sound hspared.2 hreasons.2 hnext

omit [Html] [MailParser] [DocumentJson] [RetainedContent] in
/-- A copy that is neither hidden nor expired can be read. -/
theorem Sound.readable (h : x.Sound) {l : LoadedIndex Values} (hl : l.Sound x) {key : CopyKey} {v : Indexed Values}
    (hv : x.client.store.available key = some v) (hvisible : l.retained.hides key.thread = false) {now : CanonicalTime}
    (hnow : now < v.expires) : l.retained.entry key now = some v ∧ ∃ e,
      l.retained.copy x.client.store.copies key now = .ok (some e) ∧ e.key = key ∧ e.expires = v.expires := by
  have hentry : l.retained.entry key now = some v :=
    Retained.entry_eq_some.mpr ⟨hvisible, (available_of_index hl key).trans hv, hnow⟩
  obtain ⟨e, he, hfits⟩ := h.store.copy key v hv
  rw [← hl.owner] at hfits
  obtain ⟨hkey, -, hexpires, -⟩ := Retained.fits_iff.mp hfits
  exact ⟨hentry, e, Retained.copy_eq_some.mpr ⟨v, hentry, he, hfits⟩, hkey, hexpires⟩

omit [Html] [MailParser] [DocumentJson] [RetainedContent] in
/-- Once a deletion has been refused, no index that is loaded hides its conversation. -/
theorem visible_of_refused {y : MemberClient Values} {id : ConversationId} (hrest : y.state.rest = none)
    (hindex : ∀ l, y.index = some l → l.retained.suspended.contains id = false) {session : Option U64}
    {l : LoadedIndex Values} (hl : y.load session = .ok l) : l.retained.hides (.native id) = false := by
  obtain ⟨current, -, hl⟩ := bind_eq_ok.mp hl
  obtain ⟨⟨⟩, -, hl⟩ := bind_eq_ok.mp hl
  obtain ⟨l₀, hheld, hl⟩ := bind_eq_ok.mp hl
  obtain ⟨⟨⟩, -, hl⟩ := bind_eq_ok.mp hl
  cases hl
  have hbefore : l₀.retained.suspended.contains id = false := by
    unfold MemberClient.held at hheld
    cases hcase : y.index with
    | some l =>
      rw [hcase] at hheld
      cases hheld
      exact hindex l₀ hcase
    | none =>
      rw [hcase] at hheld
      obtain ⟨⟨⟩, -, hread⟩ := bind_eq_ok.mp hheld
      cases hread
      obtain ⟨-, -, hsuspended⟩ := MemberClient.publishAll_frame y.store.records.values (.empty y.state.persona)
      rw [Retained.ofRecords, hsuspended]
      rfl
  rw [← Bool.not_eq_true]
  intro hhides
  rcases (suspended_observed ..).mp hhides with hpending | hold
  · cases hrest.symm.trans hpending
  · cases hbefore.symm.trans hold

/-! ### Hidden, kept and readable again -/

/-- The client after calls. -/
def after (persona : ProtocolIdentity) (calls : List (RetentionCall Values)) : RetentionRun Values :=
  Machine.run call (enrolled persona) calls

/-- While the search lifetime is open the copy can be found and read, until it expires. -/
def Readable (x : RetentionRun Values) (key : CopyKey) : Prop :=
  ∃ v, x.client.store.available key = some v ∧
    (∀ current, x.client.searchSession = .ok current → ∃ l, x.client.load none = .ok l) ∧
    ∀ session l, x.client.load session = .ok l → ∀ now, now < v.expires →
      l.retained.entry key now = some v ∧ ∃ e,
        l.retained.copy x.client.store.copies key now = .ok (some e) ∧ e.key = key ∧ e.expires = v.expires

/-- A suspended copy is not a deleted copy. What a call removes it removes for a final reason; the
copies a pending deletion asks for are not found; and when the deletion is refused, those that no
call in between had a final reason to remove can be read again. -/
structure Kept (persona : ProtocolIdentity) (calls : List (RetentionCall Values)) : Prop where
  removed : ∀ before c rest, calls = before ++ c :: rest → ∀ key v,
    (after persona before).client.store.available key = some v →
    (after persona (before ++ [c])).client.store.available key = none → (after persona before).Final c key v
  hidden : ∀ before rest, calls = before ++ rest → ∀ id, (after persona before).client.state.rest = some id →
    ∀ l, ((after persona before).client.index = some l ∨
      ∃ session, (after persona before).client.load session = .ok l) →
    ∀ key now, key.thread = .native id → l.retained.entry key now = none
  refused : ∀ before between answer rest, calls = before ++ (between ++ .transmit .refused answer true :: rest) →
    ∀ id, (after persona (before ++ between)).client.state.rest = some id → ∀ key v,
    key.thread = .native id → (after persona before).client.store.available key = some v →
    Machine.Along call (fun y c => ∀ v, y.client.store.available key = some v → ¬y.Final c key v)
      (after persona before) between →
    (after persona (before ++ (between ++ [.transmit .refused answer true]))).Readable key

omit [Html] [MailParser] [DocumentJson] [RetainedContent] in
theorem Sound.hides (h : x.Sound) {id : ConversationId} (hrest : x.client.state.rest = some id)
    {l : LoadedIndex Values} (hl : x.client.index = some l ∨ ∃ session, x.client.load session = .ok l) {key : CopyKey}
    (hkey : key.thread = .native id) (now : CanonicalTime) : l.retained.entry key now = none := by
  have hsound : l.Sound x := by
    rcases hl with hindex | ⟨session, hload⟩
    · exact h.index l hindex
    · exact h.load hload
  unfold Retained.entry
  rw [hkey]
  exact if_pos (hsound.hidden id hrest)

/-- A refused deletion shows again what is available. -/
theorem Sound.readable_of_refused (h : x.Sound) {id : ConversationId} (hrest : x.client.state.rest = some id)
    (answer : CommitAnswer) {key : CopyKey} (hkey : key.thread = .native id) {v : Indexed Values}
    (hv : x.client.store.available key = some v) : (x.next (.transmit .refused answer true)).Readable key := by
  have hsound := (h.keeps_transmit .refused answer true).sound
  have hclient : (x.next (.transmit .refused answer true)).client =
      {x.client.settled with index := x.client.index.map fun l => {l with retained := l.retained.resume id}} := by
    show x.client.transmit .refused answer true = _
    rw [transmit_refused hrest, if_pos rfl]
  have hstore : (x.next (.transmit .refused answer true)).client.store.available key = some v := by
    rw [hclient]
    exact hv
  refine ⟨v, hstore, fun current => hsound.load_succeeds, fun session l hl now hnow => ?_⟩
  refine hsound.readable (hsound.load hl) hstore ?_ hnow
  rw [hkey]
  refine visible_of_refused ?_ ?_ hl
  · rw [hclient]
    rfl
  · intro l' hl'
    rw [hclient] at hl'
    obtain ⟨l₀, -, rfl⟩ := Option.map_eq_some_iff.mp hl'
    refine SortedMap.contains_eq_false.mpr ?_
    show (l₀.retained.suspended.erase id).get? id = none
    rw [SortedMap.get?_erase, if_pos rfl]

/-- **Suspended copies are kept.** In every run in which no rebuild of the index meets a copy that a
pending deletion hides and that has not expired, copies are removed for final reasons only, stay
hidden while their deletion is pending, and can be read again when it is refused. -/
theorem copies_kept (persona : ProtocolIdentity) (calls : List (RetentionCall Values))
    (hspared : Machine.Along call Spared (enrolled persona) calls) : Kept persona calls := by
  have hsound : ∀ before rest, calls = before ++ rest → (after persona before).Sound := by
    rintro before rest rfl
    exact (Sound.enrolled persona).run (Machine.along_append.mp hspared).1
  have happend : ∀ before calls : List (RetentionCall Values),
      after persona (before ++ calls) = Machine.run call (after persona before) calls := fun before calls =>
    Machine.run_append ..
  constructor
  · rintro before c rest rfl key v hv hlost
    have hc := (Machine.along_append.mp hspared).2.1
    rw [happend] at hlost
    exact ((hsound before (c :: rest) rfl).keeps hc).lost key v hv hlost
  · intro before rest hcalls id hrest l hl key now hkey
    exact (hsound before rest hcalls).hides hrest hl hkey now
  · rintro before between answer rest rfl id hpending key v hkey hv hreasons
    have hbetween := (Machine.along_append.mp (Machine.along_append.mp hspared).2).1
    obtain ⟨v', hv'⟩ := (hsound before _ rfl).stays hbetween hreasons hv
    rw [← happend] at hv'
    rw [← List.append_assoc, happend]
    have hbefore := hsound (before ++ between) (.transmit .refused answer true :: rest) (List.append_assoc ..).symm
    exact hbefore.readable_of_refused hpending answer hkey hv'

end
end RetentionRun
end

/-! ### A rebuild while a deletion is pending -/

namespace RetentionRun.Example

local instance : Crypto := ⟨fun _ => zero32, fun _ => true, fun _ _ _ => true⟩

local instance : Html where
  parseUrl _ := none
  pictures _ := []
  attributes _ := []
  clean _ page := page
  extract := id

/-- Nothing is an e-mail. -/
def noMail (_ : Bytes) : Option MimeMessage := none

local instance : MailParser where
  parse := noMail
  isContentType _ _ _ := false
  attributeOf _ _ := none
  hasDecoder _ := false
  sized _ _ h := by cases h

local instance : DocumentJson := ⟨fun _ => some []⟩

local instance : Embedding Unit := ⟨fun _ => true⟩

def greeting : ConversationSubject :=
  ⟨⟨"Greeting".toList, Vector.replicate 32 2⟩, by decide, by decide, by decide, by decide⟩

def letter : Document := ⟨⟨some greeting, Vector.replicate 32 1, [.text "hello".toList]⟩, rfl⟩

local instance : RetainedContent := ⟨fun _ _ => some letter, fun _ => .ok "hello".toList⟩

def owner : ProtocolIdentity := ⟨41⟩

def author : ProtocolIdentity := ⟨42⟩

def thread : ConversationId := ⟨84, by decide⟩

def manifest : MessageManifest := ⟨⟨some ⟨zero32⟩, ⟨9⟩, thread, ⟨zero32⟩, [.text 5], []⟩, by decide⟩

def record : MessageRecord where
  fields := {
    receiving := ⟨.native, ⟨9⟩, ⟨14, by decide⟩, 1, author, owner, thread, ⟨10⟩,
      .native (.acceptedRelationship ⟨1⟩), by decide, by decide⟩
    senderKey := ⟨⟨1⟩, zero32⟩
    manifest := manifest
    author := author
    admission := .acceptedRelationship ⟨1⟩
    committedAt := ⟨10⟩}
  bound := by decide

/-- The owner's copy of the letter, which expires at 100. -/
def view : NativeView :=
  let copy := HeaderRun.Example.copy ⟨9⟩ ⟨100⟩
  ⟨record, {copy with binding := {copy.binding with sender := author, recipient := owner}}⟩

def key : CopyKey := ⟨.native thread, ⟨9⟩⟩

/-- The letter is received and retained at 50, and its deletion is requested. -/
def requested : List (RetentionCall Unit) :=
  [.sync [.ok ⟨[⟨1, record, .error .unavailable⟩], 0⟩], .retainBatch 1 key 0 (.message view) ⟨50⟩ .committed,
    .deleteCopies thread]

/-- The index is rebuilt at 60, before the server has answered. -/
def rebuilt : RetentionCall Unit := .rebuild (fun _ => ⟨60⟩) (fun _ => .error .sourceUnavailable) .committed

theorem requested_kept : ((after owner requested).client.store.available key).map Indexed.expires = some ⟨100⟩ := by
  decide +kernel

theorem rebuilt_lost : ((after owner (requested ++ [rebuilt])).client.store.available key).isNone = true := by
  decide +kernel

theorem requested_unconfirmed : (after owner requested).confirmed = [] := rfl

/-- The letter is retained, the index rebuilt, its deletion requested and refused. -/
def refused : List (RetentionCall Unit) :=
  [.sync [.ok ⟨[⟨1, record, .error .unavailable⟩], 0⟩], .retainBatch 1 key 0 (.message view) ⟨50⟩ .committed,
    rebuilt, .deleteCopies thread, .transmit .refused .committed true]

theorem copies_kept_refused : Kept owner refused := by
  have hidle : (after owner (refused.take 2)).client.state.rest = none := by decide +kernel
  refine copies_kept owner refused ⟨?_, ?_, ?_, ?_, ?_, trivial⟩
  case refine_3 =>
    intro clock texts answer _ key v id _ _ hrest
    cases hidle.symm.trans hrest
  all_goals exact fun clock texts answer h => by cases h

/-- A rebuild removes the copy a pending deletion hides, although the server may yet refuse. -/
theorem rebuild_deletes : ¬∀ (_ : Crypto) (_ : Html) (_ : MailParser) (_ : DocumentJson) (_ : RetainedContent)
    (_ : Embedding Unit) (persona : ProtocolIdentity) (calls : List (RetentionCall Unit)), Kept persona calls := by
  intro h
  have hkept : Kept owner (requested ++ [rebuilt]) := h _ _ _ _ _ _ owner (requested ++ [rebuilt])
  obtain ⟨v, hv, hexpires⟩ := Option.map_eq_some_iff.mp requested_kept
  rcases hkept.removed requested rebuilt [] rfl key v hv (Option.isNone_iff_eq_none.mp rebuilt_lost) with
    ⟨hread, hexpired⟩ | hunavailable | ⟨_, hconfirmed⟩ | ⟨_, hconfirmed, _⟩
  · rw [hexpires, List.mem_singleton.mp hread] at hexpired
    exact absurd hexpired (by decide)
  · cases hunavailable
  · have hnothing : (after owner requested).client.confirms rebuilt = [] := rfl
    rw [hnothing] at hconfirmed
    cases hconfirmed
  · rw [requested_unconfirmed] at hconfirmed
    cases hconfirmed

end RetentionRun.Example
end CsMail
