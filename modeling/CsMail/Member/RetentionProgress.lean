import CsMail.Member.RetentionProofs
import Mathlib.Data.Nat.PSub
import Mathlib.Data.Set.Card

/-! How many copies a device retains.

An index keeps every copy that is available in a map, and its key under its deadline and under its
thread (`Retained.Represented`). Progress counts from the two groupings: the copies that have expired
are those under a deadline that has passed, and the suspended ones are found by their threads. As the
groupings say just what the map says, what is left of the map is what can be read
(`Retained.Represented.progress`). -/
namespace CsMail
open Library

variable {Values : Type}

/-! ### Progress -/

structure RetentionProgress where
  retained : ℕ
  unavailable : ℕ
  remaining : ℕ
  deriving DecidableEq

namespace Retained
variable (r : Retained Values) (now : CanonicalTime)

def expiredCount : ℕ :=
  ((r.deadlines.entries.filter fun e => e.1 ≤ now).map fun e => e.2.keys.length).sum

/-- The copies of suspended conversations that have not expired. -/
def suspendedKeys : List CopyKey :=
  ((r.suspended.keys.filterMap fun id => r.byThread.get? (.native id)).flatMap SortedMap.keys).filter fun key =>
    (r.entries.get? key).any fun v => now < v.expires

/-- No progress if a subtraction underflows. -/
def progress : Option RetentionProgress := do
  let expired := r.expiredCount now
  let suspended := (r.suspendedKeys now).length
  let unexpired ← r.entries.keys.length.psub expired
  let retained ← unexpired.psub suspended
  some {
    retained
    unavailable := r.excluded.keys.length + expired + suspended
    remaining := r.headers.missingNative.keys.length + r.headers.missingExternal.keys.length
  }

/-- The subject of a thread is that of its first copy that has one. -/
def subject (thread : MailKey) : Option ConversationSubject := do
  let keys ← r.byThread.get? thread
  keys.keys.findSome? fun key => (r.entry key now).bind Indexed.subject

/-! ### What the maps say -/

/-- No key is both available and excluded, and the groupings are those of the available copies. -/
structure Represented : Prop where
  disjoint : ∀ key, r.excluded.contains key = true → r.entries.get? key = none
  deadlines : Grouping.Groups r.deadlines (fun _ v => v.expires) r.entries
  threads : Grouping.Groups r.byThread (fun key _ => key.thread) r.entries

variable {r now}

theorem represented_empty (owner : ProtocolIdentity) : (empty owner : Retained Values).Represented where
  disjoint key h := by cases h
  deadlines := .empty _
  threads := .empty _

/-- A copy leaves the deadlines with the map. -/
theorem Represented.deadlines_erase (h : r.Represented) (key : CopyKey) :
    Grouping.Groups (r.deadlinesWithout key) (fun _ v => v.expires) (r.entries.erase key) := by
  unfold deadlinesWithout
  cases hold : r.entries.get? key with
  | some old =>
    refine h.deadlines.drop fun v hv => ?_
    cases hold.symm.trans hv
    rfl
  | none => exact h.deadlines.erase_of_none hold

theorem publish_disjoint {record : IndexRecord Values} {key : CopyKey}
    (h : r.excluded.contains key = true → r.entries.get? key = none)
    (hkey : (r.publish record).excluded.contains key = true) : (r.publish record).entries.get? key = none := by
  rw [publish_entries]
  obtain ⟨u, hu⟩ := SortedMap.contains_eq_true.mp hkey
  cases record with
  | available v =>
    have hu : (r.excluded.erase v.key).get? key = some u := hu
    rw [SortedMap.get?_erase] at hu
    split_ifs at hu with hv
    exact (if_neg hv).trans (h (SortedMap.contains_eq_true.mpr ⟨u, hu⟩))
  | excluded k =>
    have hu : ((r.excluded.erase k).insert k ()).get? key = some u := hu
    rw [SortedMap.get?_insert, SortedMap.get?_erase] at hu
    split_ifs at hu with hk
    · exact if_pos hk
    · exact (if_neg hk).trans (h (SortedMap.contains_eq_true.mpr ⟨u, hu⟩))

theorem Represented.publish (h : r.Represented) (record : IndexRecord Values) : (r.publish record).Represented := by
  have hthreads : Grouping.Groups (r.byThread.drop record.key.thread record.key) (fun key _ => key.thread)
      (r.entries.erase record.key) := h.threads.drop fun v hv => rfl
  have hdeadlines := h.deadlines_erase record.key
  have hgone : (r.entries.erase record.key).get? record.key = none := by
    rw [SortedMap.get?_erase, if_pos rfl]
  have hdisjoint : ∀ key, (r.publish record).excluded.contains key = true → (r.publish record).entries.get? key = none :=
    fun key => publish_disjoint (h.disjoint key)
  cases record with
  | excluded k => exact ⟨hdisjoint, hdeadlines, hthreads⟩
  | available v => exact ⟨hdisjoint, hdeadlines.add hgone, hthreads.add hgone⟩

theorem represented_ofRecords (owner : ProtocolIdentity) (records : List (IndexRecord Values)) :
    (ofRecords owner records).Represented :=
  List.foldlRecOn records publish (represented_empty owner) fun _ h record _ => h.publish record

/-! ### What progress counts -/

/-- What has expired is under a deadline that has passed. -/
theorem Represented.expiredCount_eq (h : r.Represented) :
    r.expiredCount now = r.entries.entries.countP fun e => e.2.expires ≤ now := by
  have hdistinct : ((r.deadlines.entries.filter fun e => e.1 ≤ now).map Prod.fst).Nodup :=
    r.deadlines.keys_nodup.sublist (List.filter_sublist.map Prod.fst)
  have hrows : ∀ row ∈ r.deadlines.entries.filter fun e => e.1 ≤ now, r.deadlines.get? row.1 = some row.2 :=
    fun row hrow => SortedMap.mem_entries.mp (List.mem_of_mem_filter hrow)
  have hcount := h.deadlines.countP_eq hdistinct hrows fun _ => true
  rw [List.countP_true, List.length_flatMap] at hcount
  refine hcount.trans (List.countP_congr fun e he => ?_)
  obtain ⟨keys, hkeys, -⟩ := (h.deadlines.lists e.2.expires e.1).mpr ⟨e.2, SortedMap.mem_entries.mp he, rfl⟩
  simp [SortedMap.mem_entries, hkeys]

/-- The suspended conversations that have copies. -/
def suspendedRows (r : Retained Values) : List (MailKey × SortedMap CopyKey Unit) :=
  r.suspended.keys.filterMap fun id => (r.byThread.get? (.native id)).map (Prod.mk (.native id))

theorem mem_suspendedRows {row : MailKey × SortedMap CopyKey Unit} :
    row ∈ r.suspendedRows ↔ r.hides row.1 = true ∧ r.byThread.get? row.1 = some row.2 := by
  unfold suspendedRows
  simp only [List.mem_filterMap, Option.map_eq_some_iff, SortedMap.mem_keys]
  constructor
  · rintro ⟨id, hid, keys, hkeys, rfl⟩
    exact ⟨SortedMap.contains_eq_true.mpr hid, hkeys⟩
  · rintro ⟨hides, hkeys⟩
    obtain ⟨thread, keys⟩ := row
    cases thread with
    | native id => exact ⟨id, SortedMap.contains_eq_true.mp hides, keys, hkeys, rfl⟩
    | external id => cases hides

theorem suspendedRows_nodup : (r.suspendedRows.map Prod.fst).Nodup := by
  rw [suspendedRows, List.map_filterMap]
  refine r.suspended.keys_nodup.filterMap fun id id' thread hid hid' => ?_
  simp only [Option.mem_def, Option.map_map, Option.map_eq_some_iff] at hid hid'
  obtain ⟨_, -, rfl⟩ := hid
  obtain ⟨_, -, hsame⟩ := hid'
  exact (MailKey.native.inj hsame).symm

theorem suspendedRows_keys : r.suspendedRows.flatMap (fun row => row.2.keys) =
    (r.suspended.keys.filterMap fun id => r.byThread.get? (.native id)).flatMap SortedMap.keys := by
  rw [← List.flatMap_map Prod.snd SortedMap.keys, suspendedRows, List.map_filterMap]
  congr 2
  funext id
  cases r.byThread.get? (.native id) <;> rfl

theorem Represented.suspendedCount_eq (h : r.Represented) :
    (r.suspendedKeys now).length =
      r.entries.entries.countP fun e => decide (now < e.2.expires) && r.hides e.1.thread := by
  have hrows : ∀ row ∈ r.suspendedRows, r.byThread.get? row.1 = some row.2 :=
    fun row hrow => (mem_suspendedRows.mp hrow).2
  rw [suspendedKeys, ← List.countP_eq_length_filter, ← suspendedRows_keys,
    h.threads.countP_eq suspendedRows_nodup hrows]
  refine List.countP_congr fun e he => ?_
  have hget := SortedMap.mem_entries.mp he
  obtain ⟨keys, hthread, -⟩ := (h.threads.lists e.1.thread e.1).mpr ⟨e.2, hget, rfl⟩
  simp [hget, mem_suspendedRows, hthread]

/-- What can be read has not expired, and is not suspended. -/
theorem readable_encard : {key | (r.entry key now).isSome = true}.encard =
    r.entries.entries.countP fun e => decide (now < e.2.expires) && !r.hides e.1.thread := by
  have hset : {key | (r.entry key now).isSome = true} =
      (((r.entries.entries.filter fun e => decide (now < e.2.expires) && !r.hides e.1.thread).map
        Prod.fst).toFinset : Set CopyKey) := by
    ext key
    simp [Option.isSome_iff_exists, entry_eq_some, SortedMap.mem_entries]
    grind
  have hnodup := r.entries.keys_nodup.sublist ((List.filter_sublist (l := r.entries.entries) (p := fun e =>
    decide (now < e.2.expires) && !r.hides e.1.thread)).map Prod.fst)
  rw [hset, Set.encard_coe_eq_coe_finsetCard, List.toFinset_card_of_nodup hnodup, List.length_map,
    List.countP_eq_length_filter]

/-- Every copy has expired, or is suspended, or can be read. -/
theorem countP_split {α : Type*} (p q : α → Bool) (l : List α) :
    l.length = l.countP p + l.countP (fun x => !p x && q x) + l.countP (fun x => !p x && !q x) := by
  induction l with
  | nil => rfl
  | cons x rest ih =>
    rw [List.length_cons, ih]
    cases hp : p x <;> cases hq : q x <;> simp [hp, hq] <;> omega

theorem Represented.progress_eq (h : r.Represented) (now : CanonicalTime) : ∃ p, r.progress now = some p ∧
    (p.retained : ℕ∞) = {key | (r.entry key now).isSome = true}.encard ∧
    p.retained + p.unavailable = r.entries.keys.length + r.excluded.keys.length := by
  have hsplit := countP_split (fun e : CopyKey × Indexed Values => decide (e.2.expires ≤ now))
    (fun e => r.hides e.1.thread) r.entries.entries
  simp only [← decide_not, not_le] at hsplit
  rw [← h.expiredCount_eq, ← h.suspendedCount_eq] at hsplit
  have hreadable := @readable_encard _ r now
  generalize r.entries.entries.countP (fun e => decide (now < e.2.expires) && !r.hides e.1.thread) = readable
    at hsplit hreadable
  have hlength : r.entries.keys.length = r.entries.entries.length := List.length_map ..
  have hunexpired : r.entries.keys.length.psub (r.expiredCount now) = some (readable + (r.suspendedKeys now).length) :=
    Nat.psub_eq_some.mpr (by omega)
  have hretained : (readable + (r.suspendedKeys now).length).psub (r.suspendedKeys now).length = some readable :=
    Nat.psub_eq_some.mpr rfl
  have hprogress : r.progress now = some {
      retained := readable
      unavailable := r.excluded.keys.length + r.expiredCount now + (r.suspendedKeys now).length
      remaining := r.headers.missingNative.keys.length + r.headers.missingExternal.keys.length
    } := by
    simp only [progress, Option.bind_eq_bind, hunexpired, hretained, Option.bind_some]
  refine ⟨_, hprogress, hreadable.symm, ?_⟩
  show readable + (_ + _ + _) = _
  omega

/-- A subject is found through the thread if any copy of the thread that can be read has one. -/
theorem Represented.subject_eq_none (h : r.Represented) {thread : MailKey} : r.subject now thread = none ↔
    ∀ key v, key.thread = thread → r.entry key now = some v → v.subject = none := by
  unfold subject
  constructor
  · intro hnone key v hkey hv
    obtain ⟨keys, hkeys, hmem⟩ := (h.threads.lists thread key).mpr ⟨v, (entry_eq_some.mp hv).2.1, hkey⟩
    simp only [hkeys, Option.bind_eq_bind, Option.bind_some, List.findSome?_eq_none_iff] at hnone
    have hread := hnone key (SortedMap.mem_keys.mpr (SortedMap.contains_eq_true.mp hmem))
    rwa [hv] at hread
  · intro hall
    cases hkeys : r.byThread.get? thread with
    | none => rfl
    | some keys =>
      simp only [Option.bind_eq_bind, Option.bind_some, List.findSome?_eq_none_iff]
      intro key hkey
      obtain ⟨_, -, hthread⟩ := (h.threads.lists thread key).mp
        ⟨keys, hkeys, SortedMap.contains_eq_true.mpr (SortedMap.mem_keys.mp hkey)⟩
      cases hv : r.entry key now with
      | none => rfl
      | some v => exact hall key v hthread hv

end Retained

/-! ### Whole runs -/

section
variable [Crypto]

/-- What is done with an index in memory. -/
inductive RetainedCall (Values : Type)
  | publish (record : IndexRecord Values)
  | observeHeaders (state : ClientState)
  | suspend (id : ConversationId)
  | resume (id : ConversationId)
  | insert (e : Entry)
  | reindex (e : Entry)
  | exclude (key : CopyKey)
  | expire (now : CanonicalTime) (limit : ℕ)
  | project (key : CopyKey) (projection : Projection Values)
  /-- What is prepared is taken to be saved, or dropped. -/
  | clear

namespace Retained
variable [Embedding Values] {r : Retained Values}

/-- A call that is refused leaves the index as it was. -/
def call (r : Retained Values) : RetainedCall Values → Retained Values
  | .publish record => r.publish record
  | .observeHeaders state => r.observeHeaders state
  | .suspend id => r.suspend id
  | .resume id => r.resume id
  | .insert e => r.insert e
  | .reindex e => match r.reindex e with
    | .ok r' => r'
    | .error _ => r
  | .exclude key => r.exclude key
  | .expire now limit => (r.expire now limit).1
  | .project key projection => match r.project key projection with
    | .ok r' => r'
    | .error _ => r
  | .clear => {r with pending := ∅}

omit [Crypto] [Embedding Values] in
/-- Only what is published changes what the maps say. -/
theorem Represented.keep (h : r.Represented) (pending : SortedMap CopyKey (PendingRecord Values)) (headers : Headers)
    (observed : Option (ℕ × ℕ)) (suspended : SortedMap ConversationId Unit) :
    {r with pending, headers, observed, suspended}.Represented :=
  ⟨h.disjoint, h.deadlines, h.threads⟩

theorem Represented.call (h : r.Represented) (c : RetainedCall Values) : (r.call c).Represented := by
  cases c with
  | publish record => exact h.publish record
  | observeHeaders state =>
    show (r.observeHeaders state).Represented
    unfold observeHeaders
    cases state.rest with
    | none =>
      dsimp only
      split_ifs
      · exact h.keep ..
      · exact h
    | some id =>
      dsimp only
      split_ifs
      · exact h.keep ..
      · exact h.keep ..
  | suspend id => exact h.keep ..
  | resume id => exact h.keep ..
  | insert e =>
    show (r.insert e).Represented
    unfold insert
    split_ifs
    · exact h
    · exact h.keep ..
  | reindex e =>
    cases hreindex : r.reindex e with
    | error e => simpa only [Retained.call, hreindex] using h
    | ok r' =>
      obtain ⟨v, -, hr⟩ := bind_eq_ok.mp hreindex
      cases hr
      simpa only [Retained.call, hreindex] using h.keep ..
  | exclude key => exact h.keep ..
  | expire now limit =>
    exact List.foldlRecOn _ exclude h fun _ h key _ => h.keep ..
  | project key projection =>
    cases hproject : r.project key projection with
    | error e => simpa only [Retained.call, hproject] using h
    | ok r' =>
      obtain ⟨⟨⟩, -, hr⟩ := bind_eq_ok.mp hproject
      obtain ⟨v, -, hr⟩ := bind_eq_ok.mp hr
      cases hr
      simpa only [Retained.call, hproject] using h.keep ..
  | clear => exact h.keep ..

/-- **The maps of an index say the same of every copy, and progress counts what can be read**: whatever
was loaded and published, no copy is both available and excluded, each available one stands once under
its deadline and once under its thread, no deadline and no thread is without copies, and at any time
what is retained and what is unavailable make up what is available and what is excluded. -/
theorem maps_agree (owner : ProtocolIdentity) (loaded : List (IndexRecord Values)) (calls : List (RetainedCall Values)) :
    let r := calls.foldl Retained.call (ofRecords owner loaded)
    (∀ key, ¬(r.entries.contains key = true ∧ r.excluded.contains key = true)) ∧
    (∀ time key, r.deadlines.Lists time key ↔ ∃ v, r.entries.get? key = some v ∧ v.expires = time) ∧
    (r.deadlines.entries.flatMap fun e => e.2.keys).Perm r.entries.keys ∧
    r.deadlines.Inhabited ∧
    (∀ thread key, r.byThread.Lists thread key ↔ r.entries.contains key = true ∧ key.thread = thread) ∧
    r.byThread.Inhabited ∧
    ∀ now, ∃ p, r.progress now = some p ∧
      (p.retained : ℕ∞) = {key | (r.entry key now).isSome = true}.encard ∧
      p.retained + p.unavailable = r.entries.keys.length + r.excluded.keys.length := by
  intro r
  have h : r.Represented := List.foldlRecOn calls Retained.call (represented_ofRecords owner loaded)
    fun _ h c _ => h.call c
  refine ⟨fun key hboth => ?_, h.deadlines.lists, h.deadlines.perm_keys, h.deadlines.inhabited, fun thread key => ?_,
    h.threads.inhabited, h.progress_eq⟩
  · obtain ⟨v, hv⟩ := SortedMap.contains_eq_true.mp hboth.1
    cases hv.symm.trans (h.disjoint key hboth.2)
  · rw [h.threads.lists, SortedMap.contains_eq_true]
    simp

end Retained
end
end CsMail
