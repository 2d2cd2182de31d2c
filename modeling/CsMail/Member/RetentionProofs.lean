import CsMail.Member.HeaderRuns
import CsMail.Member.Retention

/-! What a save does to the copies a device retains.

The index in memory mirrors the records of the store (`Mirrors`), and every copy that is indexed is
kept (`RetainedStore.Sound`). A prepared change excludes keys for a reason (`Retained.Changes`), and a
save that goes through removes no other copies (`MemberClient.save_follows`). -/
namespace CsMail
open Library
variable {Values : Type}

/-! ### Publishing -/

/-- What a record makes available. -/
def IndexRecord.indexed? : IndexRecord Values → Option (Indexed Values)
  | available v => some v
  | excluded _ => none

namespace Retained
variable {r : Retained Values} {record : IndexRecord Values} {key : CopyKey}

theorem publish_entries : (r.publish record).entries.get? key =
    if key = record.key then record.indexed? else r.entries.get? key := by
  by_cases hkey : key = record.key
  · rw [if_pos hkey]
    cases record with
    | available v => exact hkey ▸ SortedMap.get?_insert_self _ v.key v
    | excluded k =>
      show (r.entries.erase k).get? key = none
      rw [SortedMap.get?_erase]
      exact if_pos hkey
  · rw [if_neg hkey]
    cases record with
    | available v =>
      have hne : key ≠ v.key := hkey
      show ((r.entries.erase v.key).insert v.key v).get? key = _
      rw [SortedMap.get?_insert_ne _ _ hne, SortedMap.get?_erase]
      exact if_neg hne
    | excluded k =>
      show (r.entries.erase k).get? key = _
      rw [SortedMap.get?_erase]
      exact if_neg hkey

theorem publish_suspended : (r.publish record).suspended = r.suspended := by
  cases record <;> rfl

theorem publish_pending : (r.publish record).pending = r.pending := by
  cases record <;> rfl

theorem lists_without {t : CanonicalTime} {k : CopyKey} : (r.deadlinesWithout k).Lists t key ↔
    r.deadlines.Lists t key ∧ ∀ old, r.entries.get? k = some old → ¬(t = old.expires ∧ key = k) := by
  unfold deadlinesWithout
  cases r.entries.get? k with
  | none => simp
  | some old => simp [Grouping.lists_drop]

/-- A key is listed where it was published, and elsewhere as before, but where it stood before. -/
theorem lists_publish {t : CanonicalTime} : (r.publish record).deadlines.Lists t key ↔
    (∃ v, record = .available v ∧ t = v.expires ∧ key = v.key) ∨
      (r.deadlines.Lists t key ∧
        ∀ old, r.entries.get? record.key = some old → ¬(t = old.expires ∧ key = record.key)) := by
  rw [← lists_without]
  cases record with
  | available v =>
    refine Grouping.lists_add.trans (or_congr ?_ Iff.rfl)
    simp [IndexRecord.key]
  | excluded k =>
    refine (or_iff_right ?_).symm
    rintro ⟨v, hv, -⟩
    cases hv

/-- The index in memory says what the records say: what is available, and when; and no copy that
is listed as missing is available. -/
structure Mirrors (r : Retained Values) (records : SortedMap CopyKey (IndexRecord Values)) : Prop where
  entries : ∀ key, r.entries.get? key = (records.get? key).bind IndexRecord.indexed?
  due : ∀ key t, r.deadlines.Lists t key → ∃ v, r.entries.get? key = some v ∧ v.expires = t
  missing : ∀ key place, r.headers.missingExternal.get? key = some place → r.entries.get? key = none

theorem mirrors_empty (owner : ProtocolIdentity) : (empty owner : Retained Values).Mirrors ∅ where
  entries _ := rfl
  due key t h := by
    obtain ⟨keys, hget, -⟩ := h
    cases hget
  missing key place h := by cases h

theorem Mirrors.publish {records : SortedMap CopyKey (IndexRecord Values)} (h : r.Mirrors records)
    (record : IndexRecord Values) : (r.publish record).Mirrors (records.insert record.key record) := by
  constructor
  · intro key
    rw [publish_entries, SortedMap.get?_insert]
    by_cases hkey : key = record.key
    · rw [if_pos hkey, if_pos hkey]
      rfl
    · rw [if_neg hkey, if_neg hkey]
      exact h.entries key
  · intro key t hdue
    rw [publish_entries]
    rcases lists_publish.mp hdue with ⟨v, rfl, rfl, rfl⟩ | ⟨hbefore, hnot⟩
    · exact ⟨v, if_pos rfl, rfl⟩
    · obtain ⟨v, hv, ht⟩ := h.due key t hbefore
      by_cases hkey : key = record.key
      · exact absurd ⟨ht.symm, hkey⟩ (hnot v (hkey ▸ hv))
      · exact ⟨v, (if_neg hkey).trans hv, ht⟩
  · intro key place hmissing
    rw [publish_headers] at hmissing
    have hforgot : (r.headers.missingExternal.erase record.key).get? key = some place := hmissing
    rw [SortedMap.get?_erase] at hforgot
    rw [publish_entries]
    by_cases hkey : key = record.key
    · rw [if_pos hkey] at hforgot
      cases hforgot
    · rw [if_neg hkey] at hforgot
      rw [if_neg hkey]
      exact h.missing key place hforgot

/-- Records published one by one are mirrored as they are filed one by one. -/
theorem Mirrors.publishAll {records : SortedMap CopyKey (IndexRecord Values)} (h : r.Mirrors records)
    {rows : List (CopyKey × IndexRecord Values)} (hkeys : ∀ row ∈ rows, row.2.key = row.1) :
    ((rows.map Prod.snd).foldl Retained.publish r).Mirrors
      (rows.foldl (fun m row => m.insert row.1 row.2) records) := by
  induction rows generalizing r records with
  | nil => exact h
  | cons row rest ih =>
    obtain ⟨hkey, hrest⟩ := List.forall_mem_cons.mp hkeys
    have hnext := h.publish row.2
    rw [hkey] at hnext
    exact ih hnext hrest

end Retained

/-! ### The store -/

/-- The copy that is there after a write, by what was there before. -/
def RetainedCopyWrite.left (w : RetainedCopyWrite) (before : Option Entry) : Option Entry :=
  match w with
  | replace e => some e
  | keep => before
  | remove => none

/-- What the store has of a copy that is available. -/
def RetainedStore.available (s : RetainedStore Values) (key : CopyKey) : Option (Indexed Values) :=
  (s.records.get? key).bind IndexRecord.indexed?

section
variable [Crypto] [Embedding Values] {s : RetainedStore Values} {w : RetainedWrite Values} {owner : ProtocolIdentity}
  {key : CopyKey}

/-- Every record reads back, and the copy of every record that is available is there. -/
structure RetainedStore.Sound (s : RetainedStore Values) (owner : ProtocolIdentity) : Prop where
  row : ∀ key record, s.records.get? key = some record → checkRow (key, record) = .ok ()
  copy : ∀ key v, s.available key = some v → ∃ e, s.copies.get? key = some e ∧ e.fits v owner key = true

/-- A write whose record reads back, and whose copy is there afterwards. -/
structure RetainedWrite.Fits (w : RetainedWrite Values) (s : RetainedStore Values) (owner : ProtocolIdentity) :
    Prop where
  row : RetainedStore.checkRow (w.key, w.record) = .ok ()
  copy : ∀ v, w.record.indexed? = some v →
    ∃ e, w.copy.left (s.copies.get? w.key) = some e ∧ e.fits v owner w.key = true

namespace RetainedStore

omit [Crypto] [Embedding Values] in
theorem write_available : (s.write w).available key =
    if key = w.key then w.record.indexed? else s.available key := by
  show ((s.records.insert w.key w.record).get? key).bind IndexRecord.indexed? = _
  rw [SortedMap.get?_insert]
  by_cases hkey : key = w.key
  · rw [if_pos hkey, if_pos hkey]
    rfl
  · rw [if_neg hkey, if_neg hkey]
    rfl

omit [Crypto] [Embedding Values] in
theorem write_copies : (s.write w).copies.get? key =
    if key = w.key then w.copy.left (s.copies.get? key) else s.copies.get? key := by
  unfold write
  by_cases hkey : key = w.key
  · rw [if_pos hkey]
    subst hkey
    cases w.copy with
    | replace e => exact SortedMap.get?_insert_self s.copies w.key e
    | keep => rfl
    | remove => exact (SortedMap.get?_erase s.copies w.key w.key).trans (if_pos rfl)
  · rw [if_neg hkey]
    cases w.copy with
    | replace e => exact SortedMap.get?_insert_ne s.copies e hkey
    | keep => rfl
    | remove => exact (SortedMap.get?_erase s.copies w.key key).trans (if_neg hkey)

theorem Sound.write (h : s.Sound owner) (hw : w.Fits s owner) : (s.write w).Sound owner where
  row key record hrecord := by
    rcases SortedMap.get?_insert_eq_some.mp hrecord with ⟨rfl, rfl⟩ | ⟨-, hold⟩
    · exact hw.row
    · exact h.row key record hold
  copy key v hv := by
    rw [write_available] at hv
    rw [write_copies]
    by_cases hkey : key = w.key
    · rw [if_pos hkey] at hv
      rw [if_pos hkey, hkey]
      exact hw.copy v hv
    · rw [if_neg hkey] at hv
      rw [if_neg hkey]
      exact h.copy key v hv

/-- Writes under different keys do not meet. -/
theorem Sound.writeAll {writes : List (RetainedWrite Values)} (h : s.Sound owner)
    (hkeys : (writes.map RetainedWrite.key).Nodup) (hfits : ∀ w ∈ writes, w.Fits s owner) :
    (writes.foldl RetainedStore.write s).Sound owner := by
  induction writes generalizing s with
  | nil => exact h
  | cons w rest ih =>
    obtain ⟨hw, hrest⟩ := List.forall_mem_cons.mp hfits
    obtain ⟨hnew, hkeys⟩ := List.nodup_cons.mp hkeys
    refine ih (h.write hw) hkeys fun w' hw' => ⟨(hrest w' hw').row, fun v hv => ?_⟩
    have hne : w'.key ≠ w.key := fun heq => hnew (heq ▸ List.mem_map_of_mem hw')
    rw [write_copies, if_neg hne]
    exact (hrest w' hw').copy v hv

omit [Crypto] [Embedding Values] in
theorem writeAll_records (writes : List (RetainedWrite Values)) (s : RetainedStore Values) :
    (writes.foldl RetainedStore.write s).records =
      (writes.map fun w => (w.key, w.record)).foldl (fun m row => m.insert row.1 row.2) s.records := by
  induction writes generalizing s with
  | nil => rfl
  | cons w rest ih => exact ih (s.write w)

omit [Crypto] [Embedding Values] in
/-- What is not available any more was excluded by a write. -/
theorem excluded_of_lost {writes : List (RetainedWrite Values)} {v : Indexed Values} (h : s.available key = some v)
    (hlost : (writes.foldl RetainedStore.write s).available key = none) :
    ∃ w ∈ writes, w.key = key ∧ w.record.indexed? = none := by
  induction writes generalizing s v with
  | nil => cases h.symm.trans hlost
  | cons w rest ih =>
    cases hnext : (s.write w).available key with
    | some v' =>
      obtain ⟨w', hw', hrest⟩ := ih hnext hlost
      exact ⟨w', List.mem_cons_of_mem w hw', hrest⟩
    | none =>
      refine ⟨w, List.mem_cons_self .., ?_⟩
      rw [write_available] at hnext
      by_cases hkey : key = w.key
      · rw [if_pos hkey] at hnext
        exact ⟨hkey.symm, hnext⟩
      · rw [if_neg hkey] at hnext
        cases h.symm.trans hnext

omit [Crypto] in
theorem checkRow_eq_ok {row : CopyKey × IndexRecord Values} : checkRow row = .ok () ↔ row.2.key = row.1 ∧
    ∀ v, row.2.indexed? = some v → v.projection.validate = .ok () ∧ v.subject.isSome = v.key.thread.isNative := by
  obtain ⟨key, record⟩ := row
  cases record with
  | available v =>
    simp only [checkRow, bind_eq_ok, refuseIf_eq_ok, exists_const, ne_eq, not_not, IndexRecord.indexed?,
      Option.some.injEq, forall_eq']
    refine and_congr_right fun _ => ⟨?_, fun hrow => ⟨(), hrow⟩⟩
    rintro ⟨⟨⟩, hrow⟩
    exact hrow
  | excluded k =>
    simp only [checkRow, bind_eq_ok, refuseIf_eq_ok, exists_const, ne_eq, not_not, IndexRecord.indexed?, reduceCtorEq,
      IsEmpty.forall_iff, implies_true]

/-- What is filed as available under a key reads back, and is the key's. -/
theorem Sound.row_of_available (h : s.Sound owner) {v : Indexed Values} (hv : s.available key = some v) :
    v.key = key ∧ v.projection.validate = .ok () ∧ v.subject.isSome = v.key.thread.isNative := by
  obtain ⟨record, hrecord, hindexed⟩ := Option.bind_eq_some_iff.mp hv
  obtain ⟨hkey, hrow⟩ := checkRow_eq_ok.mp (h.row key record hrecord)
  refine ⟨?_, hrow v hindexed⟩
  cases record with
  | available u =>
    cases hindexed
    exact hkey
  | excluded k => cases hindexed

/-- A sound store can be read, and what is read mirrors it. -/
theorem Sound.read (h : s.Sound owner) : s.read owner = .ok ⟨s.revision, .ofRecords owner s.records.values⟩ ∧
    (Retained.ofRecords owner s.records.values).Mirrors s.records := by
  have hrows : ∀ row ∈ s.records.entries, checkRow row = .ok () := fun row hrow =>
    h.row row.1 row.2 (SortedMap.mem_entries.mp hrow)
  constructor
  · exact bind_eq_ok.mpr ⟨⟨⟩, forM_eq_ok.mpr hrows, rfl⟩
  · have hmirrors := (Retained.mirrors_empty owner).publishAll fun row hrow => (checkRow_eq_ok.mp (hrows row hrow)).1
    have hrecords : s.records.entries.foldl (fun m row => m.insert row.1 row.2) ∅ = s.records :=
      SortedMap.ofList_entries s.records
    rw [hrecords] at hmirrors
    exact hmirrors

end RetainedStore

/-! ### Prepared changes -/

/-- A change that is prepared under a key of an index: an entry for its owner, the indexed copy with
another projection, or an exclusion, which has a reason. -/
inductive PendingRecord.Allowed (r : Retained Values) (Out : CopyKey → Prop) (key : CopyKey) :
    PendingRecord Values → Prop
  | replace {e : Entry} (hkey : e.key = key)
      (howner : e.native.all (fun n => n.ciphertext.binding.recipient = r.owner) = true) :
      Allowed r Out key (.replace e)
  | reindex {v old : Indexed Values} (hold : r.entries.get? key = some old) (hkey : v.key = key)
      (hsubject : v.subject = old.subject) (hexpires : v.expires = old.expires)
      (hdigest : v.contentDigest = old.contentDigest) (hvalid : v.projection.validate = .ok ()) :
      Allowed r Out key (.reindex v)
  | exclude (h : Out key) : Allowed r Out key .exclude

/-- What is prepared of an index: nothing but pending changes, each of them allowed. -/
structure Retained.Changes (r : Retained Values) (Out : CopyKey → Prop) (r' : Retained Values) : Prop where
  same : r' = {r with pending := r'.pending}
  pending : ∀ key p, r'.pending.get? key = some p → p.Allowed r Out key

namespace Retained
variable {r r' r'' : Retained Values} {Out : CopyKey → Prop}

omit [Crypto] in
theorem Changes.start (h : r.pending = ∅) : r.Changes Out r where
  same := rfl
  pending key p hp := by
    rw [h] at hp
    cases hp

omit [Crypto] in
/-- One more change is prepared. -/
theorem Changes.add (h : r.Changes Out r') {key : CopyKey} {p : PendingRecord Values} (hp : p.Allowed r Out key) :
    r.Changes Out {r' with pending := r'.pending.insert key p} where
  same := by rw [h.same]
  pending k q hq := by
    rcases SortedMap.get?_insert_eq_some.mp hq with ⟨rfl, rfl⟩ | ⟨-, hold⟩
    · exact hp
    · exact h.pending k q hold

omit [Crypto] in
theorem Changes.exclude (h : r.Changes Out r') {key : CopyKey} (hout : Out key) : r.Changes Out (r'.exclude key) :=
  h.add (.exclude hout)

omit [Crypto] in
theorem Changes.insert (h : r.Changes Out r') {e : Entry}
    (howner : e.native.all (fun n => n.ciphertext.binding.recipient = r.owner) = true) :
    r.Changes Out (r'.insert e) := by
  unfold Retained.insert
  split_ifs
  · exact h
  · exact h.add (.replace rfl howner)

omit [Crypto] in
theorem Changes.excludeAll (h : r.Changes Out r') {keys : List CopyKey} (hout : ∀ key ∈ keys, Out key) :
    r.Changes Out (keys.foldl Retained.exclude r') := by
  induction keys generalizing r' with
  | nil => exact h
  | cons key rest ih =>
    obtain ⟨hkey, hrest⟩ := List.forall_mem_cons.mp hout
    exact ih (h.exclude hkey) hrest

omit [Crypto] [Embedding Values] in
theorem entry_eq_some {key : CopyKey} {now : CanonicalTime} {v : Indexed Values} : r.entry key now = some v ↔
    r.hides key.thread = false ∧ r.entries.get? key = some v ∧ now < v.expires := by
  unfold entry
  cases r.hides key.thread <;> simp [Option.filter_eq_some_iff]

omit [Embedding Values] in
/-- A copy that is found is the one that was indexed. -/
theorem copy_eq_some {copies : SortedMap CopyKey Entry} {key : CopyKey} {now : CanonicalTime} {e : Entry} :
    r.copy copies key now = .ok (some e) ↔
      ∃ v, r.entry key now = some v ∧ copies.get? key = some e ∧ e.fits v r.owner key = true := by
  unfold copy
  cases r.entry key now with
  | none => simp
  | some v => simp [and_comm]

omit [Embedding Values] in
theorem copy_eq_none {copies : SortedMap CopyKey Entry} {key : CopyKey} {now : CanonicalTime} :
    r.copy copies key now = .ok none ↔ r.entry key now = none := by
  unfold copy
  cases r.entry key now with
  | none => simp
  | some v => simp

omit [Embedding Values] in
theorem fits_iff {e : Entry} {v : Indexed Values} {owner : ProtocolIdentity} {key : CopyKey} :
    e.fits v owner key = true ↔ e.key = key ∧ e.subject = v.subject ∧ e.expires = v.expires ∧
      contentDigest e.text = v.contentDigest ∧
      e.native.all (fun n => n.ciphertext.binding.recipient = owner) = true := decide_eq_true_iff

omit [Embedding Values] in
/-- What is indexed of an entry. -/
theorem indexed_eq_ok {e : Entry} {v : Indexed Values} (h : e.indexed = .ok v) :
    v = ⟨e.key, e.subject, e.expires, contentDigest e.text, .pending⟩ ∧
      e.subject.isSome = e.key.thread.isNative := by
  obtain ⟨⟨⟩, hchecks, h⟩ := bind_eq_ok.mp h
  rw [refuseIf_eq_ok, not_or, not_or, not_not, not_not] at hchecks
  cases h
  exact ⟨rfl, hchecks.2.1⟩

end Retained

omit [Embedding Values] in
theorem PendingRecord.write_key {p : PendingRecord Values} (h : p.write key = .ok w) : w.key = key := by
  cases p with
  | replace e =>
    obtain ⟨v, -, h⟩ := bind_eq_ok.mp h
    cases h
    rfl
  | reindex v | exclude =>
    cases h
    rfl

/-- An allowed change is written under its key, and fits the store; what it excludes has a reason. -/
theorem PendingRecord.Allowed.write {r : Retained Values} {Out : CopyKey → Prop} {p : PendingRecord Values}
    (hp : p.Allowed r Out key) (hs : s.Sound owner) (hr : r.Mirrors s.records) (howner : r.owner = owner)
    (hw : p.write key = .ok w) :
    w.key = key ∧ w.record.key = key ∧ w.Fits s owner ∧ (w.record.indexed? = none → Out key) := by
  cases hp with
  | @replace e hkey hnative =>
    obtain ⟨v, hv, hw⟩ := bind_eq_ok.mp hw
    cases hw
    obtain ⟨rfl, hsubject⟩ := Retained.indexed_eq_ok hv
    refine ⟨rfl, hkey, ⟨RetainedStore.checkRow_eq_ok.mpr ⟨hkey, fun u hu => ?_⟩, fun u hu => ?_⟩,
      fun hnone => by cases hnone⟩
    · cases hu
      exact ⟨refuseIf_eq_ok.mpr (by simp [Projection.chunks]), hsubject⟩
    · cases hu
      exact ⟨e, rfl, Retained.fits_iff.mpr ⟨hkey, rfl, rfl, rfl, howner ▸ hnative⟩⟩
  | @reindex v old hold hkey hsubject hexpires hdigest hvalid =>
    cases hw
    have havailable : s.available key = some old := (hr.entries key).symm.trans hold
    obtain ⟨hthread, -, hkind⟩ := hs.row_of_available havailable
    refine ⟨rfl, hkey, ⟨RetainedStore.checkRow_eq_ok.mpr ⟨hkey, fun u hu => ?_⟩, fun u hu => ?_⟩,
      fun hnone => by cases hnone⟩
    · cases hu
      refine ⟨hvalid, ?_⟩
      rw [hsubject, hkey, ← hthread]
      exact hkind
    · cases hu
      obtain ⟨e, he, hfits⟩ := hs.copy key old havailable
      rw [Retained.fits_iff] at hfits
      refine ⟨e, he, Retained.fits_iff.mpr ?_⟩
      rw [hsubject, hexpires, hdigest]
      exact hfits
  | exclude hout =>
    cases hw
    refine ⟨rfl, rfl, ⟨RetainedStore.checkRow_eq_ok.mpr ⟨rfl, fun u hu => by cases hu⟩, fun u hu => by cases hu⟩,
      fun _ => hout⟩

namespace MemberClient

/-- What a checkpoint leaves of a client, where what is removed has a reason. -/
structure Follows (x : MemberClient Values) (r : Retained Values) (Out : CopyKey → Prop) (y : MemberClient Values) :
    Prop where
  state : y.state = x.state
  store : y.store.Sound x.state.persona
  index : ∀ l, y.index = some l → l.retained.Mirrors y.store.records ∧ l.retained.owner = r.owner ∧
    l.retained.pending = ∅ ∧ l.retained.suspended = r.suspended
  lost : ∀ key v, x.store.available key = some v → y.store.available key = none → Out key

variable {x : MemberClient Values} {r : Retained Values} {Out : CopyKey → Prop}

/-- A checkpoint that saves nothing. -/
theorem Follows.unsaved (hs : x.store.Sound x.state.persona) {index : Option (LoadedIndex Values)}
    (hindex : ∀ l, index = some l → l.retained.Mirrors x.store.records ∧ l.retained.owner = r.owner ∧
      l.retained.pending = ∅ ∧ l.retained.suspended = r.suspended) : x.Follows r Out {x with index} :=
  ⟨rfl, hs, hindex, fun _ _ h hlost => by cases h.symm.trans hlost⟩

omit [Crypto] [Embedding Values] in
theorem publishAll_frame (records : List (IndexRecord Values)) (r : Retained Values) :
    (records.foldl Retained.publish r).owner = r.owner ∧ (records.foldl Retained.publish r).pending = r.pending ∧
      (records.foldl Retained.publish r).suspended = r.suspended := by
  induction records generalizing r with
  | nil => exact ⟨rfl, rfl, rfl⟩
  | cons record rest ih =>
    obtain ⟨howner, hpending, hsuspended⟩ := ih (r.publish record)
    exact ⟨howner.trans (r.publish_owner record), hpending.trans Retained.publish_pending,
      hsuspended.trans Retained.publish_suspended⟩

/-- A save writes what was prepared, and removes what it has a reason to. -/
theorem save_follows (hs : x.store.Sound x.state.persona) (hr : r.Mirrors x.store.records)
    (howner : r.owner = x.state.persona) {l : LoadedIndex Values} (hl : r.Changes Out l.retained)
    (answer : CommitAnswer) : x.Follows r Out (x.save l answer).1 := by
  have hpublished : ({l.retained with pending := ∅} : Retained Values) = {r with pending := ∅} := by
    rw [hl.same]
  have hmirrors : ({l.retained with pending := ∅} : Retained Values).Mirrors x.store.records := by
    rw [hpublished]
    exact ⟨hr.entries, hr.due, hr.missing⟩
  unfold save
  dsimp only
  split
  · rename_i writes next hwrites hnext
    have hallowed : ∀ w ∈ writes, ∃ key, w.key = key ∧ w.record.key = key ∧ w.Fits x.store x.state.persona ∧
        (w.record.indexed? = none → Out key) := by
      intro w hw
      obtain ⟨e, he, hwrite⟩ := (mem_of_mapM_eq_ok hwrites).2 w hw
      exact ⟨e.1, (hl.pending e.1 e.2 (SortedMap.mem_entries.mp he)).write hs hr howner hwrite⟩
    have hkeys : writes.map RetainedWrite.key = l.retained.pending.keys :=
      map_eq_map_of_forall₂ (fun e w hw => PendingRecord.write_key hw) (mapM_eq_ok_forall₂.mp hwrites)
    have hfits : ∀ w ∈ writes, w.Fits x.store x.state.persona := by
      intro w hw
      obtain ⟨_, _, _, hfits, _⟩ := hallowed w hw
      exact hfits
    -- what is committed
    have hcommit : ∀ store, x.store.commit l.revision next writes = some store →
        store.records = (writes.map fun w => (w.key, w.record)).foldl (fun m row => m.insert row.1 row.2)
          x.store.records ∧ store.Sound x.state.persona ∧
        ∀ key v, x.store.available key = some v → store.available key = none → Out key := by
      intro store hstore
      unfold RetainedStore.commit at hstore
      split_ifs at hstore
      cases hstore
      have hsound := hs.writeAll (hkeys ▸ l.retained.pending.keys_nodup) hfits
      refine ⟨RetainedStore.writeAll_records writes x.store, ⟨hsound.row, hsound.copy⟩, fun key v hv hlost => ?_⟩
      obtain ⟨w, hw, rfl, hexcluded⟩ := RetainedStore.excluded_of_lost hv hlost
      obtain ⟨_, rfl, _, _, hout⟩ := hallowed w hw
      exact hout hexcluded
    split
    · rename_i store hstore
      obtain ⟨hrecords, hsound, hlost⟩ := hcommit store hstore
      refine ⟨rfl, hsound, fun l' hl' => ?_, hlost⟩
      cases hl'
      have hrows : ∀ row ∈ writes.map fun w => (w.key, w.record), row.2.key = row.1 := by
        intro row hrow
        obtain ⟨w, hw, rfl⟩ := List.mem_map.mp hrow
        obtain ⟨_, rfl, hkey, _, _⟩ := hallowed w hw
        exact hkey
      have hall := hmirrors.publishAll hrows
      rw [← hrecords, List.map_map] at hall
      obtain ⟨hown, hpending, hsuspended⟩ := publishAll_frame (writes.map RetainedWrite.record)
        {l.retained with pending := ∅}
      refine ⟨hall, hown.trans ?_, hpending, hsuspended.trans ?_⟩
      · rw [hpublished]
      · rw [hpublished]
    · rename_i store hstore
      obtain ⟨-, hsound, hlost⟩ := hcommit store hstore
      exact ⟨rfl, hsound, fun l' hl' => (by cases hl'), hlost⟩
    · exact .unsaved hs fun l' hl' => by cases hl'
  · refine .unsaved hs fun l' hl' => ?_
    cases hl'
    refine ⟨hmirrors, ?_, rfl, ?_⟩
    · rw [hpublished]
    · rw [hpublished]

end MemberClient

/-! ### What is prepared -/

namespace Retained
variable {r r' : Retained Values} {Out : CopyKey → Prop}

omit [Crypto] in
theorem Changes.owner_eq (h : r.Changes Out r') : r'.owner = r.owner := by rw [h.same]

omit [Crypto] in
theorem Changes.headers_eq (h : r.Changes Out r') : r'.headers = r.headers := by rw [h.same]

omit [Crypto] in
theorem Changes.entry_eq (h : r.Changes Out r') (key : CopyKey) (now : CanonicalTime) : r'.entry key now = r.entry key now := by
  rw [h.same]
  rfl

section
variable {clock : CopyKey → CanonicalTime} {texts : CopyKey → Except MemberError Text} {state : ClientState}

theorem upgradeText_changes {copies : SortedMap CopyKey Entry} (hr : r.pending = ∅)
    (h : r.upgradeText clock texts copies = .ok (some r')) : r.Changes Out r' := by
  obtain ⟨r₁, hfold, hsome⟩ := map_eq_ok.mp h
  cases hsome
  refine foldlM_preserves (P := r.Changes Out) (fun r₁ key r₂ h₁ hstep => ?_) (.start hr) hfold
  obtain ⟨found, hfound, hstep⟩ := bind_eq_ok.mp hstep
  cases found with
  | none =>
    cases hstep
    exact h₁
  | some e =>
    obtain ⟨text, -, hstep⟩ := bind_eq_ok.mp hstep
    cases hstep
    obtain ⟨v, -, -, hfits⟩ := copy_eq_some.mp hfound
    rw [h₁.owner_eq] at hfits
    exact h₁.insert (fits_iff.mp hfits).2.2.2.2

omit [Crypto] in
/-- What is due by a time has expired by then. -/
theorem expire_changes {records : SortedMap CopyKey (IndexRecord Values)} (hr : r.pending = ∅)
    (hmirrors : r.Mirrors records) {now : CanonicalTime} {limit : ℕ}
    (hout : ∀ key v, r.entries.get? key = some v → v.expires ≤ now → Out key) : r.Changes Out (r.expire now limit).1 := by
  refine (Changes.start hr).excludeAll fun key hkey => ?_
  obtain ⟨e, he, hin⟩ := List.mem_flatMap.mp (List.mem_of_mem_take hkey)
  obtain ⟨hentry, htime⟩ := List.mem_filter.mp he
  obtain ⟨u, hu⟩ := SortedMap.mem_keys.mp hin
  obtain ⟨v, hv, hexpires⟩ := hmirrors.due key e.1
    ⟨e.2, SortedMap.mem_entries.mp hentry, SortedMap.contains_eq_true.mpr ⟨u, hu⟩⟩
  exact hout key v hv (hexpires ▸ of_decide_eq_true htime)

/-- What is missing is not available. -/
theorem indexExternal_changes (hr : r.Changes Out r') {limit n : ℕ} {r'' : Retained Values}
    (hout : ∀ key place, r.headers.missingExternal.get? key = some place → Out key)
    (h : r'.indexExternal state clock texts limit = .ok (r'', n)) : r.Changes Out r'' := by
  obtain ⟨r₁, hfold, h⟩ := bind_eq_ok.mp h
  cases h
  refine foldlM_induction (P := fun _ => r.Changes Out) hr (fun done missing rest r₁ r₂ hsplit h₁ hstep => ?_) hfold
  have hmem : missing ∈ r'.headers.missingExternal.entries.take limit := by simp [← hsplit]
  obtain ⟨view, -, hstep⟩ := bind_eq_ok.mp hstep
  split_ifs at hstep
  · cases hstep
    refine h₁.exclude (hout missing.1 missing.2 ?_)
    rw [← hr.headers_eq]
    exact SortedMap.mem_entries.mp (List.mem_of_mem_take hmem)
  · obtain ⟨text, -, hstep⟩ := bind_eq_ok.mp hstep
    cases hstep
    exact h₁.insert rfl

end

/-- An indexed copy whose projection alone is replaced. -/
theorem publishProjection_changes {copies : SortedMap CopyKey Entry} {key : CopyKey}
    {original : Text} {expires now : CanonicalTime} {projection : Projection Values} (hr : r.pending = ∅)
    (hkeys : ∀ v, r.entries.get? key = some v → v.key = key)
    (h : r.publishProjection copies key original expires projection now = .ok (some r')) : r.Changes Out r' := by
  obtain ⟨_, -, h⟩ := bind_eq_ok.mp h
  obtain ⟨⟨⟩, -, h⟩ := bind_eq_ok.mp h
  obtain ⟨_, -, h⟩ := bind_eq_ok.mp h
  obtain ⟨_, -, h⟩ := bind_eq_ok.mp h
  obtain ⟨⟨⟩, -, h⟩ := bind_eq_ok.mp h
  obtain ⟨r₁, hproject, h⟩ := bind_eq_ok.mp h
  cases h
  obtain ⟨⟨⟩, hvalid, hproject⟩ := bind_eq_ok.mp hproject
  obtain ⟨v, hv, hproject⟩ := bind_eq_ok.mp hproject
  rw [okOr_eq_ok] at hv
  cases hproject
  exact (Changes.start hr).add (.reindex hv (hkeys v hv) rfl rfl rfl hvalid)

theorem excludeConversation_changes (hr : r.pending = ∅) {state : ClientState} {id : ConversationId}
    (hout : ∀ key, key.thread = .native id → Out key) : r.Changes Out (r.excludeConversation state id) := by
  unfold excludeConversation
  rw [← List.foldl_map (f := fun e : U64 × MessageRecord => (⟨.native id, e.2.manifest.message⟩ : CopyKey))
    (g := Retained.exclude)]
  refine (Changes.start hr).excludeAll fun key hkey => ?_
  obtain ⟨e, -, rfl⟩ := List.mem_map.mp hkey
  exact hout _ rfl

section
variable [Html] [MailParser] [DocumentJson] [RetainedContent] {state : ClientState}

omit [Embedding Values] in
/-- A document opens for the owner of its copy only. -/
theorem recipient_of_content {view : NativeView} {content : ConversationSubject × Text} {me : ProtocolIdentity}
    (h : view.content me = .ok content) : view.ciphertext.binding.recipient = me := by
  obtain ⟨document, hopen, -⟩ := bind_eq_ok.mp h
  rw [mapError_eq_ok] at hopen
  obtain ⟨⟨⟩, hbinding, -⟩ := bind_eq_ok.mp hopen
  rw [refuseIf_eq_ok, not_or, not_or, not_not, not_not] at hbinding
  exact hbinding.2.1

theorem retainResponse_changes (hr : r.pending = ∅) (howner : r.owner = state.persona) {key : CopyKey}
    {record : MessageRecord} {now : CanonicalTime} {response : FetchResponse}
    (hout : response = .unavailable → Out key)
    (h : r.retainResponse state key record now response = .ok r') : r.Changes Out r' := by
  cases response with
  | message view =>
    obtain ⟨⟨⟩, -, h⟩ := bind_eq_ok.mp h
    obtain ⟨content, hcontent, h⟩ := bind_eq_ok.mp h
    cases h
    refine (Changes.start hr).insert ?_
    exact decide_eq_true ((recipient_of_content hcontent).trans howner.symm)
  | unavailable =>
    cases h
    exact (Changes.start hr).exclude (hout rfl)
  | accessDenied | other => cases h

/-- A rebuild keeps what it can read, and excludes what it cannot. -/
theorem rebuild_changes {copies : SortedMap CopyKey Entry} {clock : CopyKey → CanonicalTime}
    {texts : CopyKey → Except MemberError Text} (hr : r.pending = ∅)
    (hout : ∀ key, r.entry key (clock key) = none → Out key)
    (h : r.rebuild state clock texts copies = .ok (some r')) : r.Changes Out r' := by
  obtain ⟨r₁, hfold, hsome⟩ := map_eq_ok.mp h
  cases hsome
  refine foldlM_preserves (P := r.Changes Out) (fun r₁ key r₂ h₁ hstep => ?_) (.start hr) hfold
  obtain ⟨found, hfound, hstep⟩ := bind_eq_ok.mp hstep
  cases found with
  | none =>
    cases hstep
    refine h₁.exclude (hout key ?_)
    rw [← h₁.entry_eq]
    exact copy_eq_none.mp hfound
  | some e =>
    obtain ⟨text, -, hstep⟩ := bind_eq_ok.mp hstep
    obtain ⟨⟨⟩, -, hstep⟩ := bind_eq_ok.mp hstep
    obtain ⟨v, hv, hstep⟩ := bind_eq_ok.mp hstep
    cases hstep
    obtain ⟨old, hold, -, hfits⟩ := copy_eq_some.mp hfound
    rw [h₁.entry_eq, entry_eq_some] at hold
    obtain ⟨rfl, hsubject, hexpires, hdigest, -⟩ := fits_iff.mp hfits
    obtain ⟨rfl, -⟩ := indexed_eq_ok hv
    exact h₁.add (.reindex hold.2.1 rfl hsubject hexpires hdigest (refuseIf_eq_ok.mpr (by simp [Projection.chunks])))

end
end Retained

end
end CsMail
