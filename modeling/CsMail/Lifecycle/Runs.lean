import CsMail.Lifecycle.Changes

/-! What holds in every state the calls lead to.

Every record that was deleted has one manifest, dated when it was due; what is stored has a record that
is still active; and the log of the operator's changes says what every record's hold and deadline are. -/
namespace CsMail.Lifecycle
open Library

/-- The manifest is of the record, made when it was due. -/
structure RetentionRecord.Justifies (r : RetentionRecord) (m : DeletionManifest) : Prop where
  deleted : r.deleted = true
  same : (m.reference, m.domain, m.object, m.policyVersion) = (r.reference, r.domain, r.object, r.policyVersion)
  expired : r.deleteAfter ≤ m.deletedAt
  unheld : ∀ hold ∈ r.holdUntil, hold ≤ m.deletedAt
  kind : r.domain ≠ .message

/-- The changes say what hold and deadline the record has, and no change shortened it. -/
structure RetentionRecord.Follows (r : RetentionRecord) (log : List RetentionChange) : Prop where
  extended : (log.map (·.deleteAfter)).Pairwise (· ≤ ·)
  unchanged : log = [] → r.holdUntil = none
  last : ∀ c ∈ log.getLast?, r.holdUntil = c.holdUntil ∧ r.deleteAfter = c.deleteAfter

def Tables.logged (t : Tables) (reference : Bytes) : List RetentionChange :=
  t.changes.filter (·.reference = reference)

def Tables.active (t : Tables) (domain : RecordDomain) (object : Text) : Prop :=
  ∃ r ∈ t.records, r.domain = domain ∧ r.object = object ∧ r.deleted = false

structure Tables.Sound (t : Tables) : Prop where
  keyed : t.keyed
  distinct : (t.records.map fun r => (r.domain, r.object)).Nodup
  named : ∀ r ∈ t.records, r.named
  manifested : ∀ r ∈ t.records, t.manifests.countP (·.reference = r.reference) = if r.deleted = true then 1 else 0
  justified : ∀ m ∈ t.manifests, ∃ r ∈ t.records, r.Justifies m
  contents : ∀ k v, t.objects.contents.get? k = some v → t.active .content k
  documents : ∀ k v, t.objects.documents.get? k = some v → t.active .requestDocument k
  known : ∀ c ∈ t.changes, ∃ r ∈ t.records, r.reference = c.reference
  follows : ∀ r ∈ t.records, r.Follows (t.logged r.reference)

namespace Tables

theorem start_sound (key : Text) (relationship : Bytes32) : (Tables.start key relationship).Sound where
  keyed := List.nodup_nil
  distinct := List.nodup_nil
  named := List.forall_mem_nil _
  manifested := List.forall_mem_nil _
  justified := List.forall_mem_nil _
  contents := by simp [Tables.start, Objects.start]
  documents := by simp [Tables.start, Objects.start]
  known := List.forall_mem_nil _
  follows := List.forall_mem_nil _

theorem nodup_updateRecord {α : Type} {t : Tables} {reference : Bytes} {f : RetentionRecord → RetentionRecord}
    {g : RetentionRecord → α} (hf : ∀ r, g (f r) = g r) (h : (t.records.map g).Nodup) :
    ((t.updateRecord reference f).records.map g).Nodup := by
  have hsame : (t.updateRecord reference f).records.map g = t.records.map g := by
    rw [updateRecord, List.map_map]
    refine List.map_congr_left fun r _ => ?_
    dsimp only [Function.comp_apply]
    split_ifs
    · exact hf r
    · rfl
  exact hsame ▸ h

theorem exists_updateRecord_of {t : Tables} {reference : Bytes} {f : RetentionRecord → RetentionRecord}
    {P : RetentionRecord → Prop} {r : RetentionRecord} (hr : r ∈ t.records) (hf : r.reference = reference → P (f r))
    (hsame : r.reference ≠ reference → P r) : ∃ r ∈ (t.updateRecord reference f).records, P r := by
  by_cases hreference : r.reference = reference
  · exact ⟨f r, mem_updateRecord.mpr ⟨r, hr, (if_pos hreference).symm⟩, hf hreference⟩
  · exact ⟨r, mem_updateRecord_of_ne hr hreference, hsame hreference⟩

theorem exists_updateRecord {t : Tables} {reference : Bytes} {f : RetentionRecord → RetentionRecord}
    {P : RetentionRecord → Prop} (hf : ∀ r ∈ t.records, r.reference = reference → P r → P (f r))
    (h : ∃ r ∈ t.records, P r) : ∃ r ∈ (t.updateRecord reference f).records, P r := by
  obtain ⟨r, hr, hP⟩ := h
  exact exists_updateRecord_of hr (fun hreference => hf r hr hreference hP) fun _ => hP

theorem forall_updateRecord {t : Tables} {reference : Bytes} {f : RetentionRecord → RetentionRecord}
    {P : RetentionRecord → Prop} (hf : ∀ r ∈ t.records, r.reference = reference → P (f r))
    (hsame : ∀ r ∈ t.records, r.reference ≠ reference → P r) : ∀ r ∈ (t.updateRecord reference f).records, P r := by
  intro r hr
  obtain ⟨old, hold, rfl⟩ := mem_updateRecord.mp hr
  split_ifs with hreference
  · exact hf old hold hreference
  · exact hsame old hold hreference

namespace Sound

theorem eq_of_reference {t : Tables} (hs : t.Sound) {r r' : RetentionRecord} (hr : r ∈ t.records)
    (hr' : r' ∈ t.records) (h : r.reference = r'.reference) : r = r' :=
  List.inj_on_of_nodup_map hs.keyed hr hr' h

/-- A record with a manifest was deleted. -/
theorem deleted_of_manifest {t : Tables} (hs : t.Sound) {m : DeletionManifest} (hm : m ∈ t.manifests)
    {r : RetentionRecord} (hr : r ∈ t.records) (h : r.reference = m.reference) : r.deleted = true := by
  obtain ⟨r', hr', hjust⟩ := hs.justified m hm
  have hsame : m.reference = r'.reference := congrArg Prod.fst hjust.same
  rw [hs.eq_of_reference hr hr' (h.trans hsame)]
  exact hjust.deleted

/-- Reapplying a manifest changes no record. -/
theorem reapply_records {t : Tables} (hs : t.Sound) {m : DeletionManifest} (hm : m ∈ t.manifests)
    (objects : Objects) :
    ({t with objects}.updateRecord m.reference fun r => {r with deleted := true}).records = t.records := by
  have hall : ∀ r ∈ t.records, (if r.reference = m.reference then {r with deleted := true} else r) = r := by
    intro r hr
    split_ifs with hreference
    · rw [← hs.deleted_of_manifest hm hr hreference]
    · rfl
  exact (List.map_congr_left hall).trans (List.map_id' _)

/-- Nothing else matters to it. -/
theorem of_same {t t' : Tables} (hs : t.Sound) (hrecords : t'.records = t.records)
    (hchanges : t'.changes = t.changes) (hmanifests : t'.manifests = t.manifests)
    (hobjects : t.objects.Within t'.objects) : t'.Sound where
  keyed := by
    rw [Tables.keyed, hrecords]
    exact hs.keyed
  distinct := hrecords ▸ hs.distinct
  named := hrecords ▸ hs.named
  manifested := by
    rw [hrecords, hmanifests]
    exact hs.manifested
  justified := by
    rw [hrecords, hmanifests]
    exact hs.justified
  contents := fun k v hv => by
    rw [Tables.active, hrecords]
    exact hs.contents k v (hobjects.contents k v hv)
  documents := fun k v hv => by
    rw [Tables.active, hrecords]
    exact hs.documents k v (hobjects.documents k v hv)
  known := by
    rw [hrecords, hchanges]
    exact hs.known
  follows := by
    rw [hrecords]
    simp only [logged, hchanges]
    exact hs.follows

theorem insert {t : Tables} (hs : t.Sound) {r : RetentionRecord} {objects : Objects}
    (hnew : t.conflicts r.reference r.domain r.object = false) (hactive : r.deleted = false)
    (hhold : r.holdUntil = none) (hnamed : r.named) (hobjects : t.objects.Stored r objects) :
    ({t.insertRecord r with objects} : Tables).Sound := by
  have hfresh := conflicts_eq_false.mp hnew
  have hmore {domain : RecordDomain} {k : Text} (h : t.active domain k) :
      ({t.insertRecord r with objects} : Tables).active domain k := by
    obtain ⟨old, hold, h⟩ := h
    exact ⟨old, List.mem_append_left _ hold, h⟩
  have hitself {domain : RecordDomain} {k : Text} (h : r.domain = domain ∧ r.object = k) :
      ({t.insertRecord r with objects} : Tables).active domain k :=
    ⟨r, List.mem_append_right _ (List.mem_singleton_self r), h.1, h.2, hactive⟩
  constructor
  · rw [Tables.keyed, insertRecord, List.map_append, List.map_singleton, List.nodup_append]
    refine ⟨hs.keyed, List.nodup_singleton _, fun a ha b hb => ?_⟩
    obtain ⟨old, hold, rfl⟩ := List.mem_map.mp ha
    rw [List.mem_singleton.mp hb]
    exact (hfresh old hold).1
  · rw [insertRecord, List.map_append, List.map_singleton, List.nodup_append]
    refine ⟨hs.distinct, List.nodup_singleton _, fun a ha b hb => ?_⟩
    obtain ⟨old, hold, rfl⟩ := List.mem_map.mp ha
    rw [List.mem_singleton.mp hb]
    exact fun heq => (hfresh old hold).2 (Prod.mk.inj heq)
  · exact List.forall_mem_append.mpr ⟨hs.named, List.forall_mem_singleton.mpr hnamed⟩
  · refine List.forall_mem_append.mpr ⟨hs.manifested, List.forall_mem_singleton.mpr ?_⟩
    rw [hactive]
    refine List.countP_eq_zero.mpr fun m hm => ?_
    obtain ⟨old, hold, hjust⟩ := hs.justified m hm
    have hsame : m.reference = old.reference := congrArg Prod.fst hjust.same
    rw [decide_eq_true_eq, hsame]
    exact (hfresh old hold).1
  · intro m hm
    obtain ⟨old, hold, hjust⟩ := hs.justified m hm
    exact ⟨old, List.mem_append_left _ hold, hjust⟩
  · intro k v hv
    exact (hobjects.contents k v hv).elim (fun hold => hmore (hs.contents k v hold)) hitself
  · intro k v hv
    exact (hobjects.documents k v hv).elim (fun hold => hmore (hs.documents k v hold)) hitself
  · intro c hc
    obtain ⟨old, hold, heq⟩ := hs.known c hc
    exact ⟨old, List.mem_append_left _ hold, heq⟩
  · refine List.forall_mem_append.mpr ⟨hs.follows, List.forall_mem_singleton.mpr ?_⟩
    have hnone : t.logged r.reference = [] := by
      refine List.filter_eq_nil_iff.mpr fun c hc => ?_
      obtain ⟨old, hold, heq⟩ := hs.known c hc
      rw [decide_eq_true_eq, ← heq]
      exact (hfresh old hold).1
    rw [show (Tables.logged {t.insertRecord r with objects} r.reference) = [] from hnone]
    exact ⟨List.Pairwise.nil, fun _ => hhold, nofun⟩

theorem defer {t : Tables} (hs : t.Sound) (reference : Bytes) (nextCheckAt : BigInt) :
    (t.updateRecord reference fun r => {r with nextCheckAt}).Sound := by
  constructor
  · exact nodup_updateRecord (fun _ => rfl) hs.keyed
  · exact nodup_updateRecord (fun _ => rfl) hs.distinct
  · exact forall_updateRecord (fun r hr _ => hs.named r hr) fun r hr _ => hs.named r hr
  · exact forall_updateRecord (fun r hr _ => hs.manifested r hr) fun r hr _ => hs.manifested r hr
  · intro m hm
    exact exists_updateRecord (fun r _ _ h => ⟨h.deleted, h.same, h.expired, h.unheld, h.kind⟩) (hs.justified m hm)
  · exact fun k v hv => exists_updateRecord (fun _ _ _ h => h) (hs.contents k v hv)
  · exact fun k v hv => exists_updateRecord (fun _ _ _ h => h) (hs.documents k v hv)
  · exact fun c hc => exists_updateRecord (fun _ _ _ h => h) (hs.known c hc)
  · refine forall_updateRecord (fun r hr _ => ?_) fun r hr _ => hs.follows r hr
    have h := hs.follows r hr
    exact ⟨h.extended, h.unchanged, h.last⟩

theorem logged_append {log : List RetentionChange} (c : RetentionChange) (reference : Bytes) :
    (log ++ [c]).filter (·.reference = reference) =
      log.filter (·.reference = reference) ++ if c.reference = reference then [c] else [] := by
  rw [List.filter_append, List.filter_singleton]
  by_cases h : c.reference = reference <;> simp [h]

/-- The newest change is what the record has from then on. -/
theorem follows_append {r r' : RetentionRecord} {log : List RetentionChange} (h : r.Follows log)
    (hlogged : ∀ c ∈ log, c.deleteAfter ≤ r.deleteAfter) {c : RetentionChange} (hlater : r.deleteAfter ≤ c.deleteAfter)
    (hlast : r'.holdUntil = c.holdUntil ∧ r'.deleteAfter = c.deleteAfter) : r'.Follows (log ++ [c]) := by
  constructor
  · rw [List.map_append, List.map_singleton, List.pairwise_append]
    refine ⟨h.extended, List.pairwise_singleton .., fun a ha b hb => ?_⟩
    obtain ⟨old, hold, rfl⟩ := List.mem_map.mp ha
    rw [List.mem_singleton.mp hb]
    exact (hlogged old hold).trans hlater
  · intro hnil
    exact absurd hnil (by simp)
  · rw [List.getLast?_concat]
    intro c' hc'
    cases hc'
    exact hlast

/-- No change of a record is of a later deadline than it has. -/
theorem follows_bound {r : RetentionRecord} {log : List RetentionChange} (h : r.Follows log) :
    ∀ c ∈ log, c.deleteAfter ≤ r.deleteAfter := by
  intro c hc
  rcases List.eq_nil_or_concat log with rfl | ⟨front, last, rfl⟩
  · cases hc
  · rw [List.concat_eq_append] at h hc
    have hlast : r.deleteAfter = last.deleteAfter := (h.last last (by simp)).2
    have hext := h.extended
    rw [List.map_append, List.map_singleton, List.pairwise_append] at hext
    rw [hlast]
    rcases List.mem_append.mp hc with hc | hc
    · exact hext.2.2 _ (List.mem_map_of_mem hc) _ (List.mem_singleton_self _)
    · rw [List.mem_singleton.mp hc]

theorem extend {t : Tables} (hs : t.Sound) {r : RetentionRecord} (hr : r ∈ t.records) (hactive : r.deleted = false)
    (holdUntil : Option BigInt) {deleteAfter : BigInt} (hlater : r.deleteAfter ≤ deleteAfter) (changedAt : BigInt)
    (reason : Text) : ({t.updateRecord r.reference (fun r => {r with
        holdUntil
        deleteAfter
        nextCheckAt := 0}) with
      changes := t.changes ++ [⟨r.reference, changedAt, reason, holdUntil, deleteAfter⟩]} : Tables).Sound := by
  constructor
  · exact nodup_updateRecord (fun _ => rfl) hs.keyed
  · exact nodup_updateRecord (fun _ => rfl) hs.distinct
  · exact forall_updateRecord (fun r hr _ => hs.named r hr) fun r hr _ => hs.named r hr
  · exact forall_updateRecord (fun r hr _ => hs.manifested r hr) fun r hr _ => hs.manifested r hr
  · intro m hm
    refine exists_updateRecord (fun other hother heq h => ?_) (hs.justified m hm)
    -- the record that was extended is active
    rw [hs.eq_of_reference hother hr heq] at h
    exact absurd h.deleted (hactive ▸ Bool.false_ne_true)
  · exact fun k v hv => exists_updateRecord (fun _ _ _ h => h) (hs.contents k v hv)
  · exact fun k v hv => exists_updateRecord (fun _ _ _ h => h) (hs.documents k v hv)
  · refine List.forall_mem_append.mpr ⟨fun c hc => ?_, List.forall_mem_singleton.mpr ?_⟩
    · exact exists_updateRecord (fun _ _ _ h => h) (hs.known c hc)
    · exact exists_updateRecord (fun _ _ _ h => h) ⟨r, hr, rfl⟩
  · refine forall_updateRecord (fun other hother heq => ?_) fun other hother hne => ?_
    · cases hs.eq_of_reference hother hr heq
      have h := hs.follows _ hr
      dsimp only [logged]
      rw [logged_append, if_pos rfl]
      exact follows_append h (follows_bound h) hlater ⟨rfl, rfl⟩
    · dsimp only [logged]
      rw [logged_append, if_neg (Ne.symm hne), List.append_nil]
      exact hs.follows other hother

theorem justifies_delete {r : RetentionRecord} {now : BigInt} (hdue : r.due now = true) {o o' : Objects}
    (hdelete : o.delete r.object r.domain = .ok (o', true)) :
    ({r with deleted := true} : RetentionRecord).Justifies ⟨r.reference, r.domain, r.object, r.policyVersion, now⟩ := by
  simp only [RetentionRecord.due, Bool.and_eq_true, decide_eq_true_eq] at hdue
  refine ⟨rfl, rfl, hdue.1.1.2, fun hold hhold => ?_, fun hmessage => ?_⟩
  · have hall := hdue.2
    rw [show r.holdUntil = some hold from hhold] at hall
    exact of_decide_eq_true hall
  · rw [show r.domain = .message from hmessage] at hdelete
    cases hdelete

theorem delete {t : Tables} (hs : t.Sound) {r : RetentionRecord} (hr : r ∈ t.records) {now : BigInt}
    (hdue : r.due now = true) {objects : Objects}
    (hdelete : t.objects.delete r.object r.domain = .ok (objects, true)) :
    ({({t with objects}.updateRecord r.reference fun r => {r with deleted := true}) with
      manifests := t.manifests ++ [⟨r.reference, r.domain, r.object, r.policyVersion, now⟩]} : Tables).Sound := by
  have hactive := RetentionRecord.active_of_due hdue
  have hwithin := Objects.delete_within hdelete
  have hgone := Objects.delete_gone hdelete
  -- what is still stored has another record
  have hstill {domain : RecordDomain} {k : Text} (h : t.active domain k) (hne : ¬(r.domain = domain ∧ r.object = k)) :
      ({t with objects}.updateRecord r.reference fun r => {r with deleted := true}).active domain k := by
    refine exists_updateRecord (fun other hother heq h => absurd ?_ hne) h
    rw [← hs.eq_of_reference hother hr heq]
    exact ⟨h.1, h.2.1⟩
  constructor
  · exact nodup_updateRecord (fun _ => rfl) hs.keyed
  · exact nodup_updateRecord (fun _ => rfl) hs.distinct
  · exact forall_updateRecord (fun r hr _ => hs.named r hr) fun r hr _ => hs.named r hr
  · refine forall_updateRecord (fun other hother heq => ?_) fun other hother hne => ?_
    · cases hs.eq_of_reference hother hr heq
      have hcount := hs.manifested _ hr
      rw [hactive] at hcount
      rw [List.countP_append, hcount]
      simp
    · rw [List.countP_append, hs.manifested other hother]
      simp [Ne.symm hne]
  · refine List.forall_mem_append.mpr ⟨fun m hm => ?_, List.forall_mem_singleton.mpr ?_⟩
    · exact exists_updateRecord (fun _ _ _ h => ⟨rfl, h.same, h.expired, h.unheld, h.kind⟩) (hs.justified m hm)
    · exact ⟨_, mem_updateRecord.mpr ⟨r, hr, (if_pos rfl).symm⟩, justifies_delete hdue hdelete⟩
  · intro k v hv
    refine hstill (hs.contents k v (hwithin.contents k v hv)) fun hsame => ?_
    rw [hsame.1, hsame.2] at hgone
    exact absurd (hv.symm.trans hgone) nofun
  · intro k v hv
    refine hstill (hs.documents k v (hwithin.documents k v hv)) fun hsame => ?_
    rw [hsame.1, hsame.2] at hgone
    exact absurd (hv.symm.trans hgone) nofun
  · exact fun c hc => exists_updateRecord (fun _ _ _ h => h) (hs.known c hc)
  · refine forall_updateRecord (fun other hother _ => ?_) fun other hother _ => hs.follows other hother
    have h := hs.follows other hother
    exact ⟨h.extended, h.unchanged, h.last⟩

theorem change {t t' : Tables} (hs : t.Sound) (h : Change t t') : t'.Sound := by
  cases h with
  | insert r objects hnew hactive hhold hnamed hobjects => exact hs.insert hnew hactive hhold hnamed hobjects
  | defer r _ _ nextCheckAt => exact hs.defer r.reference nextCheckAt
  | extend r hr hactive holdUntil deleteAfter hlater changedAt reason =>
    exact hs.extend hr hactive holdUntil hlater changedAt reason
  | delete r hr now hdue objects hdelete => exact hs.delete hr hdue hdelete
  | reapply m hm objects hdelete =>
    exact hs.of_same (hs.reapply_records hm objects) rfl rfl (Objects.delete_within hdelete)
  | rest policies objects othersPending hobjects => exact hs.of_same rfl rfl rfl hobjects

theorem changes {t t' : Tables} (hs : t.Sound) (h : Changes t t') : t'.Sound := by
  induction h with
  | refl => exact hs
  | tail _ hstep ih => exact ih.change hstep

theorem call [Crypto] {t t' : Tables} {c : Call} (hs : t.Sound) (h : Lifecycle.call t c = .ok t') : t'.Sound :=
  hs.changes (call_changes hs.keyed h)

theorem run [Crypto] (key : Text) (relationship : Bytes32) (calls : List Call) :
    (Machine.run Lifecycle.call (Tables.start key relationship) calls).Sound :=
  Machine.run_preserves (fun _ _ _ hs h => hs.call h) (start_sound key relationship) calls

end Sound

end Tables

/-! ### From one state to a later one -/

/-- What is left of a record, under the changes logged of it since. -/
structure RetentionRecord.Later (log : List RetentionChange) (r r' : RetentionRecord) : Prop where
  same : (r'.reference, r'.domain, r'.object, r'.policyVersion, r'.createdAt) =
    (r.reference, r.domain, r.object, r.policyVersion, r.createdAt)
  extended : r.deleteAfter ≤ r'.deleteAfter
  unchanged : log = [] → r'.deleteAfter = r.deleteAfter ∧ r'.holdUntil = r.holdUntil
  final : r.deleted = true → r' = r

theorem RetentionRecord.later_refl (r : RetentionRecord) : r.Later [] r := ⟨rfl, le_rfl, fun _ => ⟨rfl, rfl⟩, fun _ => rfl⟩

theorem RetentionRecord.Later.trans {a b c : RetentionRecord} {first second : List RetentionChange}
    (h : a.Later first b) (h' : b.Later second c) : a.Later (first ++ second) c where
  same := h'.same.trans h.same
  extended := h.extended.trans h'.extended
  unchanged hnil := by
    obtain ⟨hfirst, hsecond⟩ := List.append_eq_nil_iff.mp hnil
    exact ⟨(h'.unchanged hsecond).1.trans (h.unchanged hfirst).1, (h'.unchanged hsecond).2.trans (h.unchanged hfirst).2⟩
  final hdeleted := by
    have hb := h.final hdeleted
    exact (h'.final (hb ▸ hdeleted)).trans hb

namespace Tables

/-- Every record is still there, and what became of its deadline and its hold is in the log. -/
def Later (t t' : Tables) : Prop :=
  ∃ log, t'.changes = t.changes ++ log ∧
    ∀ r ∈ t.records, ∃ r' ∈ t'.records, r.Later (log.filter (·.reference = r.reference)) r'

theorem later_refl (t : Tables) : t.Later t :=
  ⟨[], (List.append_nil _).symm, fun r hr => ⟨r, hr, r.later_refl⟩⟩

theorem Later.trans {a b c : Tables} (h : a.Later b) (h' : b.Later c) : a.Later c := by
  obtain ⟨first, hfirst, hab⟩ := h
  obtain ⟨second, hsecond, hbc⟩ := h'
  refine ⟨first ++ second, by rw [hsecond, hfirst, List.append_assoc], fun r hr => ?_⟩
  obtain ⟨r', hr', hlater⟩ := hab r hr
  obtain ⟨r'', hr'', hlater'⟩ := hbc r' hr'
  have href : r'.reference = r.reference := congrArg Prod.fst hlater.same
  rw [href] at hlater'
  refine ⟨r'', hr'', ?_⟩
  rw [List.filter_append]
  exact hlater.trans hlater'

/-- An update of one record, when nothing is logged. -/
theorem later_updateRecord {t t' : Tables} {reference : Bytes} {f : RetentionRecord → RetentionRecord}
    (hrecords : t'.records = (t.updateRecord reference f).records) (hchanges : t'.changes = t.changes)
    (hf : ∀ r ∈ t.records, r.reference = reference → r.Later [] (f r)) : t.Later t' := by
  refine ⟨[], by rw [hchanges, List.append_nil], fun r hr => ?_⟩
  rw [hrecords]
  refine exists_updateRecord_of hr ?_ ?_
  · exact fun h => hf r hr h
  · exact fun _ => r.later_refl

theorem Sound.later {t t' : Tables} (hs : t.Sound) (h : Change t t') : t.Later t' := by
  cases h with
  | insert r objects hnew hactive hhold hnamed hobjects =>
    exact ⟨[], (List.append_nil _).symm, fun r hr => ⟨r, List.mem_append_left _ hr, r.later_refl⟩⟩
  | defer r hr hactive nextCheckAt =>
    refine later_updateRecord rfl rfl fun other hother heq => ?_
    cases hs.eq_of_reference hother hr heq
    exact ⟨rfl, le_rfl, fun _ => ⟨rfl, rfl⟩, fun hdeleted => absurd hdeleted (hactive ▸ Bool.false_ne_true)⟩
  | extend r hr hactive holdUntil deleteAfter hlater changedAt reason =>
    refine ⟨[⟨r.reference, changedAt, reason, holdUntil, deleteAfter⟩], rfl, fun other hother => ?_⟩
    refine exists_updateRecord_of hother (fun heq => ?_) fun hne => ?_
    · cases hs.eq_of_reference hother hr heq
      refine ⟨rfl, hlater, fun hnil => ?_, fun hdeleted => absurd hdeleted (hactive ▸ Bool.false_ne_true)⟩
      rw [List.filter_singleton, decide_eq_true rfl] at hnil
      cases hnil
    · rw [List.filter_singleton, decide_eq_false (Ne.symm hne)]
      exact other.later_refl
  | delete r hr now hdue objects hdelete =>
    refine later_updateRecord rfl rfl fun other hother heq => ?_
    cases hs.eq_of_reference hother hr heq
    exact ⟨rfl, le_rfl, fun _ => ⟨rfl, rfl⟩,
      fun hdeleted => absurd hdeleted (RetentionRecord.active_of_due hdue ▸ Bool.false_ne_true)⟩
  | reapply m hm objects hdelete =>
    refine ⟨[], (List.append_nil _).symm, fun r hr => ⟨r, ?_, r.later_refl⟩⟩
    rw [hs.reapply_records hm objects]
    exact hr
  | rest policies objects othersPending hobjects =>
    exact ⟨[], (List.append_nil _).symm, fun r hr => ⟨r, hr, r.later_refl⟩⟩

theorem Sound.later_changes {t t' : Tables} (hs : t.Sound) (h : Changes t t') : t.Later t' := by
  induction h with
  | refl => exact later_refl t
  | tail hchanges hstep ih => exact ih.trans ((hs.changes hchanges).later hstep)

end Tables

/-! ### Runs -/

section Runs
variable [Crypto] (key : Text) (relationship : Bytes32)

/-- A deletion happens once, and only of what was due: there is one manifest of each deleted record, none of
any other, and it is dated past the deadline and the hold. -/
theorem deletions_justified (calls : List Call) :
    let t := Machine.run call (Tables.start key relationship) calls
    (∀ r ∈ t.records, t.manifests.countP (·.reference = r.reference) = if r.deleted = true then 1 else 0) ∧
      ∀ m ∈ t.manifests, ∃ r ∈ t.records, r.Justifies m :=
  have hs := Tables.Sound.run key relationship calls
  ⟨hs.manifested, hs.justified⟩

/-- Nobody but the operator moves a deadline or a hold, every such change is in the log, and none of them
brings a deadline forward; a deleted record never changes again. -/
theorem deadlines_logged (before after : List Call) :
    let t := Machine.run call (Tables.start key relationship) before
    let t' := Machine.run call (Tables.start key relationship) (before ++ after)
    t.Later t' ∧ ∀ r ∈ t'.records, r.Follows (t'.logged r.reference) := by
  refine ⟨?_, (Tables.Sound.run key relationship (before ++ after)).follows⟩
  rw [Machine.run_append]
  have hstart := Tables.Sound.run key relationship before
  refine Machine.run_relates (P := Tables.Sound) (R := Tables.Later) Tables.later_refl (fun _ _ _ => Tables.Later.trans)
    (fun t c t' hs h => ?_) hstart after
  exact ⟨hs.call h, hs.later_changes (call_changes hs.keyed h)⟩

/-- What is stored has an active record, so it has a deadline; and what was deleted by its record is never
stored again. -/
theorem stored_active (before after : List Call) :
    let t := Machine.run call (Tables.start key relationship) before
    let t' := Machine.run call (Tables.start key relationship) (before ++ after)
    ((∀ k v, t'.objects.contents.get? k = some v → t'.active .content k) ∧
      ∀ k v, t'.objects.documents.get? k = some v → t'.active .requestDocument k) ∧
    ∀ r ∈ t.records, r.deleted = true →
      (r.domain = .content → t'.objects.contents.get? r.object = none) ∧
      (r.domain = .requestDocument → t'.objects.documents.get? r.object = none) := by
  have hs := Tables.Sound.run key relationship (before ++ after)
  obtain ⟨⟨log, -, hlater⟩, -⟩ := deadlines_logged key relationship before after
  refine ⟨⟨hs.contents, hs.documents⟩, fun r hr hdeleted => ?_⟩
  obtain ⟨r', hr', h⟩ := hlater r hr
  rw [h.final hdeleted] at hr'
  have hone {domain : RecordDomain} (hdomain : r.domain = domain)
      (hactive : (Machine.run call (Tables.start key relationship) (before ++ after)).active domain r.object) : False := by
    obtain ⟨other, hother, hsame, hobject, hother'⟩ := hactive
    have heq : other = r := List.inj_on_of_nodup_map hs.distinct hother hr'
      (by rw [hsame, hobject, hdomain])
    rw [heq, hdeleted] at hother'
    cases hother'
  constructor
  · intro hdomain
    cases hstored : (Machine.run call (Tables.start key relationship) (before ++ after)).objects.contents.get? r.object with
    | none => rfl
    | some v => exact (hone hdomain (hs.contents _ v hstored)).elim
  · intro hdomain
    cases hstored : (Machine.run call (Tables.start key relationship) (before ++ after)).objects.documents.get? r.object with
    | none => rfl
    | some v => exact (hone hdomain (hs.documents _ v hstored)).elim

end Runs

end CsMail.Lifecycle
