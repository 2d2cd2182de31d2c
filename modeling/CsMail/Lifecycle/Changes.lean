import CsMail.Lifecycle.Records
import Mathlib.Logic.Relation

/-! What one call can do to the records, one change at a time.

A call is a sequence of changes: a record is made, looked at again later, extended, or deleted with a
manifest. The batch of `runRetention` deletes each of its records once, as their references differ. -/
namespace CsMail.Lifecycle
open Library

/-! ### Deletions of objects -/

/-- Nothing comes to the content and the documents, and no message goes. -/
structure Objects.Within (o o' : Objects) : Prop where
  contents : ∀ k v, o'.contents.get? k = some v → o.contents.get? k = some v
  documents : ∀ k v, o'.documents.get? k = some v → o.documents.get? k = some v
  messages : ∀ k v, o.messages.get? k = some v → o'.messages.get? k = some v

theorem Objects.Within.trans {a b c : Objects} (h : a.Within b) (h' : b.Within c) : a.Within c :=
  ⟨fun k v hv => h.contents k v (h'.contents k v hv), fun k v hv => h.documents k v (h'.documents k v hv),
    fun k v hv => h'.messages k v (h.messages k v hv)⟩

namespace Objects

/-- What a deletion leaves of the object. -/
def Gone (o : Objects) (object : Text) : RecordDomain → Prop
  | .requestDocument => o.documents.get? object = none
  | .content => o.contents.get? object = none
  | .request => o.requests.get? object = none
  | .message => False
  | .quote => o.quotes.get? object = none ∧ o.quoteTombstones.contains object = true
  | .command => ∃ p : BigInt, parseI64 object = some p.val ∧ ∃ digest, o.providerReceipts.get? p = some digest ∧
      ∀ row, o.commands.get? p = some row → row.state = .retired digest

theorem within_refl (o : Objects) : o.Within o := ⟨fun _ _ h => h, fun _ _ h => h, fun _ _ h => h⟩

theorem get?_of_erase {V : Type} {m : SortedMap Text V} {object k : Text} {v : V}
    (h : (m.erase object).get? k = some v) : m.get? k = some v := by
  rw [SortedMap.get?_erase] at h
  split_ifs at h
  exact h

/-- A quote that goes has nobody's replay to wait for, and its number is spent. -/
theorem delete_quote {o o' : Objects} {object : Text} {deleted : Bool}
    (h : o.delete object .quote = .ok (o', deleted)) : (o' = o ∧ deleted = false) ∨
      (deleted = true ∧ o' = {o with
        quoteTombstones := o.quoteTombstones.insert object ()
        quotes := o.quotes.erase object}) := by
  rw [delete] at h
  split_ifs at h <;> cases h
  · exact .inl ⟨rfl, rfl⟩
  · exact .inl ⟨rfl, rfl⟩
  · exact .inr ⟨rfl, rfl⟩

theorem delete_command {o o' : Objects} {object : Text} {deleted : Bool}
    (h : o.delete object .command = .ok (o', deleted)) : (o' = o ∧ deleted = false) ∨
      (deleted = true ∧ ∃ p digest, parseI64 object = some (p.val : ℤ) ∧ o.providerReceipts.get? p = some digest ∧
        o' = {o with
          commands := match o.commands.get? p with
            | some row => o.commands.insert p (retireRow digest row)
            | none => o.commands
          work := o.work.filter fun w => !(w.position = some p ∧ w.complete = true)
          events := o.events.filter fun q => q ≠ p}) := by
  rw [delete] at h
  obtain ⟨position, hposition, h⟩ := bind_eq_ok.mp h
  rw [okOr_eq_ok] at hposition
  by_cases hwork : (o.work.any fun w => w.position.any (fun p => (p.val : ℤ) = position) ∧ w.complete = false) = true
  · rw [if_pos hwork] at h
    cases h
    exact .inl ⟨rfl, rfl⟩
  · rw [if_neg hwork] at h
    cases hreceipt : o.providerReceipts.entries.find? fun e => (e.1.val : ℤ) = position with
    | none =>
      rw [hreceipt] at h
      cases h
      exact .inl ⟨rfl, rfl⟩
    | some e =>
      rw [hreceipt] at h
      cases h
      have hp : ((e.1.val : ℤ) = position) := by simpa using List.find?_some hreceipt
      exact .inr ⟨rfl, e.1, e.2, by rw [hposition, hp],
        SortedMap.mem_entries.mp (List.mem_of_find?_eq_some hreceipt), rfl⟩

theorem delete_eq_false {o o' : Objects} {object : Text} {domain : RecordDomain}
    (h : o.delete object domain = .ok (o', false)) : o' = o := by
  cases domain with
  | requestDocument | message => cases h
  | content | request =>
    rw [delete] at h
    split_ifs at h <;> cases h
    rfl
  | quote =>
    rcases delete_quote h with ⟨hsame, -⟩ | ⟨htrue, -⟩
    · exact hsame
    · cases htrue
  | command =>
    rcases delete_command h with ⟨hsame, -⟩ | ⟨htrue, -⟩
    · exact hsame
    · cases htrue

theorem delete_within {o o' : Objects} {object : Text} {domain : RecordDomain} {deleted : Bool}
    (h : o.delete object domain = .ok (o', deleted)) : o.Within o' := by
  cases domain with
  | requestDocument =>
    cases h
    exact ⟨fun _ _ h => h, fun _ _ h => get?_of_erase h, fun _ _ h => h⟩
  | content =>
    rw [delete] at h
    split_ifs at h <;> cases h
    · exact within_refl o
    · exact ⟨fun _ _ h => get?_of_erase h, fun _ _ h => h, fun _ _ h => h⟩
  | request =>
    rw [delete] at h
    split_ifs at h <;> cases h
    · exact within_refl o
    · exact ⟨fun _ _ h => h, fun _ _ h => h, fun _ _ h => h⟩
  | message => cases h
  | quote =>
    rcases delete_quote h with ⟨rfl, -⟩ | ⟨-, rfl⟩
    · exact within_refl _
    · exact ⟨fun _ _ h => h, fun _ _ h => h, fun _ _ h => h⟩
  | command =>
    rcases delete_command h with ⟨rfl, -⟩ | ⟨-, _, _, _, _, rfl⟩
    · exact within_refl _
    · exact ⟨fun _ _ h => h, fun _ _ h => h, fun _ _ h => h⟩

theorem delete_gone {o o' : Objects} {object : Text} {domain : RecordDomain}
    (h : o.delete object domain = .ok (o', true)) : o'.Gone object domain := by
  cases domain with
  | requestDocument =>
    cases h
    simp [Gone, SortedMap.get?_erase]
  | content =>
    rw [delete] at h
    split_ifs at h <;> cases h
    simp [Gone, SortedMap.get?_erase]
  | request =>
    rw [delete] at h
    split_ifs at h <;> cases h
    simp [Gone, SortedMap.get?_erase]
  | message => cases h
  | quote =>
    rcases delete_quote h with ⟨-, hfalse⟩ | ⟨-, rfl⟩
    · cases hfalse
    · simp [Gone, SortedMap.get?_erase, SortedMap.contains]
  | command =>
    rcases delete_command h with ⟨-, hfalse⟩ | ⟨-, p, digest, hparse, hreceipt, rfl⟩
    · cases hfalse
    · refine ⟨p, hparse, digest, hreceipt, fun row hrow => ?_⟩
      dsimp only at hrow
      cases hold : o.commands.get? p with
      | none =>
        rw [hold] at hrow
        exact absurd (hrow.symm.trans hold) nofun
      | some old =>
        rw [hold, SortedMap.get?_insert_self] at hrow
        cases hrow
        rfl

/-- What is gone stays gone when more is deleted. -/
theorem Gone.delete {o o' : Objects} {object x : Text} {domain d : RecordDomain} {deleted : Bool} (hgone : o.Gone x d)
    (h : o.delete object domain = .ok (o', deleted)) : o'.Gone x d := by
  have herase {V : Type} {m : SortedMap Text V} (hnone : m.get? x = none) : (m.erase object).get? x = none := by
    rw [SortedMap.get?_erase]
    split_ifs
    · rfl
    · exact hnone
  cases domain with
  | requestDocument =>
    cases h
    cases d <;> first | exact herase hgone | exact hgone
  | content =>
    rw [Objects.delete] at h
    split_ifs at h <;> cases h
    · exact hgone
    · cases d <;> first | exact herase hgone | exact hgone
  | request =>
    rw [Objects.delete] at h
    split_ifs at h <;> cases h
    · exact hgone
    · cases d <;> first | exact herase hgone | exact hgone
  | message => cases h
  | quote =>
    rcases delete_quote h with ⟨rfl, -⟩ | ⟨-, rfl⟩
    · exact hgone
    · cases d with
      | quote =>
        refine ⟨herase hgone.1, ?_⟩
        have hspent := hgone.2
        rw [SortedMap.contains] at hspent ⊢
        rw [SortedMap.get?_insert]
        split_ifs
        · rfl
        · exact hspent
      | requestDocument | content | request | message | command => exact hgone
  | command =>
    rcases delete_command h with ⟨rfl, -⟩ | ⟨-, p, digest, hparse, hreceipt, rfl⟩
    · exact hgone
    · cases d with
      | command =>
        obtain ⟨q, hq, digest', hreceipt', hrows⟩ := hgone
        refine ⟨q, hq, digest', hreceipt', fun row hrow => ?_⟩
        dsimp only at hrow
        cases hold : o.commands.get? p with
        | none =>
          rw [hold] at hrow
          exact hrows row hrow
        | some old =>
          rw [hold, SortedMap.get?_insert] at hrow
          split_ifs at hrow with hqp
          · subst hqp
            cases hrow
            exact congrArg _ (Option.some.inj (hreceipt.symm.trans hreceipt'))
          · exact hrows row hrow
      | requestDocument | content | request | message | quote => exact hgone

end Objects

/-! ### Changes -/

/-- Content and documents come only with the record of them. -/
structure Objects.Stored (o : Objects) (r : RetentionRecord) (o' : Objects) : Prop where
  contents : ∀ k v, o'.contents.get? k = some v → o.contents.get? k = some v ∨ (r.domain = .content ∧ r.object = k)
  documents : ∀ k v, o'.documents.get? k = some v →
    o.documents.get? k = some v ∨ (r.domain = .requestDocument ∧ r.object = k)
  messages : ∀ k v, o.messages.get? k = some v → o'.messages.get? k = some v

/-- A command's record is of a position. -/
def RetentionRecord.named (r : RetentionRecord) : Prop := r.domain = .command → ∃ p : BigInt, r.object = decimal p.val

inductive Change (t : Tables) : Tables → Prop
  | insert (r : RetentionRecord) (objects : Objects) (hnew : t.conflicts r.reference r.domain r.object = false)
      (hactive : r.deleted = false) (hhold : r.holdUntil = none) (hnamed : r.named)
      (hobjects : t.objects.Stored r objects) : Change t {t.insertRecord r with objects}
  | defer (r : RetentionRecord) (hr : r ∈ t.records) (hactive : r.deleted = false) (nextCheckAt : BigInt) :
      Change t (t.updateRecord r.reference fun r => {r with nextCheckAt})
  | extend (r : RetentionRecord) (hr : r ∈ t.records) (hactive : r.deleted = false) (holdUntil : Option BigInt)
      (deleteAfter : BigInt) (hlater : r.deleteAfter ≤ deleteAfter) (changedAt : BigInt) (reason : Text) :
      Change t {t.updateRecord r.reference (fun r => {r with
          holdUntil
          deleteAfter
          nextCheckAt := 0}) with
        changes := t.changes ++ [⟨r.reference, changedAt, reason, holdUntil, deleteAfter⟩]}
  | delete (r : RetentionRecord) (hr : r ∈ t.records) (now : BigInt) (hdue : r.due now = true) (objects : Objects)
      (hdelete : t.objects.delete r.object r.domain = .ok (objects, true)) :
      Change t {({t with objects}.updateRecord r.reference fun r => {r with deleted := true}) with
        manifests := t.manifests ++ [⟨r.reference, r.domain, r.object, r.policyVersion, now⟩]}
  | reapply (m : DeletionManifest) (hm : m ∈ t.manifests) (objects : Objects)
      (hdelete : t.objects.delete m.object m.domain = .ok (objects, true)) :
      Change t ({t with objects}.updateRecord m.reference fun r => {r with deleted := true})
  | rest (policies : SortedMap U16 LifecyclePolicy) (objects : Objects) (othersPending : Bool)
      (hobjects : t.objects.Within objects) : Change t {t with policies, objects, othersPending}

abbrev Changes : Tables → Tables → Prop := Relation.ReflTransGen Change

theorem RetentionRecord.active_of_due {r : RetentionRecord} {now : BigInt} (h : r.due now = true) : r.deleted = false := by
  simp only [due, Bool.and_eq_true, Bool.not_eq_true'] at h
  exact h.1.1.1

namespace Tables

def keyed (t : Tables) : Prop := (t.records.map (·.reference)).Nodup

theorem conflicts_eq_false {t : Tables} {reference : Bytes} {domain : RecordDomain} {object : Text} :
    t.conflicts reference domain object = false ↔
      ∀ r ∈ t.records, r.reference ≠ reference ∧ ¬(r.domain = domain ∧ r.object = object) := by
  simp only [conflicts, List.any_eq_false, decide_eq_true_eq, not_or]

theorem mem_updateRecord {t : Tables} {reference : Bytes} {f : RetentionRecord → RetentionRecord}
    {r : RetentionRecord} : r ∈ (t.updateRecord reference f).records ↔
      ∃ old ∈ t.records, r = if old.reference = reference then f old else old := by
  simp only [updateRecord, List.mem_map, eq_comm]

theorem mem_updateRecord_of_ne {t : Tables} {reference : Bytes} {f : RetentionRecord → RetentionRecord}
    {r : RetentionRecord} (hr : r ∈ t.records) (hne : r.reference ≠ reference) :
    r ∈ (t.updateRecord reference f).records :=
  mem_updateRecord.mpr ⟨r, hr, (if_neg hne).symm⟩

theorem ended_named {o : Objects} {e : RecordDomain × Text × CanonicalTime} (he : e ∈ ended o)
    (hcommand : e.1 = .command) : ∃ p : BigInt, e.2.1 = decimal p.val := by
  simp only [ended, List.mem_append, List.mem_filterMap, List.mem_map, Option.map_eq_some_iff] at he
  rcases he with ((⟨_, _, _, _, rfl⟩ | ⟨_, _, rfl⟩) | ⟨_, _, rfl⟩) | ⟨c, _, hc⟩
  · cases hcommand
  · cases hcommand
  · cases hcommand
  · split at hc <;> cases hc
    exact ⟨c.1, rfl⟩

variable [Crypto]

theorem register_changes {policy : LifecyclePolicy} {t t' : Tables} {e : RecordDomain × Text × BigInt}
    (hnamed : e.1 = .command → ∃ p : BigInt, e.2.1 = decimal p.val) (h : register policy t e = .ok t') :
    Changes t t' := by
  obtain ⟨deadline, _, h⟩ := bind_eq_ok.mp h
  obtain ⟨deleteAfter, _, h⟩ := bind_eq_ok.mp h
  dsimp only at h
  split_ifs at h with hconflict <;> cases h
  · exact .refl
  · rw [Bool.not_eq_true] at hconflict
    exact .single (.insert _ t.objects hconflict rfl rfl hnamed
      ⟨fun _ _ h => .inl h, fun _ _ h => .inl h, fun _ _ h => h⟩)

theorem registerRecords_changes {t t' : Tables} (h : t.registerRecords = .ok t') : Changes t t' := by
  rw [registerRecords] at h
  cases hpolicy : t.policies.values.getLast? with
  | none =>
    rw [hpolicy] at h
    cases h
    exact .refl
  | some policy =>
    rw [hpolicy] at h
    obtain ⟨rows, hrows, h⟩ := bind_eq_ok.mp h
    refine foldlM_induction (P := fun _ s => Changes t s) .refl (fun done e rest s s' hsplit hs hstep => ?_) h
    refine hs.trans (register_changes (fun hcommand => ?_) hstep)
    obtain ⟨source, hsource, he⟩ := (mem_of_mapM_eq_ok hrows).2 e (hsplit ▸ by simp)
    obtain ⟨origin, _, he⟩ := bind_eq_ok.mp he
    cases he
    exact ended_named hsource hcommand

theorem configureLifecycle_changes {t t' : Tables} {policy : LifecyclePolicy}
    (h : t.configureLifecycle policy = .ok t') : Changes t t' := by
  obtain ⟨_, _, h⟩ := bind_eq_ok.mp h
  obtain ⟨_, _, h⟩ := bind_eq_ok.mp h
  exact (Relation.ReflTransGen.single (.rest _ _ _ (Objects.within_refl _))).trans (registerRecords_changes h)

omit [Crypto]

theorem updateRetention_changes {t t' : Tables} {domain object : Text} {holdUntil deleteAfter : Option CanonicalTime}
    {now : CanonicalTime} {reason : Text}
    (h : t.updateRetention domain object holdUntil deleteAfter now reason = .ok t') : Changes t t' := by
  simp only [updateRetention, bind_eq_ok, okOr_eq_ok, refuseIf_eq_ok] at h
  obtain ⟨_, _, _, _, r, hr, extended, _, _, hlater, hold, _, changedAt, _, h⟩ := h
  cases h
  have hactive : r.deleted = false := by
    have hfound := List.find?_some hr
    simp only [decide_eq_true_eq] at hfound
    exact hfound.2.2
  exact .single (.extend r (List.mem_of_find?_eq_some hr) hactive hold _ (not_lt.mp hlater) changedAt reason)

theorem persistContent_changes {t t' : Tables} {record : EncryptedContentRecord} {version : RetentionPolicyVersion}
    (h : t.persistContent record version = .ok t') : Changes t t' := by
  rw [persistContent] at h
  cases hstored : t.objects.contents.get? (decimal record.binding.contentRef.val.val) with
  | some stored =>
    simp only [hstored] at h
    split_ifs at h
    cases h
    exact .refl
  | none =>
    simp only [hstored, bind_eq_ok, refuseIf_eq_ok, Bool.not_eq_true] at h
    obtain ⟨createdAt, _, deleteAfter, _, _, hconflict, h⟩ := h
    cases h
    refine .single (.insert ⟨_, .content, _, version, deleteAfter, none, 0, false, createdAt⟩ _ hconflict rfl rfl (by rintro ⟨⟩)
      ⟨fun k v hv => ?_, fun _ _ h => .inl h, fun _ _ h => h⟩)
    rcases SortedMap.get?_insert_eq_some.mp hv with ⟨rfl, -⟩ | ⟨-, hv⟩
    · exact .inr ⟨rfl, rfl⟩
    · exact .inl hv

theorem stageDocument_changes {t t' : Tables} {content : ContentRef} {version : RetentionPolicyVersion}
    {expiresAt now : CanonicalTime} (h : t.stageDocument content version expiresAt now = .ok t') : Changes t t' := by
  simp only [stageDocument, bind_eq_ok, refuseIf_eq_ok, Bool.not_eq_true] at h
  obtain ⟨deleteAfter, _, _, _, createdAt, _, _, hconflict, h⟩ := h
  cases h
  refine .single (.insert ⟨_, .requestDocument, _, version, deleteAfter, none, 0, false, createdAt⟩ _ hconflict rfl rfl
    (by rintro ⟨⟩) ⟨fun _ _ h => .inl h, fun k v hv => ?_, fun _ _ h => h⟩)
  rcases SortedMap.get?_insert_eq_some.mp hv with ⟨rfl, -⟩ | ⟨-, hv⟩
  · exact .inr ⟨rfl, rfl⟩
  · exact .inl hv

theorem persistMessage_changes {t t' : Tables} {message : Message} (h : t.persistMessage message = .ok t') :
    Changes t t' := by
  simp only [persistMessage, bind_eq_ok, refuseIf_eq_ok, Bool.not_eq_true] at h
  obtain ⟨_, _, _, hsame, h⟩ := h
  cases h
  refine .single (.rest t.policies _ t.othersPending ⟨fun _ _ h => h, fun _ _ h => h, fun k v hv => ?_⟩)
  rw [SortedMap.get?_insert]
  split_ifs with hk
  · rw [← hk, hv] at hsame
    have hv : v = message := by simpa using hsame
    exact congrArg some hv.symm
  · exact hv

/-! ### Batches -/

theorem mem_batch {t : Tables} {now : BigInt} {limit : ℕ} {r : RetentionRecord} (h : r ∈ t.batch now limit) :
    r ∈ t.records ∧ r.due now = true := by
  have hsorted := List.mem_of_mem_take h
  rwa [List.mem_insertionSort, List.mem_filter] at hsorted

theorem batch_nodup {t : Tables} (hkeyed : t.keyed) (now : BigInt) (limit : ℕ) :
    ((t.batch now limit).map (·.reference)).Nodup := by
  have hsub : ((t.batch now limit).map (·.reference)).Sublist
      (((t.records.filter (·.due now)).insertionSort fun a b => a.order ≤ b.order).map (·.reference)) :=
    (List.take_sublist ..).map _
  refine hsub.nodup (((List.perm_insertionSort ..).map _).nodup_iff.mpr ?_)
  exact (List.filter_sublist.map _).nodup hkeyed

theorem expire_change {now : BigInt} {s s' : Tables × RetentionReport} {r : RetentionRecord} (hr : r ∈ s.1.records)
    (hdue : r.due now = true) (h : expire now s r = .ok s') :
    Change s.1 s'.1 ∧ ∀ other ∈ s.1.records, other.reference ≠ r.reference → other ∈ s'.1.records := by
  obtain ⟨⟨objects, deleted⟩, hdelete, h⟩ := bind_eq_ok.mp h
  dsimp only at h
  split_ifs at h with hdeleted
  · simp only [bind_eq_ok, okOr_eq_ok] at h
    obtain ⟨_, _, nextCheckAt, _, h⟩ := h
    cases h
    subst hdeleted
    cases Objects.delete_eq_false hdelete
    exact ⟨.defer r hr (RetentionRecord.active_of_due hdue) nextCheckAt, fun other hother hne => mem_updateRecord_of_ne hother hne⟩
  · cases h
    rw [Bool.not_eq_false] at hdeleted
    subst hdeleted
    exact ⟨.delete r hr now hdue objects hdelete, fun other hother hne => mem_updateRecord_of_ne hother hne⟩

/-- The records of a batch that are still to come are as they were: those before them have other references. -/
theorem expire_changes {now : BigInt} {rows : List RetentionRecord} (hnodup : (rows.map (·.reference)).Nodup)
    {s s' : Tables × RetentionReport} (hrows : ∀ r ∈ rows, r ∈ s.1.records ∧ r.due now = true)
    (h : rows.foldlM (expire now) s = .ok s') : Changes s.1 s'.1 := by
  induction rows generalizing s with
  | nil =>
    cases h
    exact .refl
  | cons r rest ih =>
    obtain ⟨next, hnext, hrest⟩ := bind_eq_ok.mp h
    rw [List.map_cons, List.nodup_cons] at hnodup
    have hfirst := hrows r (List.mem_cons_self ..)
    obtain ⟨hchange, hothers⟩ := expire_change hfirst.1 hfirst.2 hnext
    refine .head hchange (ih hnodup.2 (fun other hother => ?_) hrest)
    have hother' := hrows other (List.mem_cons_of_mem r hother)
    refine ⟨hothers other hother'.1 fun heq => hnodup.1 ?_, hother'.2⟩
    exact heq ▸ List.mem_map_of_mem hother

theorem runRetention_changes {t : Tables} (hkeyed : t.keyed) {now : CanonicalTime} {limit : ℤ}
    {out : Tables × RetentionReport} (h : t.runRetention now limit = .ok out) : Changes t out.1 := by
  obtain ⟨_, _, h⟩ := bind_eq_ok.mp h
  obtain ⟨_, _, h⟩ := bind_eq_ok.mp h
  obtain ⟨now, _, h⟩ := bind_eq_ok.mp h
  have hchanges := expire_changes (batch_nodup hkeyed now limit.toNat)
    (s := (t, ⟨(t.batch now limit.toNat).length, 0, 0⟩)) (fun r hr => mem_batch hr) h
  exact hchanges

theorem reapply_eq_ok {t t' : Tables} {m : DeletionManifest} (h : t.reapply m = .ok t') :
    ∃ objects, t.objects.delete m.object m.domain = .ok (objects, true) ∧
      t' = {t with objects}.updateRecord m.reference fun r => {r with deleted := true} := by
  obtain ⟨⟨objects, deleted⟩, hdelete, h⟩ := bind_eq_ok.mp h
  obtain ⟨_, hdeleted, h⟩ := bind_eq_ok.mp h
  rw [refuseIf_eq_ok, Bool.not_eq_false] at hdeleted
  cases h
  exact ⟨objects, hdeleted ▸ hdelete, rfl⟩

theorem reconcile_changes {t : Tables} {out : Tables × ℕ} (h : t.reconcileRestoredDeletions = .ok out) :
    Changes t out.1 := by
  obtain ⟨_, _, h⟩ := bind_eq_ok.mp h
  obtain ⟨t', hfold, h⟩ := bind_eq_ok.mp h
  cases h
  have hall : Changes t t' ∧ t'.manifests = t.manifests := by
    refine foldlM_induction (P := fun _ s => Changes t s ∧ s.manifests = t.manifests) ⟨.refl, rfl⟩
      (fun done m rest s s' hsplit hs hstep => ?_) hfold
    obtain ⟨objects, hdelete, rfl⟩ := reapply_eq_ok hstep
    have hm : m ∈ s.manifests := by
      rw [hs.2, ← hsplit]
      simp
    exact ⟨hs.1.tail (.reapply m hm objects hdelete), hs.2⟩
  exact hall.1

end Tables

theorem call_changes [Crypto] {t t' : Tables} (hkeyed : t.keyed) {c : Call} (h : call t c = .ok t') : Changes t t' := by
  cases c with
  | configureLifecycle policy => exact Tables.configureLifecycle_changes h
  | updateRetention domain object holdUntil deleteAfter now reason => exact Tables.updateRetention_changes h
  | runRetention now limit =>
    obtain ⟨out, hout, rfl⟩ := map_eq_ok.mp h
    exact Tables.runRetention_changes hkeyed hout
  | reconcileRestoredDeletions =>
    obtain ⟨out, hout, rfl⟩ := map_eq_ok.mp h
    exact Tables.reconcile_changes hout
  | registerRecords => exact Tables.registerRecords_changes h
  | persistContent record version => exact Tables.persistContent_changes h
  | stageDocument content version expiresAt now => exact Tables.stageDocument_changes h
  | persistMessage message => exact Tables.persistMessage_changes h
  | deliver object =>
    obtain ⟨_, _, h⟩ := bind_eq_ok.mp h
    cases h
    exact .single (.rest t.policies _ t.othersPending
      ⟨fun _ _ h => h, fun _ _ h => Objects.get?_of_erase h, fun _ _ h => h⟩)
  | elsewhere objects othersPending =>
    cases h
    exact .single (.rest t.policies _ othersPending ⟨fun _ _ h => h, fun _ _ h => h, fun _ _ h => h⟩)

end CsMail.Lifecycle
