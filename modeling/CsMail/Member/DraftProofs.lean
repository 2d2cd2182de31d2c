import CsMail.Member.Drafts

/-! What a workspace command can do.

Every accepted command is one of a few steps (`transition_step`), and each step leaves a workspace
that loads again (`Step.loads`). -/
namespace CsMail
open Library

namespace Draft
variable {d d' : Draft}

/-- A later version of the same draft. -/
structure Follows (d d' : Draft) : Prop where
  id : d'.id = d.id
  revision : d.revision.val ≤ d'.revision.val

theorem new_eq_ok {r : DraftRecord} (h : new r = .ok d) : d.record = r := by
  unfold new at h
  split at h
  · cases h
    rfl
  · cases h

theorem checkedNext_lt {r r' : DraftRevision} (h : r.checkedNext = some r') : r.val < r'.val := by
  obtain ⟨next, hnext, h⟩ := Option.bind_eq_some_iff.mp h
  split_ifs at h
  cases h
  rw [Checked.succ_eq_some] at hnext
  show r.val.val < next.val
  omega

theorem update_eq_ok {expected : DraftRevision} {body : DraftBody} {subject : Text} {localOffsetSeconds : ℤ}
    {now : CanonicalTime} (h : d.update expected body subject localOffsetSeconds now = .ok d') :
    d.revision = expected ∧ d.Follows d' ∧ d'.body = body ∧ d'.subject = subject := by
  obtain ⟨⟨⟩, hexpected, h⟩ := bind_eq_ok.mp h
  obtain ⟨revision, hrevision, h⟩ := bind_eq_ok.mp h
  rw [refuseIf_eq_ok, not_not] at hexpected
  have hrecord := new_eq_ok h
  refine ⟨hexpected, ⟨?_, ?_⟩, congrArg DraftRecord.body hrecord, congrArg DraftRecord.subject hrecord⟩
  · rw [Draft.id, hrecord]
    rfl
  rw [show d'.revision = revision from congrArg DraftRecord.revision hrecord, hexpected]
  exact (checkedNext_lt (okOr_eq_ok.mp hrevision)).le

theorem retarget_eq_ok {target : DraftTarget} {mailbox : Text} {dropIncompatible : Bool} {now : CanonicalTime}
    (h : d.retarget d.revision target mailbox dropIncompatible now = .ok d') : d.Follows d' := by
  obtain ⟨⟨⟩, -, h⟩ := bind_eq_ok.mp h
  obtain ⟨⟨⟩, -, h⟩ := bind_eq_ok.mp h
  obtain ⟨revision, hrevision, h⟩ := bind_eq_ok.mp h
  have hrecord := new_eq_ok h
  refine ⟨?_, ?_⟩
  · rw [Draft.id, hrecord]
    rfl
  rw [show d'.revision = revision from congrArg DraftRecord.revision hrecord]
  exact (checkedNext_lt (okOr_eq_ok.mp hrevision)).le

end Draft

namespace Workspace
variable {w w' : Workspace}

/-- The drafts of a workspace, editable and submitted. -/
def holdings (w : Workspace) : List Draft := w.drafts ++ w.submitted.toList

theorem length_holdings (w : Workspace) : w.holdings.length = w.size := List.length_append ..

theorem load_eq_ok {account : AccountId} {persona : ProtocolIdentity} : w.load account persona = .ok () ↔
    w.account = account ∧ w.persona = persona ∧ w.holdings.length ≤ maxDrafts ∧ (w.holdings.map Draft.id).Nodup := by
  have hids : (w.holdings.map Draft.id).Nodup ↔ w.ids.Nodup ∧ ¬w.submitted.any (fun d => d.id ∈ w.ids) = true := by
    rw [holdings, List.map_append, List.nodup_append]
    show (w.ids.Nodup ∧ _ ∧ ∀ a ∈ w.ids, ∀ b ∈ w.submitted.toList.map Draft.id, a ≠ b) ↔ _
    cases w.submitted with
    | none => simp
    | some d =>
      simp only [Option.toList_some, List.map_singleton, List.nodup_singleton, List.mem_singleton, forall_eq,
        true_and, Option.any_some, decide_eq_true_eq]
      exact and_congr_right fun _ => ⟨fun h hid => h d.id hid rfl, fun h a ha hsame => h (hsame ▸ ha)⟩
  rw [load, refuseIf_eq_ok, length_holdings, hids]
  simp only [not_or, not_not, Nat.not_lt]

theorem get_eq_ok {id : DraftId} {revision : DraftRevision} {d : Draft} (h : w.get id revision = .ok d) :
    d ∈ w.drafts ∧ d.id = id ∧ d.revision = revision := by
  obtain ⟨draft, hdraft, h⟩ := bind_eq_ok.mp h
  obtain ⟨⟨⟩, hrevision, h⟩ := bind_eq_ok.mp h
  cases h
  rw [okOr_eq_ok] at hdraft
  rw [refuseIf_eq_ok, not_not] at hrevision
  exact ⟨List.mem_of_find?_eq_some hdraft, by simpa using List.find?_some hdraft, hrevision⟩

/-! ### Steps -/

/-- What a command does to a workspace. -/
inductive Step (w : Workspace) : WorkspaceCommand → Workspace → Prop
  | resumed {id : DraftId} {target : DraftTarget} {mode : OpenMode} : Step w (.start id target mode) w
  | opened {target : DraftTarget} {mode : OpenMode} (d : Draft) (hroom : w.holdings.length < maxDrafts)
      (hfresh : d.id ∉ w.holdings.map Draft.id) :
    Step w (.start d.id target mode) {w with drafts := w.drafts ++ [d]}
  | saved {body : DraftBody} {subject : Text} {localOffsetSeconds : ℤ} (d next : Draft) (hmem : d ∈ w.drafts)
      (hfollows : d.Follows next) (hbody : next.body = body) (hsubject : next.subject = subject) : Step w (.save d.id d.revision body subject localOffsetSeconds) (w.put d.id next)
  | retargeted {target : DraftTarget} {dropIncompatible : Bool} {mailbox : Text} (d next : Draft)
      (hmem : d ∈ w.drafts) (hfollows : d.Follows next) :
    Step w (.retarget d.id d.revision target dropIncompatible mailbox) (w.put d.id next)
  | discarded (d : Draft) (hmem : d ∈ w.drafts) : Step w (.discard d.id d.revision) (w.remove d.id)
  | submitted (d : Draft) (hmem : d ∈ w.drafts) (hnone : w.submitted = none) :
    Step w (.submit d.id d.revision) {w.remove d.id with submitted := some d}
  | unsubmitted {resolution : DraftResolution} (hnone : w.submitted = none) : Step w (.resolve resolution) w
  | consumed (d : Draft) (hsome : w.submitted = some d) : Step w (.resolve .removeSubmitted) {w with submitted := none}
  | restored (d next : Draft) (hsome : w.submitted = some d) (hfollows : d.Follows next)
      (hbody : next.body = d.body) (hsubject : next.subject = d.subject) :
    Step w (.resolve .restoreEditable) {w with submitted := none, drafts := w.drafts ++ [next]}

/-- Every accepted command is a step. -/
theorem transition_step {now : CanonicalTime} {c : WorkspaceCommand} {decision : WorkspaceDecision}
    (h : w.transition now c = .ok decision) : w.Step c decision.next := by
  cases c with
  | start id target mode =>
    rw [transition, start] at h
    cases hresumed : w.resumed target mode with
    | some draft =>
      rw [hresumed] at h
      cases h
      exact .resumed
    | none =>
      rw [hresumed] at h
      obtain ⟨⟨⟩, hfree, h⟩ := bind_eq_ok.mp h
      obtain ⟨d, hd, h⟩ := bind_eq_ok.mp h
      cases h
      have hid : d.id = id := congrArg DraftRecord.id (Draft.new_eq_ok hd)
      subst hid
      rw [refuseIf_eq_ok] at hfree
      simp only [not_or, Nat.not_le] at hfree
      refine .opened d ((length_holdings w).symm ▸ hfree.1) fun hmem => ?_
      rw [holdings, List.map_append] at hmem
      rcases List.mem_append.mp hmem with hdrafts | hsubmitted
      · exact hfree.2.1 hdrafts
      · refine hfree.2.2 ?_
        cases hsome : w.submitted with
        | none =>
          rw [hsome] at hsubmitted
          cases hsubmitted
        | some other =>
          rw [hsome] at hsubmitted
          simpa [eq_comm] using hsubmitted
  | save id expected body subject localOffsetSeconds =>
    obtain ⟨d, hd, h⟩ := bind_eq_ok.mp h
    obtain ⟨next, hnext, h⟩ := bind_eq_ok.mp h
    cases h
    obtain ⟨hmem, rfl, rfl⟩ := get_eq_ok hd
    obtain ⟨-, hfollows, hbody, hsubject⟩ := Draft.update_eq_ok hnext
    exact .saved d next hmem hfollows hbody hsubject
  | retarget id expected target dropIncompatible mailbox =>
    obtain ⟨d, hd, h⟩ := bind_eq_ok.mp h
    obtain ⟨next, hnext, h⟩ := bind_eq_ok.mp h
    cases h
    obtain ⟨hmem, rfl, rfl⟩ := get_eq_ok hd
    exact .retargeted d next hmem (Draft.retarget_eq_ok hnext)
  | discard id expected =>
    obtain ⟨d, hd, h⟩ := bind_eq_ok.mp h
    cases h
    obtain ⟨hmem, rfl, rfl⟩ := get_eq_ok hd
    exact .discarded d hmem
  | submit id expected =>
    obtain ⟨d, hd, h⟩ := bind_eq_ok.mp h
    obtain ⟨⟨⟩, hfree, h⟩ := bind_eq_ok.mp h
    cases h
    obtain ⟨hmem, rfl, rfl⟩ := get_eq_ok hd
    rw [refuseIf_eq_ok, not_or, Option.isSome_iff_ne_none, not_not] at hfree
    exact .submitted d hmem hfree.1
  | resolve resolution =>
    rw [transition] at h
    cases hsubmitted : w.submitted with
    | none =>
      rw [hsubmitted] at h
      cases h
      exact .unsubmitted hsubmitted
    | some d =>
      rw [hsubmitted] at h
      obtain ⟨next, hnext, h⟩ := bind_eq_ok.mp h
      cases h
      cases resolution with
      | removeSubmitted =>
        cases hnext
        exact .consumed d hsubmitted
      | restoreEditable =>
        obtain ⟨restored, hrestored, hnext⟩ := bind_eq_ok.mp hnext
        cases hnext
        obtain ⟨-, hfollows, hbody, hsubject⟩ := Draft.update_eq_ok hrestored
        exact .restored d restored hsubmitted hfollows hbody hsubject

/-! ### Loading -/

theorem ids_put {id : DraftId} {next : Draft} (hid : next.id = id) : (w.put id next).ids = w.ids := by
  refine map_modifyFirst fun d _ hd => ?_
  rw [hid]
  exact (of_decide_eq_true hd).symm

theorem notMem_remove (w : Workspace) (id : DraftId) : id ∉ (w.remove id).ids := by
  intro hid
  obtain ⟨d, hd, rfl⟩ := List.mem_map.mp hid
  rw [remove, List.mem_filter] at hd
  simp at hd

theorem ids_remove_sublist (w : Workspace) (id : DraftId) : (w.remove id).ids.Sublist w.ids :=
  List.filter_sublist.map _

theorem length_remove_lt {d : Draft} (hd : d ∈ w.drafts) : (w.remove d.id).drafts.length < w.drafts.length :=
  List.length_filter_lt_length_iff_exists.mpr ⟨d, hd, by simp⟩

theorem ids_holdings (w : Workspace) : w.holdings.map Draft.id = w.ids ++ w.submitted.toList.map Draft.id :=
  List.map_append

/-- Loading looks at the identities of the drafts only. -/
theorem load_congr {account : AccountId} {persona : ProtocolIdentity} (haccount : w'.account = w.account)
    (hpersona : w'.persona = w.persona) (hids : w'.holdings.map Draft.id = w.holdings.map Draft.id)
    (hw : w.load account persona = .ok ()) : w'.load account persona = .ok () := by
  obtain ⟨hac, hpe, hlength, hnodup⟩ := load_eq_ok.mp hw
  refine load_eq_ok.mpr ⟨haccount.trans hac, hpersona.trans hpe, ?_, hids ▸ hnodup⟩
  rw [← List.length_map Draft.id, hids, List.length_map]
  exact hlength

theorem load_put {account : AccountId} {persona : ProtocolIdentity} {id : DraftId} {next : Draft}
    (hid : next.id = id) (hw : w.load account persona = .ok ()) : (w.put id next).load account persona = .ok () := by
  refine load_congr (w := w) rfl rfl ?_ hw
  rw [ids_holdings, ids_holdings, ids_put hid]
  rfl

/-- A step keeps what loading checks. -/
theorem Step.loads {c : WorkspaceCommand} (h : w.Step c w') {account : AccountId} {persona : ProtocolIdentity}
    (hw : w.load account persona = .ok ()) : w'.load account persona = .ok () := by
  obtain ⟨haccount, hpersona, hlength, hnodup⟩ := load_eq_ok.mp hw
  cases h with
  | resumed => exact hw
  | unsubmitted => exact hw
  | opened d hroom hfresh =>
    have hperm : (w.drafts ++ [d] ++ w.submitted.toList).Perm (w.holdings ++ [d]) := by
      rw [List.append_assoc, holdings, List.append_assoc]
      exact List.perm_append_comm.append_left _
    refine load_eq_ok.mpr ⟨haccount, hpersona, ?_, ?_⟩
    · rw [show holdings _ = w.drafts ++ [d] ++ w.submitted.toList from rfl, hperm.length_eq, List.length_append]
      exact hroom
    · refine (hperm.map Draft.id).nodup_iff.mpr ?_
      rw [List.map_append, List.map_singleton, ← List.concat_eq_append]
      exact hnodup.concat hfresh
  | saved d next hmem hfollows hbody hsubject => exact load_put hfollows.id hw
  | retargeted d next hmem hfollows => exact load_put hfollows.id hw
  | discarded d hmem =>
    refine load_eq_ok.mpr ⟨haccount, hpersona, le_trans ?_ hlength, ?_⟩
    · rw [length_holdings, length_holdings]
      exact Nat.add_le_add_right (length_remove_lt hmem).le _
    · rw [ids_holdings] at hnodup ⊢
      exact hnodup.sublist ((w.ids_remove_sublist d.id).append_right _)
  | submitted d hmem hnone =>
    refine load_eq_ok.mpr ⟨haccount, hpersona, le_trans ?_ hlength, ?_⟩
    · rw [length_holdings, length_holdings]
      exact (length_remove_lt hmem).trans_le (Nat.le_add_right ..)
    · rw [ids_holdings] at hnodup ⊢
      show ((w.remove d.id).ids ++ [d.id]).Nodup
      rw [← List.concat_eq_append]
      exact ((hnodup.sublist (List.sublist_append_left ..)).sublist (w.ids_remove_sublist d.id)).concat
        (w.notMem_remove d.id)
  | consumed d hsome =>
    refine load_eq_ok.mpr ⟨haccount, hpersona, le_trans ?_ hlength, ?_⟩
    · rw [length_holdings, length_holdings]
      exact Nat.add_le_add_left (Nat.zero_le _) _
    · rw [ids_holdings] at hnodup ⊢
      exact hnodup.sublist ((List.Sublist.refl _).append (List.nil_sublist _))
  | restored d next hsome hfollows =>
    refine load_congr (w := w) rfl rfl ?_ hw
    rw [ids_holdings, ids_holdings, hsome]
    show (w.drafts ++ [next]).map Draft.id ++ [] = w.ids ++ [d.id]
    rw [List.map_append, List.append_nil]
    exact congrArg (w.ids ++ [·]) hfollows.id

end Workspace
end CsMail
