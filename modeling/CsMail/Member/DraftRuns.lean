import CsMail.Member.FullJournal
import CsMail.Requests.Agreement

/-! A member's writing over the runs of the client.

A draft that is handed over stays submitted while its operation is in flight (`Carried`), and the end
of the operation decides what becomes of it. One end does not: a follow-up that is given up leaves
no result, and the disposition is read from the result of an earlier request. Where there is none
that consumes (`Fits`), no call loses a draft (`writing_kept`). -/
namespace CsMail
open Library

namespace WorkspaceCommand

/-- The draft a command edits, as its editor last saw it. -/
def edits : WorkspaceCommand → Option DraftRef
  | save id expected .. | retarget id expected .. => some (id, expected)
  | start .. | discard .. | submit .. | resolve _ => none

def discards : WorkspaceCommand → Option DraftRef
  | discard id expected => some (id, expected)
  | start .. | save .. | retarget .. | submit .. | resolve _ => none

end WorkspaceCommand

namespace OutgoingCall

/-- The draft whose content an operation carries away. -/
def carries : OutgoingCall → Option DraftRef
  | sendMessage draft .. | sendExternal draft .. | sendFollowup draft .. => draft
  | authorizeRequest _ draft .. => draft.map RequestDraft.draft
  | _ => none

def edits (c : OutgoingCall) : Option DraftRef := c.edit.bind WorkspaceCommand.edits

def discards (c : OutgoingCall) : Option DraftRef := c.edit.bind WorkspaceCommand.discards

end OutgoingCall

namespace Draft

/-- What names the current version of a draft. -/
def ref (d : Draft) : DraftRef := (d.id, d.revision)

/-- The same writing, under a later revision. -/
structure Restores (d d' : Draft) : Prop extends d.Follows d' where
  body : d'.body = d.body
  subject : d'.subject = d.subject

end Draft

namespace Workspace
variable {w w' : Workspace}

theorem mem_put {d next : Draft} (hmem : d ∈ w.drafts) : next ∈ (w.put d.id next).drafts := by
  rcases modifyFirst_cases (fun e : Draft => e.id = d.id) (fun _ => next) w.drafts with
    ⟨before, a, rest, -, -, -, hput⟩ | ⟨hnone, -⟩
  · show next ∈ modifyFirst _ _ _
    rw [hput]
    simp
  · have hd := hnone d hmem
    simp at hd

theorem mem_put_of_ne {d next : Draft} {id : DraftId} (hmem : d ∈ w.drafts) (hne : d.id ≠ id) :
    d ∈ (w.put id next).drafts := by
  rcases modifyFirst_cases (fun e : Draft => e.id = id) (fun _ => next) w.drafts with
    ⟨before, a, rest, hsplit, ha, -, hput⟩ | ⟨-, hput⟩
  · show d ∈ modifyFirst _ _ _
    rw [hsplit] at hmem
    rw [hput]
    rcases List.mem_append.mp hmem with hbefore | hrest
    · exact List.mem_append_left _ hbefore
    · rcases List.mem_cons.mp hrest with rfl | hrest
      · exact absurd (of_decide_eq_true ha) hne
      · exact List.mem_append_right _ (List.mem_cons_of_mem _ hrest)
  · show d ∈ modifyFirst _ _ _
    rw [hput]
    exact hmem

theorem eq_of_id {d d' : Draft} (hnodup : w.ids.Nodup) (hd : d ∈ w.drafts) (hd' : d' ∈ w.drafts) (hid : d.id = d'.id) :
    d = d' := List.inj_on_of_nodup_map hnodup hd hd' hid

/-- What becomes of an editable draft. -/
theorem Step.keeps {c : WorkspaceCommand} (h : w.Step c w') (hnodup : w.ids.Nodup) {d : Draft} (hd : d ∈ w.drafts) :
    d ∈ w'.drafts ∨ (c.edits = some d.ref ∧ ∃ d' ∈ w'.drafts, d.Follows d') ∨ c.discards = some d.ref ∨
      (c = .submit d.id d.revision ∧ w.submitted = none ∧ w'.submitted = some d) := by
  have hremoved : ∀ id, d.id ≠ id → d ∈ (w.remove id).drafts := by
    intro id hne
    exact List.mem_filter.mpr ⟨hd, decide_eq_true hne⟩
  cases h with
  | resumed => exact .inl hd
  | unsubmitted => exact .inl hd
  | consumed d' hsome => exact .inl hd
  | opened d' hroom hfresh => exact .inl (List.mem_append_left _ hd)
  | restored d' next hsome hfollows hbody hsubject => exact .inl (List.mem_append_left _ hd)
  | saved d' next hmem hfollows hbody hsubject =>
    by_cases hid : d.id = d'.id
    · cases eq_of_id hnodup hd hmem hid
      exact .inr (.inl ⟨rfl, next, mem_put hd, hfollows⟩)
    · exact .inl (mem_put_of_ne hd hid)
  | retargeted d' next hmem hfollows =>
    by_cases hid : d.id = d'.id
    · cases eq_of_id hnodup hd hmem hid
      exact .inr (.inl ⟨rfl, next, mem_put hd, hfollows⟩)
    · exact .inl (mem_put_of_ne hd hid)
  | discarded d' hmem =>
    by_cases hid : d.id = d'.id
    · cases eq_of_id hnodup hd hmem hid
      exact .inr (.inr (.inl rfl))
    · exact .inl (hremoved _ hid)
  | submitted d' hmem hnone =>
    by_cases hid : d.id = d'.id
    · cases eq_of_id hnodup hd hmem hid
      exact .inr (.inr (.inr ⟨rfl, hnone, rfl⟩))
    · exact .inl (hremoved _ hid)

/-- What becomes of the submitted draft. -/
theorem Step.keeps_submitted {c : WorkspaceCommand} (h : w.Step c w') {d : Draft} (hd : w.submitted = some d) :
    w'.submitted = some d ∨ (w'.submitted = none ∧ (c = .resolve .removeSubmitted ∨
      c = .resolve .restoreEditable ∧ ∃ d' ∈ w'.drafts, d.Restores d')) := by
  cases h with
  | resumed => exact .inl hd
  | opened d' hroom hfresh => exact .inl hd
  | saved d' next hmem hfollows hbody hsubject => exact .inl hd
  | retargeted d' next hmem hfollows => exact .inl hd
  | discarded d' hmem => exact .inl hd
  | submitted d' hmem hnone => cases hnone.symm.trans hd
  | unsubmitted hnone => cases hnone.symm.trans hd
  | consumed d' hsome => exact .inr ⟨rfl, .inl rfl⟩
  | restored d' next hsome hfollows hbody hsubject =>
    cases hsome.symm.trans hd
    exact .inr ⟨rfl, .inr ⟨rfl, next, List.mem_append_right _ (List.mem_singleton_self _), hfollows, hbody, hsubject⟩⟩

theorem Step.submitted_of_resolve {resolution : DraftResolution} (h : w.Step (.resolve resolution) w') :
    w'.submitted = none := by
  cases h with
  | unsubmitted hnone => exact hnone
  | consumed d hsome => rfl
  | restored d next hsome hfollows hbody hsubject => rfl

/-- What is saved is in the workspace. -/
theorem Step.saved_eq {id : DraftId} {expected : DraftRevision} {body : DraftBody} {subject : Text}
    {localOffsetSeconds : ℤ} (h : w.Step (.save id expected body subject localOffsetSeconds) w') :
    ∃ d ∈ w.drafts, d.ref = (id, expected) ∧
      ∃ d' ∈ w'.drafts, d.Follows d' ∧ d'.body = body ∧ d'.subject = subject := by
  cases h with
  | saved d next hmem hfollows hbody hsubject => exact ⟨d, hmem, rfl, next, mem_put hmem, hfollows, hbody, hsubject⟩

/-- A command that edits, discards or submits a draft names its current version. -/
theorem Step.current {c : WorkspaceCommand} (h : w.Step c w') {ref : DraftRef}
    (hc : c.edits = some ref ∨ c.discards = some ref ∨ c = .submit ref.1 ref.2) : ∃ d ∈ w.drafts, d.ref = ref := by
  cases h with
  | saved d next hmem hfollows hbody hsubject =>
    rcases hc with hc | hc | hc
    · exact ⟨d, hmem, Option.some.inj hc⟩
    · cases hc
    · cases hc
  | retargeted d next hmem hfollows =>
    rcases hc with hc | hc | hc
    · exact ⟨d, hmem, Option.some.inj hc⟩
    · cases hc
    · cases hc
  | discarded d hmem =>
    rcases hc with hc | hc | hc
    · cases hc
    · exact ⟨d, hmem, Option.some.inj hc⟩
    · cases hc
  | submitted d hmem hnone =>
    rcases hc with hc | hc | hc
    · cases hc
    · cases hc
    · injection hc with hid hrevision
      exact ⟨d, hmem, Prod.ext hid hrevision⟩
  | resumed => rcases hc with hc | hc | hc <;> cases hc
  | opened d hroom hfresh => rcases hc with hc | hc | hc <;> cases hc
  | unsubmitted hnone => rcases hc with hc | hc | hc <;> cases hc
  | consumed d hsome => rcases hc with hc | hc | hc <;> cases hc
  | restored d next hsome hfollows hbody hsubject => rcases hc with hc | hc | hc <;> cases hc

end Workspace

section
variable [Crypto] [ExternalJson] [MemberJson]

namespace Outgoing

/-- How an operation ended is kept. -/
def Recorded (s : Outgoing) : Ending → Prop
  | .sent outcome => s.lastSend = some outcome
  | .acknowledged outcome => ∃ r ∈ s.personal.work, ∃ ack, r.evidence = some (.external ack) ∧ ack.receipt.outcome = outcome
  | .request status => s.lastRequest.map RequestResult.status = some status

/-- A call keeps the drafts. An editable draft stays, apart from the edit, the discarding or the operation that names
its current version; a submitted one stays until its operation ends, and is editable again unless that consumes it. -/
structure Keeps (s : Outgoing) (c : OutgoingCall) (s' : Outgoing) : Prop where
  editable : ∀ d ∈ s.workspace.drafts, d ∈ s'.workspace.drafts ∨
    (c.edits = some d.ref ∧ ∃ d' ∈ s'.workspace.drafts, d.Follows d') ∨ c.discards = some d.ref ∨
    (c.carries = some d.ref ∧ s.workspace.submitted = none ∧ s'.workspace.submitted = some d)
  submitted : ∀ d, s.workspace.submitted = some d → s'.workspace.submitted = some d ∨
    ∃ e, s.ending c = some e ∧ s'.workspace.submitted = none ∧
      if e.consumes then s'.Recorded e else ∃ d' ∈ s'.workspace.drafts, d.Restores d'

/-- Giving up a follow-up that carries a draft, the client holds no result of an earlier request that consumes. -/
def Fits (s : Outgoing) : OutgoingCall → Prop
  | .cancelRequest a _ => ∀ plan, s.requesting = some plan → plan.kind ≠ .initial → plan.undecided s.profile a = true →
    s.workspace.submitted.isSome = true → s.lastRequest.any (fun r => r.status.consumes) = false
  | _ => True

/-- A submitted draft belongs to an operation in flight. -/
def Carried (s : Outgoing) : Prop :=
  s.workspace.submitted.isSome = true → s.inFlight.command.isSome = true ∨
    ∃ plan, s.requesting = some plan ∧ plan.stage.beforeReview = false

variable {s s' next : Outgoing} {c : OutgoingCall}

omit [Crypto] [ExternalJson] [MemberJson] in
theorem handOver_step {now : CanonicalTime} {draft : Option DraftRef} {workspace : Workspace}
    (h : s.handOver now draft = .ok workspace) : (draft = none ∧ workspace = s.workspace) ∨
      ∃ ref, draft = some ref ∧ s.workspace.Step (.submit ref.1 ref.2) workspace := by
  cases draft with
  | none =>
    cases h
    exact .inl ⟨rfl, rfl⟩
  | some ref =>
    obtain ⟨decision, hdecision, h⟩ := bind_eq_ok.mp h
    cases h
    exact .inr ⟨ref, rfl, Workspace.transition_step hdecision⟩

omit [Crypto] [ExternalJson] [MemberJson] in
theorem edit_submitted {command : WorkspaceCommand} {w w' : Workspace} (hedit : c.edit = some command)
    (h : w.Step command w') : w'.submitted = w.submitted := by
  have hlocal : command.edits.isSome = true ∨ command.discards.isSome = true ∨ ∃ id target mode,
      command = .start id target mode := by
    cases c with
    | openDraft id target mode now =>
      cases hedit
      exact .inr (.inr ⟨id, target, mode, rfl⟩)
    | saveDraft id expected body subject localOffsetSeconds now =>
      cases hedit
      exact .inl rfl
    | retargetDraft id expected target dropIncompatible mailbox now =>
      cases hedit
      exact .inl rfl
    | discardDraft id expected now =>
      cases hedit
      exact .inr (.inl rfl)
    | _ => cases hedit
  cases h with
  | resumed => rfl
  | opened d hroom hfresh => rfl
  | saved d next hmem hfollows hbody hsubject => rfl
  | retargeted d next hmem hfollows => rfl
  | discarded d hmem => rfl
  | unsubmitted hnone => rfl
  | submitted d hmem hnone => rcases hlocal with h | h | ⟨_, _, _, h⟩ <;> cases h
  | consumed d hsome => rcases hlocal with h | h | ⟨_, _, _, h⟩ <;> cases h
  | restored d next hsome hfollows hbody hsubject => rcases hlocal with h | h | ⟨_, _, _, h⟩ <;> cases h

omit [Crypto] [ExternalJson] [MemberJson] in
theorem Carried.none_of_idle (h : s.Carried) (hidle : s.occupied = 0) : s.workspace.submitted = none := by
  cases hsubmitted : s.workspace.submitted with
  | none => rfl
  | some d =>
    rcases h (by rw [hsubmitted]; rfl) with hcommand | ⟨plan, hplan, -⟩
    · rw [inFlight_of_idle hidle] at hcommand
      cases hcommand
    · rw [occupied, hplan, Option.isSome_some, Bool.toNat_true] at hidle
      omega

omit [Crypto] in
theorem Fills.carried {draft : Option DraftRef} (h : s.Fills c next draft) :
    next.inFlight.command.isSome = true ∨ ∃ plan, next.requesting = some plan ∧ plan.stage.beforeReview = false := by
  cases h with
  | message p hidle hp => exact .inl rfl
  | @external _ w _ _ _ p hidle hp =>
    have hcommand := (externalSigned_eq_ok hp).2.1
    have hmessage : p.command.message.isSome = true := by
      rw [hcommand, ExternalWriting.command]
      cases w.start with
      | none => rfl
      | some start => rfl
    refine .inl ?_
    rw [inFlight_of_idle (requireIdle_eq_ok.mp hidle)]
    show (((some p).filter fun p => p.command.message.isSome).map WorkCommand.external).isSome = true
    rw [Option.filter_some, if_pos hmessage]
    rfl
  | authorized plan stage hplan hbefore hstage => exact .inr ⟨_, rfl, hstage⟩
  | followup plan hidle hstage => exact .inr ⟨_, rfl, hstage⟩

/-- A draft stays submitted no longer than its operation is in flight. -/
theorem call_carried (hcarried : s.Carried) (h : s.call c = .ok s') : s'.Carried := by
  cases call_move h with
  | idle => exact hcarried
  | observed deployment hkey => exact hcarried
  | edited command workspace hedit hstep =>
    intro hsome
    exact hcarried ((edit_submitted hedit hstep) ▸ hsome)
  | filled next draft times hfills hcommit =>
    obtain ⟨workspace, personal, -, -, -, rfl⟩ := commitDraft_eq_ok hcommit
    exact fun _ => hfills.carried
  | controlled p hidle hmessage =>
    intro hsome
    have hsome : s.workspace.submitted.isSome = true := hsome
    rw [hcarried.none_of_idle (requireIdle_eq_ok.mp hidle)] at hsome
    cases hsome
  | quoting plan hidle =>
    intro hsome
    have hsome : s.workspace.submitted.isSome = true := hsome
    rw [hcarried.none_of_idle (requireIdle_eq_ok.mp hidle)] at hsome
    cases hsome
  | going plan plan' lastRequest hplan hstage =>
    intro hsome
    refine (hcarried hsome).imp_right fun ⟨other, hother, hbefore⟩ => ⟨plan', rfl, hstage ?_⟩
    cases hplan.symm.trans hother
    exact hbefore
  | ended next resolution evidence times hends hfinish =>
    obtain ⟨workspace, hstep, rfl⟩ := finishDraft_eq_ok hfinish
    intro hsome
    have hsome : workspace.submitted.isSome = true := hsome
    rw [hstep.submitted_of_resolve] at hsome
    cases hsome

/-! ### Ends -/

omit [Crypto] [ExternalJson] [MemberJson] in
theorem holds_of_command {f : InFlight} {command : WorkCommand} (h : f.command = some command) : f.holds command := by
  unfold InFlight.command at h
  cases hsending : f.sending with
  | some p =>
    rw [hsending] at h
    cases h
    exact hsending
  | none =>
    rw [hsending] at h
    obtain ⟨p, hp, rfl⟩ := Option.map_eq_some_iff.mp h
    exact (Option.filter_eq_some_iff.mp hp).1

/-- The record of an external message is settled with the acknowledgement that ended it. -/
theorem Recorded.acknowledged {p : SignedExternalCommand} {ack : Acknowledgement} (hs : s.Journaled) (hs' : s'.Journaled)
    (hcommand : s.inFlight.command = some (.external p)) (hanswered : s.answered c = some (p.answer ack))
    (hnone : s'.inFlight = .none) (hanswers : s.personal.Answers (s.answered c) s'.personal) :
    s'.Recorded (.acknowledged ack.receipt.outcome) := by
  obtain ⟨r, hr, hrcommand⟩ := hs.journal.recorded _ hcommand
  obtain ⟨i, hi⟩ := List.getElem?_of_mem hr
  obtain ⟨r', hr', hsame | ⟨-, a, now, ha, -, rfl⟩⟩ := hanswers i r hi
  · have hjournal := hs'.journal
    rw [hnone] at hjournal
    have hawaiting := hjournal.none_awaiting r' (List.mem_of_getElem? hr')
    rw [hsame, ne_eq, hs.journal.awaiting r hr, hrcommand] at hawaiting
    exact absurd (holds_of_command hcommand) hawaiting
  · cases hanswered.symm.trans ha
    exact ⟨_, List.mem_of_getElem? hr', ack, rfl, rfl⟩

/-- An operation that carries a draft ends as it is recorded, and disposes of the draft accordingly. -/
theorem Ends.disposes {resolution : DraftResolution} {evidence : Option WorkEvidence}
    (h : s.Ends c next resolution evidence) (hs : s.Journaled) (hcarried : s.Carried) (hfits : s.Fits c)
    (hsome : s.workspace.submitted.isSome = true) {times : Times}
    (hfinish : next.finishDraft resolution evidence times = .ok s') : ∃ e, s.ending c = some e ∧
      resolution = (if e.consumes then .removeSubmitted else .restoreEditable) ∧ (e.consumes = true → s'.Recorded e) := by
  have hfinished := (h.emptied hs.single).finish hs hfinish
  have hempty := h.emptied hs.single
  cases h with
  | @message create send _ p outcome hsending houtcome =>
    have hending : s.ending (.transmitSend create send ‹_›) = some (.sent outcome) := by
      rw [ending, hsending]
      show ((p.transmit create send).toOption.bind fun outcome => some (Ending.sent outcome)) = _
      rw [houtcome]
      rfl
    obtain ⟨workspace, -, rfl⟩ := finishDraft_eq_ok hfinish
    refine ⟨.sent outcome, hending, ?_, fun _ => rfl⟩
    cases outcome with
    | committed message => rfl
    | refused operation reason => rfl
  | @external answer _ p ack hexternal hack =>
    have hending : s.ending (.transmitExternal answer ‹_›) = some (.acknowledged ack.receipt.outcome) := by
      rw [ending, hexternal]
      show ((p.transmit s.profile.deployment.providerKey answer).toOption.bind fun ack =>
        some (Ending.acknowledged ack.receipt.outcome)) = _
      rw [hack]
      rfl
    refine ⟨.acknowledged ack.receipt.outcome, hending, ?_, fun _ => ?_⟩
    · show (if ack.receipt.outcome.isRefused then _ else _) = _
      rw [Ending.consumes]
      cases ack.receipt.outcome.isRefused <;> rfl
    · have hcommand : s.inFlight.command = some (.external p) := by
        have hsending := inFlight_of_external hexternal hs.single
        rcases hcarried hsome with hcommand | ⟨plan, hplan, -⟩
        · obtain ⟨command, hcommand⟩ := Option.isSome_iff_exists.mp hcommand
          rw [hcommand]
          cases command with
          | native q => cases hsending.symm.trans (holds_of_command hcommand)
          | external q => rw [Option.some.inj (hexternal.symm.trans (holds_of_command hcommand))]
        · rw [inFlight_of_requesting hplan hs.single] at hexternal
          cases hexternal
      have hanswered : s.answered (.transmitExternal answer ‹_›) = some (p.answer ack) := by
        rw [answered, hexternal]
        show ((p.transmit s.profile.deployment.providerKey answer).toOption.bind fun ack => some (p.answer ack)) = _
        rw [hack]
        rfl
      refine Recorded.acknowledged hs hfinished.1 hcommand hanswered ?_ hfinished.2
      obtain ⟨workspace, -, rfl⟩ := finishDraft_eq_ok hfinish
      exact hempty.inFlight
  | recorded plan result hplan hending =>
    obtain ⟨workspace, -, rfl⟩ := finishDraft_eq_ok hfinish
    exact ⟨.request result.status, hending, rfl, fun _ => rfl⟩
  | @abandoned a _ plan hplan hending hstopped =>
    have hstale : s.lastRequest.any (fun r => r.status.consumes) = false := by
      rcases hstopped with ⟨hkind, hundecided⟩ | hbefore
      · exact hfits plan hplan hkind hundecided hsome
      · rcases hcarried hsome with hcommand | ⟨other, hother, hreviewed⟩
        · rw [inFlight_of_requesting hplan hs.single] at hcommand
          exact absurd hcommand Bool.noConfusion
        · obtain rfl : plan = other := Option.some.inj (hplan.symm.trans hother)
          exact absurd (hbefore.symm.trans hreviewed) Bool.noConfusion
    refine ⟨.request .cancelled, hending, ?_, fun hconsumes => by cases hconsumes⟩
    rw [hstale]
    rfl

omit [Crypto] in
theorem Fills.carries {draft : Option DraftRef} (h : s.Fills c next draft) : c.carries = draft := by
  cases h with
  | message p hidle hp => rfl
  | external p hidle hp => rfl
  | authorized plan stage hplan hbefore hstage => rfl
  | followup plan hidle hstage => rfl

omit [Crypto] in
theorem Fills.workspace {draft : Option DraftRef} (h : s.Fills c next draft) : next.workspace = s.workspace := by
  cases h with
  | message p hidle hp => rfl
  | external p hidle hp => rfl
  | authorized plan stage hplan hbefore hstage => rfl
  | followup plan hidle hstage => rfl

theorem keeps_of_workspace (h : s'.workspace = s.workspace) : s.Keeps c s' :=
  ⟨fun _ hd => .inl (h ▸ hd), fun _ hd => .inl (h ▸ hd)⟩

/-- **A call keeps the drafts**, unless it reads a stale result. -/
theorem call_keeps (hs : s.Journaled) (hcarried : s.Carried) (hfits : s.Fits c) (h : s.call c = .ok s') :
    s.Keeps c s' := by
  obtain ⟨-, -, -, hnodup⟩ := Workspace.load_eq_ok.mp hs.workspace
  rw [Workspace.ids_holdings] at hnodup
  have hnodup := hnodup.sublist (List.sublist_append_left ..)
  cases call_move h with
  | idle => exact keeps_of_workspace rfl
  | observed deployment hkey => exact keeps_of_workspace rfl
  | controlled p hidle hmessage => exact keeps_of_workspace rfl
  | quoting plan hidle => exact keeps_of_workspace rfl
  | going plan plan' lastRequest hplan hstage => exact keeps_of_workspace rfl
  | edited command workspace hedit hstep =>
    have hsame := edit_submitted hedit hstep
    refine ⟨fun d hd => ?_, fun d hd => .inl (hsame.trans hd)⟩
    rcases hstep.keeps hnodup hd with hstays | ⟨hedits, hlater⟩ | hdiscards | ⟨rfl, -, -⟩
    · exact .inl hstays
    · exact .inr (.inl ⟨by rw [OutgoingCall.edits, hedit]; exact hedits, hlater⟩)
    · exact .inr (.inr (.inl (by rw [OutgoingCall.discards, hedit]; exact hdiscards)))
    · cases c <;> cases hedit
  | filled next draft times hfills hcommit =>
    obtain ⟨workspace, personal, hhand, -, -, rfl⟩ := commitDraft_eq_ok hcommit
    have hworkspace := hfills.workspace
    rcases handOver_step hhand with ⟨-, rfl⟩ | ⟨ref, hdraft, hstep⟩
    · exact keeps_of_workspace hworkspace
    · rw [hworkspace] at hstep
      refine ⟨fun d hd => ?_, fun d hd => ?_⟩
      · rcases hstep.keeps hnodup hd with hstays | ⟨hedits, -⟩ | hdiscards | ⟨hsame, hnone, hsubmitted⟩
        · exact .inl hstays
        · cases hedits
        · cases hdiscards
        · injection hsame with hid hrevision
          have href : ref = d.ref := Prod.ext hid hrevision
          exact .inr (.inr (.inr ⟨by rw [hfills.carries, hdraft, href], hnone, hsubmitted⟩))
      · rcases hstep.keeps_submitted hd with hstays | ⟨-, hconsumed | ⟨hrestored, -⟩⟩
        · exact .inl hstays
        · cases hconsumed
        · cases hrestored
  | ended next resolution evidence times hends hfinish =>
    have hworkspace := (hends.emptied hs.single).workspace
    obtain ⟨workspace, hstep, hsame⟩ := finishDraft_eq_ok hfinish
    rw [hworkspace] at hstep
    have hafter : s'.workspace = workspace := by rw [hsame]
    refine ⟨fun d hd => ?_, fun d hd => ?_⟩
    · rw [hafter]
      rcases hstep.keeps hnodup hd with hstays | ⟨hedits, -⟩ | hdiscards | ⟨hsubmit, -, -⟩
      · exact .inl hstays
      · cases hedits
      · cases hdiscards
      · cases hsubmit
    · rw [hafter]
      obtain ⟨e, hending, hresolution, hrecorded⟩ := hends.disposes hs hcarried hfits (by rw [hd]; rfl) hfinish
      rcases hstep.keeps_submitted hd with hstays | ⟨hnone, hdisposed⟩
      · exact .inl hstays
      · refine .inr ⟨e, hending, hnone, ?_⟩
        by_cases hconsumes : e.consumes = true
        · rw [if_pos hconsumes]
          exact hrecorded hconsumes
        · rw [if_neg hconsumes] at hresolution ⊢
          rw [hresolution] at hdisposed
          rcases hdisposed with hconsumed | ⟨-, hrestored⟩
          · cases hconsumed
          · exact hrestored

/-- A follow-up that is given up takes the disposition of the last result, whichever request that was of. -/
theorem cancelStopped_stale (hs : s.Journaled) {plan : RequestJourney} (hkind : plan.kind ≠ .initial)
    (hstale : s.lastRequest.any (fun r => r.status.consumes) = true) (p : RequestJourney) (a : StepAnswers) (times : Times) :
    ∃ s', cancelStopped {s with requesting := some p} plan a times = .ok s' ∧
      s'.workspace = {s.workspace with submitted := none} := by
  have hsettled : ∃ draft, s.workspace.transition times.workspace (.resolve .removeSubmitted) =
      .ok ⟨{s.workspace with submitted := none}, draft⟩ := by
    rw [Workspace.transition]
    cases hsubmitted : s.workspace.submitted with
    | none =>
      have hself : ({s.workspace with submitted := none} : Workspace) = s.workspace := by rw [← hsubmitted]
      rw [hself]
      exact ⟨none, rfl⟩
    | some d => exact ⟨none, rfl⟩
  obtain ⟨draft, hsettled⟩ := hsettled
  have habandoned : ∃ s', s.abandoned.persistRequest times = .ok s' ∧
      s'.workspace = {s.workspace with submitted := none} := by
    rw [persistRequest_of_none rfl]
    show ∃ s', s.abandoned.finishDraft (if s.lastRequest.any (fun r => r.status.consumes) then _ else _) none times =
      .ok s' ∧ _
    rw [hstale]
    exact ⟨_, bind_eq_ok.mpr ⟨⟨⟩, hs.workspace, bind_eq_ok.mpr ⟨_, hsettled, bind_eq_ok.mpr ⟨⟨⟩, hs.journal.loads, rfl⟩⟩⟩,
      rfl⟩
  unfold cancelStopped
  cases hcases : plan.kind with
  | initial => exact absurd hcases hkind
  | followup policy => exact habandoned

theorem cancelRequest_stale (hs : s.Journaled) {plan : RequestJourney} {a : StepAnswers} (hplan : s.requesting = some plan)
    (hkind : plan.kind ≠ .initial) (hundecided : plan.undecided s.profile a = true)
    (hstale : s.lastRequest.any (fun r => r.status.consumes) = true) (times : Times) :
    ∃ s', s.call (.cancelRequest a times) = .ok s' ∧ s'.workspace = {s.workspace with submitted := none} := by
  have hreconciled : plan.stage.beforeReview = false ∧ ∃ p, s.reconcileBeforeCancel plan a.command times =
      .ok {s with requesting := some p} := by
    unfold RequestJourney.undecided at hundecided
    unfold reconcileBeforeCancel
    cases hcases : plan.stage with
    | quoting address requestClass quote command =>
      rw [hcases] at hundecided
      cases hundecided
    | quoted issued =>
      rw [hcases] at hundecided
      cases hundecided
    | preparing terms document work =>
      rw [hcases] at hundecided
      dsimp only at hundecided ⊢
      refine ⟨rfl, ?_⟩
      cases hcommand : work.command with
      | none => exact ⟨plan, by rw [← hplan]⟩
      | some command =>
        obtain ⟨command, expected⟩ := command
        rw [hcommand] at hundecided
        dsimp only at hundecided
        cases hanswer : plan.acceptAnswer s.profile command expected a.command with
        | error e =>
          rw [hanswer] at hundecided
          cases hundecided
        | ok answer =>
          rw [hanswer] at hundecided
          dsimp only at hundecided
          refine ⟨{plan with stage := .preparing terms document .stopped}, bind_eq_ok.mpr ⟨answer, hanswer, ?_⟩⟩
          rw [reconciled, Option.isNone_iff_eq_none.mp hundecided]
          exact persistRequest_of_some rfl times
  obtain ⟨hbefore, p, hreconciled⟩ := hreconciled
  obtain ⟨s', hdone, hworkspace⟩ := cancelStopped_stale hs hkind hstale p a times
  refine ⟨s', bind_eq_ok.mpr ⟨plan, okOr_eq_ok.mpr hplan, ?_⟩, hworkspace⟩
  rw [hbefore, if_neg (by simp)]
  refine bind_eq_ok.mpr ⟨_, hreconciled, ?_⟩
  rw [if_neg (by simp), hdone]

/-- Where a call reads a stale result, it loses the draft. -/
theorem loses (hs : s.Journaled) (hfits : ¬s.Fits c) : ∃ s', s.call c = .ok s' ∧ ¬s.Keeps c s' := by
  cases c with
  | cancelRequest a times =>
    simp only [Fits, not_forall] at hfits
    obtain ⟨plan, hplan, hkind, hundecided, hsome, hstale⟩ := hfits
    rw [Bool.not_eq_false] at hstale
    obtain ⟨s', hcall, hworkspace⟩ := cancelRequest_stale hs hplan hkind hundecided hstale times
    obtain ⟨d, hd⟩ := Option.isSome_iff_exists.mp hsome
    refine ⟨s', hcall, fun hkeeps => ?_⟩
    rcases hkeeps.submitted d hd with hstays | ⟨e, hending, -, hdisposed⟩
    · rw [hworkspace] at hstays
      cases hstays
    · have hcancelled : s.ending (.cancelRequest a times) = some (.request .cancelled) := by
        rw [ending_cancelRequest hplan, RequestJourney.cancelEnding, if_pos hundecided, RequestJourney.stoppedEnding]
        cases hcases : plan.kind with
        | initial => exact absurd hcases hkind
        | followup policy => rfl
      cases hcancelled.symm.trans hending
      obtain ⟨d', hd', hrestores⟩ := hdisposed
      rw [hworkspace] at hd'
      obtain ⟨-, -, -, hnodup⟩ := Workspace.load_eq_ok.mp hs.workspace
      rw [Workspace.ids_holdings, hd] at hnodup
      -- the submitted draft is not among the editable ones
      refine (List.nodup_append.mp hnodup).2.2 d'.id (List.mem_map_of_mem hd') d.id ?_ hrestores.id
      exact List.mem_singleton_self _
  | _ => exact absurd trivial hfits

/-! ### The drafts at every moment -/

omit [Crypto] [ExternalJson] [MemberJson] in
theorem edit_eq_ok {command : WorkspaceCommand} {now : CanonicalTime} (h : s.edit command now = .ok s') :
    ∃ workspace, s.workspace.Step command workspace ∧ s'.workspace = workspace := by
  obtain ⟨⟨⟩, -, h⟩ := bind_eq_ok.mp h
  obtain ⟨decision, hdecision, h⟩ := bind_eq_ok.mp h
  cases h
  exact ⟨_, Workspace.transition_step hdecision, rfl⟩

theorem call_edit {command : WorkspaceCommand} (hedit : c.edit = some command) (h : s.call c = .ok s') :
    ∃ now, s.edit command now = .ok s' := by
  cases c with
  | openDraft id target mode now =>
    cases hedit
    exact ⟨now, h⟩
  | saveDraft id expected body subject localOffsetSeconds now =>
    cases hedit
    exact ⟨now, h⟩
  | retargetDraft id expected target dropIncompatible mailbox now =>
    cases hedit
    exact ⟨now, h⟩
  | discardDraft id expected now =>
    cases hedit
    exact ⟨now, h⟩
  | _ => cases hedit

/-- An operation takes the draft it carries from the workspace. -/
theorem handOver_of_carries (h : s.call c = .ok s') {ref : DraftRef} (hc : c.carries = some ref) :
    ∃ now workspace, s.handOver now (some ref) = .ok workspace := by
  have hcommit : ∀ {next : Outgoing} {draft times}, next.commitDraft draft times = .ok s' → draft = some ref →
      next.workspace = s.workspace → ∃ now workspace, s.handOver now (some ref) = .ok workspace := by
    intro next draft times h hdraft hworkspace
    obtain ⟨workspace, personal, hhand, -⟩ := commitDraft_eq_ok h
    rw [hdraft, handOver, hworkspace] at hhand
    exact ⟨times.workspace, workspace, hhand⟩
  cases c with
  | sendMessage draft w times =>
    obtain ⟨⟨⟩, -, h⟩ := bind_eq_ok.mp h
    obtain ⟨⟨⟩, -, h⟩ := bind_eq_ok.mp h
    obtain ⟨⟨⟩, -, h⟩ := bind_eq_ok.mp h
    obtain ⟨⟨⟩, -, h⟩ := bind_eq_ok.mp h
    obtain ⟨⟨⟩, -, h⟩ := bind_eq_ok.mp h
    obtain ⟨⟨⟩, -, h⟩ := bind_eq_ok.mp h
    obtain ⟨p, -, h⟩ := bind_eq_ok.mp h
    exact hcommit h hc rfl
  | sendExternal draft w operation signature times =>
    obtain ⟨⟨⟩, -, h⟩ := bind_eq_ok.mp h
    obtain ⟨⟨⟩, -, h⟩ := bind_eq_ok.mp h
    obtain ⟨p, -, h⟩ := bind_eq_ok.mp h
    exact hcommit h hc rfl
  | sendFollowup draft p times =>
    obtain ⟨⟨⟩, -, h⟩ := bind_eq_ok.mp h
    exact hcommit h hc rfl
  | authorizeRequest request draft document command now times =>
    obtain ⟨plan, -, h⟩ := bind_eq_ok.mp h
    cases hcases : plan.stage with
    | quoting address requestClass quote command =>
      rw [hcases] at h
      cases h
    | preparing terms document work =>
      rw [hcases] at h
      cases h
    | quoted issued =>
      rw [hcases] at h
      obtain ⟨⟨⟩, -, h⟩ := bind_eq_ok.mp h
      obtain ⟨⟨⟩, -, h⟩ := bind_eq_ok.mp h
      obtain ⟨⟨⟩, -, h⟩ := bind_eq_ok.mp h
      obtain ⟨⟨⟩, -, h⟩ := bind_eq_ok.mp h
      exact hcommit h hc rfl
  | _ => cases hc

/-- A call that names a version of a draft names the current one. -/
theorem call_current (h : s.call c = .ok s') {ref : DraftRef}
    (hc : c.edits = some ref ∨ c.discards = some ref ∨ c.carries = some ref) : ∃ d ∈ s.workspace.drafts, d.ref = ref := by
  rcases hc with hc | hc | hc
  · obtain ⟨command, hedit, hc⟩ := Option.bind_eq_some_iff.mp hc
    obtain ⟨now, hedited⟩ := call_edit hedit h
    obtain ⟨workspace, hstep, -⟩ := edit_eq_ok hedited
    exact hstep.current (.inl hc)
  · obtain ⟨command, hedit, hc⟩ := Option.bind_eq_some_iff.mp hc
    obtain ⟨now, hedited⟩ := call_edit hedit h
    obtain ⟨workspace, hstep, -⟩ := edit_eq_ok hedited
    exact hstep.current (.inr (.inl hc))
  · obtain ⟨now, workspace, hhand⟩ := handOver_of_carries h hc
    rcases handOver_step hhand with ⟨hnone, -⟩ | ⟨ref', hsame, hstep⟩
    · cases hnone
    · cases hsame
      exact hstep.current (.inr (.inr rfl))

/-- What holds of the drafts at every moment. -/
structure Kept (s : Outgoing) : Prop where
  loads : s.workspace.load s.profile.account s.profile.persona = .ok ()
  distinct : (s.workspace.holdings.map Draft.id).Nodup
  bounded : s.workspace.holdings.length ≤ maxDrafts
  carried : s.Carried
  current : ∀ c s' ref, s.call c = .ok s' → (c.edits = some ref ∨ c.discards = some ref ∨ c.carries = some ref) →
    ∃ d ∈ s.workspace.drafts, d.ref = ref
  saved : ∀ d ∈ s.workspace.drafts, ∀ body subject localOffsetSeconds now s',
    s.call (.saveDraft d.id d.revision body subject localOffsetSeconds now) = .ok s' →
    ∃ d' ∈ s'.workspace.drafts, d.Follows d' ∧ d'.body = body ∧ d'.subject = subject
  stale : ∀ d ∈ s.workspace.drafts, ∀ expected ≠ d.revision, ∀ body subject localOffsetSeconds now,
    Machine.advance call s (.saveDraft d.id expected body subject localOffsetSeconds now) = s

theorem Journaled.kept (hs : s.Journaled) (hcarried : s.Carried) : s.Kept := by
  obtain ⟨-, -, hbounded, hdistinct⟩ := Workspace.load_eq_ok.mp hs.workspace
  have hids : s.workspace.ids.Nodup := by
    have hall := hdistinct
    rw [Workspace.ids_holdings] at hall
    exact hall.sublist (List.sublist_append_left ..)
  refine ⟨hs.workspace, hdistinct, hbounded, hcarried, fun c s' ref h hc => call_current h hc, ?_, ?_⟩
  · intro d hd body subject localOffsetSeconds now s' h
    obtain ⟨workspace, hstep, hafter⟩ := edit_eq_ok h
    rw [hafter]
    obtain ⟨d', hd', href, hsaved⟩ := hstep.saved_eq
    injection href with hid hrevision
    rw [Workspace.eq_of_id hids hd' hd hid] at hsaved
    exact hsaved
  · intro d hd expected hstale body subject localOffsetSeconds now
    rcases Machine.advance_cases call s (.saveDraft d.id expected body subject localOffsetSeconds now) with hsame | hok
    · exact hsame
    · obtain ⟨d', hd', href⟩ : ∃ d' ∈ s.workspace.drafts, d'.ref = (d.id, expected) := call_current hok (.inl rfl)
      injection href with hid hrevision
      rw [Workspace.eq_of_id hids hd' hd hid] at hrevision
      exact absurd hrevision.symm hstale

theorem call_preserves (s : Outgoing) (c : OutgoingCall) (s' : Outgoing) (hs : s.Journaled ∧ s.Carried)
    (h : s.call c = .ok s') : s'.Journaled ∧ s'.Carried := ⟨(call_journaled hs.1 h).1, call_carried hs.2 h⟩

theorem enrolled_carried (profile : Profile) : (enrolled profile).Journaled ∧ (enrolled profile).Carried :=
  ⟨enrolled_journaled profile, fun hsome => by cases hsome⟩

/-- A call keeps the drafts just if it reads no stale result. -/
theorem keeps_iff_fits (hs : s.Journaled ∧ s.Carried) : (∀ s', s.call c = .ok s' → s.Keeps c s') ↔ s.Fits c := by
  constructor
  · intro hkeeps
    by_contra hfits
    obtain ⟨s', hcall, hlost⟩ := loses hs.1 hfits
    exact hlost (hkeeps s' hcall)
  · intro hfits s' h
    exact call_keeps hs.1 hs.2 hfits h

/-- **A member's writing is kept.** After any calls, with any answers, the workspace is sound; and the calls lose no
draft just as long as none gives up a follow-up under a stale result. -/
theorem writing_kept (profile : Profile) (calls : List OutgoingCall) :
    (Machine.run call (enrolled profile) calls).Kept ∧
      (Machine.Along call (fun s c => ∀ s', s.call c = .ok s' → s.Keeps c s') (enrolled profile) calls ↔
        Machine.Along call Fits (enrolled profile) calls) := by
  have hs := Machine.run_preserves call_preserves (enrolled_carried profile) calls
  exact ⟨hs.1.kept hs.2, Machine.along_iff call_preserves (fun s c hs => keeps_iff_fits hs) (enrolled_carried profile) calls⟩

end Outgoing
end
namespace Drafts.Example

def document : RequestDocument := ⟨zero32, ⟨7⟩, ⟨1⟩, ⟨zero32⟩, ⟨⟨100⟩⟩⟩

def followup (request : RequestId) : FollowupPlan := ⟨⟨2⟩, ⟨1, zero32⟩, request, .initial, Example.terms, document⟩

/-- The first request was rejected meanwhile. -/
def answers : StepAnswers where
  command := .error .unavailable
  view := .ok ⟨[⟨⟨7⟩, .initial, Example.terms, .rejected ⟨⟨10⟩, ⟨20⟩⟩ ⟨⟨1⟩⟩, none⟩], .initial⟩
  staged := .error .unavailable
  stagedView := .error .unavailable
  delivery := ⟨1⟩
  sign := fun _ => .error .unavailable

def times : Times := ⟨⟨10⟩, ⟨10⟩⟩

def draft : DraftRef := (⟨11, by decide⟩, .one)

/-- A follow-up is overtaken, and the next one, which carries a draft, is given up before anything is sent. -/
def calls : List OutgoingCall :=
  [.sendFollowup none (followup ⟨7⟩) times, .advanceRequest answers times,
    .openDraft draft.1 (.followup ⟨2⟩ ⟨8⟩) .new ⟨10⟩, .sendFollowup (some draft) (followup ⟨8⟩) times]

section
local instance : Crypto := FullJournal.Example.crypto
local instance : ExternalJson := FullJournal.Example.external
local instance : MemberJson := FullJournal.Example.member

/-- The device once the follow-up carries its draft. -/
def device : Outgoing := Machine.run Outgoing.call (Outgoing.enrolled FullJournal.Example.profile) calls

/-- The last result is of the request before. -/
theorem stale : (device.requesting.any fun plan => plan.kind ≠ .initial && plan.undecided device.profile answers) = true ∧
    device.workspace.submitted.isSome = true ∧ device.lastRequest.any (fun r => r.status.consumes) = true := by
  decide +kernel

theorem not_fits : ¬device.Fits (.cancelRequest answers times) := by
  obtain ⟨hplan, hsome, hconsumes⟩ := stale
  obtain ⟨plan, hplan, hstopped⟩ := (Option.any_eq_true _ _).mp hplan
  rw [Bool.and_eq_true, decide_eq_true_eq] at hstopped
  intro hfits
  rw [hfits plan hplan hstopped.1 hstopped.2 hsome] at hconsumes
  cases hconsumes

theorem draft_lost : ∃ s', device.call (.cancelRequest answers times) = .ok s' ∧
    ¬device.Keeps (.cancelRequest answers times) s' :=
  Outgoing.loses (Machine.run_preserves Outgoing.call_preserves (Outgoing.enrolled_carried _) calls).1 not_fits

end

end Drafts.Example

/-- The draft of a follow-up that is given up is removed. -/
theorem followup_draft_lost : ¬∀ (_ : Crypto) (_ : ExternalJson) (_ : MemberJson) (profile : Profile)
    (calls : List OutgoingCall) (c : OutgoingCall) (s' : Outgoing),
    (Machine.run Outgoing.call (Outgoing.enrolled profile) calls).call c = .ok s' →
    (Machine.run Outgoing.call (Outgoing.enrolled profile) calls).Keeps c s' := by
  intro h
  obtain ⟨s', hcall, hlost⟩ := Drafts.Example.draft_lost
  exact hlost (h _ _ _ _ Drafts.Example.calls _ s' hcall)

end CsMail
