import CsMail.Member.Calls
import CsMail.Member.DraftProofs

/-! What a call of the client can do to its outgoing work.

A call fills a slot, ends the operation in a slot, moves a journey on, edits the workspace or does
nothing (`call_move`). How an operation ends is what the answers say of it (`ending`); a journey
that is given up ends cancelled. -/
namespace CsMail
open Library

/-- How an operation ended. -/
inductive Outgoing.Ending
  | sent (outcome : SendOutcome)
  | acknowledged (outcome : ExternalOutcome)
  | request (status : RequestStatus)

/-- The writing has been delivered or queued, or has been overtaken. -/
def Outgoing.Ending.consumes : Outgoing.Ending → Bool
  | sent (.committed _) => true
  | sent (.refused ..) => false
  | acknowledged outcome => !outcome.isRefused
  | request status => status.consumes

/-- The local edit a call makes. -/
def OutgoingCall.edit : OutgoingCall → Option WorkspaceCommand
  | openDraft id target mode _ => some (.start id target mode)
  | saveDraft id expected body subject localOffsetSeconds _ => some (.save id expected body subject localOffsetSeconds)
  | retargetDraft id expected target dropIncompatible mailbox _ =>
    some (.retarget id expected target dropIncompatible mailbox)
  | discardDraft id expected _ => some (.discard id expected)
  | _ => none

section
variable [Crypto] [ExternalJson] [MemberJson]

namespace RequestAdvance

/-- The status a step ends its journey with. -/
def ending : RequestAdvance → Option RequestStatus
  | complete result | observedChange result => some result.status
  | refused _ none => some .refused
  | refused _ (some _) | wait | funding _ | next _ => none

/-- The stage a step moves its journey to. -/
def stage : RequestAdvance → Option RequestStage
  | next stage => some stage
  | refused _ after => after
  | wait | funding _ | complete _ | observedChange _ => none

end RequestAdvance

namespace RequestJourney

/-- The status the cancellation of a stopped journey ends it with. -/
def stoppedEnding (plan : RequestJourney) (a : StepAnswers) : Option RequestStatus :=
  match plan.kind with
  | .followup _ => some .cancelled
  | .initial =>
    match plan.outboundRequest a.view with
    | .ok (request, _) => if !request.lifecycle.isPreparingSubmission then some .changed else none
    | .error _ => none

/-- The cancellation finds the journey not over: nothing is in hand, or what is was not decided. -/
def undecided (plan : RequestJourney) (profile : Profile) (a : StepAnswers) : Bool :=
  match plan.stage with
  | .quoting .. | .quoted _ => false
  | .preparing _ _ work =>
    match work.command with
    | none => true
    | some (command, expected) =>
      match plan.acceptAnswer profile command expected a.command with
      | .ok answer => (plan.settledBy work answer.payload.kind).isNone
      | .error _ => false

/-- The status an answer to the command in hand ends a cancelled journey with. -/
def decidedEnding (plan : RequestJourney) (profile : Profile) (a : StepAnswers) : Option RequestStatus :=
  match plan.stage with
  | .quoting .. | .quoted _ => some .cancelled
  | .preparing _ _ work =>
    match work.command with
    | none => none
    | some (command, expected) =>
      match plan.acceptAnswer profile command expected a.command with
      | .ok answer => plan.settledBy work answer.payload.kind
      | .error _ => none

/-- The status a cancellation ends its journey with. -/
def cancelEnding (plan : RequestJourney) (profile : Profile) (a : StepAnswers) : Option RequestStatus :=
  if plan.undecided profile a then plan.stoppedEnding a else plan.decidedEnding profile a

end RequestJourney

namespace Outgoing

/-- How the operation in flight ends at a call, if it does. -/
def ending (s : Outgoing) : OutgoingCall → Option Ending
  | .transmitSend create send _ => do
    let p ← s.inFlight.sending
    let outcome ← (p.transmit create send).toOption
    some (.sent outcome)
  | .transmitExternal answer _ => do
    let p ← s.inFlight.external
    let ack ← (p.transmit s.profile.deployment.providerKey answer).toOption
    some (.acknowledged ack.receipt.outcome)
  | .advanceRequest a _ => do
    let plan ← s.requesting
    let advance ← (plan.nextRequestStep s.profile a).toOption
    let status ← advance.ending
    some (.request status)
  | .cancelRequest a _ => do
    let plan ← s.requesting
    let status ← plan.cancelEnding s.profile a
    some (.request status)
  | _ => none

/-! ### Moves -/

/-- The slot a call fills, before the draft is handed over. -/
inductive Fills (s : Outgoing) : OutgoingCall → Outgoing → Option DraftRef → Prop
  | message {draft : Option DraftRef} {w : NativeWriting} {times : Times} (p : PendingSend)
      (hidle : s.requireIdle = .ok ()) (hp : s.profile.prepareSend w = .ok p) :
    Fills s (.sendMessage draft w times) {s with inFlight := {s.inFlight with sending := some p}, lastSend := none} draft
  | external {draft : Option DraftRef} {w : ExternalWriting} {operation : IdempotencyKey} {signature : Bytes}
      {times : Times} (p : SignedExternalCommand) (hidle : s.requireIdle = .ok ())
      (hp : s.profile.externalSigned w.conversation w.command operation signature = .ok p) :
    Fills s (.sendExternal draft w operation signature times) {s with inFlight := {s.inFlight with external := some p}}
      draft
  | authorized {request : RequestId} {draft : Option RequestDraft} {document : RequestDocument}
      {command : SenderCommand} {now : CanonicalTime} {times : Times} (plan : RequestJourney) (stage : RequestStage)
      (hplan : s.requesting = some plan) (hbefore : plan.stage.beforeReview = true)
      (hstage : stage.beforeReview = false) :
    Fills s (.authorizeRequest request draft document command now times)
      {s with requesting := some {plan with stage}} (draft.map RequestDraft.draft)
  | followup {draft : Option DraftRef} {p : FollowupPlan} {times : Times} (plan : RequestJourney)
      (hidle : s.requireIdle = .ok ()) (hstage : plan.stage.beforeReview = false) :
    Fills s (.sendFollowup draft p times) {s with requesting := some plan} draft

/-- The slot a call empties, with the disposition it asks for. -/
inductive Ends (s : Outgoing) : OutgoingCall → Outgoing → DraftResolution → Option WorkEvidence → Prop
  | message {create send : Except MemberError NativeResponse} {times : Times} (p : PendingSend) (outcome : SendOutcome)
      (hsending : s.inFlight.sending = some p) (houtcome : p.transmit create send = .ok outcome) :
    Ends s (.transmitSend create send times)
      {s with inFlight := {s.inFlight with sending := none}, lastSend := some outcome} outcome.resolution
      (some (.native outcome))
  | external {answer : Except MemberError ExternalResponse} {times : Times} (p : SignedExternalCommand)
      (ack : Acknowledgement) (hexternal : s.inFlight.external = some p)
      (hack : p.transmit s.profile.deployment.providerKey answer = .ok ack) :
    Ends s (.transmitExternal answer times) {s with inFlight := {s.inFlight with external := none}} ack.resolution
      (some (.external ack))
  | recorded {c : OutgoingCall} (plan : RequestJourney) (result : RequestResult) (hplan : s.requesting = some plan)
      (hending : s.ending c = some (.request result.status)) :
    Ends s c (s.finishRequest result) (if result.status.consumes then .removeSubmitted else .restoreEditable) none
  | abandoned {a : StepAnswers} {times : Times} (plan : RequestJourney) (hplan : s.requesting = some plan)
      (hending : s.ending (.cancelRequest a times) = some (.request .cancelled))
      (hstopped : (plan.kind ≠ .initial ∧ plan.undecided s.profile a = true) ∨ plan.stage.beforeReview = true) :
    Ends s (.cancelRequest a times) s.abandoned
      (if s.lastRequest.any (fun r => r.status.consumes) then .removeSubmitted else .restoreEditable) none

/-- What a call does. -/
inductive Move (s : Outgoing) (c : OutgoingCall) : Outgoing → Prop
  | idle : Move s c s
  | observed (deployment : Deployment) (hkey : deployment.providerKey = s.profile.deployment.providerKey) :
    Move s c {s with profile := {s.profile with deployment}}
  | edited (command : WorkspaceCommand) (workspace : Workspace) (hedit : c.edit = some command)
      (hstep : s.workspace.Step command workspace) : Move s c {s with workspace}
  | filled {s' : Outgoing} (next : Outgoing) (draft : Option DraftRef) (times : Times) (hfills : s.Fills c next draft)
      (hcommit : next.commitDraft draft times = .ok s') : Move s c s'
  | controlled (p : SignedExternalCommand) (hidle : s.requireIdle = .ok ()) (hmessage : p.command.message = none) :
    Move s c {s with inFlight := {s.inFlight with external := some p}}
  | quoting (plan : RequestJourney) (hidle : s.requireIdle = .ok ()) :
    Move s c {s with requesting := some plan, lastRequest := none}
  | going (plan plan' : RequestJourney) (lastRequest : Option RequestResult) (hplan : s.requesting = some plan)
      (hstage : plan.stage.beforeReview = false → plan'.stage.beforeReview = false) :
    Move s c {s with requesting := some plan', lastRequest}
  | ended {s' : Outgoing} (next : Outgoing) (resolution : DraftResolution) (evidence : Option WorkEvidence) (times : Times)
      (hends : s.Ends c next resolution evidence) (hfinish : next.finishDraft resolution evidence times = .ok s') :
    Move s c s'

variable {s s' : Outgoing}

theorem commitDraft_eq_ok {draft : Option DraftRef} {times : Times} (h : s.commitDraft draft times = .ok s') :
    ∃ workspace personal, s.handOver times.workspace draft = .ok workspace ∧ s.personal.load s.profile = .ok () ∧
      s.personal.prepare s.inFlight draft times.personal = .ok personal ∧ s' = {s with workspace, personal} := by
  obtain ⟨⟨⟩, -, h⟩ := bind_eq_ok.mp h
  obtain ⟨workspace, hworkspace, h⟩ := bind_eq_ok.mp h
  obtain ⟨⟨⟩, hload, h⟩ := bind_eq_ok.mp h
  obtain ⟨personal, hpersonal, h⟩ := bind_eq_ok.mp h
  cases h
  exact ⟨workspace, personal, hworkspace, hload, hpersonal, rfl⟩

theorem finishDraft_eq_ok {resolution : DraftResolution} {evidence : Option WorkEvidence} {times : Times}
    (h : s.finishDraft resolution evidence times = .ok s') :
    ∃ workspace, s.workspace.Step (.resolve resolution) workspace ∧ s' = {s with
      workspace
      personal := s.personal.resolve s.inFlight (resolution = .restoreEditable) evidence times.personal} := by
  obtain ⟨⟨⟩, -, h⟩ := bind_eq_ok.mp h
  obtain ⟨decision, hdecision, h⟩ := bind_eq_ok.mp h
  obtain ⟨⟨⟩, -, h⟩ := bind_eq_ok.mp h
  cases h
  exact ⟨decision.next, Workspace.transition_step hdecision, rfl⟩

theorem persistRequest_of_some {plan : RequestJourney} (h : s.requesting = some plan) (times : Times) :
    s.persistRequest times = .ok s := by
  rw [persistRequest, h]

theorem persistRequest_of_none (h : s.requesting = none) (times : Times) : s.persistRequest times = s.finishDraft
    (if s.lastRequest.any (fun r => r.status.consumes) then .removeSubmitted else .restoreEditable) none times := by
  rw [persistRequest, h]

/-- A result that ends a journey is persisted with the disposition its status asks for. -/
theorem move_of_finish {c : OutgoingCall} {plan : RequestJourney} {result : RequestResult} {times : Times}
    (hplan : s.requesting = some plan) (hending : s.ending c = some (.request result.status))
    (h : (s.finishRequest result).persistRequest times = .ok s') : s.Move c s' := by
  rw [persistRequest_of_none rfl] at h
  exact .ended _ _ none times (.recorded plan result hplan hending) h

theorem move_of_stage {c : OutgoingCall} {plan plan' : RequestJourney} {lastRequest : Option RequestResult}
    {times : Times} (hplan : s.requesting = some plan)
    (hstage : plan.stage.beforeReview = false → plan'.stage.beforeReview = false)
    (h : persistRequest {s with requesting := some plan', lastRequest} times = .ok s') : s.Move c s' := by
  rw [persistRequest_of_some rfl] at h
  cases h
  exact .going plan plan' lastRequest hplan hstage

omit [Crypto] [ExternalJson] [MemberJson] in
theorem afterRefusal_stage {plan : RequestJourney} {terms : RequestTerms} {document : RequestDocument}
    {work : PreparationWork} {stage : RequestStage} (h : plan.afterRefusal terms document work = some stage) :
    stage.beforeReview = false := by
  unfold RequestJourney.afterRefusal at h
  split at h
  · cases h
  · split_ifs at h
    cases h
    rfl

omit [Crypto] [ExternalJson] [MemberJson] in
theorem committed_stage {plan : RequestJourney} {terms : RequestTerms} {document : RequestDocument}
    {work : PreparationWork} {payload : ReceiptPayload} {stage : RequestStage}
    (h : (plan.committed terms document work payload).stage = some stage) : stage.beforeReview = false := by
  unfold RequestJourney.committed at h
  split at h
  · cases h
    rfl
  · cases h
  · cases h

omit [ExternalJson] [MemberJson] in
/-- A journey that has been reviewed does not return to its quote. -/
theorem nextRequestStep_stage {plan : RequestJourney} {profile : Profile} {a : StepAnswers} {advance : RequestAdvance}
    (h : plan.nextRequestStep profile a = .ok advance) (hstage : plan.stage.beforeReview = false) :
    ∀ stage, advance.stage = some stage → stage.beforeReview = false := by
  intro stage hnext
  have hcommand : ∀ {terms document work command expected}, plan.commandStep profile terms document work command
      expected a = .ok advance → stage.beforeReview = false := by
    intro terms document work command expected h
    obtain ⟨answer, -, h⟩ := bind_eq_ok.mp h
    split_ifs at h
    · cases h
      exact afterRefusal_stage hnext
    · cases h
      exact committed_stage hnext
  unfold RequestJourney.nextRequestStep at h
  cases hcases : plan.stage with
  | quoting address requestClass quote command =>
    rw [hcases] at hstage
    cases hstage
  | quoted issued =>
    rw [hcases] at hstage
    cases hstage
  | preparing terms document work =>
    rw [hcases] at h
    cases work with
    | create command => exact hcommand h
    | submit command => exact hcommand h
    | cancel command => exact hcommand h
    | stopped =>
      obtain ⟨⟨request, _⟩, -, h⟩ := bind_eq_ok.mp h
      dsimp only at h
      split_ifs at h
      · cases h
        cases hnext
      · cases h
        cases hnext
    | funding =>
      obtain ⟨⟨request, _⟩, -, h⟩ := bind_eq_ok.mp h
      dsimp only at h
      split_ifs at h
      · cases h
        cases hnext
      · obtain ⟨capture, -, h⟩ := bind_eq_ok.mp h
        split_ifs at h
        · cases h
          cases hnext
        · cases h
          cases hnext
          rfl
    | stage =>
      obtain ⟨⟨request, _⟩, -, h⟩ := bind_eq_ok.mp h
      dsimp only at h
      split_ifs at h
      · cases h
        cases hnext
      · obtain ⟨command, -, h⟩ := bind_eq_ok.mp h
        cases h
        cases hnext
        rfl

theorem advanceRequest_move {a : StepAnswers} {times : Times} (h : s.advanceRequest a times = .ok s') :
    s.Move (.advanceRequest a times) s' := by
  unfold advanceRequest at h
  cases hplan : s.requesting with
  | none =>
    rw [hplan] at h
    cases h
    exact .idle
  | some plan =>
    rw [hplan] at h
    obtain ⟨advance, hadvance, h⟩ := bind_eq_ok.mp h
    have hending : s.ending (.advanceRequest a times) = advance.ending.map Ending.request := by
      rw [ending, hplan, Option.bind_eq_bind, Option.bind_some, hadvance]
      show (advance.ending.bind fun status => some (Ending.request status)) = _
      cases advance.ending with
      | none => rfl
      | some status => rfl
    have hstage := nextRequestStep_stage hadvance
    cases advance with
    | wait =>
      cases h
      exact .idle
    | funding capture =>
      refine move_of_stage hplan ?_ h
      exact id
    | next stage => exact move_of_stage hplan (fun hbefore => hstage hbefore stage rfl) h
    | complete result => exact move_of_finish hplan hending h
    | observedChange result => exact move_of_finish hplan hending h
    | refused payload after =>
      cases after with
      | none =>
        have h : (s.finishRequest (plan.result .refused payload)).persistRequest times = .ok s' := h
        refine move_of_finish hplan ?_ h
        exact hending
      | some stage => exact move_of_stage hplan (fun hbefore => hstage hbefore stage rfl) h

theorem ending_cancelRequest {plan : RequestJourney} (hplan : s.requesting = some plan) (a : StepAnswers)
    (times : Times) : s.ending (.cancelRequest a times) = (plan.cancelEnding s.profile a).map Ending.request := by
  rw [ending, hplan]
  show ((plan.cancelEnding s.profile a).bind fun status => some (Ending.request status)) = _
  cases plan.cancelEnding s.profile a with
  | none => rfl
  | some status => rfl

/-- What a cancellation does that finds the journey not over. -/
theorem cancelStopped_move {plan : RequestJourney} {a : StepAnswers} {times : Times} (hplan : s.requesting = some plan)
    (hundecided : plan.undecided s.profile a = true) (p : RequestJourney)
    (h : cancelStopped {s with requesting := some p} plan a times = .ok s') :
    s.Move (.cancelRequest a times) s' := by
  have hending := ending_cancelRequest hplan a times
  rw [RequestJourney.cancelEnding, if_pos hundecided, RequestJourney.stoppedEnding] at hending
  unfold cancelStopped at h
  cases hkind : plan.kind with
  | followup policy =>
    rw [hkind] at h hending
    have h : s.abandoned.persistRequest times = .ok s' := h
    rw [persistRequest_of_none rfl] at h
    have hfollowup : plan.kind ≠ .initial := by
      rw [hkind]
      exact RequestKind.noConfusion
    exact .ended _ _ none times (.abandoned plan hplan hending (.inl ⟨hfollowup, hundecided⟩)) h
  | initial =>
    rw [hkind] at h hending
    obtain ⟨⟨request, version⟩, hrequest, h⟩ := bind_eq_ok.mp h
    obtain ⟨next, hnext, h⟩ := bind_eq_ok.mp h
    rw [hrequest] at hending
    unfold cancelling at hnext
    split_ifs at hnext with hchanged
    · cases hnext
      have h : (s.finishRequest (plan.observedChange request)).persistRequest times = .ok s' := h
      refine move_of_finish hplan ?_ h
      rw [hending]
      show (if (!request.lifecycle.isPreparingSubmission) = true then some RequestStatus.changed else none).map _ = _
      rw [if_pos hchanged]
      rfl
    · cases hcases : plan.stage with
      | quoting address requestClass quote command =>
        rw [hcases] at hnext
        cases hnext
      | quoted issued =>
        rw [hcases] at hnext
        cases hnext
      | preparing terms document work =>
        rw [hcases] at hnext
        obtain ⟨command, -, hnext⟩ := bind_eq_ok.mp hnext
        cases hnext
        exact move_of_stage hplan (fun _ => rfl) h

omit [ExternalJson] [MemberJson] in
theorem cancelEnding_beforeReview {plan : RequestJourney} (h : plan.stage.beforeReview = true) (profile : Profile)
    (a : StepAnswers) : plan.cancelEnding profile a = some .cancelled := by
  unfold RequestJourney.cancelEnding RequestJourney.undecided RequestJourney.decidedEnding
  cases hcases : plan.stage with
  | quoting address requestClass quote command => rfl
  | quoted issued => rfl
  | preparing terms document work =>
    rw [hcases] at h
    cases h

/-- What a cancellation does once the command in hand is reconciled. -/
theorem reconciled_move {plan : RequestJourney} {a : StepAnswers} {times : Times} (hplan : s.requesting = some plan)
    (hundecided : plan.undecided s.profile a = true) (p : RequestJourney) (hstage : p.stage.beforeReview = false)
    (h : (match cancelStopped {s with requesting := some p} plan a times with
      | .ok done => .ok done
      | .error _ => .ok {s with requesting := some p}) = Except.ok (ε := MemberError) s') :
    s.Move (.cancelRequest a times) s' := by
  cases hdone : cancelStopped {s with requesting := some p} plan a times with
  | ok done =>
    rw [hdone] at h
    cases h
    exact cancelStopped_move hplan hundecided p hdone
  | error e =>
    rw [hdone] at h
    cases h
    exact .going plan p s.lastRequest hplan fun _ => hstage

theorem cancelRequest_move {a : StepAnswers} {times : Times} (h : s.cancelRequest a times = .ok s') :
    s.Move (.cancelRequest a times) s' := by
  obtain ⟨plan, hplan, h⟩ := bind_eq_ok.mp h
  rw [okOr_eq_ok] at hplan
  have hending := ending_cancelRequest hplan a times
  by_cases hbefore : plan.stage.beforeReview = true
  · rw [if_pos hbefore, persistRequest_of_none rfl] at h
    rw [cancelEnding_beforeReview hbefore] at hending
    exact .ended _ _ none times (.abandoned plan hplan hending (.inr hbefore)) h
  rw [if_neg hbefore] at h
  rw [Bool.not_eq_true] at hbefore
  obtain ⟨next, hnext, h⟩ := bind_eq_ok.mp h
  have hself : s = {s with requesting := some plan} := by rw [← hplan]
  unfold reconcileBeforeCancel at hnext
  cases hcases : plan.stage with
  | quoting address requestClass quote command =>
    rw [hcases] at hbefore
    cases hbefore
  | quoted issued =>
    rw [hcases] at hbefore
    cases hbefore
  | preparing terms document work =>
    rw [hcases] at hnext
    dsimp only at hnext
    cases hcommand : work.command with
    | none =>
      rw [hcommand] at hnext
      cases hnext
      have hundecided : plan.undecided s.profile a = true := by
        simp only [RequestJourney.undecided, hcases, hcommand]
      rw [hplan, if_neg (by simp)] at h
      rw [hself] at h
      exact reconciled_move hplan hundecided plan hbefore h
    | some command =>
      obtain ⟨command, expected⟩ := command
      rw [hcommand] at hnext
      obtain ⟨answer, hanswer, hnext⟩ := bind_eq_ok.mp hnext
      have hundecided : plan.undecided s.profile a = (plan.settledBy work answer.payload.kind).isNone := by
        simp only [RequestJourney.undecided, hcases, hcommand, hanswer]
      have hdecided : plan.decidedEnding s.profile a = plan.settledBy work answer.payload.kind := by
        simp only [RequestJourney.decidedEnding, hcases, hcommand, hanswer]
      unfold reconciled at hnext
      cases hsettled : plan.settledBy work answer.payload.kind with
      | none =>
        rw [hsettled] at hnext hundecided
        dsimp only at hnext
        rw [persistRequest_of_some rfl] at hnext
        cases hnext
        rw [if_neg (by simp)] at h
        exact reconciled_move hplan hundecided _ rfl h
      | some status =>
        rw [hsettled] at hnext hundecided hdecided
        have hsame : next.requesting = none := by
          rw [persistRequest_of_none rfl] at hnext
          obtain ⟨workspace, -, rfl⟩ := finishDraft_eq_ok hnext
          rfl
        rw [hsame, if_pos (by rfl)] at h
        cases h
        refine move_of_finish hplan ?_ hnext
        rw [hending, RequestJourney.cancelEnding, hundecided, if_neg (by simp), hdecided]
        rfl

theorem authorizeRequest_move {request : RequestId} {draft : Option RequestDraft} {document : RequestDocument}
    {command : SenderCommand} {now : CanonicalTime} {times : Times}
    (h : s.authorizeRequest request draft document command now times = .ok s') :
    s.Move (.authorizeRequest request draft document command now times) s' := by
  obtain ⟨plan, hplan, h⟩ := bind_eq_ok.mp h
  rw [okOr_eq_ok] at hplan
  cases hcases : plan.stage with
  | quoting address requestClass quote command =>
    rw [hcases] at h
    cases h
  | preparing terms document work =>
    rw [hcases] at h
    cases h
  | quoted issued =>
    rw [hcases] at h
    obtain ⟨⟨⟩, -, h⟩ := bind_eq_ok.mp h
    obtain ⟨⟨⟩, -, h⟩ := bind_eq_ok.mp h
    obtain ⟨⟨⟩, -, h⟩ := bind_eq_ok.mp h
    obtain ⟨⟨⟩, -, h⟩ := bind_eq_ok.mp h
    exact .filled _ _ times (.authorized plan _ hplan (by rw [hcases]; rfl) rfl) h

theorem edit_move {c : OutgoingCall} {command : WorkspaceCommand} {now : CanonicalTime} (hedit : c.edit = some command)
    (h : s.edit command now = .ok s') : s.Move c s' := by
  obtain ⟨⟨⟩, -, h⟩ := bind_eq_ok.mp h
  obtain ⟨decision, hdecision, h⟩ := bind_eq_ok.mp h
  cases h
  exact .edited command decision.next hedit (Workspace.transition_step hdecision)

/-- **What a call can do** to the outgoing work of a device. -/
theorem call_move {c : OutgoingCall} (h : s.call c = .ok s') : s.Move c s' := by
  cases c with
  | observe deployment =>
    obtain ⟨⟨⟩, hsame, h⟩ := bind_eq_ok.mp h
    cases h
    rw [refuseIf_eq_ok, not_or, not_not, not_not] at hsame
    exact .observed deployment hsame.2
  | openDraft id target mode now => exact edit_move rfl h
  | saveDraft id expected body subject localOffsetSeconds now => exact edit_move rfl h
  | retargetDraft id expected target dropIncompatible mailbox now => exact edit_move rfl h
  | discardDraft id expected now => exact edit_move rfl h
  | sendMessage draft w times =>
    obtain ⟨⟨⟩, -, h⟩ := bind_eq_ok.mp h
    obtain ⟨⟨⟩, -, h⟩ := bind_eq_ok.mp h
    obtain ⟨⟨⟩, -, h⟩ := bind_eq_ok.mp h
    obtain ⟨⟨⟩, -, h⟩ := bind_eq_ok.mp h
    obtain ⟨⟨⟩, -, h⟩ := bind_eq_ok.mp h
    obtain ⟨⟨⟩, hidle, h⟩ := bind_eq_ok.mp h
    obtain ⟨p, hp, h⟩ := bind_eq_ok.mp h
    exact .filled _ draft times (.message p hidle hp) h
  | transmitSend create send times =>
    obtain ⟨p, hp, h⟩ := bind_eq_ok.mp h
    obtain ⟨outcome, houtcome, h⟩ := bind_eq_ok.mp h
    exact .ended _ _ _ times (.message p outcome (okOr_eq_ok.mp hp) houtcome) h
  | sendExternal draft w operation signature times =>
    obtain ⟨⟨⟩, hidle, h⟩ := bind_eq_ok.mp h
    obtain ⟨⟨⟩, -, h⟩ := bind_eq_ok.mp h
    obtain ⟨p, hp, h⟩ := bind_eq_ok.mp h
    exact .filled _ draft times (.external p hidle hp) h
  | controlExternal conversation action operation signature =>
    obtain ⟨⟨⟩, hidle, h⟩ := bind_eq_ok.mp h
    obtain ⟨p, hp, h⟩ := bind_eq_ok.mp h
    cases h
    obtain ⟨_, -, hp⟩ := bind_eq_ok.mp hp
    cases hp
    refine .controlled _ hidle ?_
    cases action with
    | reject => rfl
    | withdrawDisclosure => rfl
    | grantDisclosure => rfl
  | transmitExternal answer times =>
    have h : s.transmitExternal answer times = .ok s' := h
    unfold transmitExternal at h
    cases hexternal : s.inFlight.external with
    | none =>
      rw [hexternal] at h
      cases h
      exact .idle
    | some p =>
      rw [hexternal] at h
      obtain ⟨ack, hack, h⟩ := bind_eq_ok.mp h
      exact .ended _ _ _ times (.external p ack hexternal hack) h
  | quoteRequest p times =>
    obtain ⟨⟨⟩, hidle, h⟩ := bind_eq_ok.mp h
    rw [persistRequest_of_some rfl] at h
    cases h
    exact .quoting _ hidle
  | authorizeRequest request draft document command now times => exact authorizeRequest_move h
  | sendFollowup draft p times =>
    obtain ⟨⟨⟩, hidle, h⟩ := bind_eq_ok.mp h
    exact .filled _ draft times (.followup _ hidle rfl) h
  | advanceRequest a times => exact advanceRequest_move h
  | cancelRequest a times => exact cancelRequest_move h

end Outgoing
end
end CsMail
