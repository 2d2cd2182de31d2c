import CsMail.Member.Journal
import CsMail.Member.Moves

/-! The journal over the runs of the client.

Every entry point waits until nothing is in flight, so one slot is in use at a time
(`Journaled`). Then the first record that awaits confirmation is the one whose command was
answered, and what answered it is its evidence (`call_journaled`). -/
namespace CsMail
open Library

section
variable [Crypto] [ExternalJson] [MemberJson]

/-! ### Answers -/

omit [ExternalJson] in
/-- How a send can end: its own message is committed, or one of its own commands refused. -/
theorem PendingSend.transmit_eq_ok {p : PendingSend} {create send : Except MemberError NativeResponse}
    {outcome : SendOutcome} (h : p.transmit create send = .ok outcome) :
    (∃ package, p.send.command.package = some package ∧ outcome = .committed package.manifest.message) ∨
    ∃ operation reason, outcome = .refused operation reason ∧
      (operation = p.send.operation ∨ p.create.any (fun c => c.operation = operation) = true) := by
  have hrefusal : ∀ {r : SignedRequest} {operation digest reason outcome}, r.refusal operation digest reason = .ok outcome →
      outcome = .refused operation reason ∧ operation = r.operation := by
    intro r operation digest reason outcome h
    obtain ⟨expected, -, h⟩ := bind_eq_ok.mp h
    obtain ⟨⟨⟩, hsame, h⟩ := bind_eq_ok.mp h
    cases h
    rw [refuseIf_eq_ok, not_or, not_not] at hsame
    exact ⟨rfl, hsame.1⟩
  obtain ⟨refused, hcreate, h⟩ := bind_eq_ok.mp h
  cases refused with
  | some outcome' =>
    cases h
    unfold createOutcome at hcreate
    cases hc : p.create with
    | none =>
      rw [hc] at hcreate
      cases hcreate
    | some c =>
      rw [hc] at hcreate
      obtain ⟨answer, -, hcreate⟩ := bind_eq_ok.mp hcreate
      unfold confirmCreate at hcreate
      split at hcreate
      · obtain ⟨⟨⟩, -, hcreate⟩ := bind_eq_ok.mp hcreate
        cases hcreate
      · obtain ⟨refused, hrefused, hcreate⟩ := bind_eq_ok.mp hcreate
        cases hcreate
        obtain ⟨rfl, hoperation⟩ := hrefusal hrefused
        exact .inr ⟨_, _, rfl, .inr (decide_eq_true hoperation.symm)⟩
      · cases hcreate
  | none =>
    obtain ⟨package, hpackage, h⟩ := bind_eq_ok.mp h
    obtain ⟨answer, -, h⟩ := bind_eq_ok.mp h
    rw [okOr_eq_ok] at hpackage
    unfold confirmSend at h
    split at h
    · obtain ⟨⟨⟩, hid, h⟩ := bind_eq_ok.mp h
      cases h
      rw [refuseIf_eq_ok, not_not] at hid
      exact .inl ⟨package, hpackage, by rw [hid]⟩
    · obtain ⟨rfl, hoperation⟩ := hrefusal h
      exact .inr ⟨_, _, rfl, .inl hoperation⟩
    · cases h

theorem SignedExternalCommand.transmit_eq_ok {p : SignedExternalCommand} {provider : Bytes32}
    {answer : Except MemberError ExternalResponse} {ack : Acknowledgement} (h : p.transmit provider answer = .ok ack) :
    ack.verify p provider = .ok () ∧ p.command.matches ack.receipt.outcome = true := by
  obtain ⟨response, -, h⟩ := bind_eq_ok.mp h
  cases response with
  | conversation => cases h
  | outcome found =>
    obtain ⟨⟨⟩, hverify, h⟩ := bind_eq_ok.mp h
    obtain ⟨⟨⟩, hmatches, h⟩ := bind_eq_ok.mp h
    cases h
    rw [refuseIf_eq_ok, Bool.not_eq_false] at hmatches
    exact ⟨mapError_eq_ok.mp hverify, hmatches⟩

omit [Crypto] [ExternalJson] [MemberJson] in
/-- What may become of a command that prepares a message. -/
theorem ExternalCommand.matches_of_message {c : ExternalCommand} {m : PreparedMessage} (hm : c.message = some m)
    {outcome : ExternalOutcome} (h : c.matches outcome = true) :
    outcome = .queued m.manifest.message ∨ ∃ e, outcome = .refused e := by
  cases outcome with
  | refused e => exact .inr ⟨e, rfl⟩
  | queued id =>
    cases c with
    | start _ _ message _ =>
      cases hm
      exact .inl (congrArg _ (of_decide_eq_true h))
    | send message _ =>
      cases hm
      exact .inl (congrArg _ (of_decide_eq_true h))
    | reject => cases hm
    | withdrawDisclosure => cases hm
    | grantDisclosure => cases hm
  | rejected =>
    cases c with
    | reject => cases hm
    | start _ _ message _ => cases h
    | send message _ => cases h
    | withdrawDisclosure => cases h
    | grantDisclosure => cases h
  | disclosureWithdrawn =>
    cases c with
    | withdrawDisclosure => cases hm
    | start _ _ message _ => cases h
    | send message _ => cases h
    | reject => cases h
    | grantDisclosure => cases h
  | disclosureGranted =>
    cases c with
    | grantDisclosure => cases hm
    | start _ _ message _ => cases h
    | send message _ => cases h
    | reject => cases h
    | withdrawDisclosure => cases h

/-- How a send ended, as its record keeps it. -/
def PendingSend.answer (p : PendingSend) (outcome : SendOutcome) : WorkAnswer :=
  ⟨.native p, outcome.resolution = .restoreEditable, .native outcome⟩

/-- How an external command ended, as its record keeps it. -/
def SignedExternalCommand.answer (p : SignedExternalCommand) (ack : Acknowledgement) : WorkAnswer :=
  ⟨.external p, ack.resolution = .restoreEditable, .external ack⟩

/-- The answer to a send is the evidence of its record. -/
theorem PendingSend.transmit_proves {p : PendingSend} {create send : Except MemberError NativeResponse}
    {outcome : SendOutcome} (h : p.transmit create send = .ok outcome) {r : WorkRecord} {profile : Profile}
    (hr : r.Valid profile) (hcommand : r.command = .native p) (now : CanonicalTime) :
    (r.settled (p.answer outcome) now).checkEvidence profile.deployment.providerKey = .ok () := by
  have hidentity := hr.identity
  rw [hcommand] at hidentity
  obtain ⟨package, hpackage, hidentity⟩ := bind_eq_ok.mp hidentity
  injection hidentity with hidentity
  have hmessage : package.manifest.message = r.message := congrArg (fun i => i.2.2) hidentity
  rw [okOr_eq_ok] at hpackage
  unfold PendingSend.answer WorkRecord.settled WorkRecord.checkEvidence
  rw [hcommand]
  rcases PendingSend.transmit_eq_ok h with ⟨package', hpackage', rfl⟩ | ⟨operation, reason, rfl, hoperation⟩
  · cases hpackage.symm.trans hpackage'
    exact refuseIf_eq_ok.mpr (not_not.mpr hmessage)
  · exact refuseIf_eq_ok.mpr (not_not.mpr hoperation)

/-- An acknowledgement is the evidence of its record. -/
theorem SignedExternalCommand.transmit_proves {p : SignedExternalCommand} {profile : Profile}
    {answer : Except MemberError ExternalResponse} {ack : Acknowledgement}
    (h : p.transmit profile.deployment.providerKey answer = .ok ack) {r : WorkRecord} (hr : r.Valid profile)
    (hcommand : r.command = .external p) (now : CanonicalTime) :
    (r.settled (p.answer ack) now).checkEvidence profile.deployment.providerKey = .ok () := by
  obtain ⟨hverify, hmatches⟩ := SignedExternalCommand.transmit_eq_ok h
  have hidentity := hr.identity
  rw [hcommand] at hidentity
  obtain ⟨message, hmessage, hidentity⟩ := bind_eq_ok.mp hidentity
  injection hidentity with hidentity
  have hsame : message.manifest.message = r.message := congrArg (fun i => i.2.2) hidentity
  rw [okOr_eq_ok] at hmessage
  have hevidence : (r.settled (p.answer ack) now).acknowledged ack.receipt.outcome = true := by
    unfold SignedExternalCommand.answer WorkRecord.settled WorkRecord.acknowledged Acknowledgement.resolution
    rw [hcommand]
    rcases ExternalCommand.matches_of_message hmessage hmatches with hqueued | ⟨e, hrefused⟩
    · rw [hqueued]
      exact decide_eq_true hsame
    · rw [hrefused]
      rfl
  unfold WorkRecord.checkEvidence
  have hkind : (r.settled (p.answer ack) now).command = .external p := hcommand
  rw [hkind]
  refine bind_eq_ok.mpr ⟨⟨⟩, mapError_eq_ok.mpr hverify, refuseIf_eq_ok.mpr ?_⟩
  rw [hevidence]
  exact Bool.noConfusion

/-! ### One operation in flight -/

namespace Outgoing

/-- The answer a call brings to the command in flight. -/
def answered (s : Outgoing) : OutgoingCall → Option WorkAnswer
  | .transmitSend create send _ => do
    let p ← s.inFlight.sending
    let outcome ← (p.transmit create send).toOption
    some (p.answer outcome)
  | .transmitExternal answer _ => do
    let p ← s.inFlight.external
    let ack ← (p.transmit s.profile.deployment.providerKey answer).toOption
    some (p.answer ack)
  | _ => none

/-- How many of the slots are in use. -/
def occupied (s : Outgoing) : ℕ :=
  s.inFlight.sending.isSome.toNat + s.inFlight.external.isSome.toNat + s.requesting.isSome.toNat +
    s.others.deciding.toNat + s.others.editing.toNat + s.others.settingUp.toNat

omit [Crypto] [ExternalJson] [MemberJson] in
theorem requireIdle_eq_ok {s : Outgoing} : s.requireIdle = .ok () ↔ s.occupied = 0 := by
  constructor
  · intro h
    obtain ⟨⟨⟩, hexternal, h⟩ := bind_eq_ok.mp h
    obtain ⟨⟨⟩, hrequesting, h⟩ := bind_eq_ok.mp h
    obtain ⟨⟨⟩, hdeciding, h⟩ := bind_eq_ok.mp h
    obtain ⟨⟨⟩, hsending, hsetup⟩ := bind_eq_ok.mp h
    rw [refuseIf_eq_ok, Bool.not_eq_true] at hexternal hrequesting hsending hsetup
    rw [refuseIf_eq_ok, not_or, Bool.not_eq_true, Bool.not_eq_true] at hdeciding
    rw [occupied, hexternal, hrequesting, hdeciding.1, hdeciding.2, hsending, hsetup]
    rfl
  · intro h
    have hfree : ∀ b : Bool, b.toNat = 0 → b = false := by decide
    rw [occupied] at h
    have hexternal := hfree s.inFlight.external.isSome (by omega)
    have hrequesting := hfree s.requesting.isSome (by omega)
    have hdeciding := hfree s.others.deciding (by omega)
    have hediting := hfree s.others.editing (by omega)
    have hsending := hfree s.inFlight.sending.isSome (by omega)
    have hsetup := hfree s.others.settingUp (by omega)
    rw [requireIdle, hexternal, hrequesting, hdeciding, hediting, hsending, hsetup]
    rfl

/-- The journal is exact for what is in flight, and that is one operation at most. -/
structure Journaled (s : Outgoing) : Prop where
  single : s.occupied ≤ 1
  journal : s.personal.Exact s.inFlight s.profile
  workspace : s.workspace.load s.profile.account s.profile.persona = .ok ()

theorem enrolled_journaled (profile : Profile) : (enrolled profile).Journaled where
  single := Nat.zero_le 1
  journal := Personal.empty_exact profile
  workspace := by
    rw [Workspace.load_eq_ok]
    exact ⟨rfl, rfl, Nat.zero_le _, List.nodup_nil⟩

variable {s s' next : Outgoing} {c : OutgoingCall}

omit [Crypto] [ExternalJson] [MemberJson] in
theorem eq_none_of_toNat {α : Type} {o : Option α} (h : o.isSome.toNat = 0) : o = none := by
  cases o with
  | none => rfl
  | some a => cases h

omit [Crypto] [ExternalJson] [MemberJson] in
theorem inFlight_eq_none (hsending : s.inFlight.sending = none) (hexternal : s.inFlight.external = none) :
    s.inFlight = .none := by
  show (⟨s.inFlight.sending, s.inFlight.external⟩ : InFlight) = ⟨none, none⟩
  rw [hsending, hexternal]

omit [Crypto] [ExternalJson] [MemberJson] in
theorem inFlight_of_idle (h : s.occupied = 0) : s.inFlight = .none := by
  rw [occupied] at h
  exact inFlight_eq_none (eq_none_of_toNat (by omega)) (eq_none_of_toNat (by omega))

omit [Crypto] [ExternalJson] [MemberJson] in
theorem inFlight_of_requesting {plan : RequestJourney} (h : s.requesting = some plan) (hsingle : s.occupied ≤ 1) :
    s.inFlight = .none := by
  rw [occupied, h, Option.isSome_some, Bool.toNat_true] at hsingle
  exact inFlight_eq_none (eq_none_of_toNat (by omega)) (eq_none_of_toNat (by omega))

omit [Crypto] [ExternalJson] [MemberJson] in
theorem inFlight_of_sending {p : PendingSend} (h : s.inFlight.sending = some p) (hsingle : s.occupied ≤ 1) :
    s.inFlight.external = none := by
  rw [occupied, h, Option.isSome_some, Bool.toNat_true] at hsingle
  exact eq_none_of_toNat (by omega)

omit [Crypto] [ExternalJson] [MemberJson] in
theorem inFlight_of_external {p : SignedExternalCommand} (h : s.inFlight.external = some p) (hsingle : s.occupied ≤ 1) :
    s.inFlight.sending = none := by
  rw [occupied, h, Option.isSome_some, Bool.toNat_true] at hsingle
  exact eq_none_of_toNat (by omega)

omit [Crypto] [ExternalJson] in
theorem signed_eq_ok {p : Profile} {command : NativeCommand} {operation : IdempotencyKey} {signature : Bytes}
    {r : SignedRequest} (h : p.signed command operation signature = .ok r) : operation.val ≠ 0 ∧
      r = ⟨⟨p.deployment.product, p.account, p.persona, p.senderKey, operation, command⟩, signature⟩ := by
  obtain ⟨_, hbytes, h⟩ := bind_eq_ok.mp h
  cases h
  obtain ⟨⟨⟩, hnamed, -⟩ := bind_eq_ok.mp (mapError_eq_ok.mp hbytes)
  rw [refuseIf_eq_ok] at hnamed
  simp only [not_or] at hnamed
  exact ⟨hnamed.2.2.2, rfl⟩

omit [Crypto] [ExternalJson] in
theorem prepareSend_eq_ok {profile : Profile} {w : NativeWriting} {p : PendingSend} (h : profile.prepareSend w = .ok p) :
    p.send.operation.val ≠ 0 ∧ p.send.command.package = some w.package ∧ p.send.operation = w.sendOperation ∧
      (p.send.account, p.send.persona) = (profile.account, profile.persona) := by
  unfold Profile.prepareSend at h
  split_ifs at h
  · obtain ⟨send, hsend, h⟩ := bind_eq_ok.mp h
    cases h
    obtain ⟨hoperation, rfl⟩ := signed_eq_ok hsend
    exact ⟨hoperation, rfl, rfl, rfl⟩
  · obtain ⟨create, -, h⟩ := bind_eq_ok.mp h
    obtain ⟨send, hsend, h⟩ := bind_eq_ok.mp h
    cases h
    obtain ⟨hoperation, rfl⟩ := signed_eq_ok hsend
    exact ⟨hoperation, rfl, rfl, rfl⟩

omit [Crypto] [MemberJson] in
theorem externalSigned_eq_ok {profile : Profile} {conversation : ConversationId} {command : ExternalCommand}
    {operation : IdempotencyKey} {signature : Bytes} {p : SignedExternalCommand}
    (h : profile.externalSigned conversation command operation signature = .ok p) : p.operation.val ≠ 0 ∧
      p.command = command ∧ p.operation = operation ∧ (p.account, p.persona) = (profile.account, profile.persona) := by
  obtain ⟨_, hbytes, h⟩ := bind_eq_ok.mp h
  cases h
  obtain ⟨⟨⟩, hnamed, -⟩ := bind_eq_ok.mp (mapError_eq_ok.mp hbytes)
  rw [refuseIf_eq_ok] at hnamed
  simp only [not_or] at hnamed
  exact ⟨hnamed.1, rfl, rfl, rfl⟩

/-- What is in flight once a slot is filled: a command of its own, or still none. -/
structure Filled (s next : Outgoing) : Prop where
  idle : s.inFlight = .none
  single : next.occupied ≤ 1
  profile : next.profile = s.profile
  personal : next.personal = s.personal
  workspace : next.workspace = s.workspace
  inFlight : next.inFlight.command = none ∧ next.inFlight = s.inFlight ∨ ∃ command,
    next.inFlight.command = some command ∧ (∀ other, next.inFlight.holds other ↔ other = command) ∧
    command.signer = (s.profile.account, s.profile.persona) ∧
    ∀ operation key message, command.identity = .ok (operation, key, message) → operation.val ≠ 0

omit [Crypto] in
theorem Fills.filled {draft : Option DraftRef} (h : s.Fills c next draft) (hsingle : s.occupied ≤ 1) :
    s.Filled next := by
  cases h with
  | message p hidle hp =>
    rw [requireIdle_eq_ok] at hidle
    have hnone := inFlight_of_idle hidle
    obtain ⟨hoperation, hpackage, -, hsigner⟩ := prepareSend_eq_ok hp
    refine ⟨hnone, ?_, rfl, rfl, rfl, .inr ⟨.native p, rfl, ?_, hsigner, ?_⟩⟩
    · rw [occupied] at hidle
      simp only [occupied, Option.isSome_some, Bool.toNat_true]
      omega
    · intro other
      rw [hnone]
      cases other with
      | native q =>
        show some p = some q ↔ WorkCommand.native q = .native p
        rw [Option.some_inj, WorkCommand.native.injEq, eq_comm]
      | external q =>
        show none = some q ↔ WorkCommand.external q = .native p
        exact iff_of_false nofun nofun
    · intro operation key message hidentity
      obtain ⟨package, -, hidentity⟩ := bind_eq_ok.mp hidentity
      cases hidentity
      exact hoperation
  | @external _ w _ _ _ p hidle hp =>
    rw [requireIdle_eq_ok] at hidle
    have hnone := inFlight_of_idle hidle
    obtain ⟨hoperation, hcommand, -, hsigner⟩ := externalSigned_eq_ok hp
    have hmessage : p.command.message.isSome = true := by
      rw [hcommand, ExternalWriting.command]
      cases w.start with
      | none => rfl
      | some start => rfl
    refine ⟨hnone, ?_, rfl, rfl, rfl, .inr ⟨.external p, ?_, ?_, hsigner, ?_⟩⟩
    · rw [occupied] at hidle
      simp only [occupied, Option.isSome_some, Bool.toNat_true]
      omega
    · rw [hnone]
      show ((some p).filter fun p => p.command.message.isSome).map WorkCommand.external = _
      rw [Option.filter_some, if_pos hmessage]
      rfl
    · intro other
      rw [hnone]
      cases other with
      | native q =>
        show none = some q ↔ WorkCommand.native q = .external p
        exact iff_of_false nofun nofun
      | external q =>
        show some p = some q ↔ WorkCommand.external q = .external p
        rw [Option.some_inj, WorkCommand.external.injEq, eq_comm]
    · intro operation key message hidentity
      obtain ⟨package, -, hidentity⟩ := bind_eq_ok.mp hidentity
      cases hidentity
      exact hoperation
  | authorized plan stage hplan hbefore hstage =>
    have hnone := inFlight_of_requesting hplan hsingle
    refine ⟨hnone, ?_, rfl, rfl, rfl, .inl ⟨?_, rfl⟩⟩
    · rw [occupied, hplan] at hsingle
      exact hsingle
    · show s.inFlight.command = none
      rw [hnone]
      rfl
  | followup plan hidle hstage =>
    rw [requireIdle_eq_ok] at hidle
    have hnone := inFlight_of_idle hidle
    refine ⟨hnone, ?_, rfl, rfl, rfl, .inl ⟨?_, rfl⟩⟩
    · rw [occupied] at hidle
      simp only [occupied, Option.isSome_some, Bool.toNat_true]
      omega
    · show s.inFlight.command = none
      rw [hnone]
      rfl

omit [Crypto] [ExternalJson] [MemberJson] in
theorem handOver_loads {now : CanonicalTime} {draft : Option DraftRef} {workspace : Workspace}
    (h : s.handOver now draft = .ok workspace) {account : AccountId} {persona : ProtocolIdentity}
    (hload : s.workspace.load account persona = .ok ()) : workspace.load account persona = .ok () := by
  cases draft with
  | none =>
    cases h
    exact hload
  | some ref =>
    obtain ⟨decision, hdecision, h⟩ := bind_eq_ok.mp h
    cases h
    exact (Workspace.transition_step hdecision).loads hload

/-- Filling a slot journals the command with it. -/
theorem Filled.commit (h : s.Filled next) (hs : s.Journaled) {draft : Option DraftRef} {times : Times}
    (hcommit : next.commitDraft draft times = .ok s') : s'.Journaled ∧ s.personal.Answers none s'.personal := by
  obtain ⟨workspace, personal, hworkspace, -, hpersonal, rfl⟩ := commitDraft_eq_ok hcommit
  have hload := hs.workspace
  rw [← h.workspace, ← h.profile] at hload
  have hjournal := hs.journal
  rw [h.idle, ← h.profile] at hjournal
  rw [h.personal] at hpersonal
  rcases h.inFlight with ⟨hnone, hsame⟩ | ⟨command, hcommand, hholds, hsigner, hoperation⟩
  · rw [Personal.prepare, hnone] at hpersonal
    cases hpersonal
    refine ⟨⟨h.single, ?_, handOver_loads hworkspace hload⟩, .refl _ _⟩
    show s.personal.Exact next.inFlight next.profile
    rw [hsame, h.idle]
    exact hjournal
  · rw [← h.profile] at hsigner
    obtain ⟨hexact, hanswers⟩ := hjournal.prepare hcommand hholds hoperation hsigner hpersonal
    exact ⟨⟨h.single, hexact, handOver_loads hworkspace hload⟩, hanswers⟩

/-- Nothing is in flight once a slot is emptied; a command in it has its answer. -/
structure Emptied (s : Outgoing) (c : OutgoingCall) (next : Outgoing) (refused : Bool) (evidence : Option WorkEvidence) :
    Prop where
  inFlight : next.inFlight = .none
  single : next.occupied ≤ 1
  profile : next.profile = s.profile
  personal : next.personal = s.personal
  workspace : next.workspace = s.workspace
  answered : s.inFlight = .none ∨ ∃ a, s.answered c = some a ∧ refused = a.refused ∧ evidence = some a.evidence ∧
    (∀ other, s.inFlight.holds other ↔ other = a.command) ∧
    ∀ r : WorkRecord, r.Valid s.profile → r.command = a.command → ∀ now,
      (r.settled a now).checkEvidence s.profile.deployment.providerKey = .ok ()

theorem Ends.emptied {resolution : DraftResolution} {evidence : Option WorkEvidence}
    (h : s.Ends c next resolution evidence) (hsingle : s.occupied ≤ 1) :
    s.Emptied c next (resolution = .restoreEditable) evidence := by
  cases h with
  | @message create send _ p outcome hsending houtcome =>
    have hexternal := inFlight_of_sending hsending hsingle
    refine ⟨inFlight_eq_none rfl hexternal, ?_, rfl, rfl, rfl, .inr ⟨p.answer outcome, ?_, rfl, rfl, ?_,
      fun r hr hcommand now => PendingSend.transmit_proves houtcome hr hcommand now⟩⟩
    · rw [occupied, hsending] at hsingle
      simp only [occupied, Option.isSome_none, Option.isSome_some, Bool.toNat_true, Bool.toNat_false] at hsingle ⊢
      omega
    · rw [answered, hsending]
      show ((p.transmit create send).toOption.bind fun outcome => some (p.answer outcome)) = _
      rw [houtcome]
      rfl
    · intro other
      cases other with
      | native q =>
        show s.inFlight.sending = some q ↔ _ = WorkCommand.native p
        rw [hsending, Option.some_inj, WorkCommand.native.injEq, eq_comm]
      | external q =>
        show s.inFlight.external = some q ↔ _ = WorkCommand.native p
        rw [hexternal]
        exact iff_of_false nofun nofun
  | @external answer _ p ack hexternal hack =>
    have hsending := inFlight_of_external hexternal hsingle
    refine ⟨inFlight_eq_none hsending rfl, ?_, rfl, rfl, rfl, .inr ⟨p.answer ack, ?_, rfl, rfl, ?_,
      fun r hr hcommand now => SignedExternalCommand.transmit_proves hack hr hcommand now⟩⟩
    · rw [occupied, hexternal] at hsingle
      simp only [occupied, Option.isSome_none, Option.isSome_some, Bool.toNat_true, Bool.toNat_false] at hsingle ⊢
      omega
    · rw [answered, hexternal]
      show ((p.transmit s.profile.deployment.providerKey answer).toOption.bind fun ack => some (p.answer ack)) = _
      rw [hack]
      rfl
    · intro other
      cases other with
      | native q =>
        show s.inFlight.sending = some q ↔ _ = WorkCommand.external p
        rw [hsending]
        exact iff_of_false nofun nofun
      | external q =>
        show s.inFlight.external = some q ↔ _ = WorkCommand.external p
        rw [hexternal, Option.some_inj, WorkCommand.external.injEq, eq_comm]
  | recorded plan result hplan hending =>
    have hnone := inFlight_of_requesting hplan hsingle
    refine ⟨hnone, ?_, rfl, rfl, rfl, .inl hnone⟩
    rw [occupied, hplan] at hsingle
    simp only [occupied, finishRequest, Option.isSome_none, Option.isSome_some, Bool.toNat_true,
      Bool.toNat_false] at hsingle ⊢
    omega
  | abandoned plan hplan hending hundecided =>
    have hnone := inFlight_of_requesting hplan hsingle
    refine ⟨hnone, ?_, rfl, rfl, rfl, .inl hnone⟩
    rw [occupied, hplan] at hsingle
    simp only [occupied, Outgoing.abandoned, Option.isSome_none, Option.isSome_some, Bool.toNat_true,
      Bool.toNat_false] at hsingle ⊢
    omega

/-- Emptying a slot settles the record of the command that was in it. -/
theorem Emptied.finish {resolution : DraftResolution} {evidence : Option WorkEvidence}
    (h : s.Emptied c next (resolution = .restoreEditable) evidence) (hs : s.Journaled) {times : Times}
    (hfinish : next.finishDraft resolution evidence times = .ok s') :
    s'.Journaled ∧ s.personal.Answers (s.answered c) s'.personal := by
  obtain ⟨workspace, hstep, rfl⟩ := finishDraft_eq_ok hfinish
  obtain ⟨-, -, -, -, hvalid⟩ := Personal.load_eq_ok.mp hs.journal.loads
  rw [h.workspace] at hstep
  have hworkspace : workspace.load next.profile.account next.profile.persona = .ok () := by
    rw [h.profile]
    exact hstep.loads hs.workspace
  have hresolved : (s.personal.resolve .none (resolution = .restoreEditable) evidence times.personal).Exact .none
      s.profile ∧ s.personal.Answers (s.answered c)
        (s.personal.resolve .none (resolution = .restoreEditable) evidence times.personal) := by
    rcases h.answered with hnone | ⟨a, hanswered, hrefused, hevidence, hholds, hproves⟩
    · have hjournal := hs.journal
      rw [hnone] at hjournal
      rw [Personal.resolve_of_none_awaiting hjournal.none_awaiting]
      exact ⟨hjournal, .refl _ _⟩
    · rw [hrefused, hevidence, hanswered]
      exact hs.journal.resolve hholds times.personal fun r hr hcommand =>
        hproves r (hvalid r hr) hcommand times.personal
  rw [← h.profile, ← h.inFlight, ← h.personal] at hresolved
  obtain ⟨hexact, hanswers⟩ := hresolved
  refine ⟨⟨h.single, hexact, hworkspace⟩, ?_⟩
  rw [← h.personal]
  exact hanswers

/-- What loading checks does not depend on the deployment, apart from its provider. -/
theorem observed_exact {personal : Personal} {profile : Profile} {deployment : Deployment} {f : InFlight}
    (hkey : deployment.providerKey = profile.deployment.providerKey) (h : personal.Exact f profile) :
    personal.Exact f {profile with deployment} := by
  obtain ⟨haccount, hpersona, hnodup, hlength, hvalid⟩ := Personal.load_eq_ok.mp h.loads
  refine ⟨Personal.load_eq_ok.mpr ⟨haccount, hpersona, hnodup, hlength, fun r hr => ?_⟩, h.awaiting, h.recorded⟩
  have hr := hvalid r hr
  exact ⟨hr.identity, hr.operation, hr.message, hr.resolved, hr.ordered, hkey ▸ hr.evidence, hr.signer⟩

/-- A control prepares no message, so no record is about it. -/
theorem controlled_exact {personal : Personal} {profile : Profile} {p : SignedExternalCommand}
    (hmessage : p.command.message = none) (h : personal.Exact .none profile) :
    personal.Exact ⟨none, some p⟩ profile := by
  obtain ⟨-, -, -, -, hvalid⟩ := Personal.load_eq_ok.mp h.loads
  refine ⟨h.loads, fun r hr => iff_of_false (h.none_awaiting r hr) fun hholds => ?_, fun command hcommand => ?_⟩
  · have hidentity := (hvalid r hr).identity
    cases hcommand : r.command with
    | native q =>
      rw [hcommand] at hholds
      cases hholds
    | external q =>
      rw [hcommand] at hholds hidentity
      cases hholds
      rw [WorkCommand.identity, hmessage] at hidentity
      cases hidentity
  · rw [InFlight.command, Option.filter_some, hmessage] at hcommand
    cases hcommand

theorem answered_eq_none {draft : Option DraftRef} (h : s.Fills c next draft) : s.answered c = none := by
  cases h with
  | message => rfl
  | external => rfl
  | authorized => rfl
  | followup => rfl

/-- **A call keeps the journal exact**, and settles at most the record of the command it answers. -/
theorem call_journaled (hs : s.Journaled) (h : s.call c = .ok s') :
    s'.Journaled ∧ s.personal.Answers (s.answered c) s'.personal := by
  have hsingle := hs.single
  cases call_move h with
  | idle => exact ⟨hs, .refl _ _⟩
  | observed deployment hkey => exact ⟨⟨hs.single, observed_exact hkey hs.journal, hs.workspace⟩, .refl _ _⟩
  | edited command workspace hedit hstep => exact ⟨⟨hs.single, hs.journal, hstep.loads hs.workspace⟩, .refl _ _⟩
  | filled next draft times hfills hcommit =>
    rw [answered_eq_none hfills]
    exact (hfills.filled hs.single).commit hs hcommit
  | controlled p hidle hmessage =>
    rw [requireIdle_eq_ok] at hidle
    have hnone := inFlight_of_idle hidle
    have hjournal := hs.journal
    rw [hnone] at hjournal
    refine ⟨⟨?_, ?_, hs.workspace⟩, .refl _ _⟩
    · simp only [occupied, Option.isSome_some, Bool.toNat_true] at hidle ⊢
      omega
    · show s.personal.Exact ⟨s.inFlight.sending, some p⟩ s.profile
      rw [hnone]
      exact controlled_exact hmessage hjournal
  | quoting plan hidle =>
    rw [requireIdle_eq_ok] at hidle
    refine ⟨⟨?_, hs.journal, hs.workspace⟩, .refl _ _⟩
    simp only [occupied, Option.isSome_some, Bool.toNat_true] at hidle ⊢
    omega
  | going plan plan' lastRequest hplan hstage =>
    refine ⟨⟨?_, hs.journal, hs.workspace⟩, .refl _ _⟩
    rw [occupied, hplan] at hsingle
    exact hsingle
  | ended next resolution evidence times hends hfinish => exact (hends.emptied hs.single).finish hs hfinish

end Outgoing
end
end CsMail
