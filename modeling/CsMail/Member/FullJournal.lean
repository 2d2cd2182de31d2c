import CsMail.Member.JournalRuns

/-! The journal of outgoing work is exact, up to its bound.

Whatever the server answers, the records await confirmation just while their commands are in
flight (`journal_exact`). Records are never dropped: a client that has sent ten thousand
messages refuses the next command (`full_journal_refuses`). -/
namespace CsMail
open Library

section
variable [Crypto] [ExternalJson] [MemberJson]

namespace Outgoing
variable {s : Outgoing}

/-! ### Preparing a command -/

theorem commitDraft_succeeds {draft : Option DraftRef} {times : Times} {workspace : Workspace} {personal : Personal}
    (hload : s.workspace.load s.profile.account s.profile.persona = .ok ())
    (hhand : s.handOver times.workspace draft = .ok workspace) (hjournal : s.personal.load s.profile = .ok ())
    (hprepare : s.personal.prepare s.inFlight draft times.personal = .ok personal) :
    s.commitDraft draft times = .ok {s with workspace, personal} :=
  bind_eq_ok.mpr ⟨⟨⟩, hload, bind_eq_ok.mpr ⟨workspace, hhand, bind_eq_ok.mpr ⟨⟨⟩, hjournal,
    bind_eq_ok.mpr ⟨personal, hprepare, rfl⟩⟩⟩⟩

/-- An idle client whose journal has room can send a message under a fresh operation. -/
theorem sendMessage_succeeds (hs : s.Journaled) (hidle : s.requireIdle = .ok ())
    (hroom : s.personal.work.length < maxWork) {draft : Option DraftRef} {w : NativeWriting} {times : Times}
    {p : PendingSend} {workspace : Workspace} (hp : s.profile.prepareSend w = .ok p)
    (hfresh : w.sendOperation ∉ s.personal.operations) (hhand : s.handOver times.workspace draft = .ok workspace) :
    ∃ r : WorkRecord, r.operation = w.sendOperation ∧ s.sendMessage draft w times = .ok {s with
      inFlight := {s.inFlight with sending := some p}
      lastSend := none
      workspace
      personal := {s.personal with work := s.personal.work ++ [r]}} := by
  have hfree := requireIdle_eq_ok.mp hidle
  rw [occupied] at hfree
  have hrequesting : s.requesting.isSome = false := Bool.toNat_eq_zero.mp (by omega)
  have hediting : s.others.editing = false := Bool.toNat_eq_zero.mp (by omega)
  have hsending : s.inFlight.sending.isSome = false := Bool.toNat_eq_zero.mp (by omega)
  have hdeciding : s.others.deciding = false := Bool.toNat_eq_zero.mp (by omega)
  have hsetup : s.others.settingUp = false := Bool.toNat_eq_zero.mp (by omega)
  obtain ⟨hoperation, hpackage, hsend, -⟩ := prepareSend_eq_ok hp
  have hidentity : WorkCommand.identity (.native p) =
      .ok (w.sendOperation, .native w.package.manifest.conversation, w.package.manifest.message) :=
    bind_eq_ok.mpr ⟨w.package, okOr_eq_ok.mpr hpackage, by rw [hsend]⟩
  refine ⟨Personal.prepared (.native p) w.sendOperation (.native w.package.manifest.conversation)
    w.package.manifest.message draft times.personal, rfl, ?_⟩
  rw [sendMessage, hrequesting, hediting, hsending, hdeciding, hsetup, hidle, hp]
  exact commitDraft_succeeds hs.workspace hhand hs.journal.loads
    ((Personal.prepare_eq_ok rfl).mpr ⟨_, _, _, hidentity, hfresh, hroom, rfl⟩)

/-- An idle client whose journal has room can send an external message under a fresh operation. -/
theorem sendExternal_succeeds (hs : s.Journaled) (hidle : s.requireIdle = .ok ())
    (hroom : s.personal.work.length < maxWork) {draft : Option DraftRef} {w : ExternalWriting}
    {operation : IdempotencyKey} {signature : Bytes} {times : Times} {p : SignedExternalCommand} {workspace : Workspace}
    (hdisclose : w.start.isSome = true → w.disclose = true)
    (hp : s.profile.externalSigned w.conversation w.command operation signature = .ok p)
    (hfresh : operation ∉ s.personal.operations) (hhand : s.handOver times.workspace draft = .ok workspace) :
    ∃ r : WorkRecord, r.operation = operation ∧ s.sendExternal draft w operation signature times = .ok {s with
      inFlight := {s.inFlight with external := some p}
      workspace
      personal := {s.personal with work := s.personal.work ++ [r]}} := by
  have hnone := inFlight_of_idle (requireIdle_eq_ok.mp hidle)
  obtain ⟨-, hcommand, hoperation, -⟩ := externalSigned_eq_ok hp
  obtain ⟨message, hmessage⟩ : ∃ message, p.command.message = some message := by
    rw [hcommand, ExternalWriting.command]
    cases w.start with
    | none => exact ⟨_, rfl⟩
    | some start => exact ⟨_, rfl⟩
  have hidentity : WorkCommand.identity (.external p) =
      .ok (operation, .external p.conversation, message.manifest.message) :=
    bind_eq_ok.mpr ⟨message, okOr_eq_ok.mpr hmessage, by rw [hoperation]⟩
  have hinFlight : ({s.inFlight with external := some p} : InFlight).command = some (.external p) := by
    rw [hnone]
    show ((some p).filter fun p => p.command.message.isSome).map WorkCommand.external = _
    rw [Option.filter_some, hmessage]
    rfl
  refine ⟨Personal.prepared (.external p) operation (.external p.conversation) message.manifest.message draft
    times.personal, rfl, ?_⟩
  refine bind_eq_ok.mpr ⟨⟨⟩, hidle, bind_eq_ok.mpr ⟨⟨⟩, refuseIf_eq_ok.mpr ?_, bind_eq_ok.mpr ⟨p, hp, ?_⟩⟩⟩
  · rintro ⟨hstart, hsilent⟩
    rw [hdisclose hstart] at hsilent
    cases hsilent
  · exact commitDraft_succeeds hs.workspace hhand hs.journal.loads
      ((Personal.prepare_eq_ok hinFlight).mpr ⟨_, _, _, hidentity, hfresh, hroom, rfl⟩)

/-! ### The journal at every moment -/

/-- What holds of the outgoing work at every moment. -/
structure Orderly (s : Outgoing) : Prop where
  single : s.occupied ≤ 1
  loads : s.personal.load s.profile = .ok ()
  awaiting : ∀ r ∈ s.personal.work, r.status = .awaitingConfirmation ↔ s.inFlight.holds r.command
  recorded : ∀ command, s.inFlight.command = some command → ∃ r ∈ s.personal.work, r.command = command
  proved : ∀ r ∈ s.personal.work, r.checkEvidence s.profile.deployment.providerKey = .ok ()
  answers : ∀ c s', s.call c = .ok s' → s.personal.Answers (s.answered c) s'.personal
  sends : s.requireIdle = .ok () → s.personal.work.length < maxWork → ∀ draft w times p workspace,
    s.profile.prepareSend w = .ok p → w.sendOperation ∉ s.personal.operations →
    s.handOver times.workspace draft = .ok workspace →
    ∃ s', s.call (.sendMessage draft w times) = .ok s' ∧ s'.inFlight.sending = some p
  sendsExternal : s.requireIdle = .ok () → s.personal.work.length < maxWork →
    ∀ draft w operation signature times p workspace, (w.start.isSome = true → w.disclose = true) →
    s.profile.externalSigned w.conversation w.command operation signature = .ok p →
    operation ∉ s.personal.operations → s.handOver times.workspace draft = .ok workspace →
    ∃ s', s.call (.sendExternal draft w operation signature times) = .ok s' ∧ s'.inFlight.external = some p

theorem Journaled.orderly (hs : s.Journaled) : s.Orderly where
  single := hs.single
  loads := hs.journal.loads
  awaiting := hs.journal.awaiting
  recorded := hs.journal.recorded
  proved r hr := ((Personal.load_eq_ok.mp hs.journal.loads).2.2.2.2 r hr).evidence
  answers c s' h := (call_journaled hs h).2
  sends hidle hroom draft w times p workspace hp hfresh hhand := by
    obtain ⟨r, -, h⟩ := sendMessage_succeeds hs hidle hroom hp hfresh hhand
    exact ⟨_, h, rfl⟩
  sendsExternal hidle hroom draft w operation signature times p workspace hdisclose hp hfresh hhand := by
    obtain ⟨r, -, h⟩ := sendExternal_succeeds hs hidle hroom hdisclose hp hfresh hhand
    exact ⟨_, h, rfl⟩

theorem run_journaled (profile : Profile) (calls : List OutgoingCall) :
    (Machine.run call (enrolled profile) calls).Journaled :=
  Machine.run_preserves (fun _ _ _ hs h => (call_journaled hs h).1) (enrolled_journaled profile) calls

/-- **The journal is exact.** After any calls, with any answers, a record awaits confirmation just while its command is
in its slot. It is settled once, by the answer to that command, and then stays as it is. -/
theorem journal_exact (profile : Profile) (calls later : List OutgoingCall) :
    (Machine.run call (enrolled profile) calls).Orderly ∧ (Machine.run call (enrolled profile) calls).personal.Keeps
      (Machine.run call (enrolled profile) (calls ++ later)).personal := by
  have hs := run_journaled profile calls
  refine ⟨hs.orderly, ?_⟩
  rw [Machine.run_append]
  exact Machine.run_relates (R := fun s s' => s.personal.Keeps s'.personal) (fun s => .refl _)
    (fun a b c => Personal.Keeps.trans) (fun s c s' hs h => (call_journaled hs h).imp_right Personal.Answers.keeps)
    hs later

/-! ### The bound -/

/-- One message after the other, each one committed. -/
def sendAll (w : ℕ → NativeWriting) (times : Times) : ℕ → List OutgoingCall
  | 0 => []
  | n + 1 => sendAll w times n ++ [.sendMessage none (w n) times,
      .transmitSend (.error .invalidData) (.ok (.committed (w n).package.manifest.message)) times]

/-- Nothing is in flight, and the first messages are in the journal. -/
structure Sent (w : ℕ → NativeWriting) (profile : Profile) (n : ℕ) (s : Outgoing) : Prop where
  journaled : s.Journaled
  idle : s.requireIdle = .ok ()
  profile : s.profile = profile
  submitted : s.workspace.submitted = none
  operations : s.personal.operations = (List.range n).map fun i => (w i).sendOperation

theorem Sent.length {w : ℕ → NativeWriting} {profile : Profile} {n : ℕ} (h : s.Sent w profile n) :
    s.personal.work.length = n := by
  rw [← List.length_map WorkRecord.operation]
  show s.personal.operations.length = n
  rw [h.operations, List.length_map, List.length_range]

theorem Sent.notMem {w : ℕ → NativeWriting} {profile : Profile} {n : ℕ} (h : s.Sent w profile n)
    (hfresh : ∀ i < n, (w i).sendOperation ≠ (w n).sendOperation) : (w n).sendOperation ∉ s.personal.operations := by
  rw [h.operations]
  intro hmem
  obtain ⟨i, hi, hsame⟩ := List.mem_map.mp hmem
  exact hfresh i (List.mem_range.mp hi) hsame

/-- An answer that decides a send is taken over. -/
theorem transmitSend_succeeds (hs : s.Journaled) (hsubmitted : s.workspace.submitted = none) {p : PendingSend}
    (hsending : s.inFlight.sending = some p) {create send : Except MemberError NativeResponse} {outcome : SendOutcome}
    (houtcome : p.transmit create send = .ok outcome) (times : Times) :
    s.call (.transmitSend create send times) = .ok {s with
      inFlight := {s.inFlight with sending := none}
      lastSend := some outcome
      personal := s.personal.resolve {s.inFlight with sending := none} (outcome.resolution = .restoreEditable)
        (some (.native outcome)) times.personal} := by
  have hsettled : s.workspace.transition times.workspace (.resolve outcome.resolution) = .ok ⟨s.workspace, none⟩ := by
    rw [Workspace.transition, hsubmitted]
  refine bind_eq_ok.mpr ⟨p, okOr_eq_ok.mpr hsending, bind_eq_ok.mpr ⟨outcome, houtcome, ?_⟩⟩
  exact bind_eq_ok.mpr ⟨⟨⟩, hs.workspace, bind_eq_ok.mpr ⟨_, hsettled, bind_eq_ok.mpr ⟨⟨⟩, hs.journal.loads, rfl⟩⟩⟩

theorem Sent.send {w : ℕ → NativeWriting} {profile : Profile} {p : PendingSend} {n : ℕ} (h : s.Sent w profile n)
    (hp : profile.prepareSend (w n) = .ok p) (hcreate : p.create = none) (hn : n < maxWork)
    (hfresh : ∀ i < n, (w i).sendOperation ≠ (w n).sendOperation) (times : Times) :
    (Machine.run call s [.sendMessage none (w n) times,
      .transmitSend (.error .invalidData) (.ok (.committed (w n).package.manifest.message)) times]).Sent w profile
        (n + 1) := by
  have hlength := h.length
  have hnew := h.notMem hfresh
  obtain ⟨hs, hidle, rfl, hsubmitted, hoperations⟩ := h
  have hnone := inFlight_of_idle (requireIdle_eq_ok.mp hidle)
  obtain ⟨r, hr, hsend⟩ := sendMessage_succeeds hs hidle (hlength.symm ▸ hn) hp hnew
    (rfl : s.handOver times.workspace none = .ok s.workspace)
  have hsend : s.call (.sendMessage none (w n) times) = .ok _ := hsend
  have hsent := (call_journaled hs hsend).1
  have hanswer : p.transmit (.error .invalidData) (.ok (.committed (w n).package.manifest.message)) =
      .ok (.committed (w n).package.manifest.message) := by
    obtain ⟨-, hpackage, -, -⟩ := prepareSend_eq_ok hp
    have hdone : p.createOutcome (.error .invalidData) = .ok none := by
      rw [PendingSend.createOutcome, hcreate]
    refine bind_eq_ok.mpr ⟨none, hdone, bind_eq_ok.mpr ⟨_, okOr_eq_ok.mpr hpackage, ?_⟩⟩
    exact bind_eq_ok.mpr ⟨_, rfl, bind_eq_ok.mpr ⟨⟨⟩, refuseIf_eq_ok.mpr (not_not.mpr rfl), rfl⟩⟩
  have htransmit := transmitSend_succeeds hsent hsubmitted rfl hanswer times
  rw [Machine.run_cons, Machine.run_cons, Machine.run_nil, Machine.advance_of_ok hsend, Machine.advance_of_ok htransmit]
  refine ⟨(call_journaled hsent htransmit).1, ?_, rfl, hsubmitted, ?_⟩
  · rw [requireIdle_eq_ok] at hidle ⊢
    simp only [occupied, Option.isSome_none, Bool.toNat_false] at hidle ⊢
    omega
  · refine (Personal.operations_resolve ..).trans ?_
    show (s.personal.work ++ [r]).map WorkRecord.operation = _
    rw [List.range_succ, List.map_append, List.map_append, ← hoperations, List.map_singleton, List.map_singleton, hr]
    rfl

/-- Every client can fill its journal. -/
theorem run_sendAll {w : ℕ → NativeWriting} {profile : Profile}
    (hp : ∀ n < maxWork, ∃ p, profile.prepareSend (w n) = .ok p ∧ p.create = none)
    (hdistinct : ∀ i j, i < j → j < maxWork → (w i).sendOperation ≠ (w j).sendOperation) (times : Times) (n : ℕ)
    (hn : n ≤ maxWork) : (Machine.run call (enrolled profile) (sendAll w times n)).Sent w profile n := by
  induction n with
  | zero => exact ⟨enrolled_journaled profile, rfl, rfl, rfl, rfl⟩
  | succ n ih =>
    obtain ⟨p, hp, hcreate⟩ := hp n hn
    rw [sendAll, Machine.run_append]
    exact (ih (Nat.le_of_succ_le hn)).send hp hcreate hn (fun i hi => hdistinct i n hi hn) times

/-- A full journal refuses every message. -/
theorem sendMessage_of_full (hfull : maxWork ≤ s.personal.work.length) (draft : Option DraftRef) (w : NativeWriting)
    (times : Times) (s' : Outgoing) : s.call (.sendMessage draft w times) ≠ .ok s' := by
  intro h
  obtain ⟨⟨⟩, -, h⟩ := bind_eq_ok.mp h
  obtain ⟨⟨⟩, -, h⟩ := bind_eq_ok.mp h
  obtain ⟨⟨⟩, -, h⟩ := bind_eq_ok.mp h
  obtain ⟨⟨⟩, -, h⟩ := bind_eq_ok.mp h
  obtain ⟨⟨⟩, -, h⟩ := bind_eq_ok.mp h
  obtain ⟨⟨⟩, -, h⟩ := bind_eq_ok.mp h
  obtain ⟨p, -, h⟩ := bind_eq_ok.mp h
  obtain ⟨workspace, personal, -, -, hprepare, -⟩ := commitDraft_eq_ok h
  obtain ⟨_, _, _, -, -, hroom, -⟩ := (Personal.prepare_eq_ok rfl).mp hprepare
  exact absurd hroom (Nat.not_lt_of_le hfull)

end Outgoing
end

namespace FullJournal.Example

@[reducible] def crypto : Crypto := ⟨fun _ => zero32, fun _ => true, fun _ _ _ => true⟩

@[reducible] def external : ExternalJson := ⟨fun _ => some []⟩

@[reducible] def member : MemberJson := ⟨fun _ => some [], fun _ => some []⟩

def manifest : MessageManifest := ⟨⟨none, ⟨7⟩, ⟨58, by decide⟩, ⟨zero32⟩, [.text 4], []⟩, rfl⟩

def sealed : SealedRecord where
  binding := {
    contentRef := ⟨1⟩
    message := ⟨7⟩
    sender := ⟨1⟩
    recipient := ⟨2⟩
    protocolVersion := ⟨2⟩
    relationship := ⟨1, zero32⟩
    declarations := ⟨.unspecified, ⟨.humanInitiated, .nativeSender ⟨1⟩⟩, none⟩
    messageValidUntil := ⟨⟨100⟩⟩
    capability := none
    wireVersion := ⟨1⟩
    contentScope := ⟨1, zero32⟩
    senderCertificate := zero32}
  envelope := ⟨⟨1⟩, ⟨2⟩, [], []⟩
  createdAt := ⟨10⟩
  expiresAt := ⟨100⟩

def package : NativePackage := ⟨manifest, sealed, sealed, ⟨⟨⟨1⟩, zero32⟩, sealed⟩, ⟨⟨⟨1⟩, zero32⟩, sealed⟩⟩

def profile : Profile where
  account := ⟨1⟩
  persona := ⟨1⟩
  senderKey := ⟨1⟩
  declaration := ⟨zero32⟩
  deployment := ⟨⟨zero32, ⟨1⟩⟩, ⟨2⟩, zero32, ['p']⟩

/-- A message under an operation of its own. -/
def writing (n : ℕ) : NativeWriting where
  other := ⟨2⟩
  address := ⟨12, by decide⟩
  explicit := true
  created := none
  package := package
  createOperation := ⟨0⟩
  createSignature := []
  sendOperation := ⟨Fin.ofNat _ (n + 1)⟩
  sendSignature := []

def times : Times := ⟨⟨10⟩, ⟨10⟩⟩

theorem val_sendOperation {n : ℕ} (hn : n ≤ maxWork) : (writing n).sendOperation.val.val = n + 1 := by
  have hbound : n + 1 < 2 ^ 128 := by
    rw [maxWork] at hn
    omega
  exact Nat.mod_eq_of_lt hbound

theorem sendOperation_ne {i j : ℕ} (hij : i < j) (hj : j ≤ maxWork) :
    (writing i).sendOperation ≠ (writing j).sendOperation := by
  intro hsame
  have hval := congrArg (fun o : IdempotencyKey => o.val.val) hsame
  rw [val_sendOperation (hij.le.trans hj), val_sendOperation hj] at hval
  omega

theorem prepareSend_writing {n : ℕ} (hn : n ≤ maxWork) :
    ∃ p, @Profile.prepareSend member profile (writing n) = .ok p ∧ p.create = none := by
  let := member
  have hnamed : (writing n).sendOperation.val ≠ 0 := by
    intro hzero
    have hval := val_sendOperation hn
    rw [hzero] at hval
    cases hval
  refine ⟨⟨⟨2⟩, none, ⟨⟨['p'], ⟨1⟩, ⟨1⟩, ⟨1⟩, (writing n).sendOperation, .sendToAlias ⟨12, by decide⟩ package⟩, []⟩⟩, ?_, rfl⟩
  have hbytes : SignedRequest.bytes ⟨⟨['p'], ⟨1⟩, ⟨1⟩, ⟨1⟩, (writing n).sendOperation,
      .sendToAlias ⟨12, by decide⟩ package⟩, []⟩ = .ok [] := by
    refine bind_eq_ok.mpr ⟨⟨⟩, refuseIf_eq_ok.mpr ?_, rfl⟩
    simp only [not_or]
    exact ⟨by decide, by decide, by decide, hnamed⟩
  refine bind_eq_ok.mpr ⟨_, bind_eq_ok.mpr ⟨[], mapError_eq_ok.mpr hbytes, rfl⟩, rfl⟩

end FullJournal.Example

/-- The client does not prepare every new command when it is idle. -/
theorem full_journal_refuses : ¬∀ (_ : Crypto) (_ : ExternalJson) (_ : MemberJson) (profile : Profile)
    (calls : List OutgoingCall) (w : NativeWriting) (p : PendingSend) (times : Times),
    (Machine.run Outgoing.call (Outgoing.enrolled profile) calls).requireIdle = .ok () →
    profile.prepareSend w = .ok p →
    w.sendOperation ∉ (Machine.run Outgoing.call (Outgoing.enrolled profile) calls).personal.operations →
    ∃ s', (Machine.run Outgoing.call (Outgoing.enrolled profile) calls).call (.sendMessage none w times) = .ok s' := by
  intro h
  let := FullJournal.Example.crypto
  let := FullJournal.Example.external
  let := FullJournal.Example.member
  have hsent : (Machine.run Outgoing.call (Outgoing.enrolled FullJournal.Example.profile)
      (Outgoing.sendAll FullJournal.Example.writing FullJournal.Example.times maxWork)).Sent
        FullJournal.Example.writing FullJournal.Example.profile maxWork :=
    Outgoing.run_sendAll (fun n hn => FullJournal.Example.prepareSend_writing hn.le)
      (fun i j hij hj => FullJournal.Example.sendOperation_ne hij hj.le) _ maxWork le_rfl
  obtain ⟨p, hp, -⟩ := FullJournal.Example.prepareSend_writing le_rfl
  have hfull : maxWork ≤ _ := hsent.length.ge
  have hfresh : (FullJournal.Example.writing maxWork).sendOperation ∉ _ :=
    hsent.notMem fun i hi => FullJournal.Example.sendOperation_ne hi le_rfl
  obtain ⟨s', hs'⟩ := h _ _ _ _ _ _ p FullJournal.Example.times hsent.idle hp hfresh
  exact Outgoing.sendMessage_of_full hfull none _ _ s' hs'

end CsMail
