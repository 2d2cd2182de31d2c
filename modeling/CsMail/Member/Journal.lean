import CsMail.Member.Personal

/-! The journal of one command in flight.

A journal is exact for the commands in flight if it loads and its records await confirmation
exactly while their commands are in flight. Preparing and resolving keep this up, as long as one
command is in flight at a time. -/
namespace CsMail
open Library

section
variable [Crypto] [ExternalJson] [MemberJson]

/-- The command is in its slot. -/
def InFlight.holds (s : InFlight) : WorkCommand → Prop
  | .native p => s.sending = some p
  | .external p => s.external = some p

/-- How a command in flight ended, and what says so. -/
structure WorkAnswer where
  command : WorkCommand
  refused : Bool
  evidence : WorkEvidence

namespace WorkRecord
variable {r : WorkRecord} {profile : Profile}

/-- The record once it is resolved. -/
def settled (r : WorkRecord) (a : WorkAnswer) (now : CanonicalTime) : WorkRecord :=
  {r with
    status := Personal.resolvedStatus a.refused r.command
    resolvedAt := some (max now r.preparedAt)
    evidence := some a.evidence}

/-- A record is as it was, or it was resolved. -/
def SameOrSettled (r r' : WorkRecord) : Prop :=
  r' = r ∨ (r.status = .awaitingConfirmation ∧ ∃ a now, r.command = a.command ∧ r' = r.settled a now)

/-- What validation checks of a record. -/
structure Valid (r : WorkRecord) (profile : Profile) : Prop where
  identity : r.command.identity = .ok (r.operation, r.key, r.message)
  operation : r.operation.val ≠ 0
  message : r.message.val ≠ 0
  resolved : r.resolvedAt.isSome = decide (r.status ≠ .awaitingConfirmation)
  ordered : r.resolvedAt.any (fun time => time < r.preparedAt) = false
  evidence : r.checkEvidence profile.deployment.providerKey = .ok ()
  signer : r.command.signer = (profile.account, profile.persona)

theorem validate_eq_ok : r.validate profile = .ok () ↔ r.Valid profile := by
  constructor
  · intro h
    obtain ⟨identity, hidentity, h⟩ := bind_eq_ok.mp h
    obtain ⟨⟨⟩, hchecks, h⟩ := bind_eq_ok.mp h
    obtain ⟨⟨⟩, hevidence, hsigner⟩ := bind_eq_ok.mp h
    rw [refuseIf_eq_ok] at hchecks hsigner
    simp only [not_or, not_not, Bool.not_eq_true] at hchecks hsigner
    obtain ⟨rfl, hoperation, hmessage, hresolved, hordered⟩ := hchecks
    exact ⟨hidentity, hoperation, hmessage, hresolved, hordered, hevidence, hsigner⟩
  · intro h
    refine bind_eq_ok.mpr ⟨_, h.identity, bind_eq_ok.mpr ⟨⟨⟩, refuseIf_eq_ok.mpr ?_, bind_eq_ok.mpr
      ⟨⟨⟩, h.evidence, refuseIf_eq_ok.mpr (not_not.mpr h.signer)⟩⟩⟩
    simp [h.operation, h.message, h.resolved, h.ordered]

omit [Crypto] [ExternalJson] [MemberJson] in
theorem settled_status (r : WorkRecord) (a : WorkAnswer) (now : CanonicalTime) :
    (r.settled a now).status ≠ .awaitingConfirmation := by
  show Personal.resolvedStatus a.refused r.command ≠ _
  cases r.command with
  | native p => cases a.refused <;> exact Personal.WorkStatus.noConfusion
  | external p => cases a.refused <;> exact Personal.WorkStatus.noConfusion

omit [Crypto] [ExternalJson] [MemberJson] in
theorem SameOrSettled.trans {r' r'' : WorkRecord} (h : r.SameOrSettled r') (h' : r'.SameOrSettled r'') :
    r.SameOrSettled r'' := by
  rcases h with rfl | ⟨hawaiting, a, now, hcommand, rfl⟩
  · exact h'
  · rcases h' with rfl | ⟨hstatus, -⟩
    · exact .inr ⟨hawaiting, a, now, hcommand, rfl⟩
    · exact absurd hstatus (r.settled_status a now)

/-- A resolved record is valid if its evidence is. -/
theorem Valid.settled (hr : r.Valid profile) {a : WorkAnswer} {now : CanonicalTime}
    (h : (r.settled a now).checkEvidence profile.deployment.providerKey = .ok ()) :
    (r.settled a now).Valid profile where
  identity := hr.identity
  operation := hr.operation
  message := hr.message
  resolved := by
    rw [decide_eq_true (r.settled_status a now)]
    rfl
  ordered := by
    show decide (max now r.preparedAt < r.preparedAt) = false
    exact decide_eq_false (not_lt_of_ge (le_max_right ..))
  evidence := h
  signer := hr.signer

end WorkRecord

namespace Personal
variable {p p' : Personal} {f : InFlight} {profile : Profile}

theorem load_eq_ok : p.load profile = .ok () ↔ p.account = profile.account ∧ p.persona = profile.persona ∧
    p.operations.Nodup ∧ p.work.length ≤ maxWork ∧ ∀ r ∈ p.work, r.Valid profile := by
  have hwork : p.work.forM (WorkRecord.validate · profile) = .ok () ↔ ∀ r ∈ p.work, r.Valid profile :=
    forM_eq_ok.trans (forall₂_congr fun r _ => WorkRecord.validate_eq_ok)
  rw [load, bind_eq_ok, ← hwork]
  constructor
  · rintro ⟨⟨⟩, hchecks, hvalid⟩
    rw [refuseIf_eq_ok] at hchecks
    simp only [not_or, not_not, Nat.not_lt] at hchecks
    exact ⟨hchecks.1, hchecks.2.1, hchecks.2.2.1, hchecks.2.2.2, hvalid⟩
  · rintro ⟨haccount, hpersona, hnodup, hlength, hvalid⟩
    refine ⟨⟨⟩, refuseIf_eq_ok.mpr ?_, hvalid⟩
    simp only [not_or, not_not, Nat.not_lt]
    exact ⟨haccount, hpersona, hnodup, hlength⟩

/-- The journal records the commands in flight, and only those await confirmation. -/
structure Exact (p : Personal) (f : InFlight) (profile : Profile) : Prop where
  loads : p.load profile = .ok ()
  awaiting : ∀ r ∈ p.work, r.status = .awaitingConfirmation ↔ f.holds r.command
  recorded : ∀ command, f.command = some command → ∃ r ∈ p.work, r.command = command

/-- Every record is as it was, or was resolved, in its place. -/
def Keeps (p p' : Personal) : Prop :=
  ∀ (i : ℕ) r, p.work[i]? = some r → ∃ r', p'.work[i]? = some r' ∧ r.SameOrSettled r'

/-- Every record is as it was, in its place, but the one whose command was answered. -/
def Answers (p : Personal) (answer : Option WorkAnswer) (p' : Personal) : Prop :=
  ∀ (i : ℕ) r, p.work[i]? = some r → ∃ r', p'.work[i]? = some r' ∧ (r' = r ∨ (r.status = .awaitingConfirmation ∧
    ∃ a now, answer = some a ∧ r.command = a.command ∧ r' = r.settled a now))

omit [Crypto] [ExternalJson] [MemberJson] in
theorem Keeps.refl (p : Personal) : p.Keeps p := fun _ r hr => ⟨r, hr, .inl rfl⟩

omit [Crypto] [ExternalJson] [MemberJson] in
theorem Keeps.trans {p'' : Personal} (h : p.Keeps p') (h' : p'.Keeps p'') : p.Keeps p'' := by
  intro i r hr
  obtain ⟨r', hr', hsame⟩ := h i r hr
  obtain ⟨r'', hr'', hsame'⟩ := h' i r' hr'
  exact ⟨r'', hr'', hsame.trans hsame'⟩

omit [Crypto] [ExternalJson] [MemberJson] in
theorem Answers.refl (p : Personal) (answer : Option WorkAnswer) : p.Answers answer p :=
  fun _ r hr => ⟨r, hr, .inl rfl⟩

omit [Crypto] [ExternalJson] [MemberJson] in
theorem Answers.keeps {answer : Option WorkAnswer} (h : p.Answers answer p') : p.Keeps p' := by
  intro i r hr
  obtain ⟨r', hr', hsame⟩ := h i r hr
  exact ⟨r', hr', hsame.imp_right fun ⟨hawaiting, a, now, _, hanswer⟩ => ⟨hawaiting, a, now, hanswer⟩⟩

omit [Crypto] [ExternalJson] [MemberJson] in
theorem not_holds_none (command : WorkCommand) : ¬InFlight.none.holds command := by
  cases command with
  | native p =>
    intro h
    cases h
  | external p =>
    intro h
    cases h

theorem empty_exact (profile : Profile) : (empty profile.account profile.persona).Exact .none profile where
  loads := load_eq_ok.mpr ⟨rfl, rfl, List.nodup_nil, Nat.zero_le _, by simp [empty]⟩
  awaiting r hr := by cases hr
  recorded command h := by cases h

/-- The record a command is prepared with. -/
def prepared (command : WorkCommand) (operation : IdempotencyKey) (key : MailKey) (message : MessageId)
    (draft : Option DraftRef) (now : CanonicalTime) : WorkRecord :=
  {operation, key, message, draft, command, evidence := none, preparedAt := now, resolvedAt := none,
    status := .awaitingConfirmation}

theorem prepared_valid {command : WorkCommand} {operation : IdempotencyKey} {key : MailKey} {message : MessageId}
    (hidentity : command.identity = .ok (operation, key, message)) (hoperation : operation.val ≠ 0)
    (hmessage : message.val ≠ 0) (hsigner : command.signer = (profile.account, profile.persona))
    (draft : Option DraftRef) (now : CanonicalTime) :
    (prepared command operation key message draft now).Valid profile where
  identity := hidentity
  operation := hoperation
  message := hmessage
  resolved := rfl
  ordered := rfl
  evidence := by
    unfold WorkRecord.checkEvidence prepared
    cases command with
    | native p => rfl
    | external p => rfl
  signer := hsigner

omit [Crypto] [ExternalJson] [MemberJson] in
theorem prepare_eq_ok {command : WorkCommand} (hcommand : f.command = some command) {draft : Option DraftRef}
    {now : CanonicalTime} : p.prepare f draft now = .ok p' ↔ ∃ operation key message,
      command.identity = .ok (operation, key, message) ∧ operation ∉ p.operations ∧ p.work.length < maxWork ∧
        p' = {p with work := p.work ++ [prepared command operation key message draft now]} := by
  rw [prepare, hcommand]
  constructor
  · intro h
    obtain ⟨⟨operation, key, message⟩, hidentity, h⟩ := bind_eq_ok.mp h
    obtain ⟨⟨⟩, hfresh, h⟩ := bind_eq_ok.mp h
    obtain ⟨⟨⟩, hroom, h⟩ := bind_eq_ok.mp h
    cases h
    rw [refuseIf_eq_ok] at hfresh hroom
    exact ⟨operation, key, message, hidentity, hfresh, Nat.lt_of_not_le hroom, rfl⟩
  · rintro ⟨operation, key, message, hidentity, hfresh, hroom, rfl⟩
    exact bind_eq_ok.mpr ⟨_, hidentity, bind_eq_ok.mpr ⟨⟨⟩, refuseIf_eq_ok.mpr hfresh,
      bind_eq_ok.mpr ⟨⟨⟩, refuseIf_eq_ok.mpr (Nat.not_le_of_lt hroom), rfl⟩⟩⟩

omit [Crypto] [ExternalJson] [MemberJson] in
theorem answers_append (p : Personal) (r : WorkRecord) (answer : Option WorkAnswer) :
    p.Answers answer {p with work := p.work ++ [r]} := by
  intro i old hold
  refine ⟨old, ?_, .inl rfl⟩
  show (p.work ++ [r])[i]? = some old
  rw [List.getElem?_append_left (List.getElem?_eq_some_iff.mp hold).1]
  exact hold

omit [Crypto] [ExternalJson] [MemberJson] in
/-- The message of a command is not empty, and neither is what it is part of. -/
theorem message_ne_zero {command : WorkCommand} {operation : IdempotencyKey} {key : MailKey} {message : MessageId}
    (h : command.identity = .ok (operation, key, message)) : message.val ≠ 0 := by
  have hmanifest : ∀ m : MessageManifest, m.message.val ≠ 0 := by
    intro m
    have hvalid := m.valid
    obtain ⟨⟨⟩, -, hvalid⟩ := bind_eq_ok.mp hvalid
    obtain ⟨⟨⟩, -, hvalid⟩ := bind_eq_ok.mp hvalid
    rw [refuseIf_eq_ok, not_or] at hvalid
    exact hvalid.1
  cases command with
  | native p =>
    obtain ⟨package, -, h⟩ := bind_eq_ok.mp h
    cases h
    exact hmanifest _
  | external p =>
    obtain ⟨package, -, h⟩ := bind_eq_ok.mp h
    cases h
    exact hmanifest _

/-- **Preparing** a command that is signed for the profile records it, if nothing was in flight. -/
theorem Exact.prepare (hp : p.Exact .none profile) {command : WorkCommand} (hcommand : f.command = some command)
    (hholds : ∀ other, f.holds other ↔ other = command)
    (hoperation : ∀ operation key message, command.identity = .ok (operation, key, message) → operation.val ≠ 0)
    (hsigner : command.signer = (profile.account, profile.persona)) {draft : Option DraftRef} {now : CanonicalTime}
    (h : p.prepare f draft now = .ok p') : p'.Exact f profile ∧ p.Answers none p' := by
  obtain ⟨operation, key, message, hidentity, hfresh, hroom, rfl⟩ := (prepare_eq_ok hcommand).mp h
  obtain ⟨haccount, hpersona, hnodup, hlength, hvalid⟩ := load_eq_ok.mp hp.loads
  have hrecord : (prepared command operation key message draft now).Valid profile :=
    prepared_valid hidentity (hoperation _ _ _ hidentity) (message_ne_zero hidentity) hsigner draft now
  refine ⟨⟨load_eq_ok.mpr ⟨haccount, hpersona, ?_, ?_, ?_⟩, ?_, ?_⟩, answers_append p _ none⟩
  · show ((p.work ++ [_]).map WorkRecord.operation).Nodup
    rw [List.map_append, List.map_singleton, ← List.concat_eq_append]
    exact hnodup.concat hfresh
  · rw [List.length_append]
    exact hroom
  · exact List.forall_mem_append.mpr ⟨hvalid, List.forall_mem_singleton.mpr hrecord⟩
  · refine List.forall_mem_append.mpr ⟨fun r hr => ?_, List.forall_mem_singleton.mpr ?_⟩
    · rw [hp.awaiting r hr, iff_false_left (not_holds_none r.command), hholds]
      intro hsame
      have hoperation := (hvalid r hr).identity
      rw [hsame, hidentity] at hoperation
      cases hoperation
      exact hfresh (List.mem_map_of_mem hr)
    · exact iff_of_true rfl ((hholds _).mpr rfl)
  · intro other hother
    cases hcommand.symm.trans hother
    exact ⟨_, List.mem_append_right _ (List.mem_singleton_self _), rfl⟩

/-! ### Resolving -/

omit [Crypto] [ExternalJson] [MemberJson] in
theorem not_isPending_none (command : WorkCommand) : ¬InFlight.none.isPending command = true := by
  cases command with
  | native p => exact Bool.false_ne_true
  | external p => exact Bool.false_ne_true

omit [Crypto] [ExternalJson] [MemberJson] in
theorem resolve_of_none_awaiting (h : ∀ r ∈ p.work, r.status ≠ .awaitingConfirmation) (f : InFlight) (refused : Bool)
    (evidence : Option WorkEvidence) (now : CanonicalTime) : p.resolve f refused evidence now = p := by
  have hnone : ∀ r ∈ p.work, r.isAwaiting = false := fun r hr => decide_eq_false (h r hr)
  rw [resolve, modifyFirst_eq_self hnone]

omit [Crypto] [ExternalJson] [MemberJson] in
theorem operations_resolve (p : Personal) (f : InFlight) (refused : Bool) (evidence : Option WorkEvidence)
    (now : CanonicalTime) : (p.resolve f refused evidence now).operations = p.operations := by
  refine map_modifyFirst fun r _ _ => ?_
  split_ifs
  · rfl
  · rfl

theorem Exact.none_awaiting (hp : p.Exact .none profile) : ∀ r ∈ p.work, r.status ≠ .awaitingConfirmation := by
  intro r hr hawaiting
  exact not_holds_none r.command ((hp.awaiting r hr).mp hawaiting)

/-- **Resolving** the one command in flight settles its record, and no other. -/
theorem Exact.resolve (hp : p.Exact f profile) {a : WorkAnswer} (hholds : ∀ other, f.holds other ↔ other = a.command)
    (now : CanonicalTime) (hproves : ∀ r ∈ p.work, r.command = a.command →
      (r.settled a now).checkEvidence profile.deployment.providerKey = .ok ()) :
    (p.resolve .none a.refused (some a.evidence) now).Exact .none profile ∧
      p.Answers (some a) (p.resolve .none a.refused (some a.evidence) now) := by
  obtain ⟨haccount, hpersona, hnodup, hlength, hvalid⟩ := load_eq_ok.mp hp.loads
  have hawaiting : ∀ r ∈ p.work, r.isAwaiting = true ↔ r.command = a.command := by
    intro r hr
    rw [WorkRecord.isAwaiting, decide_eq_true_eq, hp.awaiting r hr, hholds]
  -- two records of one command would have one operation
  have hone : p.work.Pairwise fun a b => ¬(a.isAwaiting = true ∧ b.isAwaiting = true) := by
    refine (List.pairwise_map.mp hnodup).imp_of_mem fun {r r'} hr hr' hdifferent hboth => hdifferent ?_
    have hsame : r.command = r'.command := ((hawaiting r hr).mp hboth.1).trans ((hawaiting r' hr').mp hboth.2).symm
    have hidentity := (hvalid r hr).identity
    rw [hsame, (hvalid r' hr').identity] at hidentity
    injection hidentity with hidentity
    exact (congrArg Prod.fst hidentity).symm
  have hwork : (p.resolve .none a.refused (some a.evidence) now).work =
      p.work.map fun r => if r.isAwaiting then r.settled a now else r := by
    rw [Personal.resolve, modifyFirst_eq_map hone]
    refine List.map_congr_left fun r _ => ?_
    rw [if_neg (not_isPending_none r.command)]
    rfl
  have hvalid' : ∀ r ∈ p.work, (if r.isAwaiting then r.settled a now else r).Valid profile := by
    intro r hr
    split_ifs with hr'
    · exact (hvalid r hr).settled (hproves r hr ((hawaiting r hr).mp hr'))
    · exact hvalid r hr
  refine ⟨⟨load_eq_ok.mpr ⟨haccount, hpersona, ?_, ?_, ?_⟩, ?_, fun _ h => by cases h⟩, ?_⟩
  · show ((p.resolve .none a.refused (some a.evidence) now).work.map WorkRecord.operation).Nodup
    rw [hwork, List.map_map]
    refine (congrArg List.Nodup (List.map_congr_left fun r _ => ?_)).mpr hnodup
    rw [Function.comp_apply]
    split_ifs
    · rfl
    · rfl
  · rw [hwork, List.length_map]
    exact hlength
  · rw [hwork]
    exact List.forall_mem_map.mpr hvalid'
  · rw [hwork]
    refine List.forall_mem_map.mpr fun r hr => iff_of_false ?_ (not_holds_none _)
    by_cases hr' : r.isAwaiting = true
    · rw [if_pos hr']
      exact r.settled_status a now
    · rw [if_neg hr']
      exact fun h => hr' (decide_eq_true h)
  · intro i r hr
    refine ⟨_, by rw [hwork, List.getElem?_map, hr]; rfl, ?_⟩
    dsimp only
    by_cases hr' : r.isAwaiting = true
    · rw [if_pos hr']
      exact .inr ⟨of_decide_eq_true hr', a, now, rfl, (hawaiting r (List.mem_of_getElem? hr)).mp hr', rfl⟩
    · rw [if_neg hr']
      exact .inl rfl

end Personal
end
end CsMail
