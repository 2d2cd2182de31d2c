import CsMail.Application.Recovery
import CsMail.Billing.AccountProofs

/-! Accounts over runs of commands and identity-security events.

Every accepted step leaves an account sound: its registry is about the past, its keys are
of its own personas, its managers have keys that are active. From a sound account a
recovery is refused only for the new key or for a counter, and takes the account over. -/
namespace CsMail
open Library

/-! ### Control -/

namespace AccountControl
variable {c c' : AccountControl} {command : AccountCommand} {reference : OperationalKeyRef}

/-- What a command can do to personas and managers. -/
structure Follows (c : AccountControl) (command : AccountCommand) (c' : AccountControl) : Prop where
  personas : ∀ p, c.personas.contains p = true → c'.personas.contains p = true
  managers : ∀ reference, c'.isManager reference = true →
    c.isManager reference = true ∨ command = .grantManager reference
  key : ∀ key, command = .registerKey key →
    ∃ p, key.actor.persona = some p ∧ c.personas.contains p = true

theorem change_follows (h : c.change command = .ok c') : c.Follows command c' := by
  cases command with
  | registerKey key =>
    simp only [change, bind_eq_ok, refuseIf_eq_ok, exists_const, not_not, Option.any_eq_true,
      Except.ok.injEq] at h
    obtain ⟨⟨-, -, hpersona⟩, rfl⟩ := h
    refine ⟨fun p hp => hp, fun reference hmanager => .inl hmanager, fun other hother => ?_⟩
    cases hother
    exact hpersona
  | setStatus status =>
    cases h
    exact ⟨fun p hp => hp, fun reference hmanager => .inl hmanager, fun key hkey => by cases hkey⟩
  | addPersona persona =>
    simp only [change] at h
    split_ifs at h
    cases h
    refine ⟨fun p hp => ?_, fun reference hmanager => .inl hmanager, fun key hkey => by cases hkey⟩
    show (c.personas.insert persona ()).contains p = true
    obtain ⟨u, hu⟩ := SortedMap.contains_eq_true.mp hp
    rw [SortedMap.contains_eq_true, SortedMap.get?_insert]
    split_ifs
    · exact ⟨(), rfl⟩
    · exact ⟨u, hu⟩
  | grantManager key =>
    simp only [change] at h
    split_ifs at h
    cases h
    refine ⟨fun p hp => hp, fun reference hmanager => ?_, fun other hother => by cases hother⟩
    obtain ⟨u, hu⟩ := SortedMap.contains_eq_true.mp hmanager
    rw [SortedMap.get?_insert] at hu
    split_ifs at hu with heq
    · exact .inr (by rw [heq])
    · exact .inl (SortedMap.contains_eq_true.mpr ⟨u, hu⟩)
  | revokeManager key =>
    simp only [change] at h
    split_ifs at h
    cases h
    refine ⟨fun p hp => hp, fun reference hmanager => .inl ?_, fun other hother => by cases hother⟩
    obtain ⟨u, hu⟩ := SortedMap.contains_eq_true.mp hmanager
    rw [SortedMap.get?_erase] at hu
    split_ifs at hu
    exact SortedMap.contains_eq_true.mpr ⟨u, hu⟩

theorem apply_follows (h : c.apply command = .ok c') : c.Follows command c' := by
  simp only [apply, bind_eq_ok, refuseIf_eq_ok, okOr_eq_ok, Except.ok.injEq] at h
  obtain ⟨_, -, next, hnext, revision, -, rfl⟩ := h
  have := change_follows hnext
  exact ⟨this.personas, this.managers, this.key⟩

/-- What a security change leaves: no service, and the replacement as the only manager. -/
structure Secured (c : AccountControl) (replacement : Option OperationalKeyRef) (c' : AccountControl) : Prop where
  status : c'.status = if c.status = .closed then .closed else .suspended
  personas : c'.personas = c.personas
  managers : ∀ reference, c'.isManager reference = true ↔
    replacement.elim (c.isManager reference = true) (reference = ·)

theorem applySecurityChange_secured {replacement : Option OperationalKeyRef}
    (h : c.applySecurityChange replacement = .ok c') : c.Secured replacement c' := by
  cases replacement with
  | none =>
    simp only [applySecurityChange, bind_eq_ok, okOr_eq_ok, Except.ok.injEq] at h
    obtain ⟨revision, -, rfl⟩ := h
    exact ⟨rfl, rfl, fun reference => Iff.rfl⟩
  | some key =>
    by_cases hzero : key.val = 0
    · simp only [applySecurityChange, dif_pos hzero, reduceCtorEq] at h
    simp only [applySecurityChange, dif_neg hzero, bind_eq_ok, okOr_eq_ok, Except.ok.injEq] at h
    obtain ⟨revision, -, rfl⟩ := h
    refine ⟨rfl, rfl, fun reference => ?_⟩
    show (SortedMap.insert ∅ key ()).contains reference = true ↔ reference = key
    rw [SortedMap.contains_eq_true, SortedMap.get?_insert]
    split_ifs with heq
    · exact ⟨fun _ => heq, fun _ => ⟨(), rfl⟩⟩
    · simp only [heq, iff_false]
      rintro ⟨u, hu⟩
      cases hu

/-- A recovery of the control is refused for a zero reference and for the revision alone. -/
theorem applySecurityChange_some : (∃ c', c.applySecurityChange (some reference) = .ok c') ↔
    reference.val ≠ 0 ∧ c.revision.val + 1 < 2 ^ 64 := by
  by_cases hzero : reference.val = 0
  · simp [applySecurityChange, hzero]
  · simp only [applySecurityChange, dif_neg hzero, bind_eq_ok, okOr_eq_ok, Except.ok.injEq]
    constructor
    · rintro ⟨c', revision, hrevision, -⟩
      have := Checked.succ_eq_some.mp hrevision
      have := revision.isLt
      exact ⟨hzero, by omega⟩
    · rintro ⟨-, hlt⟩
      exact ⟨_, ⟨_, hlt⟩, Checked.succ_eq_some.mpr rfl, rfl⟩

end AccountControl

/-! ### What every state keeps -/

/-- What any accepted sequence of commands and events leaves. -/
structure AccountState.Sound (s : AccountState) (now : CanonicalTime) : Prop where
  settled : s.registry.Settled now
  owned : ∀ reference key, s.registry.keys.get? reference = some key →
    ∃ p, key.actor.persona = some p ∧ s.control.personas.contains p = true
  managers : ∀ reference, s.control.isManager reference = true →
    ∃ key, s.registry.keys.get? reference = some key ∧ key.status = .active
  /-- Nothing retires a key here. -/
  unretired : ∀ reference key, s.registry.keys.get? reference = some key →
    key.status = .active ∨ key.status.isRevoked = true

namespace AccountState.Sound
variable {s : AccountState} {time now : CanonicalTime}

theorem mono (h : s.Sound time) (hle : time ≤ now) : s.Sound now where
  settled := h.settled.mono hle
  owned := h.owned
  managers := h.managers
  unretired := h.unretired

/-- Every manager can act. -/
theorem manager_active {reference : OperationalKeyRef} (h : s.Sound now)
    (hmanager : s.control.isManager reference = true) : ∃ owner, s.registry.activeActor reference now = .ok owner := by
  obtain ⟨key, hkey, hactive⟩ := h.managers reference hmanager
  refine ⟨(key.actor, key.verifyingKey), KeyRegistry.activeActor_eq_ok.mpr ?_⟩
  refine KeyRegistry.activeVerifyingKey_eq_ok.mpr ⟨key, hkey, rfl, (h.settled.past reference key hkey).validFrom, ?_⟩
  rw [hactive]
  exact ⟨rfl, rfl, rfl⟩

/-- Another control, with no new manager, over the same keys. -/
theorem control {control : AccountControl} (h : s.Sound time)
    (hpersonas : ∀ p, s.control.personas.contains p = true → control.personas.contains p = true)
    (hmanagers : ∀ reference, control.isManager reference = true →
      ∃ key, s.registry.keys.get? reference = some key ∧ key.status = .active) :
    AccountState.Sound {s with control} time where
  settled := h.settled
  owned reference key hkey := by
    obtain ⟨p, hp, hcontains⟩ := h.owned reference key hkey
    exact ⟨p, hp, hpersonas p hcontains⟩
  managers := hmanagers
  unretired := h.unretired

/-- One more key, of a persona of the account. -/
theorem registered [Crypto] {reference : OperationalKeyRef} {actor : ActorRef} {key : Bytes32} {registry : KeyRegistry}
    {p : ProtocolIdentity} (h : s.Sound time) (hactor : actor.persona = some p)
    (hpersona : s.control.personas.contains p = true)
    (hregister : (KeyRegistry.register reference actor key time).on s.registry = (.ok (), registry)) :
    AccountState.Sound {s with registry} time := by
  obtain ⟨hnew, -, version, -, rfl⟩ := KeyRegistry.register_eq_ok.mp hregister
  refine ⟨⟨fun other record hrecord => ?_, fun other record hrecord => ?_⟩, fun other record hrecord => ?_,
    fun other hmanager => ?_, fun other record hrecord => ?_⟩
  · rcases SortedMap.get?_insert_eq_some.mp hrecord with ⟨rfl, rfl⟩ | ⟨-, hold⟩
    · rfl
    · exact h.settled.filed other record hold
  · rcases SortedMap.get?_insert_eq_some.mp hrecord with ⟨rfl, rfl⟩ | ⟨-, hold⟩
    · exact ⟨le_refl time, trivial⟩
    · exact h.settled.past other record hold
  · rcases SortedMap.get?_insert_eq_some.mp hrecord with ⟨rfl, rfl⟩ | ⟨-, hold⟩
    · exact ⟨p, hactor, hpersona⟩
    · exact h.owned other record hold
  · obtain ⟨record, hrecord, hactive⟩ := h.managers other hmanager
    have hne : other ≠ reference := fun heq => by
      rw [heq, hnew] at hrecord
      cases hrecord
    exact ⟨record, (SortedMap.get?_insert_ne _ _ hne).trans hrecord, hactive⟩
  · rcases SortedMap.get?_insert_eq_some.mp hrecord with ⟨rfl, rfl⟩ | ⟨-, hold⟩
    · exact .inl rfl
    · exact h.unretired other record hold

end AccountState.Sound

/-! ### What a decision has stored -/

namespace AccountService
variable [Crypto] [Json] {time : CanonicalTime}

theorem registerKey_eq_ok {state : AccountState} {signed : SignedAccountCommand} {registry : KeyRegistry}
    {claim : Option (OperationalKeyRef × KeyClaim)} (h : registerKey state signed time = .ok (registry, claim)) :
    registry = state.registry ∨ ∃ key, signed.command = .registerKey key ∧
      (KeyRegistry.register key.reference key.actor key.key time).on state.registry = (.ok (), registry) := by
  unfold registerKey at h
  split at h
  · next key hcommand =>
    simp only [bind_eq_ok, mapError_eq_ok, InPlace.accepted_eq_ok, Except.ok.injEq, Prod.mk.injEq] at h
    obtain ⟨_, -, registry', ⟨_, hregister⟩, rfl, -⟩ := h
    exact .inr ⟨key, hcommand, hregister⟩
  · cases h
    exact .inl rfl

theorem executeCommand_sound {context : CommandContext} {signed : SignedAccountCommand} {outcome : AccountControl}
    {effects : AccountEffects} (hs : context.state.Sound time)
    (h : executeCommand context signed time = .ok ⟨outcome, some effects⟩) : effects.state.Sound time := by
  unfold executeCommand at h
  simp only [bind_eq_ok, mapError_eq_ok, refuseIf_eq_ok] at h
  obtain ⟨_, -, _, -, _, -, h⟩ := h
  split at h
  · simp only [bind_eq_ok, refuseIf_eq_ok, Except.ok.injEq, AccountDecision.mk.injEq, reduceCtorEq,
      and_false, exists_const] at h
  simp only [bind_eq_ok, mapError_eq_ok, refuseIf_eq_ok, Except.ok.injEq, AccountDecision.mk.injEq,
    Option.some.injEq] at h
  obtain ⟨_, -, _, hgrant, ⟨registry, claim⟩, hregister, control, hcontrol, -, rfl⟩ := h
  have hfollows := AccountControl.apply_follows hcontrol
  have hregistered : AccountState.Sound {context.state with registry} time := by
    rcases registerKey_eq_ok hregister with rfl | ⟨key, hcommand, hregister⟩
    · exact hs
    · obtain ⟨p, hactor, hpersona⟩ := hfollows.key key hcommand
      exact hs.registered hactor hpersona hregister
  refine hregistered.control hfollows.personas fun reference hmanager => ?_
  rcases hfollows.managers reference hmanager with hmanager | hcommand
  · exact hregistered.managers reference hmanager
  · -- A new manager has current authority, and nothing was registered.
    rw [hcommand] at hgrant
    simp only [checkGrant, bind_eq_ok, mapError_eq_ok] at hgrant
    obtain ⟨owner, hactive, -⟩ := hgrant
    obtain ⟨key, hkey, -, -, hrevoked, -⟩ :=
      KeyRegistry.activeVerifyingKey_eq_ok.mp (KeyRegistry.activeActor_eq_ok.mp hactive)
    rcases registerKey_eq_ok hregister with rfl | ⟨other, hother, -⟩
    · refine ⟨key, hkey, (hs.unretired reference key hkey).resolve_right ?_⟩
      rw [hrevoked]
      exact Bool.false_ne_true
    · rw [hcommand] at hother
      cases hother

variable [IdentityContract]

/-- What a new event that recovers the device has stored. -/
structure Recovered (state : AccountState) (event : SecurityEvent) (reference : OperationalKeyRef)
    (persona : ProtocolIdentity) (time : CanonicalTime) (effects : AccountEffects) : Prop where
  contains : state.control.personas.contains persona = true
  registry : (replaceDeviceKey reference persona event.initialKey time).on state.registry =
    (.ok (), effects.state.registry)
  control : state.control.applySecurityChange (some reference) = .ok effects.state.control

theorem applyIdentityChange_cases {context : SecurityContext} {signed : SignedSecurityEvent}
    {bank : Option BankVerification} {effects : AccountEffects}
    (h : applyIdentityChange context signed bank time = .ok ⟨(), some effects⟩) :
    Checked.succ context.version = some signed.event.securityVersion ∧
    ((∃ keyReference personaText reference persona,
        signed.event.change = .recoverDevice keyReference personaText ∧
        personaText.parseU128 = some persona ∧ keyReference.parseU128 = some reference ∧
        Recovered context.state signed.event ⟨reference⟩ ⟨persona⟩ time effects) ∨
      (signed.event.change = .rebindBank ∧ effects.state.registry = context.state.registry ∧
        context.state.control.applySecurityChange none = .ok effects.state.control)) := by
  unfold applyIdentityChange at h
  simp only [bind_eq_ok, mapError_eq_ok, okOr_eq_ok, refuseIf_eq_ok] at h
  obtain ⟨seconds, -, event, hverified, _, -, h⟩ := h
  have hevent := context.trust.signed_event hverified
  subst hevent
  split at h
  · simp only [bind_eq_ok, refuseIf_eq_ok, Except.ok.injEq, AccountDecision.mk.injEq, reduceCtorEq,
      and_false, exists_const] at h
  simp only [bind_eq_ok, okOr_eq_ok, refuseIf_eq_ok, not_not] at h
  obtain ⟨_, hversion, owner, -, h⟩ := h
  refine ⟨hversion, ?_⟩
  split at h
  · next keyReference personaText hchange =>
    simp only [recoverDevice, bind_eq_ok, mapError_eq_ok, okOr_eq_ok, refuseIf_eq_ok, Except.ok.injEq,
      InPlace.accepted_eq_ok, AccountDecision.mk.injEq, Option.some.injEq] at h
    obtain ⟨⟨registry, reference, persona⟩, ⟨persona', hpersona, _, hcontains, reference', hreference, registry',
      ⟨_, hregistry⟩, hsame⟩, control, hcontrol, -, rfl⟩ := h
    cases hsame
    exact .inl ⟨keyReference, personaText, reference', persona', hchange, hpersona, hreference,
      by simpa using hcontains, hregistry, hcontrol⟩
  · next hchange =>
    simp only [bind_eq_ok, mapError_eq_ok, Except.ok.injEq, AccountDecision.mk.injEq, Option.some.injEq] at h
    obtain ⟨financial, -, control, hcontrol, -, rfl⟩ := h
    exact .inr ⟨hchange, rfl, hcontrol⟩

omit [Json] [IdentityContract] in
theorem Recovered.replaced {state : AccountState} {event : SecurityEvent} {reference : OperationalKeyRef}
    {persona : ProtocolIdentity} {effects : AccountEffects} (h : Recovered state event reference persona time effects)
    (hs : state.Sound time) : state.registry.Replaced reference (.sender persona) event.initialKey time
      effects.state.registry := (replaceDeviceKey_spec hs.settled h.registry).1

omit [Json] [IdentityContract] in
theorem Recovered.sound {state : AccountState} {event : SecurityEvent} {reference : OperationalKeyRef}
    {persona : ProtocolIdentity} {effects : AccountEffects} (h : Recovered state event reference persona time effects)
    (hs : state.Sound time) : effects.state.Sound time := by
  have hreplaced := h.replaced hs
  have hsecured := AccountControl.applySecurityChange_secured h.control
  refine ⟨hreplaced.settled hs.settled, fun other key hkey => ?_, fun other hmanager => ?_, fun other key hkey => ?_⟩
  · rw [hsecured.personas]
    by_cases heq : other = reference
    · rw [heq, hreplaced.new] at hkey
      cases hkey
      exact ⟨persona, rfl, h.contains⟩
    · obtain ⟨before, hbefore, rfl⟩ := hreplaced.old heq hkey
      rw [OperationalKeyRecord.withdrawn_same.2.1]
      exact hs.owned other before hbefore
  · cases (hsecured.managers other).mp hmanager
    exact ⟨_, hreplaced.new, rfl⟩
  · by_cases heq : other = reference
    · rw [heq, hreplaced.new] at hkey
      cases hkey
      exact .inl rfl
    · obtain ⟨before, -, rfl⟩ := hreplaced.old heq hkey
      exact .inr OperationalKeyRecord.withdrawn_isRevoked

theorem applyIdentityChange_sound {context : SecurityContext} {signed : SignedSecurityEvent}
    {bank : Option BankVerification} {effects : AccountEffects} (hs : context.state.Sound time)
    (h : applyIdentityChange context signed bank time = .ok ⟨(), some effects⟩) : effects.state.Sound time := by
  rcases (applyIdentityChange_cases h).2 with ⟨_, _, reference, persona, -, -, -, hrecovered⟩ |
    ⟨-, hregistry, hcontrol⟩
  · exact hrecovered.sound hs
  · have hsecured := AccountControl.applySecurityChange_secured hcontrol
    have hsame : AccountState.Sound {context.state with control := effects.state.control} time :=
      hs.control (fun p hp => hsecured.personas.symm ▸ hp) fun reference hmanager => hs.managers reference ((hsecured.managers reference).mp hmanager)
    exact ⟨hregistry ▸ hsame.settled, hregistry ▸ hsame.owned, hregistry ▸ hsame.managers,
      hregistry ▸ hsame.unretired⟩

end AccountService

/-! ### Stored accounts -/

/-- The second of a time fits an `i64`. -/
theorem seconds_eq_some (now : CanonicalTime) : ∃ seconds : Fin (2 ^ 63),
    Checked.ofNat (2 ^ 63) (now.millis / 1000) = some seconds := by
  have hlt : now.millis < 2 ^ 64 := now.val.isLt
  exact ⟨⟨now.millis / 1000, by omega⟩, Checked.ofNat_eq_some.mpr rfl⟩

inductive AccountInput
  | command (signed : SignedAccountCommand) (time : CanonicalTime) (permit : AccountEffects → Except AccountFailure Unit)
  | securityChange (signed : SignedSecurityEvent) (bank : Option BankVerification)
    (bankContext : Option BankChangeContext) (time : CanonicalTime)
    (permit : AccountEffects → Except AccountFailure Unit)

def AccountInput.time : AccountInput → CanonicalTime
  | command _ time _ => time
  | securityChange _ _ _ time _ => time

section
variable [Crypto] [Json] [IdentityContract]

/-- The call an input makes, with the subject and the trusted keys of the deployment. -/
def AccountInput.method (subject : Text) (trust : DecisionVerifier) : AccountInput → ManagedAccount.Method Unit
  | command signed time permit => do
    let _ ← ManagedAccount.command signed time permit
    pure ()
  | securityChange signed bank bankContext time permit =>
    ManagedAccount.securityChange signed bank subject trust bankContext time permit

namespace ManagedAccount
variable {m m' : ManagedAccount} {time now : CanonicalTime} {subject : Text} {trust : DecisionVerifier}

structure Sound (m : ManagedAccount) (now : CanonicalTime) : Prop where
  state : m.state.Sound now
  events : ∀ version event, m.events.get? version = some event → version ≤ m.version

omit [Crypto] [Json] [IdentityContract] in
theorem Sound.mono (h : m.Sound time) (hle : time ≤ now) : m.Sound now := ⟨h.state.mono hle, h.events⟩

def securityContext (m : ManagedAccount) (signed : SignedSecurityEvent) (subject : Text) (trust : DecisionVerifier)
    (bank : Option BankChangeContext) : SecurityContext :=
  ⟨m.state, subject, m.version, trust, m.events.get? signed.event.securityVersion, bank⟩

omit [IdentityContract] in
theorem command_eq_ok {signed : SignedAccountCommand} {permit : AccountEffects → Except AccountFailure Unit}
    {outcome : AccountControl} : (command signed time permit).on m = (.ok outcome, m') ↔ ∃ effects,
      AccountService.executeCommand ⟨m.state, m.commands.get? signed.idempotencyKey⟩ signed time =
        .ok ⟨outcome, effects⟩ ∧
      match (effects : Option AccountEffects) with
      | none => m' = m
      | some effects => permit effects = .ok () ∧ m' = {m with
          state := effects.state
          commands := m.commands.insert signed.idempotencyKey (signed, outcome)} := by
  unfold command
  simp only [InPlace.on_bind, InPlace.on_read, InPlace.on_lift]
  constructor
  · rintro ⟨_, _, ⟨rfl, rfl⟩, ⟨outcome', effects⟩, _, ⟨hdecision, rfl⟩, h⟩
    cases effects with
    | none =>
      simp only [InPlace.on_pure] at h
      obtain ⟨rfl, rfl⟩ := h
      exact ⟨none, hdecision, rfl⟩
    | some effects =>
      simp only [InPlace.on_bind, InPlace.on_lift, InPlace.on_modify, InPlace.on_pure] at h
      obtain ⟨_, _, ⟨hpermit, rfl⟩, _, _, rfl, _, _, rfl, rfl, rfl⟩ := h
      exact ⟨some effects, hdecision, hpermit, rfl⟩
  · rintro ⟨effects, hdecision, h⟩
    refine ⟨m, m, ⟨rfl, rfl⟩, ⟨outcome, effects⟩, m, ⟨hdecision, rfl⟩, ?_⟩
    cases effects with
    | none =>
      simp only [InPlace.on_pure]
      exact ⟨trivial, h.symm⟩
    | some effects =>
      obtain ⟨hpermit, rfl⟩ := h
      simp only [InPlace.on_bind, InPlace.on_lift, InPlace.on_modify, InPlace.on_pure]
      exact ⟨(), m, ⟨hpermit, rfl⟩, ⟨⟩, _, rfl, ⟨⟩, _, rfl, trivial, rfl⟩

theorem securityChange_eq_ok {signed : SignedSecurityEvent} {bank : Option BankVerification}
    {bankContext : Option BankChangeContext} {permit : AccountEffects → Except AccountFailure Unit} :
    (securityChange signed bank subject trust bankContext time permit).on m = (.ok (), m') ↔ ∃ effects,
      AccountService.applyIdentityChange (m.securityContext signed subject trust bankContext) signed bank time =
        .ok ⟨(), effects⟩ ∧
      match (effects : Option AccountEffects) with
      | none => m' = m
      | some effects => permit effects = .ok () ∧ m' = {m with
          state := effects.state
          version := signed.event.securityVersion
          events := m.events.insert signed.event.securityVersion signed} := by
  unfold securityChange
  simp only [InPlace.on_bind, InPlace.on_read, InPlace.on_lift]
  constructor
  · rintro ⟨_, _, ⟨rfl, rfl⟩, ⟨⟨⟩, effects⟩, _, ⟨hdecision, rfl⟩, h⟩
    cases effects with
    | none =>
      simp only [InPlace.on_pure] at h
      exact ⟨none, hdecision, h.2.symm⟩
    | some effects =>
      simp only [InPlace.on_bind, InPlace.on_lift, InPlace.on_modify] at h
      obtain ⟨_, _, ⟨hpermit, rfl⟩, _, _, rfl, _, _, rfl, rfl⟩ := h
      exact ⟨some effects, hdecision, hpermit, rfl⟩
  · rintro ⟨effects, hdecision, h⟩
    refine ⟨m, m, ⟨rfl, rfl⟩, ⟨(), effects⟩, m, ⟨hdecision, rfl⟩, ?_⟩
    cases effects with
    | none =>
      simp only [InPlace.on_pure]
      exact ⟨trivial, h.symm⟩
    | some effects =>
      obtain ⟨hpermit, rfl⟩ := h
      simp only [InPlace.on_bind, InPlace.on_lift, InPlace.on_modify]
      exact ⟨(), m, ⟨hpermit, rfl⟩, ⟨⟩, _, rfl, ⟨⟩, _, rfl, rfl⟩

omit [IdentityContract] in
/-- Whatever is refused is refused before the first assignment. -/
theorem command_atomic (signed : SignedAccountCommand) (time : CanonicalTime)
    (permit : AccountEffects → Except AccountFailure Unit) : (command signed time permit).Atomic := by
  refine .get fun m => .check fun decision _ => ?_
  cases decision.effects with
  | none => exact (InPlace.Assigns.pure _).atomic
  | some effects =>
    refine .check fun _ _ => ?_
    exact InPlace.Assigns.atomic (.assign _ (.assign _ (.pure _)))

theorem securityChange_atomic (signed : SignedSecurityEvent) (bank : Option BankVerification)
    (bankContext : Option BankChangeContext) (time : CanonicalTime)
    (permit : AccountEffects → Except AccountFailure Unit) :
    (securityChange signed bank subject trust bankContext time permit).Atomic := by
  refine .get fun m => .check fun decision _ => ?_
  cases decision.effects with
  | none => exact (InPlace.Assigns.pure _).atomic
  | some effects =>
    refine .check fun _ _ => ?_
    exact (InPlace.Assigns.assign _ <| .assign _ <| .assign_last _).atomic

theorem method_atomic (input : AccountInput) : (input.method subject trust).Atomic := by
  cases input with
  | command signed time permit =>
    exact (command_atomic signed time permit).bind fun _ => .pure ()
  | securityChange signed bank bankContext time permit =>
    exact securityChange_atomic signed bank bankContext time permit

/-! ### Runs -/

omit [Json] [IdentityContract] in
theorem enroll_sound {input : EnrollmentInput} {product : Text} (h : enroll input product time = .ok m) :
    m.Sound time := by
  simp only [enroll, EnrollmentInput.validate, AccountControl.new, AccountControl.tryFrom, bind_eq_ok,
    mapError_eq_ok, refuseIf_eq_ok, not_or, not_not, Except.ok.injEq, InPlace.accepted_eq_ok] at h
  obtain ⟨_, ⟨-, -, -, hactor⟩, control, hcontrol, registry, ⟨_, hregister⟩, rfl⟩ := h
  split_ifs at hcontrol
  cases hcontrol
  obtain ⟨-, -, version, -, rfl⟩ := KeyRegistry.register_eq_ok.mp hregister
  have honly : ∀ reference key, SortedMap.get? (SortedMap.insert KeyRegistry.empty.keys input.keyRef
      (⟨input.keyRef, input.actor, input.initialKey, time, .active, .initial⟩ : OperationalKeyRecord)) reference =
      some key → reference = input.keyRef ∧ key = ⟨input.keyRef, input.actor, input.initialKey, time, .active,
        .initial⟩ := fun reference key hkey => by
    rcases SortedMap.get?_insert_eq_some.mp hkey with hsame | ⟨-, hold⟩
    · exact hsame
    · cases hold
  refine ⟨⟨⟨fun reference key hkey => ?_, fun reference key hkey => ?_⟩, fun reference key hkey => ?_,
    fun reference hmanager => ?_, fun reference key hkey => ?_⟩, fun version event hevent => ?_⟩
  · obtain ⟨rfl, rfl⟩ := honly reference key hkey
    rfl
  · obtain ⟨-, rfl⟩ := honly reference key hkey
    exact ⟨le_refl time, trivial⟩
  · obtain ⟨-, rfl⟩ := honly reference key hkey
    exact ⟨input.persona, hactor, SortedMap.contains_eq_true.mpr ⟨(), SortedMap.get?_insert_self ..⟩⟩
  · obtain ⟨u, hu⟩ := SortedMap.contains_eq_true.mp hmanager
    rcases SortedMap.get?_insert_eq_some.mp hu with ⟨rfl, -⟩ | ⟨-, hold⟩
    · exact ⟨_, SortedMap.get?_insert_self .., rfl⟩
    · cases hold
  · obtain ⟨-, rfl⟩ := honly reference key hkey
    exact .inl rfl
  · cases hevent

theorem method_sound {input : AccountInput} (hm : m.Sound input.time)
    (h : (input.method subject trust).on m = (.ok (), m')) : m'.Sound input.time := by
  cases input with
  | command signed time permit =>
    obtain ⟨outcome, _, hcommand, hpure⟩ := InPlace.on_bind.mp h
    obtain ⟨-, rfl⟩ := InPlace.on_pure.mp hpure
    obtain ⟨effects, hdecision, heffects⟩ := command_eq_ok.mp hcommand
    cases effects with
    | none =>
      subst heffects
      exact hm
    | some effects =>
      obtain ⟨-, rfl⟩ := heffects
      exact ⟨AccountService.executeCommand_sound hm.state hdecision, hm.events⟩
  | securityChange signed bank bankContext time permit =>
    obtain ⟨effects, hdecision, heffects⟩ := securityChange_eq_ok.mp h
    cases effects with
    | none =>
      subst heffects
      exact hm
    | some effects =>
      obtain ⟨-, rfl⟩ := heffects
      have hnext := Checked.succ_eq_some.mp (AccountService.applyIdentityChange_cases hdecision).1
      refine ⟨AccountService.applyIdentityChange_sound hm.state hdecision, fun version event hevent => ?_⟩
      rcases SortedMap.get?_insert_eq_some.mp hevent with ⟨rfl, -⟩ | ⟨-, hold⟩
      · exact le_refl _
      · exact (hm.events version event hold).trans (Fin.le_def.mpr (hnext ▸ Nat.le_succ _))

/-- An account is sound after every run in the order of its times, whatever is refused. -/
theorem run_sound {input : EnrollmentInput} {product : Text} {start : CanonicalTime}
    (henroll : enroll input product start = .ok m) {inputs : List AccountInput}
    (horder : Machine.InOrder AccountInput.time start inputs) (hstart : start ≤ now)
    (hnow : ∀ i ∈ inputs, i.time ≤ now) :
    (InPlace.calls (AccountInput.method subject trust) m inputs).Sound now := by
  rw [InPlace.calls_eq_run method_atomic]
  refine Machine.run_preserves_inOrder (P := fun t s => Sound s t) (fun hle h => Sound.mono h hle) (fun s i s' hs h => ?_) (enroll_sound henroll)
    horder hstart hnow
  obtain ⟨⟨⟩, h⟩ := InPlace.accepted_eq_ok.mp h
  exact method_sound hs h

/-! ### Recovery -/

/-- An event, signed by the identity service for this account and next in turn, that
recovers the device of one of its personas. -/
structure Recovers (m : ManagedAccount) (subject : Text) (trust : DecisionVerifier) (signed : SignedSecurityEvent)
    (now : CanonicalTime) (reference : OperationalKeyRef) (persona : ProtocolIdentity) : Prop where
  verified : ∀ seconds, Checked.ofNat (2 ^ 63) (now.millis / 1000) = some seconds →
    trust.verifySecurityEvent signed seconds = .ok signed.event
  subject : signed.event.subjectRef = subject
  product : signed.event.product = m.state.product
  version : Checked.succ m.version = some signed.event.securityVersion
  account : ∃ owner, signed.event.account.parseU128 = some owner
  change : ∃ keyReference personaText, signed.event.change = .recoverDevice keyReference personaText ∧
    keyReference.parseU128 = some reference.val ∧ personaText.parseU128 = some persona.val
  persona : m.state.control.personas.contains persona = true

/-- The new key can be registered, and every counter can move. -/
structure Able (m : ManagedAccount) (reference : OperationalKeyRef) (key : Bytes32) : Prop where
  fresh : m.state.registry.keys.get? reference = none
  named : reference.val ≠ 0
  valid : Crypto.validKey key = true
  room : m.state.registry.Room
  revision : m.state.control.revision.val + 1 < 2 ^ 64

section
variable {signed : SignedSecurityEvent} {reference : OperationalKeyRef} {persona : ProtocolIdentity}
  {bank : Option BankVerification} {bankContext : Option BankChangeContext} {effects : AccountEffects}

theorem Recovers.recovered (h : m.Recovers subject trust signed now reference persona)
    (hdecision : AccountService.applyIdentityChange (m.securityContext signed subject trust bankContext) signed bank
      now = .ok ⟨(), some effects⟩) :
    AccountService.Recovered m.state signed.event reference persona now effects := by
  obtain ⟨_, _, hchange, hreference, hpersona⟩ := h.change
  rcases (AccountService.applyIdentityChange_cases hdecision).2 with
    ⟨_, _, reference', persona', hchange', hpersona', hreference', hrecovered⟩ | ⟨hchange', -, -⟩
  · rw [hchange] at hchange'
    cases hchange'
    rw [hpersona] at hpersona'
    cases hpersona'
    rw [hreference] at hreference'
    cases hreference'
    exact hrecovered
  · rw [hchange] at hchange'
    cases hchange'

omit [Crypto] [Json] [IdentityContract] in
/-- No event was recorded at the version that is next. -/
theorem Recovers.unprecedented (h : m.Recovers subject trust signed now reference persona) (hm : m.Sound now) :
    m.events.get? signed.event.securityVersion = none := by
  by_contra hsome
  obtain ⟨prior, hprior⟩ := Option.ne_none_iff_exists'.mp hsome
  have hle := Fin.le_def.mp (hm.events _ prior hprior)
  have := Checked.succ_eq_some.mp h.version
  omega

/-- A recovery in its turn is refused for nothing but the new key and the counters. -/
theorem Recovers.decided (h : m.Recovers subject trust signed now reference persona) (hm : m.Sound now) :
    (∃ effects, AccountService.applyIdentityChange (m.securityContext signed subject trust bankContext) signed bank
      now = .ok ⟨(), some effects⟩) ↔ m.Able reference signed.event.initialKey := by
  constructor
  · rintro ⟨effects, hdecision⟩
    have hrecovered := h.recovered hdecision
    obtain ⟨hreplaced, hvalid, hroom⟩ := AccountService.replaceDeviceKey_spec hm.state.settled hrecovered.registry
    obtain ⟨hnamed, hrevision⟩ := AccountControl.applySecurityChange_some.mp ⟨_, hrecovered.control⟩
    exact ⟨hreplaced.fresh, hnamed, hvalid, hroom, hrevision⟩
  · rintro ⟨hfresh, hnamed, hvalid, hroom, hrevision⟩
    obtain ⟨seconds, hseconds⟩ := seconds_eq_some now
    obtain ⟨owner, howner⟩ := h.account
    obtain ⟨_, _, hchange, hreference, hpersona⟩ := h.change
    obtain ⟨registry, hregistry⟩ :=
      @AccountService.replaceDeviceKey_succeeds _ _ _ persona _ _ hm.state.settled hfresh hvalid hroom
    obtain ⟨control, hcontrol⟩ := AccountControl.applySecurityChange_some.mpr ⟨hnamed, hrevision⟩
    have hregistry' := InPlace.accepted_eq_ok.mpr ⟨(), hregistry⟩
    have hprior := h.unprecedented hm
    unfold AccountService.applyIdentityChange AccountService.recoverDevice securityContext
    simp only [hseconds, okOr, ok_bind, h.verified seconds hseconds, Except.mapError, h.subject, h.product, hprior,
      h.version, howner, hchange, hreference, hpersona, h.persona, refuseIf, ne_eq, not_true_eq_false, or_self,
      if_false, Bool.true_eq_false, hregistry', hcontrol]
    exact ⟨_, rfl⟩

/-- The key alone has authority and manages; what was received before is verified as it was,
with the same errors for every key there was. -/
structure TakenOver [Cbor] (s : AccountState) (reference : OperationalKeyRef) (persona : ProtocolIdentity)
    (key : Bytes32) (now : CanonicalTime) (s' : AccountState) : Prop where
  active : ∀ t, now ≤ t → ∀ other owner,
    s'.registry.activeActor other t = .ok owner ↔ other = reference ∧ owner = (.sender persona, key)
  activeKey : ∀ t, now ≤ t → ∀ other actor verifyingKey,
    s'.registry.activeVerifyingKey other actor t = .ok verifyingKey ↔
      other = reference ∧ actor = .sender persona ∧ verifyingKey = key
  managers : ∀ other, s'.control.isManager other = true ↔ other = reference
  status : s'.control.status = if s.control.status = .closed then .closed else .suspended
  received : ∀ (signed : SignedCommandBytes) receipt version scope command, receipt < now →
    (s'.registry.verify signed receipt version scope = .ok command ↔
      s.registry.verify signed receipt version scope = .ok command)
  refused : ∀ (signed : SignedCommandBytes) receipt version scope, receipt < now →
    (∀ envelope, decodeCommandEnvelope signed.payload = .ok envelope → envelope.operationalKey ≠ reference) →
    s'.registry.verify signed receipt version scope = s.registry.verify signed receipt version scope

omit [IdentityContract] in
theorem takenOver_of_recovered [Cbor] (h : AccountService.Recovered m.state signed.event reference persona now effects)
    (hm : m.Sound now) : TakenOver m.state reference persona signed.event.initialKey now effects.state := by
  have hreplaced := h.replaced hm.state
  have hsecured := AccountControl.applySecurityChange_secured h.control
  exact ⟨fun t ht other owner => hreplaced.activeActor_iff ht,
    fun t ht other actor verifyingKey => hreplaced.activeVerifyingKey_iff ht, hsecured.managers, hsecured.status,
    fun signed receipt version scope command hreceipt => hreplaced.verify_iff hreceipt,
    fun signed receipt version scope hreceipt hother => hreplaced.verify_eq hreceipt hother⟩

/-- **Device recovery.** In every account reached from an enrolment by commands and events in
the order of their times, each manager's key has current authority and each key is of a
persona of the account. A recovery next in turn is decided positively exactly when the new
key can be registered and no counter is at its end; what it decides, the account records
whenever its effects are permitted among the other accounts, and it takes the account over.
A refused input leaves the account as it was. -/
theorem device_recovery [Cbor] {input : EnrollmentInput} {product : Text} {start : CanonicalTime}
    {enrolled : ManagedAccount} (henroll : enroll input product start = .ok enrolled) {inputs : List AccountInput}
    (horder : Machine.InOrder AccountInput.time start inputs) (hstart : start ≤ now)
    (hnow : ∀ i ∈ inputs, i.time ≤ now)
    (hm : m = InPlace.calls (AccountInput.method subject trust) enrolled inputs) :
    (∀ reference, m.state.control.isManager reference = true →
      ∃ owner, m.state.registry.activeActor reference now = .ok owner) ∧
    (∀ reference key, m.state.registry.keys.get? reference = some key →
      ∃ p, key.actor.persona = some p ∧ m.state.control.personas.contains p = true) ∧
    (∀ signed reference persona bank bankContext, m.Recovers subject trust signed now reference persona →
      ((∃ effects, AccountService.applyIdentityChange (m.securityContext signed subject trust bankContext) signed bank
        now = .ok ⟨(), some effects⟩) ↔ m.Able reference signed.event.initialKey) ∧
      ∀ effects, AccountService.applyIdentityChange (m.securityContext signed subject trust bankContext) signed bank
          now = .ok ⟨(), some effects⟩ →
        TakenOver m.state reference persona signed.event.initialKey now effects.state ∧
        ∀ permit, permit effects = .ok () →
          (securityChange signed bank subject trust bankContext now permit).on m = (.ok (), {m with
            state := effects.state
            version := signed.event.securityVersion
            events := m.events.insert signed.event.securityVersion signed})) ∧
    ∀ (i : AccountInput) e m', (i.method subject trust).on m = (.error e, m') → m' = m := by
  subst hm
  have hsound := @run_sound _ _ _ _ _ subject trust _ _ _ henroll _ horder hstart hnow
  refine ⟨fun reference hmanager => hsound.state.manager_active hmanager, hsound.state.owned,
    fun signed reference persona bank bankContext hrecovers => ⟨hrecovers.decided hsound, fun effects hdecision =>
      ⟨takenOver_of_recovered (hrecovers.recovered hdecision) hsound, fun permit hpermit => ?_⟩⟩,
    fun i e m' hrefused => method_atomic i _ e m' hrefused⟩
  exact securityChange_eq_ok.mpr ⟨some effects, hdecision, hpermit, rfl⟩

end

end ManagedAccount

end

namespace ManagedAccount

namespace Example

open BillingAccount.Example (crypto json)

@[reducible] def contract : IdentityContract := ⟨fun _ => .ok zero32⟩

/-- Whatever is presented was signed. -/
def trust : DecisionVerifier := ⟨fun signed _ => .ok signed.event, fun h => (Except.ok.inj h).symm⟩

def input : EnrollmentInput := ⟨BillingAccount.Example.evidence, ⟨2⟩, .sender ⟨2⟩, ⟨11⟩, zero32, 1⟩

def product : Text := "cs-mail/test".toList

def subject : Text := "fixture-subject-2".toList

def start : CanonicalTime := ⟨1000⟩

def enrolled : ManagedAccount where
  state := ⟨⟨.active, 0, SortedMap.insert ∅ ⟨2⟩ (), SortedMap.insert ∅ ⟨11⟩ (), .singleton (by decide),
    .singleton (by decide)⟩, @KeyRegistry.after crypto [.register ⟨11⟩ (.sender ⟨2⟩) zero32 start], product⟩
  version := 1
  events := ∅
  commands := ∅

def signedCommand (revision : U64) (id : IdempotencyKey) (command : AccountCommand) : SignedAccountCommand :=
  ⟨⟨7⟩, ⟨11⟩, revision, id, product, command, List.replicate 64 0⟩

/-- A second key becomes a manager. -/
def inputs : List AccountInput := [
  .command (signedCommand 0 ⟨20⟩ (.registerKey ⟨⟨13⟩, .sender ⟨2⟩, zero32, List.replicate 64 0⟩)) ⟨2000⟩
    fun _ => .ok (),
  .command (signedCommand 1 ⟨21⟩ (.grantManager ⟨13⟩)) ⟨2000⟩ fun _ => .ok ()]

def reached : ManagedAccount :=
  InPlace.calls (@AccountInput.method crypto json contract subject trust) enrolled inputs

/-- Both keys are lost, and a third one recovers the account. -/
def signed : SignedSecurityEvent :=
  ⟨⟨product, "7".toList, subject, 2, .recoverDevice "12".toList "2".toList, zero32, zero32⟩, []⟩

def now : CanonicalTime := ⟨3000⟩

end Example

/-- In the example the account had two managers, and its recovery is carried out. -/
theorem device_recovery_of_two :
    Example.reached.state.control.managers.keys = [⟨11⟩, ⟨13⟩] ∧
    ∃ effects, @AccountService.applyIdentityChange BillingAccount.Example.crypto BillingAccount.Example.json Example.contract
        (Example.reached.securityContext Example.signed Example.subject Example.trust none) Example.signed none
        Example.now = .ok ⟨(), some effects⟩ ∧
      @TakenOver BillingAccount.Example.crypto BillingAccount.Example.json CanonicalCommandEnvelope.Example.cbor
        Example.reached.state ⟨12⟩ ⟨2⟩ zero32 Example.now effects.state := by
  refine ⟨by decide +kernel, ?_⟩
  obtain ⟨-, -, hrecovery, -⟩ := @device_recovery BillingAccount.Example.crypto BillingAccount.Example.json
    Example.contract Example.reached Example.now Example.subject Example.trust CanonicalCommandEnvelope.Example.cbor
    Example.input Example.product Example.start Example.enrolled rfl Example.inputs
    ⟨by decide, by decide, trivial⟩ (by decide) (by decide) rfl
  obtain ⟨hdecided, htaken⟩ := hrecovery Example.signed ⟨12⟩ ⟨2⟩ none none
    ⟨fun _ _ => rfl, rfl, by decide +kernel, by decide +kernel, ⟨7, by decide⟩, ⟨_, _, rfl, by decide, by decide⟩,
      by decide +kernel⟩
  obtain ⟨effects, heffects⟩ := hdecided.mpr (@Able.mk BillingAccount.Example.crypto _ _ _ (by decide +kernel)
    (by decide) rfl ⟨by decide +kernel, by decide +kernel⟩ (by decide +kernel))
  exact ⟨effects, heffects, (htaken effects heffects).1⟩

end ManagedAccount

end CsMail
