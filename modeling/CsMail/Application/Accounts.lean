import CsMail.Accounts.Control
import CsMail.Billing.Account

/-! Product account operations: management commands and identity-security events.

A decision runs on a copy of the account that was loaded for it, and only its effects are
stored; so whatever a refused decision had already done to the copy is gone. The identity
service's contract is another repository's: its verifier and its digest are parameters. -/
namespace CsMail
open Library

/-! ### The identity service's contract -/

/-- The errors this program names, and whatever else the contract's verifier returns. -/
inductive ContractError
  | invalid
  | context
  | unauthorized
  | conflict
  | unavailable
  | other (code : ℕ)
  deriving DecidableEq

inductive IdentityChange
  | recoverDevice (keyReference persona : Text)
  | rebindBank
  deriving DecidableEq

/-- The fields of an identity-security event that are read here. -/
structure SecurityEvent where
  product : Text
  account : Text
  subjectRef : Text
  securityVersion : U64
  change : IdentityChange
  initialKey : Bytes32
  bankDigest : Bytes32
  deriving DecidableEq

structure SignedSecurityEvent where
  event : SecurityEvent
  /-- What else the event says, and its signature. -/
  rest : Bytes
  deriving DecidableEq

/-- The keys a deployment trusts for events, as what they verify at a second. -/
structure DecisionVerifier where
  verifySecurityEvent : SignedSecurityEvent → Fin (2 ^ 63) → Except ContractError SecurityEvent
  /-- What is verified is what was signed. -/
  signed_event : ∀ {signed seconds event}, verifySecurityEvent signed seconds = .ok event → event = signed.event

class IdentityContract where
  /-- `digest` of bank evidence. -/
  bankDigest : BankVerification → Except ContractError Bytes32

/-- `str::parse::<u128>`. -/
def Text.parseU128 (t : Text) : Option U128 :=
  let digits := match t with
    | '+' :: rest => rest
    | _ => t
  if digits = [] ∨ digits.all Char.isDigit = false then none
  else Checked.ofNat (2 ^ 128) (digits.foldl (fun n c => 10 * n + (c.toNat - 48)) 0)

/-! ### Accounts -/

inductive OperationConflict
  | version
  | duplicate
  deriving DecidableEq

/-- Whatever an account operation is refused with. -/
inductive AccountFailure
  | contract (error : ContractError)
  | security (error : SecurityError)
  | billing (error : BillingError)
  | conflict (error : OperationConflict)
  deriving DecidableEq

structure AccountState where
  control : AccountControl
  registry : KeyRegistry
  product : Text
  deriving DecidableEq

/-- Shared live persona authority for signed correspondence and consent commands. -/
def AccountState.personaKey (s : AccountState) (product : Text) (persona : ProtocolIdentity)
    (reference : OperationalKeyRef) (time : CanonicalTime) : Except SecurityError Bytes32 := do
  let (actor, key) ← s.registry.activeActor reference time
  refuseIf (s.product ≠ product ∨ s.control.allowsService = false ∨
    s.control.personas.contains persona = false ∨ actor.persona ≠ some persona) .signingScopeMismatch
  .ok key

structure CommandContext where
  state : AccountState
  prior : Option (SignedAccountCommand × AccountControl)

structure BankChangeContext where
  account : BillingAccount
  authority : Bytes32
  maximumUnresolved : U32

structure SecurityContext where
  state : AccountState
  subject : Text
  version : U64
  trust : DecisionVerifier
  prior : Option SignedSecurityEvent
  bank : Option BankChangeContext

/-- What a decision has stored. -/
structure AccountEffects where
  state : AccountState
  key : Option (OperationalKeyRef × KeyClaim)
  persona : Option ProtocolIdentity
  bank : Option (BillingAccount × FundingSource)
  authorizedAt : CanonicalTime

/-- A recorded replay requires no new writes; a fresh decision carries its complete effects. -/
structure AccountDecision (α : Type) where
  outcome : α
  effects : Option AccountEffects

namespace AccountService
variable [Crypto] [Json]

/-! ### Commands -/

/-- A key to become a manager has authority of its own. -/
def checkGrant (registry : KeyRegistry) (time : CanonicalTime) : AccountCommand → Except AccountFailure Unit
  | .grantManager reference => do
    let _ ← (registry.activeActor reference time).mapError .security
    .ok ()
  | _ => .ok ()

/-- Registers the key of a command, with the claim of its ownership. -/
def registerKey (state : AccountState) (signed : SignedAccountCommand) (time : CanonicalTime) :
    Except AccountFailure (KeyRegistry × Option (OperationalKeyRef × KeyClaim)) :=
  match signed.command with
  | .registerKey key => do
    (key.verify signed.account signed.product).mapError fun _ => .contract .unauthorized
    let registry ←
      ((KeyRegistry.register key.reference key.actor key.key time).accepted state.registry).mapError .security
    .ok (registry, some (key.reference, .assigned (.account signed.account) key.actor key.key))
  | _ => .ok (state.registry, none)

def executeCommand (context : CommandContext) (signed : SignedAccountCommand) (time : CanonicalTime) :
    Except AccountFailure (AccountDecision AccountControl) := do
  let state := context.state
  let (_, key) ← (state.registry.activeActor signed.operationalKey time).mapError .security
  (signed.verify key).mapError fun _ => .contract .unauthorized
  refuseIf (state.product ≠ signed.product ∨ state.control.isManager signed.operationalKey = false)
    (.contract .unauthorized)
  match context.prior with
  | some (prior, outcome) =>
    refuseIf (prior ≠ signed) (.conflict .duplicate)
    .ok ⟨outcome, none⟩
  | none =>
    refuseIf (state.control.revision ≠ signed.expectedRevision) (.conflict .version)
    checkGrant state.registry time signed.command
    let (registry, key) ← registerKey state signed time
    let control ← (state.control.apply signed.command).mapError fun _ => .contract .conflict
    let persona := match signed.command with
      | .addPersona persona => some persona
      | _ => none
    .ok ⟨control, some ⟨{state with control, registry}, key, persona, none, time⟩⟩

/-! ### Identity-security events -/

/-- Revokes every key there is, and registers the only one that is good from now on. -/
def replaceDeviceKey (reference : OperationalKeyRef) (persona : ProtocolIdentity) (key : Bytes32)
    (time : CanonicalTime) : KeyRegistry.Method Unit := do
  let registry ← get
  (registry.records.map fun key => (key.reference, key.version)).forM fun (reference, version) =>
    KeyRegistry.revoke reference version time
  KeyRegistry.register reference (.sender persona) key time

def recoverDevice (state : AccountState) (event : SecurityEvent) (keyReference persona : Text)
    (time : CanonicalTime) : Except AccountFailure (KeyRegistry × OperationalKeyRef × ProtocolIdentity) := do
  let persona ← okOr persona.parseU128 (.contract .invalid)
  refuseIf (state.control.personas.contains ⟨persona⟩ = false) (.contract .unauthorized)
  let reference ← okOr keyReference.parseU128 (.contract .invalid)
  let registry ←
    ((replaceDeviceKey ⟨reference⟩ ⟨persona⟩ event.initialKey time).accepted state.registry).mapError .security
  .ok (registry, ⟨reference⟩, ⟨persona⟩)

def rebindBank [IdentityContract] (context : Option BankChangeContext) (event : SecurityEvent)
    (bank : Option BankVerification) : Except AccountFailure (BillingAccount × FundingSource) := do
  let bank ← okOr bank (.contract .invalid)
  let context ← okOr context (.contract .invalid)
  let digest ← (IdentityContract.bankDigest bank).mapError .contract
  refuseIf (digest ≠ event.bankDigest ∨ bank.account ≠ context.account.id) (.contract .context)
  let verified ← (bank.verify BankVerification.bytes context.authority).mapError fun e => .billing (.payment e)
  let source ← (FundingSource.verified verified context.maximumUnresolved).mapError fun e => .billing (.payment e)
  let account ← ((BillingAccount.rebindBank verified).accepted context.account).mapError .billing
  .ok (account, source)

def applyIdentityChange [IdentityContract] (context : SecurityContext) (signed : SignedSecurityEvent)
    (bank : Option BankVerification) (time : CanonicalTime) : Except AccountFailure (AccountDecision Unit) := do
  let state := context.state
  let seconds ← okOr (Checked.ofNat (2 ^ 63) (time.millis / 1000)) (.contract .invalid)
  let event ← (context.trust.verifySecurityEvent signed seconds).mapError .contract
  refuseIf (context.subject ≠ event.subjectRef ∨ state.product ≠ event.product) (.contract .context)
  match context.prior with
  | some prior =>
    refuseIf (prior ≠ signed) (.conflict .duplicate)
    .ok ⟨(), none⟩
  | none =>
    refuseIf (Checked.succ context.version ≠ some event.securityVersion) (.conflict .version)
    let owner ← okOr event.account.parseU128 (.contract .invalid)
    match event.change with
    | .recoverDevice keyReference persona =>
      let (registry, reference, persona) ← recoverDevice state event keyReference persona time
      let control ← (state.control.applySecurityChange (some reference)).mapError fun _ => .contract .invalid
      let claim := KeyClaim.assigned (.account ⟨owner⟩) (.sender persona) event.initialKey
      .ok ⟨(), some ⟨{state with control, registry}, some (reference, claim), none, none, time⟩⟩
    | .rebindBank =>
      let financial ← rebindBank context.bank event bank
      let control ← (state.control.applySecurityChange none).mapError fun _ => .contract .invalid
      .ok ⟨(), some ⟨{state with control}, none, none, some financial, time⟩⟩

end AccountService

/-! ### Stored accounts -/

/-- An account with the events and commands that were applied to it. -/
structure ManagedAccount where
  state : AccountState
  version : U64
  events : SortedMap U64 SignedSecurityEvent
  commands : SortedMap IdempotencyKey (SignedAccountCommand × AccountControl)

structure EnrollmentInput where
  bank : BankVerification
  persona : ProtocolIdentity
  actor : ActorRef
  keyRef : OperationalKeyRef
  initialKey : Bytes32
  maximumUnresolved : U32

def EnrollmentInput.validate (input : EnrollmentInput) : Except AccountError Unit :=
  refuseIf (input.persona.val = 0 ∨ input.keyRef.val = 0 ∨ input.maximumUnresolved = 0 ∨
    input.actor.persona ≠ some input.persona) .invalidInput

namespace ManagedAccount
variable [Crypto]

/-- The account that an activation records once its decision and its bank are verified. -/
def enroll (input : EnrollmentInput) (product : Text) (time : CanonicalTime) :
    Except AccountFailure ManagedAccount := do
  input.validate.mapError fun _ => .contract .invalid
  let control ← (AccountControl.new input.persona input.keyRef).mapError fun _ => .contract .invalid
  let registry ←
    ((KeyRegistry.register input.keyRef input.actor input.initialKey time).accepted .empty).mapError .security
  .ok ⟨⟨control, registry, product⟩, 1, ∅, ∅⟩

abbrev Method := InPlace ManagedAccount AccountFailure

variable [Json]

/-- `AccountStore::command`. Whether the effects' key and persona are free among all the
accounts, `permit` decides. -/
def command (signed : SignedAccountCommand) (time : CanonicalTime)
    (permit : AccountEffects → Except AccountFailure Unit) : Method AccountControl := do
  let m ← get
  let decision ← AccountService.executeCommand ⟨m.state, m.commands.get? signed.idempotencyKey⟩ signed time
  match decision.effects with
  | none => pure decision.outcome
  | some effects =>
    let _ ← permit effects
    modify ({· with state := effects.state})
    modify fun m => {m with commands := m.commands.insert signed.idempotencyKey (signed, decision.outcome)}
    pure decision.outcome

/-- `AccountStore::security_change`. -/
def securityChange [IdentityContract] (signed : SignedSecurityEvent) (bank : Option BankVerification)
    (subject : Text) (trust : DecisionVerifier) (bankContext : Option BankChangeContext) (time : CanonicalTime)
    (permit : AccountEffects → Except AccountFailure Unit) : Method Unit := do
  let m ← get
  let context : SecurityContext :=
    ⟨m.state, subject, m.version, trust, m.events.get? signed.event.securityVersion, bankContext⟩
  let decision ← AccountService.applyIdentityChange context signed bank time
  match decision.effects with
  | none => pure ()
  | some effects =>
    let _ ← permit effects
    modify ({· with state := effects.state})
    modify ({· with version := signed.event.securityVersion})
    modify fun m => {m with events := m.events.insert signed.event.securityVersion signed}

end ManagedAccount

end CsMail
