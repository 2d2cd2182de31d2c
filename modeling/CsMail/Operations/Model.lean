import CsMail.Ingress.Log
import CsMail.Library.Publication
import CsMail.Protocol.Pricing

/-! The deployment's fixed identity and trust roots, the authority of its operators, and what they publish.

Bootstrap fixes the deployment once. Operators act only through commands signed by a key that was
installed then; each is remembered under its identity, with its outcome. The transactions are those of
the service over the deployment's tables. -/
namespace CsMail.Operations
open Library
open Ingress (OperationsError ProcessingTarget ProcessingStatus)

/-! ### Bootstrap -/

/-- One operator signing key; distinct from every protocol operational key. -/
structure OperatorKeyRef where
  val : U128
  deriving DecidableEq

/-- One of the service's own keys. -/
structure ProviderKey where
  reference : OperationalKeyRef
  verifyingKey : Bytes32
  deriving DecidableEq

structure PaymentTrust where
  processorKey : Bytes32
  bankAuthority : Bytes32
  deriving DecidableEq

structure IdentityTrust where
  issuer : Text
  product : Text
  decisionKey : Bytes32
  deriving DecidableEq

section Bootstrap
variable [Crypto]

/-- The operators' verifying keys: at least one, none zero. -/
structure OperatorKeys where
  keys : SortedMap U128 Bytes32
  valid : ¬(keys.entries = [] ∨
    keys.entries.any (fun e => e.1 = 0 ∨ e.2 = zero32 ∨ Crypto.validKey e.2 = false) = true)

instance : DecidableEq OperatorKeys := fun a b =>
  decidable_of_iff (a.keys = b.keys) (by cases a; cases b; simp)

def OperatorKeys.new (keys : SortedMap U128 Bytes32) : Except OperationsError OperatorKeys :=
  if h : keys.entries = [] ∨
      keys.entries.any (fun e => e.1 = 0 ∨ e.2 = zero32 ∨ Crypto.validKey e.2 = false) = true then .error .invalid
  else .ok ⟨keys, h⟩

structure BootstrapRecord where
  provider : ProviderRef
  deploymentDomain : Bytes32
  financialScope : FinancialScope
  unit : SettlementUnit
  /-- Signs quotes and receipts. -/
  providerKey : ProviderKey
  /-- Authorizes the service's own deadline commands; it never signs anything a member sees. -/
  schedulerKey : ProviderKey
  operators : OperatorKeys
  payment : PaymentTrust
  identity : IdentityTrust
  deriving DecidableEq

def validKey (key : Bytes32) : Bool := key ≠ zero32 ∧ Crypto.validKey key = true

/-- What makes a record unusable. -/
abbrev BootstrapRecord.inconsistent (r : BootstrapRecord) : Prop :=
  r.provider.val = 0 ∨ r.deploymentDomain = zero32 ∨ r.financialScope.deploymentDomain ≠ r.deploymentDomain ∨
    r.financialScope.operator ≠ r.provider ∨ r.providerKey.reference.val = 0 ∨
    validKey r.providerKey.verifyingKey = false ∨ r.schedulerKey.reference.val = 0 ∨
    r.schedulerKey.reference = r.providerKey.reference ∨ validKey r.schedulerKey.verifyingKey = false ∨
    validKey r.payment.processorKey = false ∨ validKey r.payment.bankAuthority = false ∨
    validKey r.identity.decisionKey = false ∨ ("https://".toList.isPrefixOf r.identity.issuer) = false ∨
    r.identity.product = []

/-- Everything fixed when the deployment is created. -/
structure DeploymentBootstrap where
  record : BootstrapRecord
  consistent : ¬record.inconsistent

instance : DecidableEq DeploymentBootstrap := fun a b =>
  decidable_of_iff (a.record = b.record) (by cases a; cases b; simp)

inductive BootstrapOutcome
  | created
  | alreadyBootstrapped
  deriving DecidableEq

/-- What every protocol policy version of a deployment shares. -/
structure DeploymentTerms where
  protocolVersion : ProtocolVersion
  provider : ProviderRef
  unit : SettlementUnit
  financialScope : FinancialScope
  paymentProviderKey : Bytes32
  deriving DecidableEq

/-- Verifies operator commands for one deployment. -/
structure OperatorAuthority where
  deploymentDomain : Bytes32
  keys : OperatorKeys
  deriving DecidableEq

namespace DeploymentBootstrap

def new (record : BootstrapRecord) : Except OperationsError DeploymentBootstrap :=
  if h : record.inconsistent then .error .invalid else .ok ⟨record, h⟩

/-- A deployment's provider key, operators and trust roots are never replaced here. -/
def reconcile (b : DeploymentBootstrap) : Option DeploymentBootstrap → Except OperationsError BootstrapOutcome
  | none => .ok .created
  | some existing => if existing = b then .ok .alreadyBootstrapped else .error .bootstrapConflict

def deploymentTerms (b : DeploymentBootstrap) : DeploymentTerms where
  protocolVersion := b.record.financialScope.protocolVersion
  provider := b.record.provider
  unit := b.record.unit
  financialScope := b.record.financialScope
  paymentProviderKey := b.record.payment.processorKey

def operatorAuthority (b : DeploymentBootstrap) : OperatorAuthority := ⟨b.record.deploymentDomain, b.record.operators⟩

end DeploymentBootstrap

end Bootstrap

/-! ### Protocol policies -/

def maxBackoffSteps : ℕ := 16

/-- The published fields of a policy. -/
structure ProtocolPolicyRecord where
  replyLane : ReplyLaneTerms
  version : PolicyVersion
  privacyProfileVersion : PrivacyProfileVersion
  retentionPolicyVersion : RetentionPolicyVersion
  /-- From request creation until the initial message must be submitted. -/
  submissionWindow : Duration
  /-- From submission until the recipient must decide. -/
  decisionWindow : Duration
  quoteLifetime : Duration
  /-- Waiting time before another request to the same recipient, by request level. -/
  backoff : List Duration
  expiryCooldown : Duration
  rejectionCooldown : Duration
  /-- The share of forfeited collateral, in basis points. -/
  corporateBasisPoints : U16
  maturityDelay : Duration
  deriving DecidableEq

abbrev ProtocolPolicyRecord.invalid (r : ProtocolPolicyRecord) : Prop :=
  r.version.val = 0 ∨ [r.submissionWindow, r.decisionWindow, r.quoteLifetime].any (fun d => d.val = 0) = true ∨
    r.backoff = [] ∨ maxBackoffSteps < r.backoff.length ∨ r.backoff.head? ≠ some ⟨0⟩ ∨
    (r.backoff.zip r.backoff.tail).all (fun pair => pair.1 ≤ pair.2) = false ∨ 10000 < r.corporateBasisPoints.val

/-- One operator-published version of the protocol policy. -/
structure ProtocolPolicy where
  record : ProtocolPolicyRecord
  valid : ¬record.invalid

namespace ProtocolPolicy

instance : DecidableEq ProtocolPolicy := fun a b =>
  decidable_of_iff (a.record = b.record) (by cases a; cases b; simp)

def new (record : ProtocolPolicyRecord) : Except ProtocolError ProtocolPolicy :=
  if h : record.invalid then .error .policyInvalid else .ok ⟨record, h⟩

def version (p : ProtocolPolicy) : PolicyVersion := p.record.version

/-- A version's rules and the deployment's terms, together. -/
def assembled (p : ProtocolPolicy) (deployment : DeploymentTerms) : PolicySnapshot where
  replyLane := p.record.replyLane
  protocolVersion := deployment.protocolVersion
  policyVersion := p.record.version
  privacyProfileVersion := p.record.privacyProfileVersion
  retentionPolicyVersion := p.record.retentionPolicyVersion
  recipientProvider := deployment.provider
  unit := deployment.unit
  submissionWindow := p.record.submissionWindow
  decisionWindow := p.record.decisionWindow
  quoteLifetime := p.record.quoteLifetime
  backoff := p.record.backoff
  financial := ⟨deployment.financialScope, p.record.version, p.record.corporateBasisPoints, p.record.maturityDelay⟩
  paymentProviderKey := deployment.paymentProviderKey
  expiryCooldown := p.record.expiryCooldown
  rejectionCooldown := p.record.rejectionCooldown

/-- The complete policy the kernel applies under this version and deployment. -/
def snapshot (p : ProtocolPolicy) (deployment : DeploymentTerms) : Except ProtocolError PolicySnapshot := do
  refuseIf (deployment.financialScope.protocolVersion ≠ deployment.protocolVersion ∨
    deployment.paymentProviderKey = zero32) .policyInvalid
  (p.assembled deployment).validate
  .ok (p.assembled deployment)

end ProtocolPolicy

/-! ### Configuration -/

instance : DecidableEq RequestPricingPolicy := fun a b =>
  decidable_of_iff (a.version = b.version ∧ a.unit = b.unit ∧ a.processingCharge = b.processingCharge ∧
    a.collateralMin = b.collateralMin ∧ a.collateralMax = b.collateralMax) (by cases a; cases b; simp)

instance : DecidableEq RequestClass := fun a b =>
  decidable_of_iff (a.selection = b.selection ∧ a.collateral = b.collateral) (by cases a; cases b; simp)

instance : DecidableEq RecipientRequestClasses := fun a b =>
  decidable_of_iff (a.address = b.address ∧ a.recipient = b.recipient ∧ a.version = b.version ∧
    a.classes = b.classes) (by cases a; cases b; simp)

/-- Commands that change published configuration. -/
inductive OperatorCommand
  | publishServiceOffer (offer : ServiceOffer)
  | publishRequestPricing (policy : RequestPricingPolicy)
  | publishProtocolPolicy (policy : ProtocolPolicy)

/-- The recorded result, returned again on an exact retry. -/
inductive OperatorOutcome
  | serviceOfferPublished (version : PolicyVersion) (changed : Bool)
  | requestPricingPublished (version : PolicyVersion) (changed : Bool) (addressesWithUnquotableClasses : ℕ)
  | protocolPolicyPublished (version : PolicyVersion) (changed : Bool)
  deriving DecidableEq

/-- Inspection and resumption of received commands; never a business override. -/
inductive ProcessingCommand
  | inspect (limit : U16)
  | resume (position : JournalPosition) (digest : Bytes32)
  deriving DecidableEq

structure ProcessingInspection where
  position : JournalPosition
  digest : Bytes32
  status : ProcessingStatus

inductive ProcessingResponse
  | pending (items : List ProcessingInspection)
  | resumed (position : JournalPosition) (changed : Bool)

/-! ### Signed commands -/

/-- A family of operator commands with its own signing domain. -/
class CommandFamily (C : Type) where
  signingDomain : Text
  name : Text
  /-- The bytes serde_json writes a command as, under its domain, deployment, key and identity. -/
  toVec : Text × Bytes32 × OperatorKeyRef × IdempotencyKey × C → Option Bytes

/-- serde_json, for the commands of the two families. -/
class OperatorJson where
  configuration : Text × Bytes32 × OperatorKeyRef × IdempotencyKey × OperatorCommand → Option Bytes
  processing : Text × Bytes32 × OperatorKeyRef × IdempotencyKey × ProcessingCommand → Option Bytes

instance [OperatorJson] : CommandFamily OperatorCommand where
  signingDomain := "cs-mail/operator-command/v1".toList
  name := "configuration".toList
  toVec := OperatorJson.configuration

instance [OperatorJson] : CommandFamily ProcessingCommand where
  signingDomain := "cs-mail/processing-command/v1".toList
  name := "processing".toList
  toVec := OperatorJson.processing

structure SignedOperatorCommand (C : Type) where
  deploymentDomain : Bytes32
  operator : OperatorKeyRef
  idempotencyKey : IdempotencyKey
  command : C
  signature : Bytes

def SignedOperatorCommand.bytes {C : Type} [CommandFamily C] (s : SignedOperatorCommand C) :
    Except OperationsError Bytes :=
  okOr (CommandFamily.toVec (CommandFamily.signingDomain C, s.deploymentDomain, s.operator, s.idempotencyKey, s.command))
    .invalid

/-- A command whose operator signature has been verified. -/
structure VerifiedOperatorCommand (C : Type) where
  operator : OperatorKeyRef
  idempotencyKey : IdempotencyKey
  /-- Digest of the exact signed bytes; a retry must carry the same digest. -/
  digest : Bytes32
  command : C

def OperatorAuthority.verify {C : Type} [Crypto] [CommandFamily C] (a : OperatorAuthority)
    (signed : SignedOperatorCommand C) : Except OperationsError (VerifiedOperatorCommand C) := do
  refuseIf (signed.deploymentDomain ≠ a.deploymentDomain) .unauthorized
  let key ← okOr (a.keys.keys.get? signed.operator.val) .unauthorized
  let bytes ← signed.bytes
  refuseIf (signed.signature.length ≠ 64) .unauthorized
  refuseIf (Crypto.validKey key = false) .unauthorized
  refuseIf (Crypto.verifyStrict key bytes signed.signature = false) .unauthorized
  .ok ⟨signed.operator, signed.idempotencyKey, Crypto.sha256 (bytes ++ signed.signature), signed.command⟩

/-- The outcome recorded for the command, if it is the one that was executed under its identity. -/
def replay {C O : Type} (command : VerifiedOperatorCommand C) : Option (Bytes32 × O) → Except OperationsError (Option O)
  | none => .ok none
  | some (digest, outcome) => if digest = command.digest then .ok (some outcome) else .error .duplicateConflict

/-! ### What a command may publish -/

/-- Whether a service offer is new. -/
def decideServiceOffer (offer : ServiceOffer) : Option ServiceOffer → Except BillingError Bool
  | none => .ok true
  | some existing => if existing = offer then .ok false else .error .conflict

/-- Whether a protocol policy changes the current one. Issued request terms keep the windows they were
issued under. -/
def decideProtocolPolicy (policy : ProtocolPolicy) (current sameVersion : Option ProtocolPolicy) :
    Except ProtocolError Bool := do
  refuseIf (sameVersion.any (· ≠ policy) = true) .duplicateConflict
  match current with
  | none => .ok true
  | some current =>
    if current = policy then .ok false
    else if policy.version ≤ current.version then .error .versionConflict
    else .ok true

/-- The addresses with a class the policy does not admit. -/
def unquotable (policy : RequestPricingPolicy) (publications : List RecipientRequestClasses) : ℕ :=
  publications.countP fun p => !policy.permits p

/-- Whether a pricing policy changes the current one; the unit never does. -/
def decidePolicy (policy : RequestPricingPolicy) (current sameVersion : Option RequestPricingPolicy) :
    Except ProtocolError Bool := do
  refuseIf (sameVersion.any (· ≠ policy) = true) .duplicateConflict
  match current with
  | none => .ok true
  | some current =>
    if current = policy then .ok false
    else if policy.version ≤ current.version then .error .versionConflict
    else if policy.unit ≠ current.unit then .error .policyInvalid
    else .ok true

/-! ### Request classes -/

/-- A recipient address's request classes, signed by a key of that address. -/
structure SignedRequestClasses where
  scope : RecipientSigningScope
  operationalKey : OperationalKeyRef
  classes : RecipientRequestClasses
  signature : Bytes

class ClassesJson where
  toVec : Text × RecipientSigningScope × OperationalKeyRef × RecipientRequestClasses → Option Bytes

def SignedRequestClasses.verify [Crypto] [ClassesJson] (s : SignedRequestClasses) (key : Bytes32) :
    Except SecurityError Unit := do
  refuseIf (Crypto.validKey key = false ∨ s.signature.length ≠ 64) .invalidSignature
  let bytes ← okOr (ClassesJson.toVec ("cs-mail/alias-request-classes/v3".toList, s.scope, s.operationalKey, s.classes))
    .invalidSignature
  refuseIf (Crypto.verifyStrict key bytes s.signature = false) .invalidSignature

/-- Whether the classes replace what the address has published. -/
def decideClasses [Crypto] [ClassesJson] (signed : SignedRequestClasses) (expected : RecipientSigningScope)
    (authority : AuthoritySnapshot) (policy : Option RequestPricingPolicy) (current : Option RecipientRequestClasses)
    (now : CanonicalTime) : Except Ingress.StorageError Bool := do
  refuseIf (signed.scope ≠ expected) (.security .signingScopeMismatch)
  let key ← (authority.activeVerifyingKey signed.operationalKey (.recipient signed.classes.recipient) now).mapError
    .security
  (signed.verify key).mapError .security
  let policy ← okOr policy (.protocol .policyInvalid)
  refuseIf (policy.permits signed.classes = false) (.protocol .requestClassOutsidePolicy)
  match current with
  | none => .ok true
  | some old =>
    if old = signed.classes then .ok false
    else if signed.classes.version ≤ old.version then .error (.protocol .versionConflict)
    else .ok true

/-! ### The deployment -/

/-- The audit record committed with an effect. -/
structure OperatorRecord (C O : Type) where
  operator : OperatorKeyRef
  digest : Bytes32
  command : C
  outcome : O
  authorizedAt : BigInt

/-- The one arrangement payments are processed under. -/
structure PaymentArrangement where
  scope : FinancialScope
  unit : SettlementUnit
  trust : PaymentTrust
  deriving DecidableEq

/-- The checks of the identity service's contract on an issuer, a product and a key. -/
class DecisionKeys where
  accepts : IdentityTrust → Bool

structure Deployment [Crypto] where
  record : Option DeploymentBootstrap
  arrangement : Option PaymentArrangement
  identity : Option IdentityTrust
  configuration : SortedMap IdempotencyKey (OperatorRecord OperatorCommand OperatorOutcome)
  processing : SortedMap IdempotencyKey (OperatorRecord ProcessingCommand ProcessingResponse)
  offers : SortedMap PolicyVersion ServiceOffer
  pricing : Publications PolicyVersion RequestPricingPolicy
  protocol : Publications PolicyVersion ProtocolPolicy
  /-- What each address has published last. -/
  classes : SortedMap AliasId RecipientRequestClasses
  /-- The received commands, as an operator may know them. -/
  received : SortedMap BigInt ProcessingTarget

namespace Deployment
variable [Crypto]

def empty : Deployment := ⟨none, none, none, ∅, ∅, ∅, .empty, .empty, ∅, ∅⟩

/-! ### Bootstrapping -/

/-- An existing different arrangement is a conflict. -/
def installArrangement (t : Deployment) (arrangement : PaymentArrangement) : Except Ingress.StorageError Deployment := do
  refuseIf (arrangement.trust.processorKey = zero32 ∨ arrangement.trust.bankAuthority = zero32) (.billing .conflict)
  let installed := t.arrangement.getD arrangement
  refuseIf (installed ≠ arrangement) (.billing .conflict)
  .ok {t with arrangement := some installed}

def installIdentityTrust [DecisionKeys] (t : Deployment) (trust : IdentityTrust) :
    Except Ingress.StorageError Deployment := do
  refuseIf (DecisionKeys.accepts trust = false) .identity
  let installed := t.identity.getD trust
  refuseIf (installed ≠ trust) .identity
  .ok {t with identity := some installed}

/-- Creates the deployment with its trust roots, or confirms an identical one. -/
def bootstrap [DecisionKeys] (t : Deployment) (b : DeploymentBootstrap) (now : CanonicalTime) :
    Except Ingress.StorageError (Deployment × BootstrapOutcome) := do
  refuseIf (t.received.values.any (·.status ≠ .completed) = true) .pendingCommands
  let outcome ← (b.reconcile t.record).mapError .operations
  match outcome with
  | .alreadyBootstrapped => .ok (t, outcome)
  | .created => do
    let _ ← (toI64 now.val).mapError fun _ => Ingress.StorageError.numericRange
    let created := {t with record := some b}
    let arranged ← created.installArrangement ⟨b.record.financialScope, b.record.unit, b.record.payment⟩
    let trusted ← arranged.installIdentityTrust b.record.identity
    .ok (trusted, outcome)

def authority (t : Deployment) : Except Ingress.StorageError OperatorAuthority :=
  (okOr t.record (.operations .notBootstrapped)).map DeploymentBootstrap.operatorAuthority

/-! ### Configuration commands -/

def numericRange (version : U64) : Except Ingress.StorageError BigInt :=
  (toI64 version).mapError fun _ => .numericRange

/-- The identity of a policy version as a column has it, or a refusal. -/
def checkTarget : OperatorCommand → Except Ingress.StorageError Unit
  | .publishServiceOffer _ => .ok ()
  | .publishRequestPricing policy => (numericRange policy.version.val).map fun _ => ()
  | .publishProtocolPolicy policy => (numericRange policy.version.val).map fun _ => ()

/-- What a command changes, and its outcome. -/
def publish (t : Deployment) (command : OperatorCommand) (at' : CanonicalTime) :
    Except Ingress.StorageError (Deployment × OperatorOutcome) :=
  match command with
  | .publishServiceOffer offer => do
    let changed ← (decideServiceOffer offer (t.offers.get? offer.version)).mapError .billing
    .ok (if changed then {t with offers := t.offers.insert offer.version offer} else t,
      .serviceOfferPublished offer.version changed)
  | .publishRequestPricing policy => do
    let changed ← (decidePolicy policy t.pricing.latest (t.pricing.versions.get? policy.version)).mapError .protocol
    let outcome := .requestPricingPublished policy.version changed (unquotable policy t.classes.values)
    if changed then do
      let _ ← numericRange at'.val
      .ok ({t with pricing := t.pricing.record policy.version policy}, outcome)
    else .ok (t, outcome)
  | .publishProtocolPolicy policy => do
    let changed ← (decideProtocolPolicy policy t.protocol.latest (t.protocol.versions.get? policy.version)).mapError
      .protocol
    let outcome := .protocolPolicyPublished policy.version changed
    if changed then do
      let _ ← numericRange at'.val
      .ok ({t with protocol := t.protocol.record policy.version policy}, outcome)
    else .ok (t, outcome)

/-- Verifies and executes one operator command; its effect and its audit record commit together. -/
def execute [OperatorJson] (t : Deployment) (signed : SignedOperatorCommand OperatorCommand) (now : CanonicalTime) :
    Except Ingress.StorageError (Deployment × OperatorOutcome) := do
  let authority ← t.authority
  checkTarget signed.command
  let verified ← (authority.verify signed).mapError .operations
  let prior := (t.configuration.get? signed.idempotencyKey).map fun r => (r.digest, r.outcome)
  let replayed ← (replay verified prior).mapError .operations
  match replayed with
  | some outcome => .ok (t, outcome)
  | none => do
    let (t', outcome) ← t.publish verified.command now
    let authorizedAt ← numericRange now.val
    let record := ⟨verified.operator, verified.digest, verified.command, outcome, authorizedAt⟩
    .ok ({t' with configuration := t'.configuration.insert signed.idempotencyKey record}, outcome)

/-! ### Processing commands -/

def inspections (t : Deployment) : List (BigInt × ProcessingTarget) :=
  t.received.entries.filter fun e => e.2.status ≠ .completed

/-- Inspects or resumes received commands. The signature is verified before anything is read. -/
def manageProcessing [OperatorJson] (t : Deployment) (signed : SignedOperatorCommand ProcessingCommand)
    (now : CanonicalTime) : Except Ingress.StorageError (Deployment × ProcessingResponse) := do
  let authority ← t.authority
  let verified ← (authority.verify signed).mapError .operations
  let prior := (t.processing.get? signed.idempotencyKey).map fun r => (r.digest, r.outcome)
  match signed.command with
  | .inspect limit => do
    refuseIf (limit.val = 0 ∨ 100 < limit.val) (.operations .invalid)
    let replayed ← (replay verified prior).mapError .operations
    .ok (t, replayed.getD (.pending ((t.inspections.take limit.val).map fun e =>
      ⟨Ingress.journalPosition e.1, e.2.digest, e.2.status⟩)))
  | .resume position digest => do
    let stored ← numericRange position.val
    let target ← okOr (t.received.get? stored) (.operations .invalid)
    let replayed ← (replay verified prior).mapError .operations
    match replayed with
    | some response => .ok (t, response)
    | none => do
      let changed ← (target.resume digest).mapError .operations
      let authorizedAt ← numericRange now.val
      let response := .resumed position changed
      let record := ⟨verified.operator, verified.digest, verified.command, response, authorizedAt⟩
      .ok ({t with
        received := t.received.insert stored {target with status := .ready}
        processing := t.processing.insert signed.idempotencyKey record}, response)

/-! ### Publishing classes -/

/-- An address's classes, under what the address directory and the accounts say of it. -/
def publishClasses [ClassesJson] (t : Deployment) (signed : SignedRequestClasses) (expected : RecipientSigningScope)
    (authority : AuthoritySnapshot) (bonded : Bool) (now : CanonicalTime) : Except Ingress.StorageError Deployment := do
  refuseIf (bonded = false) .duplicateConflict
  let changed ← decideClasses signed expected authority t.pricing.latest (t.classes.get? signed.classes.address) now
  if changed then do
    let _ ← numericRange signed.classes.version
    let _ ← numericRange now.val
    .ok {t with classes := t.classes.insert signed.classes.address signed.classes}
  else .ok t

/-- The complete policy under the current protocol policy version. -/
def policy (t : Deployment) : Option (Except ProtocolError PolicySnapshot) :=
  match t.record, t.protocol.latest with
  | some deployment, some policy => some (policy.snapshot deployment.deploymentTerms)
  | _, _ => none

end Deployment

/-! ### The machine -/

inductive Call [Crypto]
  | bootstrap (b : DeploymentBootstrap) (now : CanonicalTime)
  | execute (signed : SignedOperatorCommand OperatorCommand) (now : CanonicalTime)
  | manageProcessing (signed : SignedOperatorCommand ProcessingCommand) (now : CanonicalTime)
  | publishClasses (signed : SignedRequestClasses) (expected : RecipientSigningScope) (authority : AuthoritySnapshot)
      (bonded : Bool) (now : CanonicalTime)
  /-- The inbox moves on. -/
  | process (received : SortedMap BigInt ProcessingTarget)

/-- One transaction. It commits, or leaves everything as it was. -/
def call [Crypto] [DecisionKeys] [OperatorJson] [ClassesJson] (t : Deployment) :
    Call → Except Ingress.StorageError Deployment
  | .bootstrap b now => (t.bootstrap b now).map Prod.fst
  | .execute signed now => (t.execute signed now).map Prod.fst
  | .manageProcessing signed now => (t.manageProcessing signed now).map Prod.fst
  | .publishClasses signed expected authority bonded now => t.publishClasses signed expected authority bonded now
  | .process received => .ok {t with received}

end CsMail.Operations
