import CsMail.Consent.Grant
import CsMail.Correspondence.Command
import CsMail.Correspondence.Record

/-! Consent-gated recovery and processing.

Account recovery establishes authority; permission to use retained ciphertext is decided here,
apart from it. A decision reads what is stored and what the clock says, and names what to store. -/
namespace CsMail
open Library

/-! ### Requests -/

structure ProcessorRegistration where
  key : OperationalKeyRef
  verifyingKey : Bytes32
  usage : GrantUse
  active : Bool
  deriving DecidableEq

/-- Registration is trusted deployment configuration, never a content grant. -/
def ProcessorRegistration.validate [Crypto] (p : ProcessorRegistration) : Except ConsentError Unit := do
  p.usage.validate
  refuseIf (Crypto.validKey p.verifyingKey = false) .invalid
  refuseIf (p.usage.actor ≠ .csqdProcessor p.key) .invalid

inductive ConsentCommand
  | authorize (id : GrantId) (scope : ContentScope) (usage : GrantUse) (expiresAt : CanonicalTime)
  | revoke (id : GrantId)
  | inspect (id : GrantId)
  | read (id : GrantId) (message : MessageId) (purpose : DecryptionPurpose)
  deriving DecidableEq

def ConsentCommand.grantId : ConsentCommand → GrantId
  | authorize id .. | revoke id | inspect id | read id .. => id

/-- The part of a request its signature covers. -/
structure ConsentRequest where
  product : Text
  account : AccountId
  persona : ProtocolIdentity
  actor : DecryptionActor
  operation : IdempotencyKey
  command : ConsentCommand
  deriving DecidableEq

structure SignedConsentRequest extends ConsentRequest where
  signature : Bytes
  deriving DecidableEq

/-- The bytes serde_json writes a request as behind its label, if it does. -/
class ConsentJson where
  request : ConsentRequest → Option Bytes

namespace SignedConsentRequest
variable [Crypto] [ConsentJson]

def bytes (r : SignedConsentRequest) : Except ConsentError Bytes := do
  refuseIf (r.product = [] ∨ r.account.val = 0 ∨ r.persona.val = 0 ∨ r.operation.val = 0) .invalid
  okOr (ConsentJson.request r.toConsentRequest) .invalid

def verify (r : SignedConsentRequest) (key : Bytes32) : Except ConsentError Unit := do
  refuseIf (Crypto.validKey key = false) .unauthorized
  let bytes ← r.bytes
  refuseIf (r.signature.length ≠ 64) .unauthorized
  refuseIf (Crypto.verifyStrict key bytes r.signature = false) .unauthorized

/-- Audit records contain only the digest and signature. -/
def digest (r : SignedConsentRequest) : Except ConsentError Bytes32 := do
  let bytes ← r.bytes
  .ok (Crypto.sha256 bytes)

end SignedConsentRequest

/-! ### What a decision reads and names -/

structure ReleasedCopy where
  manifest : MessageManifest
  ciphertext : SealedRecord
  custodian : EndpointPublicKey
  deriving DecidableEq

inductive ConsentOutcome
  | granted (id : GrantId)
  | revoked (id : GrantId)
  | released (grant : GrantId) (message : MessageId)
  deriving DecidableEq

inductive ConsentResponse
  | outcome (outcome : ConsentOutcome)
  | grant (grant : DecryptionGrant)
  | released (copy : ReleasedCopy)
  /-- Historical commitment only: no cached ciphertext or new disclosure. -/
  | alreadyReleased (grant : GrantId) (message : MessageId)
  deriving DecidableEq

structure ConsentReceipt where
  account : AccountId
  persona : ProtocolIdentity
  actor : DecryptionActor
  operation : IdempotencyKey
  digest : Bytes32
  signature : Bytes
  verifyingKey : Bytes32
  authorizedAt : CanonicalTime
  outcome : ConsentOutcome
  deriving DecidableEq

structure RetainedRecovery where
  record : MessageRecord
  recovery : RecoveryCopy
  expiresAt : CanonicalTime
  deriving DecidableEq

structure ConsentContext where
  authority : AccountState
  custodyKey : EndpointPublicKey
  processor : Option ProcessorRegistration
  grant : Option DecryptionGrant
  retained : SortedMap MessageId RetainedRecovery
  prior : Option ConsentReceipt

structure ConsentEffects where
  grant : Option DecryptionGrant
  receipt : ConsentReceipt

structure ConsentDecision where
  response : ConsentResponse
  effects : Option ConsentEffects

/-- Constructed only after live authorization and entitlement. -/
structure AuthorizedDecryption where
  source : RecoveryCopy
  manifest : MessageManifest
  destination : EndpointPublicKey
  time : CanonicalTime
  expiresAt : CanonicalTime

/-- The custodian of one request: what it answers is its own affair. -/
structure LocalKeyCustody where
  publicKey : EndpointPublicKey
  release : AuthorizedDecryption → Except ConsentError ReleasedCopy

/-- The answer a recorded operation is repeated with. -/
def ConsentOutcome.repeated : ConsentOutcome → ConsentResponse
  | released grant message => .alreadyReleased grant message
  | granted id => .outcome (.granted id)
  | revoked id => .outcome (.revoked id)

theorem ConsentOutcome.repeated_ne_released (outcome : ConsentOutcome) (copy : ReleasedCopy) :
    outcome.repeated ≠ .released copy := by
  cases outcome <;> exact fun h => by cases h

/-- An outcome a command can have had. -/
def ConsentCommand.hasOutcome : ConsentCommand → ConsentOutcome → Bool
  | authorize id .., .granted g | revoke id, .revoked g => id = g
  | read id message _, .released grant m => id = grant ∧ message = m
  | _, _ => false

namespace ConsentService

/-! ### Authority -/

/-- The key the actor of a request signs with, if it may act for the persona now. -/
def actorKey [Crypto] (r : SignedConsentRequest) (authority : AccountState) (processor : Option ProcessorRegistration)
    (time : CanonicalTime) : Except ConsentError Bytes32 :=
  match r.actor with
  | .userDevice key => (authority.personaKey r.product r.persona key time).mapError fun _ => .unauthorized
  | .csqdProcessor key => do
    refuseIf (authority.product ≠ r.product ∨ authority.control.allowsService = false ∨
      authority.control.personas.contains r.persona = false) .unauthorized
    let p ← okOr (processor.filter fun p => p.key = key ∧ p.active = true) .unauthorized
    p.validate
    .ok p.verifyingKey

/-- Processors must be registered and active; registration never grants content access. -/
def authenticate [Crypto] [ConsentJson] (r : SignedConsentRequest) (authority : AccountState)
    (processor : Option ProcessorRegistration) (time : CanonicalTime) : Except ConsentError Bytes32 := do
  let key ← actorKey r authority processor time
  r.verify key
  .ok key

def ownedGrant (r : SignedConsentRequest) (c : ConsentContext) : Except ConsentError DecryptionGrant :=
  okOr (c.grant.filter fun g => g.terms.account = r.account ∧ g.terms.persona = r.persona ∧
    g.terms.id = r.command.grantId) .unauthorized

def entitled (c : ConsentContext) (r : SignedConsentRequest) (message : MessageId) (now : CanonicalTime) :
    Except ConsentError RetainedRecovery := do
  let retained ← okOr ((c.retained.get? message).filter fun v =>
    now < v.expiresAt ∧ now < v.recovery.ciphertext.expiresAt) .unavailable
  let copy := retained.recovery
  refuseIf (retained.record.manifest.message ≠ message ∨
    copy.ciphertext.binding.message ≠ message ∨
    copy.ciphertext.binding.recipient ≠ r.persona ∨
    copy.ciphertext.binding.sender ≠ retained.record.fields.author ∨
    copy.sender.reference ≠ copy.ciphertext.envelope.senderKey ∨
    copy.ciphertext.envelope.recipientKey ≠ c.custodyKey.reference) .invalid
  .ok retained

def checkProcessor [Crypto] (c : ConsentContext) (usage : GrantUse) : Except ConsentError Unit :=
  match usage.actor with
  | .userDevice _ => .ok ()
  | .csqdProcessor key => do
    let p ← okOr (c.processor.filter fun p => p.active = true ∧ p.key = key ∧ p.usage = usage) .unauthorized
    p.validate

/-! ### Commands -/

def issue [Crypto] (r : SignedConsentRequest) (c : ConsentContext) (now : CanonicalTime) :
    Except ConsentError DecryptionGrant :=
  match r.actor, r.command with
  | .csqdProcessor _, _ => .error .unauthorized
  | .userDevice issuer, .authorize id scope usage expiresAt => do
    refuseIf (c.grant.isSome = true) .conflict
    checkProcessor c usage
    scope.messages.keys.forM fun message => do
      let _ ← entitled c r message now
      .ok ()
    DecryptionGrant.issue ⟨id, r.account, r.persona, issuer, scope, usage, now, expiresAt⟩
  | .userDevice _, _ => .error .invalid

/-- The end of a released copy: of the grant, of the member's own copy or of the recovery copy. -/
def releaseExpiry (grant : DecryptionGrant) (retained : RetainedRecovery) : CanonicalTime :=
  min (min grant.terms.expiresAt retained.expiresAt) retained.recovery.ciphertext.expiresAt

def read [Crypto] (r : SignedConsentRequest) (c : ConsentContext) (custodian : LocalKeyCustody) (now : CanonicalTime) :
    Except ConsentError ReleasedCopy :=
  match r.command with
  | .read _ message purpose => do
    let grant ← ownedGrant r c
    -- Recovery revokes the old signing keys, invalidating their existing grants.
    let _ ← (c.authority.personaKey r.product r.persona grant.terms.issuer now).mapError fun _ => .unauthorized
    grant.authorize r.actor purpose message now
    checkProcessor c grant.terms.usage
    let retained ← entitled c r message now
    refuseIf (c.custodyKey ≠ custodian.publicKey) .unavailable
    let expiresAt := releaseExpiry grant retained
    let released ← custodian.release {
      source := retained.recovery
      manifest := retained.record.manifest
      destination := grant.terms.usage.destination
      time := now
      expiresAt}
    refuseIf (released.manifest ≠ retained.record.manifest ∨
      released.custodian ≠ c.custodyKey ∨
      released.ciphertext.binding ≠ retained.recovery.ciphertext.binding ∨
      released.ciphertext.envelope.recipientKey ≠ grant.terms.usage.destination.reference ∨
      released.ciphertext.expiresAt ≠ expiresAt) .invalid
    .ok released
  | _ => .error .invalid

def isDevice : DecryptionActor → Bool
  | .userDevice _ => true
  | .csqdProcessor _ => false

/-- A repeated operation: the same request, answered with what was recorded. -/
def replay (r : SignedConsentRequest) (prior : ConsentReceipt) (digest verifyingKey : Bytes32) :
    Except ConsentError ConsentDecision := do
  refuseIf (prior.digest ≠ digest ∨ prior.account ≠ r.account ∨ prior.persona ≠ r.persona ∨
    prior.actor ≠ r.actor ∨ prior.operation ≠ r.operation) .conflict
  refuseIf (r.command.hasOutcome prior.outcome = false ∨ prior.verifyingKey ≠ verifyingKey ∨
    prior.signature ≠ r.signature) .invalid
  .ok ⟨prior.outcome.repeated, none⟩

/-- The commands that leave a receipt. -/
def execute [Crypto] (r : SignedConsentRequest) (c : ConsentContext) (custodian : LocalKeyCustody)
    (now : CanonicalTime) : Except ConsentError (ConsentResponse × ConsentOutcome × Option DecryptionGrant) :=
  match r.command with
  | .authorize id .. => do
    let grant ← issue r c now
    .ok (.outcome (.granted id), .granted id, some grant)
  | .revoke id => do
    refuseIf (isDevice r.actor = false) .unauthorized
    let grant ← ownedGrant r c
    let revoked ← grant.revoke now
    .ok (.outcome (.revoked id), .revoked id, some revoked)
  | .read id message _ => do
    let released ← read r c custodian now
    .ok (.released released, .released id message, none)
  | .inspect _ => .error .invalid

def inspect (r : SignedConsentRequest) (c : ConsentContext) : Except ConsentError ConsentDecision := do
  refuseIf (isDevice r.actor = false) .unauthorized
  let grant ← ownedGrant r c
  .ok ⟨.grant grant, none⟩

def receipt (r : SignedConsentRequest) (digest verifyingKey : Bytes32) (now : CanonicalTime)
    (outcome : ConsentOutcome) : ConsentReceipt where
  account := r.account
  persona := r.persona
  actor := r.actor
  operation := r.operation
  digest := digest
  signature := r.signature
  verifyingKey := verifyingKey
  authorizedAt := now
  outcome := outcome

def decide [Crypto] [ConsentJson] (r : SignedConsentRequest) (c : ConsentContext) (custodian : LocalKeyCustody)
    (now : CanonicalTime) : Except ConsentError ConsentDecision := do
  let verifyingKey ← authenticate r c.authority c.processor now
  let digest ← r.digest
  match c.prior, r.command with
  | some prior, _ => replay r prior digest verifyingKey
  | none, .inspect _ => inspect r c
  | none, _ => do
    let (response, outcome, grant) ← execute r c custodian now
    .ok ⟨response, some ⟨grant, receipt r digest verifyingKey now outcome⟩⟩

end ConsentService
end CsMail
